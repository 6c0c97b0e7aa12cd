/-
  ThisConnect.Session.Enders
  **DISCONNECTS AND LOSS HANDLERS, AND THE WHOLE SYSTEM.**
-/
import ThisConnect.Session.Invariant

namespace ThisConnect.Session

open Function (update)

/-! ## §1. The tasks that end sessions. -/

variable {s d : Nat}

section Enders

variable {w w' : World} {slot slot' : Slot} {c : Claim}

theorem Held.reslot (h : Held w slot) (hactive : w'.active = w.active)
    (hattempts : w'.attempts = w.attempts) (hnext : w'.next = w.next)
    (hcancel : w'.cancelTo = w.cancelTo) (hlistener : w'.listener = w.listener)
    (hholds : slot'.holds = slot.holds) (hoccupant : slot'.occupant = slot.occupant)
    (hrole : slot'.role = slot.role) (hcell : slot'.CellOk w'.cell) : Held w' slot' where
  cell := hcell
  active := by rw [hactive, hholds]; exact h.active
  future := by rw [hattempts, hnext]; exact h.future
  cancelTo := by rw [hcancel, hnext]; exact h.cancelTo
  occupant := by rw [hoccupant, hnext]; exact h.occupant
  role := by rw [hrole, hattempts, hnext]; exact h.role
  unwatched := by rw [hattempts]; exact h.unwatched
  listener := by rw [hlistener, hoccupant, hattempts]; exact h.listener

theorem Rel.claims_own (h : Rel w slot) (hslot : ∀ c', slot.claim = some c' → c' = c)
    (hslot' : ∀ c', slot'.claim = some c' → c' = c)
    (hothers : ∀ c', c' ≠ c → w'.ender c' = w.ender c') (hown : slot'.ClaimOk c (w'.ender c)) :
    ∀ c', slot'.ClaimOk c' (w'.ender c') := by
  intro c'
  by_cases hc : c' = c
  · exact hc ▸ hown
  · have hidle : w.ender c' = none := by
      have hclaim := h.claims c'
      cases he : w.ender c' with
      | none => rfl
      | some e =>
        rw [he] at hclaim
        exact absurd (hslot c' hclaim.1) hc
    rw [hothers c' hc, hidle]
    exact fun hclaim => hc (hslot' c' hclaim)

variable {b k : Nat} {final : SessionState} {r : World × Option Ender} {snapshot : Snapshot}

theorem Held.take (h : Held w (.serving k (some c))) :
    Held ({ w with active := none }.setAttempt k
      { w.attempts k with teardown := .running b .stop }) (.closing c (some k)) := by
  have hnext : k + 1 = w.next := h.occupant k rfl
  have hserving : (Role.serving).Ok (w.attempts k) := by
    have hrole := h.role k (by omega)
    simpa [Slot.role] using hrole
  refine ⟨h.cell, rfl, ?_, h.cancelTo, h.occupant, ?_, ?_, ?_⟩
  · exact (Function.forall_update_iff w.attempts fun j a => w.next ≤ j → a = {}).mpr
      ⟨fun hk => by omega, fun j _ => h.future j⟩
  · refine (Function.forall_update_iff w.attempts fun j a => j < w.next →
      ((Slot.closing c (some k)).role j).Ok a).mpr ⟨fun _ => ?_, fun j hjk hj => ?_⟩
    · simpa [Slot.role, Role.Ok] using hserving.1
    · simpa [Slot.role, hjk] using h.role j hj
  · exact (Function.forall_update_iff w.attempts fun _ a =>
      a.pc ≠ .live → a.supervisor = .none).mpr ⟨h.unwatched k, fun j _ => h.unwatched j⟩
  · intro j hj
    obtain ⟨hocc, hexposes, _⟩ := h.listener j hj
    refine ⟨hocc, ?_⟩
    injection hocc with hocc
    subst hocc
    simp [World.setAttempt, hexposes, Teardown.beforeStop]

theorem Held.ender (h : Held w slot) (hclaim : slot.claim = some c) {ender : Ender}
    (hok : slot.EnderOk ender) (hgap : ender = .taking → ∀ k d, slot ≠ .committed k d)
    (hfinal : final = .disconnected ∨ final = .failed)
    (hstep : enderStep w b final snapshot ender = some r) :
    ∃ slot', Held r.1 slot' ∧ slot'.ClaimOk c r.2 ∧ ∀ c', slot'.claim = some c' → c' = c := by
  have hclosed (ender : Ender) (hender : ender ≠ .taking) (hok : slot.EnderOk ender)
      (hnot : ∀ k, slot ≠ .closing c (some k)) : slot = .closing c none := by
    cases slot with
    | free => exact absurd hok id
    | trying k => exact absurd hok id
    | committed k d => exact absurd hok hender
    | serving k c' => exact absurd hok hender
    | clearing c' => exact absurd hok hender
    | closing c' session =>
      cases hclaim
      cases session with
      | none => rfl
      | some k => exact absurd rfl (hnot k)
  have hsole : ∀ c' : Claim, some c = some c' → c' = c := fun c' hc => by
    injection hc with hc
    exact hc.symm
  cases ender with
  | taking =>
    cases slot with
    | free => exact absurd hok id
    | trying k => exact absurd hok id
    | committed k d => exact absurd rfl (hgap rfl k d)
    | serving k c' =>
      cases hclaim
      have hactive : w.active = some k := h.active
      simp only [enderStep, hactive] at hstep
      cases hstep
      exact ⟨.closing c (some k), h.take, ⟨rfl, rfl⟩, hsole⟩
    | clearing c' =>
      cases hclaim
      have hactive : w.active = none := h.active
      simp only [enderStep, hactive] at hstep
      cases hstep
      exact ⟨.closing c none, h.reslot rfl rfl rfl rfl rfl rfl rfl rfl h.cell,
        ⟨rfl, by simp [Slot.EnderOk]⟩, hsole⟩
    | closing c' session =>
      cases session with
      | none => exact absurd rfl hok
      | some k => exact absurd hok (by simp [Slot.EnderOk])
  | tearing j =>
    simp only [enderStep] at hstep
    obtain ⟨hfinished, ⟨⟩⟩ := some_of_guard hstep
    -- while the slot still shows the session its teardown runs
    have hslot := hclosed _ (by simp) hok fun k hk => by
      subst hk
      have hkj : Ender.tearing j = .tearing k := hok
      cases hkj
      have hnext : j + 1 = w.next := h.occupant j rfl
      have hrole := h.role j (by omega)
      simp [Slot.role, Role.Ok, hfinished] at hrole
    subst hslot
    exact ⟨.closing c none, h, ⟨rfl, by simp [Slot.EnderOk]⟩, hsole⟩
  | noting =>
    have hslot := hclosed _ (by simp) hok fun k hk => by
      subst hk
      exact absurd hok (by simp [Slot.EnderOk])
    subst hslot
    cases hstep
    exact ⟨.closing c none, h.reslot rfl rfl rfl rfl rfl rfl rfl rfl h.cell,
      ⟨rfl, by simp [Slot.EnderOk]⟩, hsole⟩
  | forcing =>
    have hslot := hclosed _ (by simp) hok fun k hk => by
      subst hk
      exact absurd hok (by simp [Slot.EnderOk])
    subst hslot
    cases hstep
    exact ⟨.free, h.reslot (by simp) (by simp) (by simp) (by simp) (by simp) rfl rfl rfl
      (by simpa [Slot.CellOk] using hfinal), by simp [Slot.ClaimOk, Slot.claim],
      fun c' hc => absurd hc (by simp [Slot.claim])⟩

theorem enderStep_frame {ender : Ender} (hstep : enderStep w b final snapshot ender = some r) :
    r.1.disconnects = w.disconnects ∧ r.1.nextDisconnect = w.nextDisconnect ∧
      r.1.capture = w.capture ∧
      ∀ s, ∃ teardown, r.1.attempts s = { w.attempts s with teardown } := by
  unfold enderStep at hstep
  split at hstep
  · split at hstep
    · next j _ =>
      cases hstep
      exact ⟨rfl, rfl, rfl, (Function.forall_update_iff w.attempts fun s a =>
        ∃ teardown, a = { w.attempts s with teardown }).mpr ⟨⟨_, rfl⟩, fun _ _ => ⟨_, rfl⟩⟩⟩
    · cases hstep
      exact ⟨rfl, rfl, rfl, fun _ => ⟨_, rfl⟩⟩
  · obtain ⟨_, ⟨⟩⟩ := some_of_guard hstep
    exact ⟨rfl, rfl, rfl, fun _ => ⟨_, rfl⟩⟩
  · cases hstep
    exact ⟨rfl, rfl, rfl, fun _ => ⟨_, rfl⟩⟩
  · cases hstep
    refine ⟨by simp, by simp, by simp, fun s => ⟨(w.attempts s).teardown, ?_⟩⟩
    rw [publish_attempts]

theorem enderStep_ender {ender : Ender} (hstep : enderStep w b final snapshot ender = some r) :
    r.1.ender = w.ender := by
  obtain ⟨hdisconnects, _, _, hattempts⟩ := enderStep_frame hstep
  refine ender_congr hdisconnects fun s => ?_
  obtain ⟨_, hs⟩ := hattempts s
  rw [hs]

theorem Disconnect.ender_after (e : Option Ender) : (Disconnect.after e).ender = e := by
  cases e <;> rfl

theorem Supervisor.ender_after (reason : LossReason) (e : Option Ender) :
    (Supervisor.after reason e).ender = e := by
  cases e <;> rfl

theorem Held.setDisconnect (h : Held w slot) (d : Nat) (p : Disconnect) :
    Held (w.setDisconnect d p) slot :=
  ⟨h.cell, h.active, h.future, h.cancelTo, h.occupant, h.role, h.unwatched, h.listener⟩

theorem Held.setSupervisor (h : Held w slot) (hlive : (w.attempts s).pc = .live) (p : Supervisor) :
    Held (w.setAttempt s { w.attempts s with supervisor := p }) slot := by
  have hlt : s < w.next := h.lt_next (by simp [hlive])
  refine ⟨h.cell, h.active, ?_, h.cancelTo, h.occupant, ?_, ?_, ?_⟩
  · exact (Function.forall_update_iff w.attempts fun j a => w.next ≤ j → a = {}).mpr
      ⟨fun hs => by omega, fun j _ => h.future j⟩
  · exact (Function.forall_update_iff w.attempts fun j a => j < w.next →
      (slot.role j).Ok a).mpr
      ⟨fun hs => (h.role s hs).congr rfl rfl rfl rfl rfl rfl, fun j _ => h.role j⟩
  · exact (Function.forall_update_iff w.attempts fun _ a =>
      a.pc ≠ .live → a.supervisor = .none).mpr
      ⟨fun hpc => absurd hlive hpc, fun j _ => h.unwatched j⟩
  · exact (Function.forall_update_iff w.attempts fun j a => w.listener = some j →
      slot.occupant = some j ∧ a.pc.exposes = true ∧ a.teardown.beforeStop = true).mpr
      ⟨h.listener s, fun j _ => h.listener j⟩

theorem Rel.lt_nextDisconnect (h : Rel w slot) (hd : w.disconnects d ≠ .none) :
    d < w.nextDisconnect := by
  by_contra hge
  exact hd (h.futureDisconnect d (by omega))

theorem futureDisconnect_set (h : Rel w slot) (hd : d < w.nextDisconnect) (p : Disconnect) :
    ∀ d', w.nextDisconnect ≤ d' → update w.disconnects d p d' = .none := by
  intro d' hd'
  have hne : d' ≠ d := by omega
  rw [Function.update_of_ne hne]
  exact h.futureDisconnect d' hd'

theorem rel_disconnectEnd (h : Rel w slot) (horderly : Orderly w (.disconnectEnd d))
    (hstep : disconnectEndStep w d = some w') : ∃ slot', Rel w' slot' := by
  unfold disconnectEndStep at hstep
  split at hstep
  · next ender hd =>
    obtain ⟨r, hr, rfl⟩ := Option.map_eq_some_iff.mp hstep
    obtain ⟨hdisconnects, hnd, _⟩ := enderStep_frame hr
    have hender : w.ender (.disconnect d) = some ender := by
      simp [World.ender, hd, Disconnect.ender]
    have hclaim := h.claims (.disconnect d)
    rw [hender] at hclaim
    -- the slot is not in the publishing gap: some attempt would be at the pcs excluded
    have hgap : ender = .taking → ∀ k e, slot ≠ .committed k e := by
      rintro rfl k e rfl
      have hnext : k + 1 = w.next := h.occupant k rfl
      have hrole := h.role k (by omega)
      simp only [Slot.role, if_true] at hrole
      obtain ⟨hcommitted, hnoted⟩ := horderly hd k (by omega)
      exact hrole.1.elim hcommitted hnoted
    obtain ⟨slot', hheld, hown, hsole⟩ := h.toHeld.ender hclaim.1 hclaim.2 hgap (.inl rfl) hr
    refine ⟨slot', hheld.setDisconnect d _, ?_, ?_⟩
    · refine h.claims_own (c := .disconnect d) ?_ hsole ?_ ?_
      · intro c' hc'
        rw [hclaim.1] at hc'
        injection hc' with hc'
        exact hc'.symm
      · intro c' hne
        rw [ender_setDisconnect _ _ hne, enderStep_ender hr]
      · simpa [World.ender, World.setDisconnect, Disconnect.ender_after] using hown
    · have hlt : d < w.nextDisconnect := h.lt_nextDisconnect (by simp [hd])
      show ∀ d', r.1.nextDisconnect ≤ d' → update r.1.disconnects d _ d' = .none
      rw [hnd, hdisconnects]
      exact futureDisconnect_set h hlt _
  · cases hstep

theorem Held.live_of_supervisor (h : Held w slot) (hs : (w.attempts s).supervisor ≠ .none) :
    (w.attempts s).pc = .live := by
  by_contra hpc
  exact hs (h.unwatched s hpc)

theorem rel_lossEnd (h : Rel w slot) (hstep : lossEndStep w s = some w') :
    ∃ slot', Rel w' slot' := by
  unfold lossEndStep at hstep
  split at hstep
  · next reason ender hs =>
    obtain ⟨r, hr, rfl⟩ := Option.map_eq_some_iff.mp hstep
    obtain ⟨hdisconnects, hnd, _, hattempts⟩ := enderStep_frame hr
    obtain ⟨_, hs'⟩ := hattempts s
    have hlive : (w.attempts s).pc = .live := h.live_of_supervisor (by simp [hs])
    have hender : w.ender (.loss s) = some ender := by simp [World.ender, hs, Supervisor.ender]
    have hclaim := h.claims (.loss s)
    rw [hender] at hclaim
    have hgap : ender = .taking → ∀ k e, slot ≠ .committed k e := by
      rintro - k e rfl
      exact absurd hclaim.1 (by cases e <;> simp [Slot.claim])
    obtain ⟨slot', hheld, hown, hsole⟩ := h.toHeld.ender hclaim.1 hclaim.2 hgap (.inr rfl) hr
    refine ⟨slot', hheld.setSupervisor (by rw [hs']; exact hlive) _, ?_, ?_⟩
    · refine h.claims_own (c := .loss s) ?_ hsole ?_ ?_
      · intro c' hc'
        rw [hclaim.1] at hc'
        injection hc' with hc'
        exact hc'.symm
      · intro c' hne
        rw [ender_setAttempt _ _ hne, enderStep_ender hr]
      · simpa [World.ender, World.setAttempt, Supervisor.ender_after] using hown
    · show ∀ d, r.1.nextDisconnect ≤ d → r.1.disconnects d = .none
      rw [hnd, hdisconnects]
      exact h.futureDisconnect
  · cases hstep

theorem Held.slot_of_active (h : Held w slot) (hactive : w.active = some k)
    (hcell : w.cell = .connected) : slot = .serving k none := by
  have hholds : slot.holds = some k := h.active.symm.trans hactive
  have hok := h.cell
  rw [hcell] at hok
  cases slot with
  | serving i c =>
    injection hholds with hik
    subst hik
    cases c with
    | none => rfl
    | some c => exact absurd hok (by simp [Slot.CellOk])
  | _ => exact absurd hholds (by simp [Slot.holds])

theorem Held.slot_of_isFree (h : Held w slot) (hcell : w.cell.isFree = true) : slot = .free := by
  have hok := h.cell
  cases slot with
  | free => rfl
  | trying k => rcases hok with hc | hc | hc <;> simp [hc, SessionState.isFree] at hcell
  | committed k d =>
    cases d <;> (simp only [Slot.CellOk] at hok; simp [hok, SessionState.isFree] at hcell)
  | serving k c =>
    cases c <;> (simp only [Slot.CellOk] at hok; simp [hok, SessionState.isFree] at hcell)
  | clearing c => simp only [Slot.CellOk] at hok; simp [hok, SessionState.isFree] at hcell
  | closing c k => simp only [Slot.CellOk] at hok; simp [hok, SessionState.isFree] at hcell

theorem rel_loss {reason : LossReason} (h : Rel w slot) (horderly : Orderly w (.loss s reason))
    (hstep : lossStep w s reason = some w') : ∃ slot', Rel w' slot' := by
  unfold lossStep at hstep
  split at hstep
  · next hs =>
    cases hstep
    have hlive : (w.attempts s).pc = .live := h.live_of_supervisor (by simp [hs])
    -- either way the slot is unclaimed and takes this claim
    obtain ⟨slot', hclaim, hunclaimed, htaking, hheld⟩ : ∃ slot' : Slot,
        slot'.claim = some (.loss s) ∧ slot.claim = none ∧ slot'.EnderOk .taking ∧
          Held (w.publish .disconnecting s) slot' := by
      rcases horderly with ⟨hcell, hactive⟩ | hfree
      · have hslot := h.slot_of_active hactive hcell
        subst hslot
        exact ⟨.serving s (some (.loss s)), rfl, rfl, rfl,
          h.reslot (by simp) (by simp) (by simp) (by simp) (by simp) rfl rfl rfl
            (by simp [Slot.CellOk])⟩
      · have hslot := h.slot_of_isFree hfree
        subst hslot
        exact ⟨.clearing (.loss s), rfl, rfl, rfl,
          h.reslot (by simp) (by simp) (by simp) (by simp) (by simp) rfl rfl rfl
            (by simp [Slot.CellOk])⟩
    have hset := hheld.setSupervisor (s := s) (by simpa using hlive) (.ending reason .taking)
    rw [publish_attempts] at hset
    refine ⟨slot', hset, ?_, ?_⟩
    · refine h.claims_own (c := .loss s) ?_ ?_ ?_ ?_
      · intro c' hc'
        rw [hunclaimed] at hc'
        cases hc'
      · intro c' hc'
        rw [hclaim] at hc'
        injection hc' with hc'
        exact hc'.symm
      · intro c' hne
        rw [ender_setAttempt _ _ hne, publish_ender]
      · simpa [World.ender, World.setAttempt, Supervisor.ender, Slot.ClaimOk] using
          ⟨hclaim, htaking⟩
    · simpa [World.setAttempt] using h.futureDisconnect
  · cases hstep

theorem rel_sendCancel (h : Rel w slot) : Rel w.sendCancel slot := by
  unfold World.sendCancel
  split
  · next j hj =>
    exact h.mark (h.cancelTo j hj) ⟨rfl, rfl, rfl, fun _ => .inl⟩ rfl rfl rfl rfl rfl rfl rfl
      fun _ hok => hok.congr rfl rfl rfl rfl rfl rfl
  · exact h

theorem sendCancel_disconnects (w : World) : w.sendCancel.disconnects = w.disconnects := by
  unfold World.sendCancel
  split <;> rfl

theorem ender_signalled {previous : SessionState} (hd : w.disconnects d = .signalling previous) :
    (w.setDisconnect d (if previous.inFlight then .done else .ending .taking)).ender =
      w.ender := by
  funext c
  by_cases hc : c = .disconnect d
  · subst hc
    cases hin : previous.inFlight <;>
      simp [World.ender, World.setDisconnect, hd, Disconnect.ender, hin]
  · exact ender_setDisconnect _ _ hc

theorem rel_signal (h : Rel w slot) (hstep : signalStep w d = some w') : ∃ slot', Rel w' slot' := by
  unfold signalStep at hstep
  split at hstep
  · next previous hd =>
    cases hstep
    have hc := rel_sendCancel h
    have hdc : w.sendCancel.disconnects d = .signalling previous := by
      rw [sendCancel_disconnects, hd]
    refine ⟨slot, hc.setDisconnect d _, ?_, ?_⟩
    · rw [ender_signalled hdc]
      exact hc.claims
    · exact futureDisconnect_set hc (hc.lt_nextDisconnect (by simp [hdc])) _
  · cases hstep

def Slot.disconnectedBy (d : Nat) : Slot → Slot
  | .free => .clearing (.disconnect d)
  | .committed k none => .committed k (some d)
  | .serving k none => .serving k (some (.disconnect d))
  | slot => slot

theorem Held.disconnectedBy (h : Held w slot) {state : SessionState} (d : Nat)
    (hbegin : w.cell.beginDisconnect = .ok state) :
    state = .disconnecting ∧ slot.claim = none ∧ (slot.disconnectedBy d).CellOk .disconnecting ∧
      (slot.disconnectedBy d).holds = slot.holds ∧
      (slot.disconnectedBy d).occupant = slot.occupant ∧
      (slot.disconnectedBy d).role = slot.role ∧
      (slot.disconnectedBy d).ClaimOk (.disconnect d) (Disconnect.signalling w.cell).ender ∧
      ∀ c, (slot.disconnectedBy d).claim = some c → c = .disconnect d := by
  have hok := h.cell
  cases slot with
  | free =>
    rcases hok with hc | hc
    · simp [hc, SessionState.beginDisconnect, SessionState.isBusy] at hbegin
    · simp only [hc] at hbegin ⊢
      cases hbegin
      exact ⟨rfl, rfl, rfl, rfl, rfl, rfl, ⟨rfl, rfl⟩, fun c hc => by cases hc; rfl⟩
  | trying k =>
    rcases hok with hc | hc | hc
    · simp only [hc] at hbegin ⊢
      cases hbegin
      exact ⟨rfl, rfl, .inr (.inr rfl), rfl, rfl, rfl, (fun hc => by cases hc),
        fun c hc => by cases hc⟩
    · simp only [hc] at hbegin ⊢
      cases hbegin
      exact ⟨rfl, rfl, .inr (.inr rfl), rfl, rfl, rfl, (fun hc => by cases hc),
        fun c hc => by cases hc⟩
    · simp [hc, SessionState.beginDisconnect, SessionState.isBusy] at hbegin
  | committed k e =>
    cases e with
    | none =>
      have hc : w.cell = .connected := hok
      simp only [hc] at hbegin ⊢
      cases hbegin
      exact ⟨rfl, rfl, rfl, rfl, rfl, rfl, ⟨rfl, rfl⟩, fun c hc => by cases hc; rfl⟩
    | some e =>
      have hc : w.cell = .disconnecting := hok
      simp [hc, SessionState.beginDisconnect, SessionState.isBusy] at hbegin
  | serving k c =>
    cases c with
    | none =>
      have hc : w.cell = .connected := hok
      simp only [hc] at hbegin ⊢
      cases hbegin
      exact ⟨rfl, rfl, rfl, rfl, rfl, rfl, ⟨rfl, rfl⟩, fun c hc => by cases hc; rfl⟩
    | some c =>
      have hc : w.cell = .disconnecting := hok
      simp [hc, SessionState.beginDisconnect, SessionState.isBusy] at hbegin
  | clearing c =>
    have hc : w.cell = .disconnecting := hok
    simp [hc, SessionState.beginDisconnect, SessionState.isBusy] at hbegin
  | closing c k =>
    have hc : w.cell = .disconnecting := hok
    simp [hc, SessionState.beginDisconnect, SessionState.isBusy] at hbegin

theorem rel_disconnect (h : Rel w slot) (hstep : step w .disconnect = some w') :
    ∃ slot', Rel w' slot' := by
  simp only [step] at hstep
  split at hstep
  · next state hbegin =>
    cases hstep
    obtain ⟨rfl, hunclaimed, hcell, hholds, hoccupant, hrole, hown, hsole⟩ :=
      h.disconnectedBy w.nextDisconnect hbegin
    refine ⟨slot.disconnectedBy w.nextDisconnect, ?_, ?_, ?_⟩
    · exact h.reslot (by simp [World.setDisconnect]) (by simp [World.setDisconnect])
        (by simp [World.setDisconnect]) (by simp [World.setDisconnect])
        (by simp [World.setDisconnect]) hholds hoccupant hrole
        (by simpa [World.setDisconnect] using hcell)
    · refine h.claims_own (fun c' hc' => ?_) hsole ?_ ?_
      · rw [hunclaimed] at hc'
        cases hc'
      · exact fun c' hne => (ender_setDisconnect _ _ hne).trans (congrFun (publish_ender _) c')
      · simpa [World.ender, World.setDisconnect] using hown
    · intro d hd
      have hlt : w.nextDisconnect + 1 ≤ d := hd
      have hne : d ≠ w.nextDisconnect := by omega
      simp only [World.setDisconnect, publish_disconnects, Function.update_of_ne hne]
      exact h.futureDisconnect d (by omega)
  · cases hstep
    exact ⟨slot, h⟩

end Enders

/-! ## §2. Every step. -/

section Steps

variable {w w' : World} {slot : Slot}

theorem ender_claimed (hfresh : w.attempts w.next = {}) :
    ({ w.publish .connecting w.next with next := w.next + 1 }.setAttempt w.next
      { pc := .claimed }).ender = w.ender :=
  ender_update (k := w.next) (a := { pc := .claimed }) (by simp [World.setAttempt])
    (by simp [World.setAttempt]) (by rw [hfresh])

theorem rel_connect (h : Rel w slot) (hstep : step w .connect = some w') :
    ∃ slot', Rel w' slot' := by
  simp only [step] at hstep
  split at hstep
  · next state hbegin =>
    cases hstep
    have hfresh : w.attempts w.next = {} := h.future w.next (Nat.le_refl _)
    obtain ⟨hfree, rfl⟩ : w.cell.isFree = true ∧ state = .connecting := by
      cases hc : w.cell <;> rw [hc] at hbegin <;> cases hbegin <;> exact ⟨rfl, rfl⟩
    have hslot := h.slot_of_isFree hfree
    subst hslot
    refine ⟨.trying w.next, ⟨?_, ?_, ?_, ?_, ?_, ?_, ?_, ?_⟩, ?_, ?_⟩
    · exact .inl (by simp [World.setAttempt])
    · simpa [World.setAttempt, Slot.holds] using h.active
    · simp only [World.setAttempt, publish_attempts]
      exact (Function.forall_update_iff w.attempts fun j a => w.next + 1 ≤ j → a = {}).mpr
        ⟨fun hn => by omega, fun j _ hj => h.future j (by omega)⟩
    · intro j hj
      have hlt := h.cancelTo j (by simpa [World.setAttempt] using hj)
      show j < w.next + 1
      omega
    · intro j hj
      injection hj with hj
      rw [← hj]
      rfl
    · intro j hj
      have hlt : j < w.next + 1 := hj
      by_cases hjn : j = w.next
      · simp [hjn, World.setAttempt, Slot.role, Role.Ok, Attempt.Trying]
      · have hrole := h.role j (by omega)
        simpa [World.setAttempt, Slot.role, hjn] using hrole
    · intro j
      by_cases hjn : j = w.next
      · simp [hjn, World.setAttempt]
      · simpa [World.setAttempt, hjn] using h.unwatched j
    · intro j hj
      have hocc := (h.listener j (by simpa [World.setAttempt] using hj)).1
      exact absurd hocc (by simp [Slot.occupant])
    · intro c
      have hclaim := h.claims c
      rw [ender_claimed hfresh]
      cases he : w.ender c with
      | none => exact fun hc => absurd hc (by simp [Slot.claim])
      | some e =>
        rw [he] at hclaim
        exact absurd hclaim.1 (by simp [Slot.claim])
    · simpa [World.setAttempt] using h.futureDisconnect
  · cases hstep
    exact ⟨slot, h⟩

theorem rel_step {a : Act} (h : Rel w slot) (horderly : Orderly w a)
    (hstep : step w a = some w') : ∃ slot', Rel w' slot' := by
  cases a with
  | connect => exact rel_connect h hstep
  | attempt k move => exact rel_attempt h hstep
  | push k =>
    simp only [step] at hstep
    obtain ⟨_, ⟨⟩⟩ := some_of_guard hstep
    exact ⟨slot, h.reslot rfl rfl rfl rfl rfl rfl rfl rfl h.cell, h.claims, h.futureDisconnect⟩
  | tear k => exact rel_tear h hstep
  | expire k => exact rel_expire h hstep
  | remove k => exact rel_remove h hstep
  | disconnect => exact rel_disconnect h hstep
  | signal d => exact rel_signal h hstep
  | disconnectEnd d => exact rel_disconnectEnd h horderly hstep
  | bytes s bytesIn bytesOut =>
    simp only [step] at hstep
    split at hstep
    · cases hstep
      exact ⟨slot, h.reslot rfl rfl rfl rfl rfl rfl rfl rfl h.cell, h.claims, h.futureDisconnect⟩
    · cases hstep
  | loss s reason => exact rel_loss h horderly hstep
  | lossEnd s => exact rel_lossEnd h hstep

theorem rel_of_reachable (h : Transition.Reachable step Orderly World.start w) :
    ∃ slot, Rel w slot := by
  refine h.invariant (I := fun w => ∃ slot, Rel w slot) ⟨.free, rel_start⟩ ?_
  rintro w a w' ⟨slot, hrel⟩ horderly hstep
  exact rel_step hrel horderly hstep

end Steps

end ThisConnect.Session
