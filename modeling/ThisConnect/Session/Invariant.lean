/-
  ThisConnect.Session.Invariant
  **CONNECT CALLS AND TEARDOWNS KEEP THE SLOT WITH ONE HOLDER.**
-/
import ThisConnect.Session.Slot

namespace ThisConnect.Session

open Function (update)

/-! ## §1. Reading updates back. -/

section Updates

variable (w : World) (state : SessionState) (k : Nat)

@[simp] theorem publish_cell : (w.publish state k).cell = state := by
  unfold World.publish
  split
  · assumption
  · rfl

@[simp] theorem publish_active : (w.publish state k).active = w.active := by
  unfold World.publish; split <;> rfl

@[simp] theorem publish_cancelTo : (w.publish state k).cancelTo = w.cancelTo := by
  unfold World.publish; split <;> rfl

@[simp] theorem publish_listener : (w.publish state k).listener = w.listener := by
  unfold World.publish; split <;> rfl

@[simp] theorem publish_next : (w.publish state k).next = w.next := by
  unfold World.publish; split <;> rfl

@[simp] theorem publish_attempts : (w.publish state k).attempts = w.attempts := by
  unfold World.publish; split <;> rfl

@[simp] theorem publish_nextDisconnect :
    (w.publish state k).nextDisconnect = w.nextDisconnect := by
  unfold World.publish; split <;> rfl

@[simp] theorem publish_disconnects : (w.publish state k).disconnects = w.disconnects := by
  unfold World.publish; split <;> rfl

@[simp] theorem publish_installed : (w.publish state k).installed = w.installed := by
  unfold World.publish; split <;> rfl

@[simp] theorem publish_prompts : (w.publish state k).prompts = w.prompts := by
  unfold World.publish; split <;> rfl

@[simp] theorem publish_capture : (w.publish state k).capture = w.capture := by
  unfold World.publish; split <;> rfl

@[simp] theorem publish_behalf : (w.publish state k).behalf = w.behalf := by
  unfold World.publish; split <;> rfl

@[simp] theorem publish_status : (w.publish state k).status = w.status := by
  unfold World.publish; split <;> rfl

theorem publish_setBy : ((w.publish state k).cell = w.cell ∧ (w.publish state k).setBy = w.setBy) ∨
    (w.publish state k).setBy = some k := by
  unfold World.publish
  split
  · exact .inl ⟨rfl, rfl⟩
  · exact .inr rfl

theorem publish_setAttempt_attempts {w : World} {k : Nat} (state : SessionState) (a : Attempt) :
    ((w.publish state k).setAttempt k a).attempts = update w.attempts k a := by
  simp [World.setAttempt]

end Updates

section Enders

variable {w w' : World} {c : Claim} {a : Attempt} {k s d : Nat}

theorem ender_congr (hdisconnects : w'.disconnects = w.disconnects)
    (hsupervisor : ∀ s, (w'.attempts s).supervisor.ender = (w.attempts s).supervisor.ender) :
    w'.ender = w.ender := by
  funext c
  cases c with
  | disconnect d => simp only [World.ender, hdisconnects]
  | loss s => exact hsupervisor s

theorem ender_update (hdisconnects : w'.disconnects = w.disconnects)
    (hattempts : w'.attempts = update w.attempts k a)
    (hender : a.supervisor.ender = (w.attempts k).supervisor.ender) : w'.ender = w.ender := by
  refine ender_congr hdisconnects ?_
  rw [hattempts]
  exact (Function.forall_update_iff w.attempts fun s a =>
    a.supervisor.ender = (w.attempts s).supervisor.ender).mpr ⟨hender, fun _ _ => rfl⟩

@[simp] theorem publish_ender (state : SessionState) : (w.publish state k).ender = w.ender :=
  ender_congr (publish_disconnects w state k) fun _ => by rw [publish_attempts]

theorem ender_setDisconnect (w : World) (p : Disconnect) (hc : c ≠ .disconnect d) :
    (w.setDisconnect d p).ender c = w.ender c := by
  cases c with
  | disconnect d' =>
    have hne : d' ≠ d := fun heq => hc (by rw [heq])
    simp only [World.ender, World.setDisconnect, Function.update_of_ne hne]
  | loss s => rfl

theorem ender_setAttempt (w : World) (a : Attempt) (hc : c ≠ .loss s) :
    (w.setAttempt s a).ender c = w.ender c := by
  cases c with
  | disconnect d => rfl
  | loss s' =>
    have hne : s' ≠ s := fun heq => hc (by rw [heq])
    simp only [World.ender, World.setAttempt, Function.update_of_ne hne]

end Enders

/-! ## §2. The frame rule. -/

structure Frame (w w' : World) : Prop where
  next : w'.next = w.next
  nextDisconnect : w'.nextDisconnect = w.nextDisconnect
  disconnects : w'.disconnects = w.disconnects
  cancelTo : ∀ j, w'.cancelTo = some j → w.cancelTo = some j ∨ j < w.next

theorem Frame.publish (w : World) (state : SessionState) (k : Nat) (a : Attempt) :
    Frame w ((w.publish state k).setAttempt k a) where
  next := by simp [World.setAttempt]
  nextDisconnect := by simp [World.setAttempt]
  disconnects := by simp [World.setAttempt]
  cancelTo := fun j hj => .inl (by simpa [World.setAttempt] using hj)

structure Slot.Passes (slot slot' : Slot) (k : Nat) : Prop where
  claim : slot'.claim = slot.claim
  ender : ∀ e, slot.EnderOk e → slot'.EnderOk e
  occupant : ∀ j, slot'.occupant = some j → slot.occupant = some j
  role : ∀ j, j ≠ k → slot'.role j = slot.role j

theorem Slot.Passes.refl (slot : Slot) (k : Nat) : slot.Passes slot k where
  claim := rfl
  ender := fun _ h => h
  occupant := fun _ h => h
  role := fun _ _ => rfl

theorem Slot.Passes.claimOk {slot slot' : Slot} {k : Nat} (h : slot.Passes slot' k) {c : Claim}
    {e : Option Ender} (hok : slot.ClaimOk c e) : slot'.ClaimOk c e := by
  cases e with
  | some ender => exact ⟨h.claim.trans hok.1, h.ender ender hok.2⟩
  | none => exact fun hc => hok (h.claim.symm.trans hc)

section Move

variable {w w' : World} {slot slot' : Slot} {k : Nat} {a : Attempt}

theorem Rel.move (h : Rel w slot) (hk : k < w.next) (hframe : Frame w w')
    (hattempts : w'.attempts = update w.attempts k a) (hpasses : slot.Passes slot' k)
    (hcell : slot'.CellOk w'.cell) (hactive : w'.active = slot'.holds)
    (hrole : (slot'.role k).Ok a) (hunwatched : a.pc ≠ .live → a.supervisor = .none)
    (hender : a.supervisor.ender = (w.attempts k).supervisor.ender)
    (hlistener : ∀ j, w'.listener = some j → slot'.occupant = some j ∧
      (w'.attempts j).pc.exposes = true ∧ (w'.attempts j).teardown.beforeStop = true) :
    Rel w' slot' where
  cell := hcell
  active := hactive
  future := by
    rw [hframe.next, hattempts]
    exact (Function.forall_update_iff w.attempts fun j a => w.next ≤ j → a = {}).mpr
      ⟨fun hj => by omega, fun j _ => h.future j⟩
  cancelTo := by
    intro j hj
    rw [hframe.next]
    exact (hframe.cancelTo j hj).elim (h.cancelTo j) id
  occupant := by
    intro j hj
    rw [hframe.next]
    exact h.occupant j (hpasses.occupant j hj)
  role := by
    rw [hframe.next, hattempts]
    refine (Function.forall_update_iff w.attempts fun j a => j < w.next → (slot'.role j).Ok a).mpr
      ⟨fun _ => hrole, fun j hjk hj => ?_⟩
    rw [hpasses.role j hjk]
    exact h.role j hj
  unwatched := by
    rw [hattempts]
    exact (Function.forall_update_iff w.attempts fun _ a => a.pc ≠ .live → a.supervisor = .none).mpr
      ⟨hunwatched, fun j _ => h.unwatched j⟩
  listener := hlistener
  claims := by
    rw [ender_update hframe.disconnects hattempts hender]
    exact fun c => hpasses.claimOk (h.claims c)
  futureDisconnect := by
    rw [hframe.nextDisconnect, hframe.disconnects]
    exact h.futureDisconnect

theorem Rel.unwatched_of_keep (h : Rel w slot) (hlive : (w.attempts k).pc = .live → a.pc = .live)
    (hsame : a.supervisor = (w.attempts k).supervisor) : a.pc ≠ .live → a.supervisor = .none := by
  intro hpc
  rw [hsame]
  exact h.unwatched k fun hp => hpc (hlive hp)

theorem Rel.listener_keep (h : Rel w slot) (hlistener : w'.listener = w.listener)
    (hattempts : w'.attempts = update w.attempts k a)
    (hoccupant : ∀ j, slot.occupant = some j → slot'.occupant = some j)
    (hexposes : (w.attempts k).pc.exposes = true → (w.attempts k).teardown.beforeStop = true →
      a.pc.exposes = true ∧ a.teardown.beforeStop = true) :
    ∀ j, w'.listener = some j → slot'.occupant = some j ∧
      (w'.attempts j).pc.exposes = true ∧ (w'.attempts j).teardown.beforeStop = true := by
  intro j hj
  rw [hlistener] at hj
  obtain ⟨hocc, hpc, htd⟩ := h.listener j hj
  refine ⟨hoccupant j hocc, ?_⟩
  rw [hattempts]
  by_cases hjk : j = k
  · subst hjk
    rw [Function.update_self]
    exact hexposes hpc htd
  · rw [Function.update_of_ne hjk]
    exact ⟨hpc, htd⟩

end Move

/-! ## §3. Steps of a connect call. -/

section Connect

variable {w w' : World} {slot : Slot} {k : Nat} {a : Attempt}

theorem Rel.try_move (h : Rel w slot) (hpc : (w.attempts k).pc.isTrying = true)
    (hframe : Frame w w') (hattempts : w'.attempts = update w.attempts k a)
    (hcell : w'.cell = w.cell ∨ w'.cell = .authenticating) (hactive : w'.active = w.active)
    (htrying : (w.attempts k).Trying → a.Trying)
    (hsame : a.supervisor = (w.attempts k).supervisor)
    (hlistener : w'.listener = none ∨
      (w'.listener = some k ∧ a.pc.exposes = true ∧ a.teardown.beforeStop = true) ∨
      (w'.listener = w.listener ∧ ((w.attempts k).pc.exposes = true →
        (w.attempts k).teardown.beforeStop = true →
          a.pc.exposes = true ∧ a.teardown.beforeStop = true))) :
    ∃ slot', Rel w' slot' := by
  obtain ⟨rfl, hold, hnext⟩ := h.slot_of_trying hpc
  refine ⟨.trying k, h.move (by omega) hframe hattempts (.refl _ k) ?_ ?_ ?_ ?_ ?_ ?_⟩
  · rcases hcell with hc | hc
    · rw [hc]
      exact h.cell
    · exact .inr (.inl hc)
  · exact hactive.trans h.active
  · simpa [Slot.role, Role.Ok] using htrying hold
  · refine h.unwatched_of_keep (fun hp => ?_) hsame
    rw [hp] at hpc
    exact absurd hpc (by decide)
  · rw [hsame]
  · rcases hlistener with hl | ⟨hl, hexposes⟩ | ⟨hl, hexposes⟩
    · intro j hj
      rw [hl] at hj
      exact absurd hj (by simp)
    · intro j hj
      rw [hl] at hj
      injection hj with hj
      subst hj
      refine ⟨rfl, ?_⟩
      rw [hattempts, Function.update_self]
      exact hexposes
    · exact h.listener_keep hl hattempts (fun _ hj => hj) hexposes

theorem Rel.try_quiet (h : Rel w slot) (hpc : (w.attempts k).pc.isTrying = true)
    (hquiet : (w.attempts k).pc.exposes = false)
    (hframe : Frame w w') (hattempts : w'.attempts = update w.attempts k a)
    (hcell : w'.cell = w.cell ∨ w'.cell = .authenticating) (hactive : w'.active = w.active)
    (htrying : (w.attempts k).Trying → a.Trying)
    (hsame : a.supervisor = (w.attempts k).supervisor) (hlistener : w'.listener = w.listener) :
    ∃ slot', Rel w' slot' := by
  refine h.try_move hpc hframe hattempts hcell hactive htrying hsame (.inr (.inr ⟨hlistener, ?_⟩))
  intro hexposes
  rw [hquiet] at hexposes
  exact absurd hexposes (by decide)

theorem Rel.try_unwind (h : Rel w slot) (hpc : (w.attempts k).pc.isTrying = true)
    (error : SessionError) :
    ∃ slot', Rel (w.setAttempt k ((w.attempts k).unwind k error)) slot' := by
  refine h.try_move hpc ⟨rfl, rfl, rfl, fun _ => .inl⟩ rfl (.inl rfl) rfl ?_ rfl
    (.inr (.inr ⟨rfl, fun _ _ => ⟨rfl, rfl⟩⟩))
  intro _
  simp [Attempt.Trying, Attempt.unwind]

theorem Rel.commit (h : Rel w slot) (hpc : (w.attempts k).pc = .established) {state : SessionState}
    (hadvance : w.cell.advance .connected = .ok state) :
    ∃ slot',
      Rel ((w.publish state k).setAttempt k { w.attempts k with pc := .committed }) slot' := by
  obtain ⟨rfl, htrying, hnext⟩ := h.slot_of_trying (k := k) (by rw [hpc]; rfl)
  have htd : (w.attempts k).teardown = .none := by
    simpa [Attempt.Trying, hpc] using htrying
  have hstate : state = .connected := by
    rcases h.cell with hc | hc | hc <;>
      simp [hc, SessionState.advance, SessionState.permits] at hadvance <;> exact hadvance.symm
  subst hstate
  have hlt : k < w.next := by omega
  have hattempts := publish_setAttempt_attempts (w := w) (k := k) .connected
    { w.attempts k with pc := .committed }
  refine ⟨.committed k none, h.move hlt (.publish w _ k _) hattempts ?_ ?_ ?_ ?_ ?_ ?_ ?_⟩
  · exact ⟨rfl, fun _ he => absurd he id, fun _ hj => hj, fun j hj => by simp [Slot.role, hj]⟩
  · simp [World.setAttempt, Slot.CellOk]
  · simpa [World.setAttempt, Slot.holds] using h.active
  · simp [Slot.role, Role.Ok, htd]
  · exact h.unwatched_of_keep (by simp [hpc]) rfl
  · rfl
  · exact h.listener_keep (by simp [World.setAttempt]) hattempts (fun _ hj => hj)
      (fun _ hb => ⟨rfl, hb⟩)

theorem Rel.note (h : Rel w slot) (hpc : (w.attempts k).pc = .committed) (status : Snapshot) :
    ∃ slot', Rel ({ w with status }.setAttempt k { w.attempts k with pc := .noted }) slot' := by
  obtain ⟨c, rfl, htd, hnext⟩ := h.slot_of_committed (.inl hpc)
  refine ⟨.committed k c, h.move (by omega) ⟨rfl, rfl, rfl, fun _ => .inl⟩ rfl (.refl _ k) h.cell
    h.active ?_ (h.unwatched_of_keep (by simp [hpc]) rfl) rfl ?_⟩
  · simp [Slot.role, Role.Ok, htd]
  · exact h.listener_keep rfl rfl (fun _ hj => hj) (fun _ hb => ⟨rfl, hb⟩)

theorem Rel.store (h : Rel w slot) (hpc : (w.attempts k).pc = .noted) :
    w.active = none ∧ ∃ slot', Rel ({ w with active := some k }.setAttempt k
      { w.attempts k with pc := .stored }) slot' := by
  obtain ⟨c, rfl, htd, hnext⟩ := h.slot_of_committed (.inr hpc)
  refine ⟨h.active, .serving k (c.map .disconnect),
    h.move (by omega) ⟨rfl, rfl, rfl, fun _ => .inl⟩ rfl ?_ ?_ rfl ?_
    (h.unwatched_of_keep (by simp [hpc]) rfl) rfl ?_⟩
  · exact ⟨rfl, fun _ he => he, fun _ hj => hj, fun j hj => by simp [Slot.role, hj]⟩
  · cases c with
    | none => exact h.cell
    | some c => exact h.cell
  · simp [Slot.role, Role.Ok, htd]
  · exact h.listener_keep rfl rfl (fun _ hj => hj) (fun _ hb => ⟨rfl, hb⟩)

theorem Rel.supervise (h : Rel w slot) (hpc : (w.attempts k).pc = .stored) :
    ∃ slot', Rel (w.setAttempt k { w.attempts k with pc := .live, supervisor := .watching })
      slot' := by
  have hlt : k < w.next := h.lt_next (by simp [hpc])
  have hnone : (w.attempts k).supervisor = .none := h.unwatched k (by simp [hpc])
  refine ⟨slot, h.move hlt ⟨rfl, rfl, rfl, fun _ => .inl⟩ rfl (.refl _ k) h.cell h.active ?_
    (fun hp => absurd rfl hp) (by rw [hnone]; rfl) ?_⟩
  · have hrole := h.role k hlt
    rcases slot.role_cases k with hr | ⟨_, hr⟩ | ⟨_, _, hr⟩ | ⟨_, _, hr⟩ | ⟨_, _, hr⟩ <;>
      rw [hr] at hrole ⊢
    · have hfinished : (w.attempts k).teardown = .finished := by
        simpa [hpc] using hrole.1
      exact ⟨.inr ⟨.inr rfl, hfinished⟩, hrole.2.teardown, hrole.2.released, hrole.2.finished,
        hrole.2.closed⟩
    · simp [Role.Ok, Attempt.Trying, hpc] at hrole
    · simp [Role.Ok, hpc] at hrole
    · exact ⟨.inr rfl, hrole.2⟩
    · exact ⟨.inr rfl, hrole.2⟩
  · exact h.listener_keep rfl rfl (fun _ hj => hj) (fun _ hb => ⟨rfl, hb⟩)

theorem Rel.announce (h : Rel w slot) {error : SessionError}
    (hpc : (w.attempts k).pc = .announcing error) {state : SessionState}
    (hstate : state = .disconnected ∨ state = .failed) :
    ∃ slot', Rel ((w.publish state k).setAttempt k { w.attempts k with pc := .failed }) slot' := by
  obtain ⟨rfl, htrying, hnext⟩ := h.slot_of_trying (k := k) (by rw [hpc]; rfl)
  have hsettled : (w.attempts k).Settled := by
    simpa [Attempt.Trying, hpc] using htrying
  have hlt : k < w.next := by omega
  refine ⟨.free, h.move hlt (.publish w _ k _)
    (publish_setAttempt_attempts _ _) ?_ ?_ ?_ ?_ ?_ ?_ ?_⟩
  · exact ⟨rfl, fun _ he => absurd he id, fun _ hj => absurd hj (by simp [Slot.occupant]),
      fun j hj => by simp [Slot.role, hj]⟩
  · simpa [World.setAttempt, Slot.CellOk] using hstate
  · simpa [World.setAttempt, Slot.holds] using h.active
  · exact ⟨.inl rfl, hsettled.teardown, hsettled.released, hsettled.finished, hsettled.closed⟩
  · exact h.unwatched_of_keep (by simp [hpc]) rfl
  · rfl
  · -- nothing listens by now: the pc of the occupant says so
    intro j hj
    obtain ⟨hocc, hexposes, _⟩ := h.listener j (by simpa [World.setAttempt] using hj)
    injection hocc with hocc
    subst hocc
    simp [hpc, Pc.exposes] at hexposes

theorem Attempt.Trying.refused {a : Attempt} (ht : a.Trying)
    (hpc : a.pc = .armed ∨ a.pc = .loaded ∨ a.pc = .bound) (error : SessionError) :
    { a with pc := .reporting error }.Trying := by
  have hbare : a.teardown = .none ∧ a.spawned = false ∧ a.established = false ∧
      a.streaming = false := by
    rcases hpc with hp | hp | hp <;> simpa [Attempt.Trying, hp] using ht
  exact ⟨.inl hbare.1, by simp [hbare.2.1], by simp [hbare.2.2.1], hbare.2.2.2⟩

theorem advance_authenticating {cell state : SessionState}
    (h : cell.advance .authenticating = .ok state) : state = .authenticating := by
  unfold SessionState.advance at h
  split at h
  · next hc =>
    injection h with h
    exact h.symm.trans hc
  · obtain ⟨_, h⟩ := ok_of_guard h
    injection h with h
    exact h.symm

/-! ### Every step -/

def Pc.passes : Pc → Bool
  | .claimed | .armed | .loaded | .bound | .spawned | .authenticating | .reporting _ => true
  | _ => false

def Pc.isBound : Pc → Bool
  | .idle | .claimed | .armed | .loaded | .reporting _ | .announcing _ | .failed => false
  | _ => true

def Pc.unwinds : Pc → Bool
  | .managed | .authenticating | .asking | .authenticated => true
  | .secured | .cleared | .established => true
  | _ => false

theorem Pc.isTrying_of_passes {p : Pc} (h : p.passes = true) :
    p.isTrying = true ∧ p.exposes = false := by
  cases p <;> first | exact ⟨rfl, rfl⟩ | cases h

theorem Pc.isTrying_of_unwinds {p : Pc} (h : p.unwinds = true) : p.isTrying = true := by
  cases p <;> first | rfl | cases h

theorem Attempt.Trying.teardown_none {a : Attempt} (h : a.Trying) (hpc : a.pc.unwinds = true) :
    a.teardown = .none := by
  unfold Attempt.Trying at h
  cases hp : a.pc <;> rw [hp] at hpc <;> simp only [hp] at h <;>
    first | exact h.1 | exact h | cases hpc

/-- The attempt holds what it held. -/
structure Attempt.Keeps (a a' : Attempt) : Prop where
  teardown : a'.teardown = a.teardown
  removal : a'.removal = a.removal
  binding : a'.binding = a.binding
  supervisor : a'.supervisor = a.supervisor
  released : a.released = true → a'.released = true

inductive Moved (w : World) (k : Nat) (move : Move) : World → Prop where
  | pass {a : Attempt} {status : Snapshot} {cancelTo capture : Option Nat}
      (hpc : (w.attempts k).pc.passes = true) (hpc' : a.pc.isTrying = true)
      (hkeeps : (w.attempts k).Keeps a) (htrying : (w.attempts k).Trying → a.Trying)
      (hcancel : cancelTo = w.cancelTo ∨ cancelTo = some k)
      (hcapture : capture = none ∨
        (capture = w.capture ∧ (a.pc.isBound = true → (w.attempts k).pc.isBound = true)))
      (hshown : status.shown = w.status.shown ∨ status.shown = none)
      (hspawned : move = .spawn none ∨ a.spawned = (w.attempts k).spawned) :
      Moved w k move ({ w with status, cancelTo, capture }.setAttempt k a)
  | unwind (hpc : (w.attempts k).pc.unwinds = true) (error : SessionError) :
      Moved w k move (w.setAttempt k ((w.attempts k).unwind k error))
  | enter {state : SessionState} (hpc : (w.attempts k).pc = .managed)
      (hadvance : w.cell.advance .authenticating = .ok state) :
      Moved w k move ((w.publish state k).setAttempt k { w.attempts k with pc := .authenticating })
  | ask (hpc : (w.attempts k).pc = .authenticating) :
      Moved w k move ({ w with prompts := k :: w.prompts }.setAttempt k
        { w.attempts k with pc := .asking })
  | answer (hpc : (w.attempts k).pc = .asking) :
      Moved w k move ({ w with prompts := w.prompts.erase k }.setAttempt k
        { w.attempts k with pc := .authenticating })
  | install (hpc : (w.attempts k).pc = .authenticated) :
      Moved w k move ({ w with installed := some k }.setAttempt k
        { w.attempts k with pc := .secured, binding := true })
  | clear (hpc : (w.attempts k).pc = .secured) :
      Moved w k move ({ w with listener := none }.setAttempt k { w.attempts k with pc := .cleared })
  | publish (hpc : (w.attempts k).pc = .cleared) :
      Moved w k move ({ w with listener := some k }.setAttempt k
        { w.attempts k with pc := .established, established := true })
  | commit {state : SessionState} (hmove : move = .commit)
      (hpc : (w.attempts k).pc = .established)
      (hadvance : w.cell.advance .connected = .ok state) :
      Moved w k move ((w.publish state k).setAttempt k { w.attempts k with pc := .committed })
  | note (hpc : (w.attempts k).pc = .committed) :
      Moved w k move ({ w with status := { shown := some k } }.setAttempt k
        { w.attempts k with pc := .noted })
  | store (hpc : (w.attempts k).pc = .noted) (hactive : w.active = none) :
      Moved w k move ({ w with active := some k }.setAttempt k { w.attempts k with pc := .stored })
  | supervise (hpc : (w.attempts k).pc = .stored) :
      Moved w k move (w.setAttempt k { w.attempts k with pc := .live, supervisor := .watching })
  | unwound {error : SessionError} (hpc : (w.attempts k).pc = .unwinding error)
      (htd : (w.attempts k).teardown = .finished) :
      Moved w k move (w.setAttempt k { w.attempts k with pc := .reporting error })
  | announce {error : SessionError} (hpc : (w.attempts k).pc = .announcing error)
      {state : SessionState} (hstate : state = .disconnected ∨ state = .failed) :
      Moved w k move ((w.publish state k).setAttempt k { w.attempts k with pc := .failed })

theorem Moved.plain {move : Move} (hpc : (w.attempts k).pc.passes = true)
    (hpc' : a.pc.isTrying = true)
    (hkeeps : (w.attempts k).Keeps a) (htrying : (w.attempts k).Trying → a.Trying)
    (hbound : a.pc.isBound = true → (w.attempts k).pc.isBound = true)
    (hspawned : move = .spawn none ∨ a.spawned = (w.attempts k).spawned) :
    Moved w k move (w.setAttempt k a) :=
  .pass hpc hpc' hkeeps htrying (.inl rfl) (.inr ⟨rfl, hbound⟩) (.inl rfl) hspawned

theorem moved_of_attemptStep {move : Move} (hrel : Rel w slot)
    (hstep : attemptStep w k move = some w') : Moved w k move w' := by
  unfold attemptStep at hstep
  dsimp only at hstep
  split at hstep
  · next hpc => -- arm
    cases hstep
    exact .pass (by rw [hpc]; rfl) rfl ⟨rfl, rfl, rfl, rfl, id⟩ (by simp [Attempt.Trying, hpc])
      (.inr rfl) (.inr ⟨rfl, by simp [Pc.isBound]⟩) (.inl rfl) (.inr rfl)
  · next hpc => -- load
    cases hstep
    exact .plain (by rw [hpc]; rfl) rfl ⟨rfl, rfl, rfl, rfl, id⟩ (by simp [Attempt.Trying, hpc])
      (by simp [Pc.isBound]) (.inr rfl)
  · next hpc => -- load, refused
    cases hstep
    exact .plain (by rw [hpc]; rfl) rfl ⟨rfl, rfl, rfl, rfl, id⟩ (fun ht => ht.refused (.inl hpc) _)
      (by simp [Pc.isBound]) (.inr rfl)
  · next hpc => -- bind
    cases hstep
    exact .pass (by rw [hpc]; rfl) rfl ⟨rfl, rfl, rfl, rfl, id⟩ (by simp [Attempt.Trying, hpc])
      (.inl rfl) (.inl rfl) (.inl rfl) (.inr rfl)
  · next hpc => -- bind, refused
    cases hstep
    exact .pass (by rw [hpc]; rfl) rfl ⟨rfl, rfl, rfl, rfl, id⟩
      (fun ht => ht.refused (.inr (.inl hpc)) _) (.inl rfl) (.inl rfl) (.inl rfl) (.inr rfl)
  · next hpc => -- spawn
    cases hstep
    exact .plain (by rw [hpc]; rfl) rfl ⟨rfl, rfl, rfl, rfl, id⟩
      (by simp +contextual [Attempt.Trying, hpc]) (by simp [hpc, Pc.isBound]) (.inl rfl)
  · next hpc => -- spawn, refused
    cases hstep
    exact .plain (by rw [hpc]; rfl) rfl ⟨rfl, rfl, rfl, rfl, id⟩
      (fun ht => ht.refused (.inr (.inr hpc)) _) (by simp [Pc.isBound]) (.inr rfl)
  · next hpc => -- attach
    cases hstep
    exact .plain (by rw [hpc]; rfl) rfl ⟨rfl, rfl, rfl, rfl, id⟩
      (by simp +contextual [Attempt.Trying, hpc]) (by simp [hpc, Pc.isBound]) (.inr rfl)
  · next hpc => -- attach, refused
    cases hstep
    refine .plain (by rw [hpc]; rfl) rfl ⟨rfl, rfl, rfl, rfl, fun _ => rfl⟩ (fun ht => ?_)
      (by simp [Pc.isBound]) (.inr rfl)
    simp only [Attempt.Trying, hpc] at ht
    exact ⟨.inl ht.1, fun _ => rfl, by simp [Attempt.dropped, ht.2.1], rfl⟩
  · next hpc => -- enter
    split at hstep
    · next state hadvance =>
      cases hstep
      exact .enter hpc hadvance
    · cases hstep
      exact .unwind (by rw [hpc]; rfl) _
  · next hpc => -- ask
    cases hstep
    exact .ask hpc
  · next hpc => -- answer
    obtain ⟨_, ⟨⟩⟩ := some_of_guard hstep
    exact .answer hpc
  · next hpc => -- abort
    obtain ⟨_, ⟨⟩⟩ := some_of_guard hstep
    exact .unwind (by rw [hpc]; rfl) _
  · next hpc => -- abort while asking
    obtain ⟨_, ⟨⟩⟩ := some_of_guard hstep
    exact .unwind (by rw [hpc]; rfl) _
  · next hpc => -- reject
    cases hstep
    exact .unwind (by rw [hpc]; rfl) _
  · next hpc => -- reject while asking
    cases hstep
    exact .unwind (by rw [hpc]; rfl) _
  · next hpc => -- ready
    cases hstep
    exact .plain (by rw [hpc]; rfl) rfl ⟨rfl, rfl, rfl, rfl, id⟩ (by simp [Attempt.Trying, hpc])
      (by simp [hpc, Pc.isBound]) (.inr rfl)
  · next hpc => -- install
    cases hstep
    exact .install hpc
  · next hpc => -- install, refused
    cases hstep
    exact .unwind (by rw [hpc]; rfl) _
  · next hpc => -- clear
    cases hstep
    exact .clear hpc
  · next hpc => -- publish
    cases hstep
    exact .publish hpc
  · next hpc => -- publish, refused
    cases hstep
    exact .unwind (by rw [hpc]; rfl) _
  · next hpc => -- commit
    split at hstep
    · next hadvance =>
      cases hstep
      exact .commit rfl hpc hadvance
    · cases hstep
      exact .unwind (by rw [hpc]; rfl) _
  · next hpc => -- note
    cases hstep
    exact .note hpc
  · next hpc => -- store: `active` is empty
    have hactive := (hrel.store hpc).1
    rw [hactive] at hstep
    cases hstep
    exact .store hpc hactive
  · next hpc => -- supervise
    cases hstep
    exact .supervise hpc
  · next hpc => -- unwound
    obtain ⟨htd, ⟨⟩⟩ := some_of_guard hstep
    exact .unwound hpc htd
  · next hpc => -- report
    cases hstep
    refine .pass (by rw [hpc]; rfl) rfl ⟨rfl, rfl, rfl, rfl, id⟩ ?_ (.inl rfl)
      (.inr ⟨rfl, by simp [Pc.isBound]⟩) (.inr rfl) (.inr rfl)
    simp only [Attempt.Trying, hpc]
    exact fun ht => ⟨ht.teardown, ht.released, ht.finished, ht.closed⟩
  · next hpc => -- announce
    cases hstep
    refine .announce hpc ?_
    split
    · exact .inl rfl
    · exact .inr rfl
  · cases hstep

theorem rel_attempt {move : Move} (h : Rel w slot) (hstep : attemptStep w k move = some w') :
    ∃ slot', Rel w' slot' := by
  have hframe : ∀ j, w.cancelTo = some j → w.cancelTo = some j ∨ j < w.next := fun _ => .inl
  cases moved_of_attemptStep h hstep with
  | pass hpc hpc' hkeeps htrying hcancel hcapture hshown =>
    obtain ⟨hp, hquiet⟩ := Pc.isTrying_of_passes hpc
    refine h.try_quiet hp hquiet ⟨rfl, rfl, rfl, fun j hj => ?_⟩ rfl (.inl rfl) rfl htrying
      hkeeps.supervisor rfl
    rcases hcancel with hc | hc
    · exact .inl (hc.symm.trans hj)
    · injection hc.symm.trans hj with hj
      exact .inr (hj ▸ h.lt_next (by intro hidle; rw [hidle] at hp; cases hp))
  | unwind hpc error => exact h.try_unwind (Pc.isTrying_of_unwinds hpc) error
  | enter hpc hadvance =>
    exact h.try_quiet (by rw [hpc]; rfl) (by rw [hpc]; rfl) (.publish w _ k _)
      (publish_setAttempt_attempts _ _)
      (.inr (by simpa [World.setAttempt] using advance_authenticating hadvance))
      (by simp [World.setAttempt]) (by simp [Attempt.Trying, hpc]) rfl (by simp [World.setAttempt])
  | ask hpc | answer hpc | install hpc =>
    exact h.try_quiet (by rw [hpc]; rfl) (by rw [hpc]; rfl) ⟨rfl, rfl, rfl, hframe⟩ rfl
      (.inl rfl) rfl (by simp [Attempt.Trying, hpc]) rfl rfl
  | clear hpc =>
    exact h.try_move (by rw [hpc]; rfl) ⟨rfl, rfl, rfl, hframe⟩ rfl (.inl rfl) rfl
      (by simp [Attempt.Trying, hpc]) rfl (.inl rfl)
  | publish hpc =>
    refine h.try_move (by rw [hpc]; rfl) ⟨rfl, rfl, rfl, hframe⟩ rfl (.inl rfl) rfl ?_ rfl
      (.inr (.inl ⟨rfl, rfl, ?_⟩))
    · simp only [Attempt.Trying, hpc]
      exact And.left
    · have htrying := (h.slot_of_trying (k := k) (by rw [hpc]; rfl)).2.1
      simp only [Attempt.Trying, hpc] at htrying
      simp [htrying.1, Teardown.beforeStop]
  | commit _ hpc hadvance => exact h.commit hpc hadvance
  | note hpc => exact h.note hpc _
  | store hpc hactive => exact (h.store hpc).2
  | supervise hpc => exact h.supervise hpc
  | unwound hpc htd =>
    refine h.try_move (by rw [hpc]; rfl) ⟨rfl, rfl, rfl, hframe⟩ rfl (.inl rfl) rfl ?_ rfl
      (.inr (.inr ⟨rfl, fun _ hb => ?_⟩))
    · simp only [Attempt.Trying, hpc]
      intro ht
      exact ⟨.inr htd, fun _ => (ht.2 htd).1, fun _ => htd, (ht.2 htd).2⟩
    · rw [htd] at hb
      exact absurd hb (by decide)
  | announce hpc hstate => exact h.announce hpc hstate

end Connect

/-! ## §4. Teardowns. -/

theorem Role.Ok.congr {r : Role} {a a' : Attempt} (h : r.Ok a) (hpc : a'.pc = a.pc)
    (htd : a'.teardown = a.teardown) (hspawned : a'.spawned = a.spawned)
    (hestablished : a'.established = a.established) (hreleased : a'.released = a.released)
    (hstreaming : a'.streaming = a.streaming) : r.Ok a' := by
  have hsettled : a.Settled → a'.Settled := fun hs =>
    ⟨by rw [htd]; exact hs.teardown, by rw [hspawned, hreleased]; exact hs.released,
      by rw [hestablished, htd]; exact hs.finished, by rw [hstreaming]; exact hs.closed⟩
  cases r with
  | trying =>
    have ht : a.Trying := h
    show a'.Trying
    unfold Attempt.Trying at ht ⊢
    rw [hpc, htd, hspawned, hestablished, hreleased, hstreaming]
    cases hp : a.pc <;> simp only [hp] at ht ⊢ <;> first | exact ht | exact hsettled ht
  | committed => exact ⟨by rw [hpc]; exact h.1, by rw [htd]; exact h.2⟩
  | serving => exact ⟨by rw [hpc]; exact h.1, by rw [htd]; exact h.2⟩
  | closing => exact ⟨by rw [hpc]; exact h.1, by rw [htd]; exact h.2⟩
  | rest => exact ⟨by rw [hpc, htd]; exact h.1, hsettled h.2⟩

section Teardown

variable {w w' : World} {slot : Slot} {k b : Nat} {stage : Stage} {a : Attempt}

theorem Rel.tear_on (h : Rel w slot) (htd : (w.attempts k).teardown = .running b stage)
    (hframe : Frame w w') (hattempts : w'.attempts = update w.attempts k a)
    (hcell : w'.cell = w.cell) (hactive : w'.active = w.active)
    (hpc : a.pc = (w.attempts k).pc) (hsame : a.supervisor = (w.attempts k).supervisor)
    {stage' : Stage} (hon : a.teardown = .running b stage')
    (hlistener : w'.listener = none ∨ (w'.listener = w.listener ∧ stage ≠ .stop)) :
    ∃ slot', Rel w' slot' := by
  obtain ⟨hnext, hslot⟩ := h.slot_of_tearing htd
  refine ⟨slot, h.move (by omega) hframe hattempts (.refl _ k) (by rw [hcell]; exact h.cell)
    (hactive.trans h.active) ?_ (h.unwatched_of_keep (fun hp => hpc.trans hp) hsame)
    (by rw [hsame]) ?_⟩
  · rcases hslot with ⟨rfl, e, he⟩ | ⟨c, rfl, hp⟩
    · simp [Slot.role, Role.Ok, Attempt.Trying, hpc, he, hon]
    · simpa [Slot.role, Role.Ok, hpc, hon] using hp
  · rcases hlistener with hl | ⟨hl, hstage⟩
    · intro j hj
      rw [hl] at hj
      exact absurd hj (by simp)
    · refine h.listener_keep hl hattempts (fun _ hj => hj) fun _ hb => ?_
      rw [htd] at hb
      cases stage <;> first
        | exact absurd rfl hstage
        | exact absurd hb (by simp [Teardown.beforeStop])

theorem Rel.tear_finish (h : Rel w slot) (htd : (w.attempts k).teardown = .running b stage)
    (hstage : stage ≠ .stop) (hframe : Frame w w')
    (hattempts : w'.attempts = update w.attempts k (w.attempts k).finish)
    (hcell : w'.cell = w.cell) (hactive : w'.active = w.active)
    (hlistener : w'.listener = w.listener) : ∃ slot', Rel w' slot' := by
  obtain ⟨hnext, hslot⟩ := h.slot_of_tearing htd
  have hlt : k < w.next := by omega
  have hquiet : (w.attempts k).teardown.beforeStop = false := by
    rw [htd]
    cases stage <;> first | exact absurd rfl hstage | rfl
  have hunwatched := h.unwatched_of_keep (k := k) (a := (w.attempts k).finish) id rfl
  rcases hslot with ⟨rfl, e, he⟩ | ⟨c, rfl, hp⟩
  · refine ⟨.trying k, h.move hlt hframe hattempts (.refl _ k) (by rw [hcell]; exact h.cell)
      (hactive.trans h.active) ?_ hunwatched rfl ?_⟩
    · simp [Slot.role, Role.Ok, Attempt.Trying, Attempt.finish, Attempt.dropped, he]
    · refine h.listener_keep hlistener hattempts (fun _ hj => hj) fun _ hb => ?_
      exact absurd hb (by simp [hquiet])
  · refine ⟨.closing c none, h.move hlt hframe hattempts ?_ (by rw [hcell]; exact h.cell)
      (hactive.trans h.active) ?_ hunwatched rfl ?_⟩
    · refine ⟨rfl, fun e he => ?_, fun _ hj => absurd hj (by simp [Slot.occupant]),
        fun j hj => by simp [Slot.role, hj]⟩
      have hender : e = .tearing k := he
      simp [Slot.EnderOk, hender]
    · exact ⟨.inr ⟨hp, rfl⟩, .inr rfl, fun _ => rfl, fun _ => rfl, rfl⟩
    · intro j hj
      rw [hlistener] at hj
      obtain ⟨hocc, _, hb⟩ := h.listener j hj
      injection hocc with hocc
      subst hocc
      exact absurd hb (by simp [hquiet])

theorem rel_tear (h : Rel w slot) (hstep : tearStep w k = some w') : ∃ slot', Rel w' slot' := by
  unfold tearStep at hstep
  dsimp only at hstep
  split at hstep
  · next htd => -- stop
    cases hstep
    exact h.tear_on htd ⟨rfl, rfl, rfl, fun _ => .inl⟩ rfl rfl rfl rfl rfl rfl (.inl rfl)
  · next htd => -- reset
    cases hstep
    exact h.tear_on htd ⟨rfl, rfl, rfl, fun _ => .inl⟩ rfl rfl rfl rfl rfl rfl
      (.inr ⟨rfl, by decide⟩)
  · next htd => -- submit
    split at hstep
    · cases hstep
      exact h.tear_on htd ⟨rfl, rfl, rfl, fun _ => .inl⟩ rfl rfl rfl rfl rfl rfl
        (.inr ⟨rfl, by decide⟩)
    · cases hstep
      exact h.tear_on htd ⟨rfl, rfl, rfl, fun _ => .inl⟩ rfl rfl rfl rfl rfl rfl
        (.inr ⟨rfl, by decide⟩)
  · next htd => -- removing
    obtain ⟨_, ⟨⟩⟩ := some_of_guard hstep
    exact h.tear_on htd ⟨rfl, rfl, rfl, fun _ => .inl⟩ rfl rfl rfl rfl rfl rfl
      (.inr ⟨rfl, by decide⟩)
  · next htd => -- signal
    cases hstep
    exact h.tear_on htd ⟨rfl, rfl, rfl, fun _ => .inl⟩ rfl rfl rfl rfl rfl rfl
      (.inr ⟨rfl, by decide⟩)
  · next htd => -- terminate
    cases hstep
    exact h.tear_on htd ⟨rfl, rfl, rfl, fun _ => .inl⟩ rfl rfl rfl rfl rfl rfl
      (.inr ⟨rfl, by decide⟩)
  · next htd => -- withdraw
    cases hstep
    exact h.tear_finish htd (by decide) ⟨rfl, rfl, rfl, fun _ => .inl⟩ rfl rfl rfl rfl
  · cases hstep

theorem rel_expire (h : Rel w slot) (hstep : expireStep w k = some w') :
    ∃ slot', Rel w' slot' := by
  unfold expireStep at hstep
  split at hstep
  · next stage htd =>
    obtain ⟨hwaits, ⟨⟩⟩ := some_of_guard hstep
    refine h.tear_finish htd ?_ ⟨rfl, rfl, rfl, fun _ => .inl⟩ rfl rfl rfl rfl
    rintro rfl
    cases hwaits
  · cases hstep

theorem Rel.mark (h : Rel w slot) (hlt : k < w.next) (hframe : Frame w w')
    (hattempts : w'.attempts = update w.attempts k a) (hcell : w'.cell = w.cell)
    (hactive : w'.active = w.active) (hlistener : w'.listener = w.listener)
    (hpc : a.pc = (w.attempts k).pc) (htd : a.teardown = (w.attempts k).teardown)
    (hsame : a.supervisor = (w.attempts k).supervisor)
    (hrole : ∀ r : Role, r.Ok (w.attempts k) → r.Ok a) : Rel w' slot := by
  refine h.move hlt hframe hattempts (.refl _ k) (by rw [hcell]; exact h.cell)
    (hactive.trans h.active) (hrole _ (h.role k hlt))
    (h.unwatched_of_keep (fun hp => hpc.trans hp) hsame) (by rw [hsame]) ?_
  refine h.listener_keep hlistener hattempts (fun _ hj => hj) fun he hb => ?_
  rw [hpc, htd]
  exact ⟨he, hb⟩

theorem rel_remove (h : Rel w slot) (hstep : removeStep w k = some w') :
    ∃ slot', Rel w' slot' := by
  unfold removeStep at hstep
  split at hstep
  · next hremoval =>
    cases hstep
    have hlt : k < w.next := by
      by_contra hge
      rw [h.future k (by omega)] at hremoval
      cases hremoval
    exact ⟨slot, h.mark hlt ⟨rfl, rfl, rfl, fun _ => .inl⟩ rfl rfl rfl rfl rfl rfl rfl
      fun _ hok => hok.congr rfl rfl rfl rfl rfl rfl⟩
  · cases hstep

/-! ## §5. What a teardown leaves alone. -/

structure Torn (w w' : World) (k : Nat) (a : Attempt) : Prop where
  attempts : w'.attempts = update w.attempts k a
  pc : a.pc = (w.attempts k).pc
  supervisor : a.supervisor = (w.attempts k).supervisor
  spawned : a.spawned = (w.attempts k).spawned
  finished : (w.attempts k).teardown = .finished → a.teardown = .finished
  released : (w.attempts k).released = true → a.released = true
  cell : w'.cell = w.cell
  status : w'.status = w.status
  disconnects : w'.disconnects = w.disconnects

theorem torn_of_tear (hstep : tearStep w k = some w') : ∃ a, Torn w w' k a := by
  have hnot {p : Prop} {b : Nat} {stage : Stage}
      (htd : (w.attempts k).teardown = .running b stage)
      (hfinished : (w.attempts k).teardown = .finished) : p := by
    rw [htd] at hfinished
    cases hfinished
  unfold tearStep at hstep
  dsimp only at hstep
  split at hstep
  · next htd =>
    cases hstep
    exact ⟨_, rfl, rfl, rfl, rfl, hnot htd, id, rfl, rfl, rfl⟩
  · next htd =>
    cases hstep
    exact ⟨_, rfl, rfl, rfl, rfl, hnot htd, id, rfl, rfl, rfl⟩
  · next htd =>
    split at hstep
    · cases hstep
      exact ⟨_, rfl, rfl, rfl, rfl, hnot htd, id, rfl, rfl, rfl⟩
    · cases hstep
      exact ⟨_, rfl, rfl, rfl, rfl, hnot htd, id, rfl, rfl, rfl⟩
  · next htd =>
    obtain ⟨_, ⟨⟩⟩ := some_of_guard hstep
    exact ⟨_, rfl, rfl, rfl, rfl, hnot htd, id, rfl, rfl, rfl⟩
  · next htd =>
    cases hstep
    exact ⟨_, rfl, rfl, rfl, rfl, hnot htd, id, rfl, rfl, rfl⟩
  · next htd =>
    cases hstep
    exact ⟨_, rfl, rfl, rfl, rfl, hnot htd, id, rfl, rfl, rfl⟩
  · cases hstep
    exact ⟨_, rfl, rfl, rfl, rfl, fun _ => rfl, fun _ => rfl, rfl, rfl, rfl⟩
  · cases hstep

theorem torn_of_expire (hstep : expireStep w k = some w') : ∃ a, Torn w w' k a := by
  unfold expireStep at hstep
  split at hstep
  · obtain ⟨_, ⟨⟩⟩ := some_of_guard hstep
    exact ⟨_, rfl, rfl, rfl, rfl, fun _ => rfl, fun _ => rfl, rfl, rfl, rfl⟩
  · cases hstep

theorem torn_of_remove (hstep : removeStep w k = some w') : ∃ a, Torn w w' k a := by
  unfold removeStep at hstep
  split at hstep
  · cases hstep
    exact ⟨_, rfl, rfl, rfl, rfl, id, id, rfl, rfl, rfl⟩
  · cases hstep

end Teardown

end ThisConnect.Session
