/-
  ThisConnect.Session.Status
  **WHAT `status()` REPORTS.**

  Main results:
    • `shows_of_reachable` — in an orderly run the snapshot shows a session
      whenever the state is `Connected`, except between the publication and the
      snapshot, and none when the state is `Disconnected` or `Failed`.
    • `status_coherent_iff` — which steps keep every status call under way
      coherent.
    • `status_incoherent` — a connection reported without a tunnel, and a tunnel
      reported, for good, without a connection.
-/
import ThisConnect.Ipc.Message
import ThisConnect.Session.Endings
import ThisConnect.Session.Seen

namespace ThisConnect.Session

open Function (update)
open Transition
open Ipc (ConnectionState ConnectionStatus)

/-! ## §1. The report. -/

def SessionState.toIpc : SessionState → ConnectionState
  | .disconnected => .disconnected
  | .connecting => .connecting
  | .authenticating => .authenticating
  | .connected => .connected
  | .disconnecting => .disconnecting
  | .failed => .failed

structure Details where
  profileId : String
  since : UInt64
  tunnel : TunnelInfo

def connectionStatus (details : Nat → Details) (snapshot : Snapshot) (state : SessionState) :
    ConnectionStatus where
  state := state.toIpc
  profileId := snapshot.shown.map fun k => (details k).profileId
  connectedSinceUnixSecs := snapshot.shown.map fun k => (details k).since
  bytesIn := UInt64.ofNat snapshot.bytesIn
  bytesOut := UInt64.ofNat snapshot.bytesOut
  tunnel := snapshot.shown.map fun k => (details k).tunnel
  lastError := snapshot.lastError

/-- **A connection is reported with its tunnel and profile, and no tunnel without one.** -/
def Coherent (status : ConnectionStatus) : Prop :=
  (status.state = .connected → status.tunnel ≠ none ∧ status.profileId ≠ none) ∧
    (status.state = .disconnected ∨ status.state = .failed →
      status.tunnel = none ∧ status.connectedSinceUnixSecs = none)

theorem coherent_iff (details : Nat → Details) (snapshot : Snapshot) (state : SessionState) :
    Coherent (connectionStatus details snapshot state) ↔
      (state = .connected → snapshot.shown ≠ none) ∧
        (state.isFree = true → snapshot.shown = none) := by
  unfold Coherent connectionStatus
  cases state <;> cases snapshot.shown <;> simp [SessionState.toIpc, SessionState.isFree]

/-! ## §2. The snapshot and the state. -/

/-- When the snapshot shows a session. -/
structure Shows (w : World) : Prop where
  free : w.cell.isFree = true → w.status.shown = none
  trying : ∀ {k}, (w.attempts k).pc.isTrying = true → w.status.shown = none
  gap : ∀ {k}, (w.attempts k).pc = .committed → w.status.shown = none
  connected : w.cell = .connected → w.status.shown = none → ∃ k, (w.attempts k).pc = .committed
  forcing : ∀ {claim}, w.ender claim = some .forcing → w.status.shown = none

section Shows

variable {w w' : World} {slot : Slot} {k : Nat} {p p' : Pc}

theorem Advances.other (h : Advances w w' k p p') {q : Pc} (hq : p' ≠ q) {j : Nat}
    (hj : (w'.attempts j).pc = q) : (w.attempts j).pc = q := by
  by_cases hjk : j = k
  · subst hjk
    exact absurd (h.after.symm.trans hj) hq
  · rw [← h.others j hjk]
    exact hj

theorem Rel.unclaimed (h : Rel w slot) (hcell : w.cell = .connected) : slot.claim = none := by
  have hok := h.cell
  rw [hcell] at hok
  cases slot with
  | free => simp [Slot.CellOk] at hok
  | trying i => simp [Slot.CellOk] at hok
  | committed i c =>
    cases c with
    | none => rfl
    | some d => simp [Slot.CellOk] at hok
  | serving i c =>
    cases c with
    | none => rfl
    | some c => simp [Slot.CellOk] at hok
  | clearing c => simp [Slot.CellOk] at hok
  | closing c i => simp [Slot.CellOk] at hok

theorem Rel.gap (h : Rel w slot) (hpc : (w.attempts k).pc = .committed) :
    w.cell.isFree = false ∧ (∀ j, (w.attempts j).pc.isTrying = false) ∧
      (∀ j, (w.attempts j).pc = .committed → j = k) ∧
      ∀ claim, w.ender claim ≠ some .forcing := by
  obtain ⟨c, rfl, _⟩ := h.slot_of_committed (.inl hpc)
  refine ⟨?_, fun j => ?_, fun j hj => ?_, fun claim hclaim => ?_⟩
  · have hok := h.cell
    cases c with
    | none => rw [show w.cell = .connected from hok]; rfl
    | some d => rw [show w.cell = .disconnecting from hok]; rfl
  · by_contra htrying
    obtain ⟨hslot, _⟩ := h.slot_of_trying (Bool.of_not_eq_false htrying)
    exact nomatch hslot
  · obtain ⟨c', hslot, _⟩ := h.slot_of_committed (.inl hj)
    injection hslot with hslot
    exact hslot.symm
  · have hok := h.claims claim
    rw [hclaim] at hok
    exact nomatch hok.2

theorem Rel.not_connected (h : Rel w slot) (hpc : (w.attempts k).pc.isTrying = true) :
    w.cell ≠ .connected := by
  obtain ⟨rfl, _⟩ := h.slot_of_trying hpc
  rcases h.cell with hcell | hcell | hcell <;> simp [hcell]

variable {a : Act}

theorem Shows.step (h : Shows w) (hrel : Rel w slot) (hseen : Seen w w' a) :
    Shows w' := by
  cases hseen with
  | quiet hcell hshown hpc hforcing =>
    refine ⟨fun hfree => ?_, fun {j} hj => ?_, fun {j} hj => ?_, fun hconnected hnone => ?_,
      fun hclaim => hshown.trans (h.forcing (hforcing _ hclaim))⟩
    · rcases hcell with hcell | hcell
      · exact hshown.trans (h.free (hcell ▸ hfree))
      · rw [hcell] at hfree
        exact nomatch hfree
    · exact hshown.trans (h.trying (hpc j ▸ hj))
    · exact hshown.trans (h.gap (hpc j ▸ hj))
    · rcases hcell with hcell | hcell
      · obtain ⟨j, hj⟩ := h.connected (hcell.symm.trans hconnected) (hshown.symm.trans hnone)
        exact ⟨j, (hpc j).trans hj⟩
      · exact nomatch hcell.symm.trans hconnected
  | claim hfree hcell hshown hadvances =>
    have hnone : w'.status.shown = none := hshown.trans (h.free hfree)
    refine ⟨fun _ => hnone, fun _ => hnone, fun _ => hnone, fun hconnected => ?_, fun _ => hnone⟩
    exact nomatch hcell.symm.trans hconnected
  | @attempt k p p' hp hp' hcell hshown hadvances =>
    have htrying : (w.attempts k).pc.isTrying = true := hadvances.before ▸ hp
    have hnone : w'.status.shown = none := by
      rcases hshown with hshown | hshown
      · exact hshown.trans (h.trying htrying)
      · exact hshown
    refine ⟨fun _ => hnone, fun _ => hnone, fun _ => hnone, fun hconnected => ?_, fun _ => hnone⟩
    rcases hcell with hcell | hcell
    · exact absurd (hcell.symm.trans hconnected) (hrel.not_connected htrying)
    · exact nomatch hcell.symm.trans hconnected
  | @commit k hcommits hcell hshown hadvances =>
    have hnone : w'.status.shown = none :=
      hshown.trans (h.trying (k := k) (by rw [hadvances.before]; rfl))
    exact ⟨fun _ => hnone, fun _ => hnone, fun _ => hnone, fun _ _ => ⟨k, hadvances.after⟩,
      fun _ => hnone⟩
  | @note k hcell hshown hadvances =>
    obtain ⟨hbusy, hnotTrying, honly, hnotForcing⟩ := hrel.gap hadvances.before
    refine ⟨fun hfree => ?_, fun {j} hj => ?_, fun {j} hj => ?_, fun _ hnone => ?_, ?_⟩
    · rw [hcell, hbusy] at hfree
      exact nomatch hfree
    · by_cases hjk : j = k
      · subst hjk
        rw [hadvances.after] at hj
        exact nomatch hj
      · rw [hadvances.others j hjk, hnotTrying j] at hj
        exact nomatch hj
    · have hjk := honly j (hadvances.other Pc.noConfusion hj)
      subst hjk
      exact nomatch hadvances.after.symm.trans hj
    · exact nomatch hshown.symm.trans hnone
    · exact fun {claim} hclaim => absurd (hadvances.forcing claim hclaim) (hnotForcing claim)
  | @keep k p p' hp hp' hcell hshown hadvances =>
    refine ⟨fun hfree => hshown.trans (h.free (hcell ▸ hfree)), fun {j} hj => ?_,
      fun {j} hj => hshown.trans (h.gap (hadvances.other hp'.2 hj)), fun hconnected hnone => ?_,
      fun hclaim => hshown.trans (h.forcing (hadvances.forcing _ hclaim))⟩
    · by_cases hjk : j = k
      · subst hjk
        rw [hadvances.after, hp'.1] at hj
        exact nomatch hj
      · rw [hadvances.others j hjk] at hj
        exact hshown.trans (h.trying hj)
    · obtain ⟨j, hj⟩ := h.connected (hcell.symm.trans hconnected) (hshown.symm.trans hnone)
      have hjk : j ≠ k := by
        rintro rfl
        exact hp.2 (hadvances.before.symm.trans hj)
      exact ⟨j, (hadvances.others j hjk).trans hj⟩
  | @announce k p hp hcell hshown hadvances =>
    have hnone : w'.status.shown = none :=
      hshown.trans (h.trying (k := k) (hadvances.before ▸ hp))
    refine ⟨fun _ => hnone, fun _ => hnone, fun _ => hnone, fun hconnected => ?_, fun _ => hnone⟩
    rw [hconnected] at hcell
    exact nomatch hcell
  | clear claim hender hcell hshown hpc =>
    refine ⟨fun _ => hshown, fun _ => hshown, fun _ => hshown, fun hconnected => ?_,
      fun _ => hshown⟩
    have hok := hrel.claims claim
    rw [hender] at hok
    exact nomatch (hrel.unclaimed (hcell.symm.trans hconnected)).symm.trans hok.1
  | finish claim hends hender hcell hshown hpc hforcing =>
    have hnone : w'.status.shown = none := hshown.trans (h.forcing hender)
    refine ⟨fun _ => hnone, fun _ => hnone, fun _ => hnone, fun hconnected => ?_, fun _ => hnone⟩
    rw [hconnected] at hcell
    exact nomatch hcell

theorem Seen.connected (h : Seen w w' a) (hcell : w'.cell = .connected) :
    w.cell = .connected ∨ Commits w a := by
  cases h with
  | quiet hsame =>
    rcases hsame with hsame | hsame
    · exact .inl (hsame.symm.trans hcell)
    · exact nomatch hsame.symm.trans hcell
  | claim _ hclaimed => exact nomatch hclaimed.symm.trans hcell
  | attempt _ _ hsame =>
    rcases hsame with hsame | hsame
    · exact .inl (hsame.symm.trans hcell)
    · exact nomatch hsame.symm.trans hcell
  | commit hcommits => exact .inr hcommits
  | note hsame => exact .inl (hsame.symm.trans hcell)
  | keep _ _ hsame => exact .inl (hsame.symm.trans hcell)
  | announce _ hfree => rw [hcell] at hfree; exact nomatch hfree
  | clear _ _ hsame => exact .inl (hsame.symm.trans hcell)
  | finish _ _ _ hfree => rw [hcell] at hfree; exact nomatch hfree

theorem Seen.isFree (h : Seen w w' a) (hcell : w'.cell.isFree = true) :
    w.cell.isFree = true ∨ (∃ k, (w.attempts k).pc.isTrying = true) ∨ Ends w a := by
  cases h with
  | quiet hsame =>
    rcases hsame with hsame | hsame
    · exact .inl (hsame ▸ hcell)
    · rw [hsame] at hcell; exact nomatch hcell
  | claim hfree => exact .inl hfree
  | attempt hp _ _ _ hadvances => exact .inr (.inl ⟨_, hadvances.before ▸ hp⟩)
  | commit _ hconnected => rw [hconnected] at hcell; exact nomatch hcell
  | note hsame => exact .inl (hsame ▸ hcell)
  | keep _ _ hsame => exact .inl (hsame ▸ hcell)
  | announce hp _ _ hadvances => exact .inr (.inl ⟨_, hadvances.before ▸ hp⟩)
  | clear _ _ hsame => exact .inl (hsame ▸ hcell)
  | finish _ hends => exact .inr (.inr hends)

theorem Seen.trying (h : Seen w w' a) (hk : (w'.attempts k).pc.isTrying = true) :
    w.cell.isFree = true ∨ ∃ j, (w.attempts j).pc.isTrying = true := by
  have hmoved : ∀ {i : Nat} {p p' : Pc}, Advances w w' i p p' → p'.isTrying = false →
      ∃ j, (w.attempts j).pc.isTrying = true := by
    intro i p p' hadvances hp'
    have hki : k ≠ i := by
      rintro rfl
      rw [hadvances.after, hp'] at hk
      exact nomatch hk
    exact ⟨k, hadvances.others k hki ▸ hk⟩
  cases h with
  | quiet _ _ hpc => exact .inr ⟨k, hpc k ▸ hk⟩
  | claim hfree => exact .inl hfree
  | attempt hp _ _ _ hadvances => exact .inr ⟨_, hadvances.before ▸ hp⟩
  | commit _ _ _ hadvances => exact .inr (hmoved hadvances rfl)
  | note _ _ hadvances => exact .inr (hmoved hadvances rfl)
  | keep _ hp' _ _ hadvances => exact .inr (hmoved hadvances hp'.1)
  | announce hp _ _ hadvances => exact .inr ⟨_, hadvances.before ▸ hp⟩
  | clear _ _ _ _ hpc => exact .inr ⟨k, hpc k ▸ hk⟩
  | finish _ _ _ _ _ hpc => exact .inr ⟨k, hpc k ▸ hk⟩

theorem Commits.trying (h : Commits w a) : ∃ k, (w.attempts k).pc.isTrying = true := by
  obtain ⟨k, _, hpc, _⟩ := h
  exact ⟨k, by rw [hpc]; rfl⟩

theorem Commits.cell (h : Commits w a) (hstep : Session.step w a = some w') :
    w'.cell = .connected := by
  obtain ⟨k, hk, hpc, hcell⟩ := h
  unfold Act.committer at hk
  split at hk
  · obtain rfl := Option.some.inj hk
    simp only [Session.step, attemptStep, hpc] at hstep
    rcases hcell with hcell | hcell <;> rw [hcell] at hstep <;> cases hstep <;>
      simp [World.setAttempt]
  · cases hk

theorem Disconnect.eq_of_forcing {p : Disconnect} (h : p.ender = some .forcing) :
    p = .ending .forcing := by
  cases p with
  | none => cases h
  | signalling previous =>
    simp only [Disconnect.ender] at h
    split at h <;> cases h
  | ending ender =>
    injection h with h
    rw [h]
  | done => cases h

theorem Supervisor.eq_of_forcing {p : Supervisor} (h : p.ender = some .forcing) :
    ∃ reason, p = .ending reason .forcing := by
  cases p with
  | ending reason ender =>
    injection h with h
    exact ⟨reason, by rw [h]⟩
  | _ => cases h

theorem Ends.cell (h : Ends w a) (hstep : Session.step w a = some w') :
    w'.cell.isFree = true := by
  obtain ⟨claim, hclaim, hender⟩ := h
  unfold Act.claimant at hclaim
  split at hclaim
  · obtain rfl := Option.some.inj hclaim
    have hd := Disconnect.eq_of_forcing hender
    simp only [Session.step, disconnectEndStep, hd, enderStep, Option.map_some] at hstep
    cases hstep
    simp [World.setDisconnect, SessionState.isFree]
  · obtain rfl := Option.some.inj hclaim
    obtain ⟨reason, hs⟩ := Supervisor.eq_of_forcing hender
    simp only [Session.step, lossEndStep, hs, enderStep, Option.map_some] at hstep
    cases hstep
    simp [World.setAttempt, SessionState.isFree]
  · cases hclaim

end Shows

/-! ## §3. Status calls. -/

structure Watch where
  world : World := {}
  reading : List Snapshot := []
  reported : List (Snapshot × SessionState) := []

inductive WatchAct where
  | task (a : Act)
  | read
  | report (call : Nat)

def watchStep (s : Watch) : WatchAct → Option Watch
  | .task a => (step s.world a).map fun w => { s with world := w }
  | .read => some { s with reading := s.reading ++ [s.world.status] }
  | .report i => s.reading[i]?.map fun snapshot => { s with
      reading := s.reading.eraseIdx i
      reported := s.reported ++ [(snapshot, s.world.cell)] }

/-- No status call has read its snapshot when a connect publishes `Connected`, none has read the
    tunnel of a session whose end is published, and none reads the snapshot between the
    publication of `Connected` and the connect's own write. -/
def Calm (s : Watch) : WatchAct → Prop
  | .task a => Orderly s.world a ∧ (Commits s.world a → s.reading = []) ∧
      (Ends s.world a → ∀ r ∈ s.reading, r.shown = none)
  | .read => s.world.cell = .connected →
      ∀ k < s.world.next, (s.world.attempts k).pc ≠ .committed
  | .report _ => True

instance (w : World) (a : Act) : Decidable (Commits w a) :=
  inferInstanceAs (Decidable (∃ k ∈ a.committer, (w.attempts k).pc = .established ∧
    (w.cell = .connecting ∨ w.cell = .authenticating)))

instance (w : World) (a : Act) : Decidable (Ends w a) :=
  inferInstanceAs (Decidable (∃ claim ∈ a.claimant, w.ender claim = some .forcing))

instance (s : Watch) (a : WatchAct) : Decidable (Calm s a) :=
  match a with
  | .task a => inferInstanceAs (Decidable (Orderly s.world a ∧
      (Commits s.world a → s.reading = []) ∧
      (Ends s.world a → ∀ r ∈ s.reading, r.shown = none)))
  | .read => inferInstanceAs (Decidable (s.world.cell = .connected →
      ∀ k < s.world.next, (s.world.attempts k).pc ≠ .committed))
  | .report _ => isTrue trivial

/-- Every status call under way is coherent if it returns now. -/
def Sound (details : Nat → Details) (s : Watch) : Prop :=
  ∀ r ∈ s.reading, Coherent (connectionStatus details r s.world.cell)

/-- What holds in calm runs. -/
structure Watched (s : Watch) : Prop where
  rel : ∃ slot, Rel s.world slot
  shows : Shows s.world
  free : s.world.cell.isFree = true → ∀ r ∈ s.reading, r.shown = none
  trying : ∀ {k}, (s.world.attempts k).pc.isTrying = true → ∀ r ∈ s.reading, r.shown = none
  connected : s.world.cell = .connected → ∀ r ∈ s.reading, r.shown ≠ none
  reported : ∀ p ∈ s.reported,
    (p.2 = .connected → p.1.shown ≠ none) ∧ (p.2.isFree = true → p.1.shown = none)

section Watching

variable {s s' : Watch}

theorem Watched.read_iff (h : Watched s) :
    (s.world.cell = .connected → s.world.status.shown ≠ none) ↔ Calm s .read := by
  obtain ⟨slot, hrel⟩ := h.rel
  constructor
  · exact fun hshown hcell k _ hpc => hshown hcell (h.shows.gap hpc)
  · intro hcalm hcell hnone
    obtain ⟨k, hpc⟩ := h.shows.connected hcell hnone
    have hk : k < s.world.next := hrel.lt_next (by rw [hpc]; exact Pc.noConfusion)
    exact hcalm hcell k hk hpc

theorem Watched.task {a : Act} {w : World} (h : Watched s) (hcalm : Calm s (.task a))
    (hstep : step s.world a = some w) : Watched { s with world := w } := by
  obtain ⟨slot, hrel⟩ := h.rel
  obtain ⟨horderly, hcommits, hends⟩ := hcalm
  have hseen := step_seen hrel hstep
  have htrying : (∃ j, (s.world.attempts j).pc.isTrying = true) →
      ∀ r ∈ s.reading, r.shown = none := fun ⟨_, hj⟩ => h.trying hj
  refine ⟨rel_step hrel horderly hstep, h.shows.step hrel hseen, fun hfree => ?_, fun hk => ?_,
    fun hconnected r hr => ?_, h.reported⟩
  · rcases hseen.isFree hfree with hbefore | hbefore | hended
    · exact h.free hbefore
    · exact htrying hbefore
    · exact hends hended
  · rcases hseen.trying hk with hbefore | hbefore
    · exact h.free hbefore
    · exact htrying hbefore
  · rcases hseen.connected hconnected with hbefore | hcommitted
    · exact h.connected hbefore r hr
    · rw [hcommits hcommitted] at hr
      exact nomatch hr

theorem Watched.read (h : Watched s) (hcalm : Calm s .read) :
    Watched { s with reading := s.reading ++ [s.world.status] } := by
  have hread := h.read_iff.mpr hcalm
  have hnew : ∀ {p : Snapshot → Prop}, (∀ r ∈ s.reading, p r) → p s.world.status →
      ∀ r ∈ s.reading ++ [s.world.status], p r := by
    intro p hold hnew r hr
    rcases List.mem_append.mp hr with hr | hr
    · exact hold r hr
    · exact List.mem_singleton.mp hr ▸ hnew
  exact ⟨h.rel, h.shows, fun hfree => hnew (h.free hfree) (h.shows.free hfree),
    fun hk => hnew (h.trying hk) (h.shows.trying hk),
    fun hconnected => hnew (h.connected hconnected) (hread hconnected), h.reported⟩

theorem Watched.report (h : Watched s) {i : Nat} {snapshot : Snapshot}
    (hi : s.reading[i]? = some snapshot) : Watched { s with
      reading := s.reading.eraseIdx i
      reported := s.reported ++ [(snapshot, s.world.cell)] } := by
  have hmem : snapshot ∈ s.reading := List.mem_of_getElem? hi
  refine ⟨h.rel, h.shows, fun hfree r hr => h.free hfree r (List.mem_of_mem_eraseIdx hr),
    fun hk r hr => h.trying hk r (List.mem_of_mem_eraseIdx hr),
    fun hconnected r hr => h.connected hconnected r (List.mem_of_mem_eraseIdx hr), fun p hp => ?_⟩
  rcases List.mem_append.mp hp with hp | hp
  · exact h.reported p hp
  · rw [List.mem_singleton.mp hp]
    exact ⟨fun hconnected => h.connected hconnected snapshot hmem,
      fun hfree => h.free hfree snapshot hmem⟩

theorem Watched.step {a : WatchAct} (h : Watched s) (hcalm : Calm s a)
    (hstep : watchStep s a = some s') : Watched s' := by
  cases a with
  | task a =>
    obtain ⟨w, hw, rfl⟩ := Option.map_eq_some_iff.mp hstep
    exact h.task hcalm hw
  | read =>
    cases hstep
    exact h.read hcalm
  | report i =>
    obtain ⟨snapshot, hi, rfl⟩ := Option.map_eq_some_iff.mp hstep
    exact h.report hi

theorem watched_of_reachable (hs : Reachable watchStep Calm {} s) : Watched s := by
  refine Reachable.invariant (I := Watched) ?_ (fun _ _ _ ih hcalm hstep => ih.step hcalm hstep) hs
  refine ⟨⟨.free, rel_start⟩, ⟨fun _ => rfl, fun _ => rfl, fun _ => rfl, ?_, fun _ => rfl⟩,
    ?_, ?_, ?_, ?_⟩
  · exact fun hcell => nomatch hcell
  · exact fun _ _ hr => nomatch hr
  · exact fun _ _ hr => nomatch hr
  · exact fun _ _ hr => nomatch hr
  · exact fun _ hp => nomatch hp

theorem Watched.sound (h : Watched s) (details : Nat → Details) : Sound details s := by
  intro r hr
  rw [coherent_iff]
  exact ⟨fun hcell => h.connected hcell r hr, fun hfree => h.free hfree r hr⟩

/-- **Status calls are coherent exactly while the run is calm.**  In a calm run every status
    reported is coherent; and the next orderly step leaves every status call under way coherent
    exactly if it is calm. -/
theorem status_coherent_iff (details : Nat → Details) (s : Watch)
    (hs : Reachable watchStep Calm {} s) :
    (∀ p ∈ s.reported, Coherent (connectionStatus details p.1 p.2)) ∧
      ∀ {a s'}, watchStep s a = some s' → (∀ act, a = .task act → Orderly s.world act) →
        (Sound details s' ↔ Calm s a) := by
  have h := watched_of_reachable hs
  refine ⟨fun p hp => (coherent_iff details p.1 p.2).mpr (h.reported p hp), ?_⟩
  intro a s' hstep horderly
  refine ⟨fun hsound => ?_, fun hcalm => (h.step hcalm hstep).sound details⟩
  cases a with
  | task a =>
    obtain ⟨w, hw, rfl⟩ := Option.map_eq_some_iff.mp hstep
    refine ⟨horderly a rfl, fun hcommits => ?_, fun hends r hr => ?_⟩
    · obtain ⟨k, hk⟩ := hcommits.trying
      refine List.eq_nil_iff_forall_not_mem.mpr fun r hr => ?_
      exact ((coherent_iff details r _).mp (hsound r hr)).1 (hcommits.cell hw) (h.trying hk r hr)
    · exact ((coherent_iff details r _).mp (hsound r hr)).2 (hends.cell hw)
  | read =>
    cases hstep
    have hlast := hsound s.world.status (List.mem_append_right _ List.mem_cons_self)
    exact h.read_iff.mp ((coherent_iff details _ _).mp hlast).1
  | report i => trivial

end Watching

def askedAfter (acts : List Act) : List WatchAct := acts.map .task ++ [.read, .report 0]

theorem status_coherent_iff_asked : ∃ s s', Reachable watchStep Calm {} s ∧
    s.reported = [({ shown := some 0 }, .connected)] ∧ watchStep s .read = some s' ∧
    ∀ details, (∀ p ∈ s.reported, Coherent (connectionStatus details p.1 p.2)) ∧
      (Sound details s' ↔ Calm s .read) := by
  have hrun : (replay watchStep Calm {} (askedAfter (bringUp 0))).any
      (fun s => decide (s.reported = [({ shown := some 0 }, .connected)])) = true := by
    decide +kernel
  obtain ⟨s, hs, hreported⟩ := reachable_of_replay (askedAfter (bringUp 0)) hrun
  refine ⟨s, _, hs, hreported, rfl, fun details => ?_⟩
  obtain ⟨hcoherent, hiff⟩ := status_coherent_iff details s hs
  exact ⟨hcoherent, hiff (a := .read) rfl fun _ h => by cases h⟩

/-! ## §4. Two statuses that are not coherent. -/

def publishedActs : List Act := (bringUp 0).dropLast.dropLast.dropLast

def overtakenActs : List Act :=
  publishedActs ++ [.disconnect, .signal 0, .disconnectEnd 0, .disconnectEnd 0, .disconnectEnd 0,
    .attempt 0 .note]

/-- **A connection without a tunnel, and a tunnel without a connection.** -/
theorem status_incoherent :
    (∃ s, Reachable watchStep Anything {} s ∧ ∃ p ∈ s.reported, ∀ details,
      (connectionStatus details p.1 p.2).state = .connected ∧
        (connectionStatus details p.1 p.2).tunnel = none) ∧
    ∃ s, Reachable watchStep Anything {} s ∧ ∃ p ∈ s.reported, ∀ details,
      (connectionStatus details p.1 p.2).state = .disconnected ∧
        (connectionStatus details p.1 p.2).tunnel ≠ none ∧
        (connectionStatus details p.1 p.2).connectedSinceUnixSecs ≠ none := by
  constructor
  · have hrun : (replay watchStep Anything {} (askedAfter publishedActs)).any
        (fun s => decide (s.reported = [({}, .connected)])) = true := by
      decide +kernel
    obtain ⟨s, hs, hreported⟩ := reachable_of_replay (askedAfter publishedActs) hrun
    exact ⟨s, hs, ({}, .connected), by rw [hreported]; exact List.mem_cons_self,
      fun _ => ⟨rfl, rfl⟩⟩
  · have hrun : (replay watchStep Anything {} (askedAfter overtakenActs)).any
        (fun s => decide (s.reported = [({ shown := some 0 }, .disconnected)])) = true := by
      decide +kernel
    obtain ⟨s, hs, hreported⟩ := reachable_of_replay (askedAfter overtakenActs) hrun
    exact ⟨s, hs, ({ shown := some 0 }, .disconnected),
      by rw [hreported]; exact List.mem_cons_self,
      fun _ => ⟨rfl, Option.some_ne_none _, Option.some_ne_none _⟩⟩

end ThisConnect.Session
