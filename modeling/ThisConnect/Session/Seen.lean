/-
  ThisConnect.Session.Seen
  **WHAT A STEP SHOWS.**

  Main results:
    • `step_seen` — every step of every task is one of these.
-/
import ThisConnect.Session.Enders

namespace ThisConnect.Session

open Function (update)

/-! ## §1. The relation. -/

def Act.committer : Act → Option Nat
  | .attempt k .commit => some k
  | _ => none

def Act.claimant : Act → Option Claim
  | .disconnectEnd d => some (.disconnect d)
  | .lossEnd s => some (.loss s)
  | _ => none

/-- A connect publishes `Connected`. -/
def Commits (w : World) (a : Act) : Prop :=
  ∃ k ∈ a.committer, (w.attempts k).pc = .established ∧
    (w.cell = .connecting ∨ w.cell = .authenticating)

def Ends (w : World) (a : Act) : Prop := ∃ claim ∈ a.claimant, w.ender claim = some .forcing

def NoneNewlyForcing (w w' : World) : Prop :=
  ∀ claim, w'.ender claim = some .forcing → w.ender claim = some .forcing

/-- One attempt moves on, and no other. -/
structure Advances (w w' : World) (k : Nat) (p p' : Pc) : Prop where
  before : (w.attempts k).pc = p
  after : (w'.attempts k).pc = p'
  others : ∀ j, j ≠ k → (w'.attempts j).pc = (w.attempts j).pc
  forcing : NoneNewlyForcing w w'

inductive Seen (w w' : World) (a : Act) : Prop where
  | quiet (hcell : w'.cell = w.cell ∨ w'.cell = .disconnecting)
      (hshown : w'.status.shown = w.status.shown)
      (hpc : ∀ k, (w'.attempts k).pc = (w.attempts k).pc) (hforcing : NoneNewlyForcing w w')
  | claim {k : Nat} {p : Pc} (hfree : w.cell.isFree = true) (hcell : w'.cell = .connecting)
      (hshown : w'.status.shown = w.status.shown) (hadvances : Advances w w' k p .claimed)
  | attempt {k : Nat} {p p' : Pc} (hp : p.isTrying = true) (hp' : p'.isTrying = true)
      (hcell : w'.cell = w.cell ∨ w'.cell = .authenticating)
      (hshown : w'.status.shown = w.status.shown ∨ w'.status.shown = none)
      (hadvances : Advances w w' k p p') (hact : ∃ move, a = .attempt k move)
  | commit {k : Nat} (hcommits : Commits w a) (hcell : w'.cell = .connected)
      (hshown : w'.status.shown = w.status.shown)
      (hadvances : Advances w w' k .established .committed) (hact : ∃ move, a = .attempt k move)
  | note {k : Nat} (hcell : w'.cell = w.cell) (hshown : w'.status.shown = some k)
      (hadvances : Advances w w' k .committed .noted)
  | keep {k : Nat} {p p' : Pc} (hp : p.isTrying = false ∧ p ≠ .committed)
      (hp' : p'.isTrying = false ∧ p' ≠ .committed) (hcell : w'.cell = w.cell)
      (hshown : w'.status.shown = w.status.shown) (hadvances : Advances w w' k p p')
      (hact : ∃ move, a = .attempt k move)
  | announce {k : Nat} {p : Pc} (hp : p.isTrying = true) (hcell : w'.cell.isFree = true)
      (hshown : w'.status.shown = w.status.shown) (hadvances : Advances w w' k p .failed)
      (hact : ∃ move, a = .attempt k move)
  | clear (claim : Claim) (hender : w.ender claim = some .noting) (hcell : w'.cell = w.cell)
      (hshown : w'.status.shown = none)
      (hpc : ∀ k, (w'.attempts k).pc = (w.attempts k).pc)
  | finish (claim : Claim) (hends : Ends w a) (hender : w.ender claim = some .forcing)
      (hcell : w'.cell.isFree = true) (hshown : w'.status.shown = w.status.shown)
      (hpc : ∀ k, (w'.attempts k).pc = (w.attempts k).pc) (hforcing : NoneNewlyForcing w w')

section Seen

variable {w w' : World} {slot : Slot} {k : Nat}

variable {a : Attempt} {move : Move} {cell state final : SessionState} {act : Act} {d s b : Nat}
  {ender : Ender} {r : World × Option Ender} {snapshot : Snapshot}

theorem advances_of_update {p p' : Pc} (hp : (w.attempts k).pc = p) (hp' : a.pc = p')
    (hattempts : w'.attempts = update w.attempts k a)
    (hdisconnects : w'.disconnects = w.disconnects)
    (hsupervisor : a.supervisor.ender = some .forcing →
      (w.attempts k).supervisor.ender = some .forcing) : Advances w w' k p p' := by
  refine ⟨hp, by rw [hattempts, Function.update_self, hp'], fun j hj => ?_, fun claim => ?_⟩
  · rw [hattempts, Function.update_of_ne hj]
  · cases claim with
    | disconnect d =>
      simp only [World.ender, hdisconnects]
      exact id
    | loss s =>
      simp only [World.ender, hattempts]
      exact (Function.forall_update_iff w.attempts fun s a => a.supervisor.ender = some .forcing →
        (w.attempts s).supervisor.ender = some .forcing).mpr ⟨hsupervisor, fun _ _ => id⟩ s

theorem seen_try (hp : (w.attempts k).pc.isTrying = true) (hp' : a.pc.isTrying = true)
    (hattempts : w'.attempts = update w.attempts k a)
    (hdisconnects : w'.disconnects = w.disconnects)
    (hsupervisor : a.supervisor = (w.attempts k).supervisor)
    (hcell : w'.cell = w.cell ∨ w'.cell = .authenticating)
    (hshown : w'.status.shown = w.status.shown ∨ w'.status.shown = none) :
    Seen w w' (.attempt k move) :=
  .attempt hp hp' hcell hshown
    (advances_of_update rfl rfl hattempts hdisconnects (fun h => hsupervisor ▸ h)) ⟨move, rfl⟩

theorem publish_setAttempt_disconnects (state : SessionState) (a : Attempt) :
    ((w.publish state k).setAttempt k a).disconnects = w.disconnects := by
  simp [World.setAttempt]

theorem advance_connected (h : cell.advance .connected = .ok state) (hcell : cell ≠ .connected) :
    state = .connected ∧ (cell = .connecting ∨ cell = .authenticating) := by
  cases cell <;> simp_all [SessionState.advance, SessionState.permits]

theorem seen_commit (hrel : Rel w slot) (hpc : (w.attempts k).pc = .established)
    (hadvance : w.cell.advance .connected = .ok state) :
    Seen w ((w.publish state k).setAttempt k { w.attempts k with pc := .committed })
      (.attempt k .commit) := by
  obtain ⟨rfl, _, _⟩ := hrel.slot_of_trying (k := k) (by rw [hpc]; rfl)
  have hcell : w.cell ≠ .connected := by
    rcases hrel.cell with h | h | h <;> simp [h]
  obtain ⟨rfl, hflight⟩ := advance_connected hadvance hcell
  exact .commit ⟨k, rfl, hpc, hflight⟩ (by simp [World.setAttempt]) (by simp [World.setAttempt])
    (advances_of_update hpc rfl (publish_setAttempt_attempts _ _)
      (publish_setAttempt_disconnects _ _) id) ⟨.commit, rfl⟩

theorem seen_attempt (hrel : Rel w slot) (hstep : attemptStep w k move = some w') :
    Seen w w' (.attempt k move) := by
  cases moved_of_attemptStep hrel hstep with
  | pass hpc hpc' hkeeps htrying hcancel hcapture hshown =>
    exact seen_try (Pc.isTrying_of_passes hpc).1 hpc' rfl rfl hkeeps.supervisor (.inl rfl) hshown
  | unwind hpc error =>
    exact seen_try (Pc.isTrying_of_unwinds hpc) rfl rfl rfl rfl (.inl rfl) (.inl rfl)
  | enter hpc hadvance =>
    exact seen_try (by rw [hpc]; rfl) rfl (publish_setAttempt_attempts _ _)
      (publish_setAttempt_disconnects _ _) rfl
      (.inr (by simpa [World.setAttempt] using advance_authenticating hadvance))
      (.inl (by simp [World.setAttempt]))
  | ask hpc | answer hpc | install hpc | clear hpc | publish hpc | unwound hpc =>
    exact seen_try (by rw [hpc]; rfl) rfl rfl rfl rfl (.inl rfl) (.inl rfl)
  | commit hmove hpc hadvance =>
    subst hmove
    exact seen_commit hrel hpc hadvance
  | note hpc => exact .note rfl rfl (advances_of_update hpc rfl rfl rfl id)
  | store hpc =>
    exact .keep ⟨rfl, Pc.noConfusion⟩ ⟨rfl, Pc.noConfusion⟩ rfl rfl
      (advances_of_update hpc rfl rfl rfl id) ⟨move, rfl⟩
  | supervise hpc =>
    exact .keep ⟨rfl, Pc.noConfusion⟩ ⟨rfl, Pc.noConfusion⟩ rfl rfl
      (advances_of_update hpc rfl rfl rfl (fun h => by cases h)) ⟨move, rfl⟩
  | announce hpc hstate =>
    refine .announce (p := .announcing _) rfl ?_ (by simp [World.setAttempt])
      (advances_of_update hpc rfl (publish_setAttempt_attempts _ _)
        (publish_setAttempt_disconnects _ _) id) ⟨move, rfl⟩
    rcases hstate with rfl | rfl <;> simp [World.setAttempt, SessionState.isFree]

theorem seen_same (hcell : w'.cell = w.cell) (hstatus : w'.status.shown = w.status.shown)
    (hender : w'.ender = w.ender) (hpc : ∀ j, (w'.attempts j).pc = (w.attempts j).pc) :
    Seen w w' act :=
  .quiet (.inl hcell) hstatus hpc fun _ hclaim => hender ▸ hclaim

theorem Torn.seen (h : Torn w w' k a) : Seen w w' act := by
  refine seen_same h.cell (by rw [h.status])
    (ender_update h.disconnects h.attempts (by rw [h.supervisor])) ?_
  rw [h.attempts]
  exact (Function.forall_update_iff w.attempts fun j a => a.pc = (w.attempts j).pc).mpr
    ⟨h.pc, fun _ _ => rfl⟩

theorem isFree_of_beginConnect (h : cell.beginConnect = .ok state) :
    cell.isFree = true ∧ state = .connecting := by
  cases cell <;> simp_all [SessionState.beginConnect, SessionState.isBusy, SessionState.isFree]

theorem beginDisconnect_ok (h : cell.beginDisconnect = .ok state) :
    state = .disconnecting := by
  cases cell <;> simp_all [SessionState.beginDisconnect, SessionState.isBusy]

theorem seen_connect (hstep : step w .connect = some w') : Seen w w' .connect := by
  simp only [step] at hstep
  split at hstep
  · next state hbegin =>
    cases hstep
    obtain ⟨hfree, rfl⟩ := isFree_of_beginConnect hbegin
    exact .claim hfree (by simp [World.setAttempt]) (by simp [World.setAttempt])
      (advances_of_update (k := w.next) (a := { pc := .claimed }) rfl rfl
        (by simp [World.setAttempt]) (by simp [World.setAttempt]) (fun h => by cases h))
  · cases hstep
    exact seen_same rfl rfl rfl fun _ => rfl

theorem forcing_of_disconnect {p : Disconnect} (hp : p.ender ≠ some .forcing)
    (hender : w'.ender = w.ender) : NoneNewlyForcing w (w'.setDisconnect d p) := by
  intro claim hclaim
  by_cases hd : claim = .disconnect d
  · subst hd
    simp only [World.ender, World.setDisconnect, Function.update_self] at hclaim
    exact absurd hclaim hp
  · rw [ender_setDisconnect _ _ hd, hender] at hclaim
    exact hclaim

theorem forcing_of_supervisor (ha : a.supervisor.ender ≠ some .forcing)
    (hender : w'.ender = w.ender) : NoneNewlyForcing w (w'.setAttempt s a) := by
  intro claim hclaim
  by_cases hs : claim = .loss s
  · subst hs
    simp only [World.ender, World.setAttempt, Function.update_self] at hclaim
    exact absurd hclaim ha
  · rw [ender_setAttempt _ _ hs, hender] at hclaim
    exact hclaim

theorem seen_disconnect (hstep : step w .disconnect = some w') : Seen w w' .disconnect := by
  simp only [step] at hstep
  split at hstep
  · next state hbegin =>
    cases hstep
    obtain rfl := beginDisconnect_ok hbegin
    refine .quiet (.inr (by simp [World.setDisconnect])) (by simp [World.setDisconnect])
      (by simp [World.setDisconnect]) (forcing_of_disconnect ?_ (publish_ender _))
    simp only [Disconnect.ender]
    split <;> simp
  · cases hstep
    exact seen_same rfl rfl rfl fun _ => rfl

theorem sendCancel_frame (w : World) : w.sendCancel.cell = w.cell ∧
    w.sendCancel.status = w.status ∧ w.sendCancel.ender = w.ender ∧
    ∀ j, (w.sendCancel.attempts j).pc = (w.attempts j).pc := by
  unfold World.sendCancel
  split
  · exact ⟨rfl, rfl, ender_update rfl rfl rfl, (Function.forall_update_iff w.attempts fun j a =>
      a.pc = (w.attempts j).pc).mpr ⟨rfl, fun _ _ => rfl⟩⟩
  · exact ⟨rfl, rfl, rfl, fun _ => rfl⟩

theorem seen_signal (hstep : signalStep w d = some w') : Seen w w' (.signal d) := by
  unfold signalStep at hstep
  split at hstep
  · next previous _ =>
    cases hstep
    obtain ⟨hcell, hstatus, hender, hpc⟩ := sendCancel_frame w
    refine .quiet (.inl hcell) (congrArg Snapshot.shown hstatus) hpc
      (forcing_of_disconnect ?_ hender)
    split <;> simp [Disconnect.ender]
  · cases hstep

theorem enderStep_cases (hstep : enderStep w b final snapshot ender = some r) :
    (r.1.cell = w.cell ∧ r.1.status = w.status ∧ r.2 ≠ some .forcing) ∨
      (ender = .noting ∧ r = ({ w with status := snapshot }, some .forcing)) ∨
      (ender = .forcing ∧ r = (w.publish final b, none)) := by
  unfold enderStep at hstep
  split at hstep
  · split at hstep
    · cases hstep
      exact .inl ⟨rfl, rfl, by simp⟩
    · cases hstep
      exact .inl ⟨rfl, rfl, by simp⟩
  · split at hstep
    · cases hstep
      exact .inl ⟨rfl, rfl, by simp⟩
    · cases hstep
  · cases hstep
    exact .inr (.inl ⟨rfl, rfl⟩)
  · cases hstep
    exact .inr (.inr ⟨rfl, rfl⟩)

theorem enderStep_pc (hstep : enderStep w b final snapshot ender = some r) (j : Nat) :
    (r.1.attempts j).pc = (w.attempts j).pc := by
  obtain ⟨_, hj⟩ := (enderStep_frame hstep).2.2.2 j
  rw [hj]

theorem seen_disconnectEnd (hstep : disconnectEndStep w d = some w') :
    Seen w w' (.disconnectEnd d) := by
  unfold disconnectEndStep at hstep
  split at hstep
  · next ender hd =>
    obtain ⟨r, hr, rfl⟩ := Option.map_eq_some_iff.mp hstep
    have hpc := enderStep_pc hr
    have hender : w.ender (.disconnect d) = some ender := by
      simp [World.ender, hd, Disconnect.ender]
    rcases enderStep_cases hr with ⟨hcell, hstatus, hnot⟩ | ⟨rfl, rfl⟩ | ⟨rfl, rfl⟩
    · exact .quiet (.inl hcell) (congrArg Snapshot.shown hstatus) hpc
        (forcing_of_disconnect (by rw [Disconnect.ender_after]; exact hnot) (enderStep_ender hr))
    · exact .clear (.disconnect d) hender rfl rfl hpc
    · exact .finish (.disconnect d) ⟨_, rfl, hender⟩ hender
        (by simp [World.setDisconnect, SessionState.isFree]) (by simp [World.setDisconnect]) hpc
        (forcing_of_disconnect (by simp [Disconnect.after, Disconnect.ender]) (enderStep_ender hr))
  · cases hstep

theorem seen_lossEnd (hstep : lossEndStep w s = some w') : Seen w w' (.lossEnd s) := by
  unfold lossEndStep at hstep
  split at hstep
  · next reason ender hs =>
    obtain ⟨r, hr, rfl⟩ := Option.map_eq_some_iff.mp hstep
    have hender : w.ender (.loss s) = some ender := by simp [World.ender, hs, Supervisor.ender]
    have hpc : ∀ j, ((r.1.setAttempt s
        { r.1.attempts s with supervisor := .after reason r.2 }).attempts j).pc =
          (w.attempts j).pc :=
      (Function.forall_update_iff r.1.attempts fun j a => a.pc = (w.attempts j).pc).mpr
        ⟨enderStep_pc hr s, fun j _ => enderStep_pc hr j⟩
    have hforcing : r.2 ≠ some .forcing → NoneNewlyForcing w (r.1.setAttempt s
        { r.1.attempts s with supervisor := .after reason r.2 }) := fun hnot =>
      forcing_of_supervisor (by rw [Supervisor.ender_after]; exact hnot) (enderStep_ender hr)
    rcases enderStep_cases hr with ⟨hcell, hstatus, hnot⟩ | ⟨rfl, rfl⟩ | ⟨rfl, rfl⟩
    · exact .quiet (.inl hcell) (congrArg Snapshot.shown hstatus) hpc (hforcing hnot)
    · exact .clear (.loss s) hender rfl rfl hpc
    · exact .finish (.loss s) ⟨_, rfl, hender⟩ hender
        (by simp [World.setAttempt, SessionState.isFree]) (by simp [World.setAttempt]) hpc
        (hforcing (by simp))
  · cases hstep

theorem seen_loss {reason : LossReason} (hstep : lossStep w s reason = some w') :
    Seen w w' (.loss s reason) := by
  unfold lossStep at hstep
  split at hstep
  · cases hstep
    refine .quiet (.inr (by simp [World.setAttempt])) (by simp [World.setAttempt]) ?_
      (forcing_of_supervisor (by simp [Supervisor.ender]) (publish_ender _))
    simp only [World.setAttempt, publish_attempts]
    exact (Function.forall_update_iff w.attempts fun j a => a.pc = (w.attempts j).pc).mpr
      ⟨rfl, fun _ _ => rfl⟩
  · cases hstep

theorem step_seen {a : Act} (hrel : Rel w slot) (hstep : step w a = some w') : Seen w w' a := by
  cases a with
  | connect => exact seen_connect hstep
  | attempt k move => exact seen_attempt hrel hstep
  | push k =>
    simp only [step] at hstep
    obtain ⟨_, ⟨⟩⟩ := some_of_guard hstep
    exact seen_same rfl rfl rfl fun _ => rfl
  | tear k =>
    obtain ⟨a, htorn⟩ := torn_of_tear hstep
    exact htorn.seen
  | expire k =>
    obtain ⟨a, htorn⟩ := torn_of_expire hstep
    exact htorn.seen
  | remove k =>
    obtain ⟨a, htorn⟩ := torn_of_remove hstep
    exact htorn.seen
  | disconnect => exact seen_disconnect hstep
  | signal d => exact seen_signal hstep
  | disconnectEnd d => exact seen_disconnectEnd hstep
  | bytes s bytesIn bytesOut =>
    simp only [step] at hstep
    split at hstep
    · cases hstep
      exact seen_same rfl rfl rfl fun _ => rfl
    · cases hstep
  | loss s reason => exact seen_loss hstep
  | lossEnd s => exact seen_lossEnd hstep

end Seen

end ThisConnect.Session
