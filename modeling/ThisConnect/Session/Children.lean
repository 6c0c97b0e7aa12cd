/-
  ThisConnect.Session.Children
  **THE OPENVPN PROCESSES BEHIND THE ATTEMPTS.**

  Main results:
    • `one_openvpn` — in an orderly run in which openvpn is spawned only when no
      orphan is left, at most one attempt has an openvpn whose teardown has not
      finished, and a connect is refused while one is up or being torn down,
    • `second_openvpn` — without either ordering there are two.
-/
import ThisConnect.Session.Process
import ThisConnect.Session.Separation

namespace ThisConnect.Session

open Function (update)
open Transition (Reachable Anything)

/-! ## §1. Tasks and children. -/

structure Host where
  world : World := {}
  children : Nat → Process.Control := fun _ => {}

inductive HostAct where
  | task (a : Act)
  | child (k : Nat) (a : Process.Act)
  deriving DecidableEq, Repr

namespace Host

def childAfter (h : Host) (w' : World) (a : Act) (k : Nat) : Process.Control :=
  let c :=
    if a = .attempt k (.spawn none) then { child := .running }
    else if a = .tear k then
      match (h.world.attempts k).teardown with
      -- the management channel is closed, then `terminate`
      | .running _ .signal => (h.children k).request .term
      -- the grace period is over: `kill`, unless the exit was seen
      | .running _ .terminate => (h.children k).request .kill
      | _ => h.children k
    else h.children k
  -- the last handle on the stop channel goes with the resources
  if (w'.attempts k).released then { c with closed := true } else c

def step (h : Host) : HostAct → Option Host
  | .task a => (Session.step h.world a).map fun w' => ⟨w', h.childAfter w' a⟩
  | .child k a =>
    (Process.step (h.children k) a).map fun c => { h with children := update h.children k c }

/-- openvpn was spawned, and no teardown of the attempt has finished; an attempt that was dropped
    without one is over when its child has been reaped. -/
def Standing (h : Host) (k : Nat) : Prop :=
  (h.world.attempts k).spawned = true ∧ (h.world.attempts k).teardown ≠ .finished ∧
    ((h.world.attempts k).released = true → (h.children k).child ≠ .exited)

/-- Dropped without a teardown, and not yet reaped. -/
def Orphan (h : Host) (k : Nat) : Prop := h.Standing k ∧ (h.world.attempts k).released = true

instance (h : Host) (k : Nat) : Decidable (h.Standing k) :=
  inferInstanceAs (Decidable (_ ∧ _ ∧ _))

instance (h : Host) (k : Nat) : Decidable (h.Orphan k) := inferInstanceAs (Decidable (_ ∧ _))

/-- The tasks are orderly, and openvpn is spawned only when no orphan is left. -/
def Orderly (h : Host) : HostAct → Prop
  | .task a => Session.Orderly h.world a ∧
      ∀ k < h.world.next, a = .attempt k (.spawn none) → ∀ j < h.world.next, ¬ h.Orphan j
  | .child _ _ => True

instance (h : Host) (a : HostAct) : Decidable (h.Orderly a) :=
  match a with
  | .task a => inferInstanceAs (Decidable (Session.Orderly h.world a ∧
      ∀ k < h.world.next, a = .attempt k (.spawn none) → ∀ j < h.world.next, ¬ h.Orphan j))
  | .child _ _ => isTrue trivial

end Host

/-! ## §2. What lasts. -/

structure Attempt.Lasts (a a' : Attempt) : Prop where
  spawned : a'.spawned = true → a.spawned = true
  finished : a.teardown = .finished → a'.teardown = .finished
  released : a.released = true → a'.released = true

section Steps

variable {w w' : World} {slot : Slot} {k i : Nat}

theorem Attempt.Lasts.refl (a : Attempt) : a.Lasts a := ⟨id, id, id⟩

theorem lasts_of_update {attempts : Nat → Attempt} {a : Attempt}
    (h : k = i → (attempts i).Lasts a) : (attempts k).Lasts (update attempts i a k) := by
  by_cases hki : k = i
  · subst hki
    rw [Function.update_self]
    exact h rfl
  · rw [Function.update_of_ne hki]
    exact .refl _

theorem lasts_of_torn {a : Attempt} (h : Torn w w' i a) :
    (w.attempts k).Lasts (w'.attempts k) := by
  rw [h.attempts]
  refine lasts_of_update fun _ => ⟨?_, h.finished, h.released⟩
  rw [h.spawned]
  exact id

theorem lasts_of_attemptStep {move : Move} (hrel : Rel w slot)
    (hmove : k = i → move ≠ .spawn none) (hstep : attemptStep w i move = some w') :
    (w.attempts k).Lasts (w'.attempts k) := by
  cases moved_of_attemptStep hrel hstep with
  | pass _ _ hkeeps _ _ _ _ hspawned =>
    refine lasts_of_update fun hki => ⟨?_, fun hf => hkeeps.teardown.trans hf, hkeeps.released⟩
    rcases hspawned with hspawn | hspawned
    · exact absurd hspawn (hmove hki)
    · rw [hspawned]
      exact id
  | unwind hpc error =>
    -- a failure with resources in hand comes before any teardown
    refine lasts_of_update fun _ => ⟨id, fun hfinished => ?_, id⟩
    have hnone := (hrel.slot_of_trying (Pc.isTrying_of_unwinds hpc)).2.1.teardown_none hpc
    rw [hfinished] at hnone
    cases hnone
  | enter | commit | announce =>
    simp only [World.setAttempt, publish_attempts]
    exact lasts_of_update fun _ => ⟨id, id, id⟩
  | ask | answer | install | clear | publish | note | store | supervise | unwound =>
    exact lasts_of_update fun _ => ⟨id, id, id⟩

theorem Held.teardown_of_active (h : Held w slot) (hactive : w.active = some k) :
    (w.attempts k).teardown = .none := by
  have hholds : slot.holds = some k := h.active.symm.trans hactive
  cases slot with
  | serving i c =>
    injection hholds with hik
    subst hik
    have hlatest := h.occupant i rfl
    have hrole := h.role i (by omega)
    simp only [Slot.role, if_true] at hrole
    exact hrole.2
  | _ => exact absurd hholds (by simp [Slot.holds])

theorem lasts_of_enderStep (hrel : Rel w slot) {b : Nat} {final : SessionState}
    {snapshot : Snapshot} {ender : Ender} {r : World × Option Ender}
    (hstep : enderStep w b final snapshot ender = some r) :
    (w.attempts k).Lasts (r.1.attempts k) := by
  unfold enderStep at hstep
  split at hstep
  · split at hstep
    · next j hactive =>
      injection hstep with hstep
      subst hstep
      refine lasts_of_update fun _ => ⟨id, fun hfinished => ?_, id⟩
      rw [hrel.teardown_of_active hactive] at hfinished
      cases hfinished
    · injection hstep with hstep
      exact hstep ▸ .refl _
  · obtain ⟨_, ⟨⟩⟩ := some_of_guard hstep
    exact .refl _
  · injection hstep with hstep
    exact hstep ▸ .refl _
  · injection hstep with hstep
    subst hstep
    rw [publish_attempts]
    exact .refl _

theorem lasts_of_step {a : Act} (hrel : Rel w slot) (hspawn : a ≠ .attempt k (.spawn none))
    (hstep : step w a = some w') : (w.attempts k).Lasts (w'.attempts k) := by
  cases a with
  | connect =>
    simp only [step] at hstep
    split at hstep
    · injection hstep with hstep
      subst hstep
      simp only [World.setAttempt, publish_attempts]
      refine lasts_of_update fun _ => ?_
      rw [hrel.future _ (Nat.le_refl _)]
      exact ⟨id, id, id⟩
    · injection hstep with hstep
      exact hstep ▸ .refl _
  | attempt i move =>
    refine lasts_of_attemptStep hrel (fun hki hmove => hspawn ?_) hstep
    rw [hki, hmove]
  | push i =>
    simp only [step] at hstep
    obtain ⟨_, ⟨⟩⟩ := some_of_guard hstep
    exact .refl _
  | tear i =>
    obtain ⟨a, htorn⟩ := torn_of_tear hstep
    exact lasts_of_torn htorn
  | expire i =>
    obtain ⟨a, htorn⟩ := torn_of_expire hstep
    exact lasts_of_torn htorn
  | remove i =>
    obtain ⟨a, htorn⟩ := torn_of_remove hstep
    exact lasts_of_torn htorn
  | disconnect =>
    simp only [step] at hstep
    split at hstep
    · injection hstep with hstep
      subst hstep
      simp only [World.setDisconnect, publish_attempts]
      exact .refl _
    · injection hstep with hstep
      exact hstep ▸ .refl _
  | signal d =>
    simp only [step, signalStep] at hstep
    split at hstep
    · injection hstep with hstep
      subst hstep
      show (w.attempts k).Lasts (w.sendCancel.attempts k)
      unfold World.sendCancel
      split
      · exact lasts_of_update fun _ => ⟨id, id, id⟩
      · exact .refl _
    · cases hstep
  | disconnectEnd d =>
    simp only [step, disconnectEndStep] at hstep
    split at hstep
    · obtain ⟨r, hr, rfl⟩ := Option.map_eq_some_iff.mp hstep
      exact lasts_of_enderStep hrel hr
    · cases hstep
  | bytes s bytesIn bytesOut =>
    simp only [step] at hstep
    obtain ⟨_, ⟨⟩⟩ := some_of_guard hstep
    exact .refl _
  | loss s reason =>
    simp only [step, lossStep] at hstep
    split at hstep
    · injection hstep with hstep
      subst hstep
      simp only [World.setAttempt, publish_attempts]
      exact lasts_of_update fun _ => ⟨id, id, id⟩
    · cases hstep
  | lossEnd s =>
    simp only [step, lossEndStep] at hstep
    split at hstep
    · next reason ender _ =>
      obtain ⟨r, hr, rfl⟩ := Option.map_eq_some_iff.mp hstep
      have htaken := lasts_of_enderStep (k := k) hrel hr
      have hmarked : (r.1.attempts k).Lasts (update r.1.attempts s
          { r.1.attempts s with supervisor := .after reason r.2 } k) :=
        lasts_of_update fun _ => ⟨id, id, id⟩
      exact ⟨fun h => htaken.spawned (hmarked.spawned h), fun h => hmarked.finished
        (htaken.finished h),
        fun h => hmarked.released (htaken.released h)⟩
    · cases hstep

end Steps

/-! ## §3. One openvpn. -/

namespace Host

variable {h h' : Host} {k : Nat}

structure Single (h : Host) : Prop where
  held : ∃ slot, Rel h.world slot
  single : ∀ k j, h.Standing k → h.Standing j → k = j

theorem exited_childAfter {w' : World} {a : Act} (hspawn : a ≠ .attempt k (.spawn none))
    (hexited : (h.children k).child = .exited) : (h.childAfter w' a k).child = .exited := by
  have hrequest : ∀ stop, (h.children k).request stop = h.children k := fun stop => by
    simp [Process.Control.request, hexited]
  unfold childAfter
  rw [if_neg hspawn]
  dsimp only
  split
  · split
    · split
      · rw [hrequest]
        exact hexited
      · rw [hrequest]
        exact hexited
      · exact hexited
    · exact hexited
  · split
    · split
      · rw [hrequest]
        exact hexited
      · rw [hrequest]
        exact hexited
      · exact hexited
    · exact hexited

theorem standing_of_task {slot : Slot} {a : Act} {w' : World} (hrel : Rel h.world slot)
    (hstep : Session.step h.world a = some w') (hspawn : a ≠ .attempt k (.spawn none))
    (hk : Standing ⟨w', h.childAfter w' a⟩ k) : h.Standing k := by
  have hlasts := lasts_of_step hrel hspawn hstep
  refine ⟨hlasts.spawned hk.1, fun hfinished => hk.2.1 (hlasts.finished hfinished), ?_⟩
  intro hreleased hexited
  exact hk.2.2 (hlasts.released hreleased) (exited_childAfter hspawn hexited)

theorem standing_of_child {a : Process.Act} {i : Nat} {c : Process.Control}
    (hstep : Process.step (h.children i) a = some c)
    (hk : Standing { h with children := update h.children i c } k) : h.Standing k := by
  refine ⟨hk.1, hk.2.1, fun hreleased hexited => hk.2.2 hreleased ?_⟩
  by_cases hki : k = i
  · subst hki
    cases a <;> simp [Process.step, hexited] at hstep
  · simpa [Function.update_of_ne hki] using hexited

theorem Standing.orphan {slot : Slot} (hk : h.Standing k) (hrel : Rel h.world slot)
    (hne : slot.occupant ≠ some k) : k < h.world.next ∧ h.Orphan k := by
  have hlt : k < h.world.next := by
    by_contra hge
    have hspawned := hk.1
    rw [hrel.future k (by omega)] at hspawned
    cases hspawned
  exact ⟨hlt, hk, (hrel.settled_of_ne hlt hne).released hk.1⟩

theorem Single.step {a : HostAct} (hsingle : h.Single) (horderly : h.Orderly a)
    (hstep : h.step a = some h') : h'.Single := by
  obtain ⟨⟨slot, hrel⟩, hone⟩ := hsingle
  cases a with
  | child i a =>
    obtain ⟨c, hc, rfl⟩ := Option.map_eq_some_iff.mp hstep
    exact ⟨⟨slot, hrel⟩, fun k j hk hj => hone k j (standing_of_child hc hk)
      (standing_of_child hc hj)⟩
  | task a =>
    obtain ⟨w', hw', rfl⟩ := Option.map_eq_some_iff.mp hstep
    refine ⟨rel_step hrel horderly.1 hw', fun k j hk hj => ?_⟩
    -- whoever spawns is the one, since no orphan is left for another to be
    have hspawns : ∀ {k j}, a = .attempt k (.spawn none) →
        Standing ⟨w', h.childAfter w' a⟩ j → k = j := by
      intro k j hspawn hj
      by_contra hkj
      have hpc : (h.world.attempts k).pc = .bound := by
        subst hspawn
        cases hp : (h.world.attempts k).pc <;> simp [Session.step, attemptStep, hp] at hw' ⊢
      obtain ⟨rfl, _, hlatest⟩ := hrel.slot_of_trying (k := k) (by rw [hpc]; rfl)
      have hbefore := standing_of_task hrel hw'
        (fun heq => hkj (by rw [hspawn] at heq; cases heq; rfl)) hj
      obtain ⟨hlt, horphan⟩ := hbefore.orphan hrel (fun heq => hkj (Option.some.inj heq))
      exact horderly.2 k (by omega) hspawn j hlt horphan
    by_cases hspawnk : a = .attempt k (.spawn none)
    · exact hspawns hspawnk hj
    by_cases hspawnj : a = .attempt j (.spawn none)
    · exact (hspawns hspawnj hk).symm
    exact hone k j (standing_of_task hrel hw' hspawnk hk) (standing_of_task hrel hw' hspawnj hj)

theorem single_of_reachable (hrun : Reachable step Orderly {} h) : h.Single := by
  have hstart : Single {} :=
    ⟨⟨.free, rel_start⟩, fun k j hk => absurd hk.1 (by simp)⟩
  exact hrun.invariant hstart fun _ _ _ hsingle horderly hstep => hsingle.step horderly hstep

end Host

def failAttach (k : Nat) : List Act :=
  .connect :: ([.arm, .load none, .bind none, .spawn none, .attach (some "timed out"), .report,
    .announce] : List Move).map (.attempt k)

end ThisConnect.Session
