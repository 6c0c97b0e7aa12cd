/-
  ThisConnect.Session.Separation
  **ONE SESSION'S END NEVER TOUCHES ANOTHER.**
-/
import ThisConnect.Session.Endings
import ThisConnect.Session.Ownership

namespace ThisConnect.Session

open Function (update)
open Transition (Reachable Anything)

/-! ## §1. What is asked. -/

def World.onBehalf (w : World) : Act → Option Nat
  | .tear k | .expire k =>
    match (w.attempts k).teardown with
    | .running b _ => some b
    | _ => none
  | .remove k => (w.attempts k).removal
  -- a disconnect is for whatever was begun last
  | .disconnect => some (w.next - 1)
  | .signal d | .disconnectEnd d => some (w.behalf d)
  | .bytes s _ _ | .loss s _ | .lossEnd s => some s
  -- `record_failure`
  | .attempt k .report | .attempt k .announce => some k
  | .connect | .attempt _ _ | .push _ => none

/-- The step from `w` to `w'` takes something from attempt or session `j`. -/
inductive Harms (w w' : World) (j : Nat) : Prop where
  | openvpn (up : (w.attempts j).spawned = true ∧ (w.attempts j).stopped = false)
      (stopped : (w'.attempts j).stopped = true)
  | policy (was : w.installed = some j) (gone : w'.installed ≠ some j)
  | listener (was : w.listener = some j) (gone : w'.listener ≠ some j)
  | capture (was : w.capture = some j) (gone : w'.capture ≠ some j)
  | prompts (was : j ∈ w.prompts) (gone : j ∉ w'.prompts)
  | state (was : w.setBy = some j) (changed : w'.cell ≠ w.cell)

/-! ## §2. What ending steps can reach. -/

variable {k b : Nat}

section Reach

variable {w w' : World} {slot : Slot} {j : Nat}

theorem not_harms (hstopped : ∀ i, (w'.attempts i).stopped = (w.attempts i).stopped)
    (hinstalled : w'.installed = w.installed) (hlistener : w'.listener = w.listener)
    (hcapture : w'.capture = w.capture) (hprompts : w'.prompts = w.prompts)
    (hcell : w'.cell = w.cell) : ¬ Harms w w' j := by
  rintro (⟨up, stopped⟩ | ⟨was, gone⟩ | ⟨was, gone⟩ | ⟨was, gone⟩ | ⟨was, gone⟩ | ⟨was, changed⟩)
  · rw [hstopped, up.2] at stopped
    cases stopped
  · exact gone (hinstalled ▸ was)
  · exact gone (hlistener ▸ was)
  · exact gone (hcapture ▸ was)
  · exact gone (hprompts ▸ was)
  · exact changed hcell

theorem latest_of_harms (hrel : Rel w slot) (htidy : Tidy w) (h : Harms w w' j)
    (hstopped : (w'.attempts j).stopped = (w.attempts j).stopped ∨ j + 1 = w.next)
    (hcapture : w'.capture = w.capture ∨ (w.capture = some j → j + 1 = w.next)) :
    j + 1 = w.next := by
  cases h with
  | openvpn up stopped =>
    rcases hstopped with hs | hj
    · rw [hs, up.2] at stopped
      cases stopped
    · exact hj
  | policy was gone =>
    cases hn : w.next with
    | zero =>
      rw [(htidy.unused hn).1] at was
      cases was
    | succ k => rw [((htidy.owned k hn.symm).installed j was).1]
  | listener was gone => exact hrel.occupant j (hrel.listener j was).1
  | capture was gone =>
    rcases hcapture with hc | hj
    · exact absurd (hc ▸ was) gone
    · exact hj was
  | prompts was gone =>
    cases hn : w.next with
    | zero =>
      rw [(htidy.unused hn).2] at was
      cases was
    | succ k =>
      rcases (htidy.owned k hn.symm).prompts with hp | ⟨hp, _⟩
      · rw [hp] at was
        cases was
      · rw [hp, List.mem_singleton] at was
        rw [was]
  | state was changed => exact htidy.setBy j was

theorem update_stopped {a : Attempt} (ha : a.stopped = (w.attempts k).stopped) :
    ∀ i, (update w.attempts k a i).stopped = (w.attempts i).stopped :=
  (Function.forall_update_iff w.attempts fun i a => a.stopped = (w.attempts i).stopped).mpr
    ⟨ha, fun _ _ => rfl⟩

theorem enderStep_stopped {final : SessionState} {snapshot : Snapshot} {ender : Ender}
    {r : World × Option Ender} (hstep : enderStep w b final snapshot ender = some r) (i : Nat) :
    (r.1.attempts i).stopped = (w.attempts i).stopped := by
  obtain ⟨_, hi⟩ := (enderStep_frame hstep).2.2.2 i
  rw [hi]

theorem tear_reach {stage : Stage} (hrel : Rel w slot) (htidy : Tidy w)
    (htd : (w.attempts k).teardown = .running b stage)
    {a : Attempt} (htorn : Torn w w' k a) (h : Harms w w' j) :
    j + 1 = w.next ∧ b + 1 = w.next := by
  have hk : k + 1 = w.next := (hrel.slot_of_tearing htd).1
  have hb : b = k := (htidy.own k).behalf b stage htd
  refine ⟨latest_of_harms hrel htidy h ?_ (.inr fun hj => ?_), by omega⟩
  · by_cases hjk : j = k
    · exact .inr (by omega)
    · exact .inl (by rw [htorn.attempts, Function.update_of_ne hjk])
  · rcases (htidy.owned k hk).capture (hrel.bound_of_tearing htd) with hc | hc
    · rw [hc] at hj
      cases hj
    · rw [hc] at hj
      injection hj with hj
      omega

theorem running_of_onBehalf {t : Teardown}
    (h : (match t with | .running b _ => some b | _ => none) = some b) :
    ∃ stage, t = .running b stage := by
  cases t with
  | running b' stage =>
    injection h with h
    exact ⟨stage, by rw [h]⟩
  | none => cases h
  | finished => cases h

theorem report_reach (hstep : attemptStep w k .report = some w') : ¬ Harms w w' j := by
  cases hpc : (w.attempts k).pc with
  | reporting error =>
    simp only [attemptStep, hpc] at hstep
    cases hstep
    exact not_harms (update_stopped rfl) rfl rfl rfl rfl rfl
  | _ => simp [attemptStep, hpc] at hstep

theorem announce_reach (hrel : Rel w slot) (htidy : Tidy w)
    (hstep : attemptStep w k .announce = some w') (h : Harms w w' j) :
    j + 1 = w.next ∧ k + 1 = w.next := by
  cases hpc : (w.attempts k).pc with
  | announcing error =>
    simp only [attemptStep, hpc] at hstep
    cases hstep
    have hk : k + 1 = w.next := (hrel.slot_of_trying (k := k) (by rw [hpc]; rfl)).2.2
    refine ⟨latest_of_harms hrel htidy h (.inl ?_) (.inl ?_), hk⟩
    · simp only [World.setAttempt, publish_attempts]
      apply update_stopped
      rfl
    · simp [World.setAttempt]
  | _ => simp [attemptStep, hpc] at hstep

theorem signal_reach {d : Nat} (hstep : signalStep w d = some w') : ¬ Harms w w' j := by
  unfold signalStep at hstep
  split at hstep <;> cases hstep
  unfold World.sendCancel
  split
  · exact not_harms (update_stopped rfl) rfl rfl rfl rfl rfl
  · exact not_harms (fun _ => rfl) rfl rfl rfl rfl rfl

theorem ending_reach {a : Act} (hrel : Rel w slot) (htidy : Tidy w) (hapart : Apart w a)
    (hstep : step w a = some w') (hb : w.onBehalf a = some b) (h : Harms w w' j) :
    j + 1 = w.next ∧ b + 1 = w.next := by
  cases a with
  | connect => cases hb
  | push k => cases hb
  | attempt k move =>
    cases move with
    | report => exact absurd h (report_reach hstep)
    | announce =>
      injection hb with hb
      exact hb ▸ announce_reach hrel htidy hstep h
    | _ => cases hb
  | tear k =>
    obtain ⟨stage, htd⟩ := running_of_onBehalf hb
    obtain ⟨a, htorn⟩ := torn_of_tear hstep
    exact tear_reach hrel htidy htd htorn h
  | expire k =>
    obtain ⟨stage, htd⟩ := running_of_onBehalf hb
    obtain ⟨a, htorn⟩ := torn_of_expire hstep
    exact tear_reach hrel htidy htd htorn h
  | remove k =>
    obtain ⟨a, htorn⟩ := torn_of_remove hstep
    exact tear_reach hrel htidy ((htidy.own k).removal b hb) htorn h
  | disconnect =>
    injection hb with hb
    have hj : j + 1 = w.next := by
      simp only [step] at hstep
      split at hstep
      · cases hstep
        refine latest_of_harms hrel htidy h (.inl ?_) (.inl ?_) <;> simp [World.setDisconnect]
      · cases hstep
        exact absurd h (not_harms (fun _ => rfl) rfl rfl rfl rfl rfl)
    omega
  | signal d => exact absurd h (signal_reach hstep)
  | disconnectEnd d =>
    injection hb with hb
    simp only [step, disconnectEndStep] at hstep
    split at hstep
    · next ender hd =>
      obtain ⟨r, hr, rfl⟩ := Option.map_eq_some_iff.mp hstep
      have hcapture := (enderStep_frame hr).2.2.1
      have hlatest := htidy.claimant (.disconnect d) ender
        (by simp [World.ender, hd, Disconnect.ender])
      exact ⟨latest_of_harms hrel htidy h (.inl (enderStep_stopped hr j)) (.inl hcapture),
        hb ▸ hlatest⟩
    · cases hstep
  | bytes s bytesIn bytesOut =>
    simp only [step] at hstep
    obtain ⟨_, ⟨⟩⟩ := some_of_guard hstep
    exact absurd h (not_harms (fun _ => rfl) rfl rfl rfl rfl rfl)
  | loss s reason =>
    injection hb with hb
    refine ⟨?_, hb ▸ hapart.loss_latest hrel⟩
    simp only [step, lossStep] at hstep
    split at hstep
    · cases hstep
      refine latest_of_harms hrel htidy h (.inl ?_) (.inl (by simp [World.setAttempt]))
      simp only [World.setAttempt, publish_attempts]
      apply update_stopped
      rfl
    · cases hstep
  | lossEnd s =>
    injection hb with hb
    simp only [step, lossEndStep] at hstep
    split at hstep
    · next reason ender hs =>
      obtain ⟨r, hr, rfl⟩ := Option.map_eq_some_iff.mp hstep
      have hcapture := (enderStep_frame hr).2.2.1
      have hlatest := htidy.claimant (.loss s) ender
        (by simp [World.ender, hs, Supervisor.ender])
      refine ⟨latest_of_harms hrel htidy h (.inl ?_) (.inl hcapture), hb ▸ hlatest⟩
      rw [← enderStep_stopped hr j]
      apply update_stopped
      rfl
    · cases hstep

end Reach

/-! ## §3. Endings keep apart. -/

theorem tidy_of_reachable {w : World} (h : Reachable step Apart World.start w) :
    ∃ slot, Rel w slot ∧ Tidy w := by
  refine h.invariant (I := fun w => ∃ slot, Rel w slot ∧ Tidy w) ⟨.free, rel_start, tidy_start⟩ ?_
  rintro w a w' ⟨slot, hrel, htidy⟩ hapart hstep
  obtain ⟨slot', hrel'⟩ := rel_step hrel hapart.orderly hstep
  exact ⟨slot', hrel', tidy_step hrel htidy hapart hstep⟩

/-- **One session's end never touches another session.** -/
theorem endings_keep_apart {w w' : World} {a : Act} {k j : Nat}
    (h : Reachable step Apart World.start w) (hapart : Apart w a) (hstep : step w a = some w')
    (hk : w.onBehalf a = some k) (hne : j ≠ k) : ¬ Harms w w' j := by
  intro hharm
  obtain ⟨slot, hrel, htidy⟩ := tidy_of_reachable h
  obtain ⟨hj, hk'⟩ := ending_reach hrel htidy hapart hstep hk hharm
  omega

/-- The teardown of session 1, after session 0 came and went. -/
theorem endings_keep_apart_second : ∃ w w', Reachable step Apart World.start w ∧
    step w (.tear 1) = some w' ∧ w.onBehalf (.tear 1) = some 1 ∧ ¬ Harms w w' 0 := by
  have hrun : ∃ w, Reachable step Apart World.start w ∧
      (w.onBehalf (.tear 1) = some 1 ∧ (step w (.tear 1)).isSome = true) :=
    Transition.reachable_of_replay
      (bringUp 0 ++ takeDown 0 0 ++ [.loss 0 .channelClosed, .lossEnd 0, .lossEnd 0, .lossEnd 0] ++
        bringUp 1 ++ [.disconnect, .signal 1, .disconnectEnd 1]) (by decide +kernel)
  obtain ⟨w, hw, hk, hsome⟩ := hrun
  obtain ⟨w', hstep⟩ := Option.isSome_iff_exists.mp hsome
  have hapart : Apart w (.tear 1) := trivial
  exact ⟨w, w', hw, hstep, hk, endings_keep_apart hw hapart hstep hk (by decide)⟩

def staleLossSchedule : List Act :=
  bringUp 0 ++ takeDown 0 0 ++ bringUp 1 ++
    [.loss 0 .channelClosed, .lossEnd 0, .tear 1, .tear 1, .tear 1, .remove 1, .tear 1]

theorem staleLossSchedule_stops_other : ∃ w w', Reachable step Anything World.start w ∧
    step w (.tear 1) = some w' ∧ w.onBehalf (.tear 1) = some 0 ∧ Harms w w' 1 := by
  have hrun : ∃ w, Reachable step Anything World.start w ∧
      (w.onBehalf (.tear 1) = some 0 ∧ ((w.attempts 1).spawned = true ∧
        (w.attempts 1).stopped = false) ∧
          (step w (.tear 1)).any (fun w' => (w'.attempts 1).stopped) = true) :=
    Transition.reachable_of_replay staleLossSchedule (by decide +kernel)
  obtain ⟨w, hw, hk, hup, hstopped⟩ := hrun
  cases hstep : step w (.tear 1) with
  | none =>
    rw [hstep] at hstopped
    cases hstopped
  | some w' =>
    rw [hstep] at hstopped
    exact ⟨w, w', hw, hstep, hk, .openvpn hup hstopped⟩

end ThisConnect.Session
