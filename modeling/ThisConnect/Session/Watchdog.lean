/-
  ThisConnect.Session.Watchdog
  **THE POLICY WATCHDOG, WITH ITS CLOCK.**

  Main results:
    • `answered_iff` — a trigger is answered in time exactly when it is queued
      while the loop waits for one, or when the sweep is due anyway,
    • `pause_swallows_trigger` — one queued in the pause waits for the sweep.
-/
import ThisConnect.Base.Transition
import Mathlib.Data.List.Basic

namespace ThisConnect.Watchdog

open Transition

/-! ## §1. The loop. -/

inductive Trigger where
  | deletion
  | desynchronised
  deriving DecidableEq, Repr

/-- Time is in nanoseconds. -/
def seconds (n : Nat) : Nat := n * 1000000000

def minInterval : Nat := seconds 1
def sweepInterval : Nat := seconds 30
def triggerQueue : Nat := 64

/-- Where `drive_bounded` stands. -/
inductive Phase where
  | waiting
  | picked (reason : Trigger)
  | asserting
  | pausing (wake : Nat)
  | draining
  | stopped
  deriving DecidableEq, Repr

structure Loop where
  now : Nat
  phase : Phase
  triggers : List Trigger
  sweepDue : Nat
  shutdown : Bool
  lastEnd : Nat
  deriving DecidableEq, Repr

def Loop.start (now : Nat) : Loop :=
  ⟨now, .waiting, [], now + sweepInterval, false, 0⟩

inductive Action where
  | queue (trigger : Trigger)
  | signal
  | pass (time : Nat)
  | select
  | begin
  | finish
  | wake
  | drain
  deriving DecidableEq, Repr

def nextTick (due now : Nat) : Nat :=
  if now > due + 5000000 then now + sweepInterval else due + sweepInterval

def Loop.mayPass (s : Loop) (time : Nat) : Bool :=
  match s.phase with
  | .waiting => !s.shutdown && s.triggers.isEmpty && decide (s.now + time ≤ s.sweepDue)
  | .asserting => true
  | .pausing wake => decide (s.now + time ≤ wake)
  | .stopped => true
  | .picked _ | .draining => false

def step (s : Loop) : Action → Option Loop
  | .queue trigger =>
    if s.triggers.length < triggerQueue then some { s with triggers := s.triggers ++ [trigger] }
    else none
  | .signal => some { s with shutdown := true }
  | .pass time => if s.mayPass time then some { s with now := s.now + time } else none
  | .select =>
    match s.phase with
    | .waiting =>
      -- biased: shutdown, then the channel, then the sweep
      if s.shutdown then some { s with phase := .stopped }
      else
        match s.triggers with
        | trigger :: rest => some { s with phase := .picked trigger, triggers := rest }
        | [] =>
          if s.sweepDue ≤ s.now then
            some { s with
              phase := .picked .deletion, sweepDue := nextTick s.sweepDue s.now }
          else none
    | _ => none
  | .begin =>
    match s.phase with
    | .picked _ => some { s with phase := if s.shutdown then .stopped else .asserting }
    | _ => none
  | .finish =>
    match s.phase with
    | .asserting =>
      some { s with phase := .pausing (s.now + minInterval), lastEnd := s.now }
    | _ => none
  | .wake =>
    match s.phase with
    | .pausing wake => if wake ≤ s.now then some { s with phase := .draining } else none
    | _ => none
  | .drain =>
    match s.phase with
    | .draining =>
      match s.triggers with
      | _ :: rest => some { s with triggers := rest }
      | [] => some { s with phase := .waiting }
    | _ => none

/-- A run of the watchdog nobody has told to stop. -/
def Running (s : Loop) : Prop :=
  ∃ now, Reachable step (fun _ a => a ≠ .signal) (.start now) s

def Action.quiet : Action → Bool
  | .begin | .signal => false
  | _ => true

/-- What can happen without another re-assertion beginning and without a shutdown. -/
def Quiet (s s' : Loop) : Prop := Reachable step (fun _ a => a.quiet = true) s s'

def Action.own : Action → Bool
  | .queue _ | .signal => false
  | _ => true

/-- **A trigger queued at `queued` is answered in time**: as long as no re-assertion has begun
    since, either one is still running or it is no later than `minInterval` after the trigger was
    queued and after the latest one ended; and the loop is not stuck. -/
def AnsweredInTime (queued : Nat) (s : Loop) : Prop :=
  ∀ s', Quiet s s' →
    (s'.phase = .asserting ∨ s'.now ≤ max queued s'.lastEnd + minInterval) ∧
      ∃ action : Action, action.own = true ∧ action ≠ .pass 0 ∧ (step s' action).isSome = true

def Loop.listening (s : Loop) : Bool :=
  match s.phase with
  | .waiting | .picked _ => true
  | _ => false

/-! ## §2. What a step does. -/

inductive Took (s : Loop) : Action → Loop → Prop where
  | queue {trigger : Trigger} (hroom : s.triggers.length < triggerQueue) :
      Took s (.queue trigger) { s with triggers := s.triggers ++ [trigger] }
  | signal : Took s .signal { s with shutdown := true }
  | pass {time : Nat} (hpass : s.mayPass time = true) :
      Took s (.pass time) { s with now := s.now + time }
  | stop (hphase : s.phase = .waiting) (hshutdown : s.shutdown = true) :
      Took s .select { s with phase := .stopped }
  | receive {trigger : Trigger} {rest : List Trigger} (hphase : s.phase = .waiting)
      (hshutdown : s.shutdown = false) (htriggers : s.triggers = trigger :: rest) :
      Took s .select { s with phase := .picked trigger, triggers := rest }
  | sweep (hphase : s.phase = .waiting) (hshutdown : s.shutdown = false)
      (htriggers : s.triggers = []) (hdue : s.sweepDue ≤ s.now) :
      Took s .select { s with phase := .picked .deletion, sweepDue := nextTick s.sweepDue s.now }
  | begin {reason : Trigger} (hphase : s.phase = .picked reason) :
      Took s .begin { s with phase := if s.shutdown then .stopped else .asserting }
  | finish (hphase : s.phase = .asserting) :
      Took s .finish { s with phase := .pausing (s.now + minInterval), lastEnd := s.now }
  | wake {wake : Nat} (hphase : s.phase = .pausing wake) (hnow : wake ≤ s.now) :
      Took s .wake { s with phase := .draining }
  | drop {trigger : Trigger} {rest : List Trigger} (hphase : s.phase = .draining)
      (htriggers : s.triggers = trigger :: rest) : Took s .drain { s with triggers := rest }
  | drained (hphase : s.phase = .draining) (htriggers : s.triggers = []) :
      Took s .drain { s with phase := .waiting }

variable {s s' : Loop} {a : Action}

theorem took_of_step (h : step s a = some s') : Took s a s' := by
  cases a with
  | queue trigger =>
    simp only [step] at h
    obtain ⟨hroom, h⟩ := some_of_guard h
    cases h; exact .queue hroom
  | signal => cases h; exact .signal
  | pass time =>
    simp only [step] at h
    obtain ⟨hpass, h⟩ := some_of_guard h
    cases h; exact .pass hpass
  | select =>
    simp only [step] at h
    split at h
    · next hphase =>
      split at h
      · next hshutdown => cases h; exact .stop hphase hshutdown
      · next hshutdown =>
        have hrunning : s.shutdown = false := by simpa using hshutdown
        split at h
        · next trigger rest htriggers =>
          cases h
          exact .receive hphase hrunning htriggers
        · next htriggers =>
          obtain ⟨hdue, h⟩ := some_of_guard h
          cases h; exact .sweep hphase hrunning htriggers hdue
    · cases h
  | begin =>
    simp only [step] at h
    split at h
    · next hphase => cases h; exact .begin hphase
    · cases h
  | finish =>
    simp only [step] at h
    split at h
    · next hphase => cases h; exact .finish hphase
    · cases h
  | wake =>
    simp only [step] at h
    split at h
    · next hphase =>
      obtain ⟨hnow, h⟩ := some_of_guard h
      cases h; exact .wake hphase hnow
    · cases h
  | drain =>
    simp only [step] at h
    split at h
    · next hphase =>
      split at h
      · next htriggers => cases h; exact .drop hphase htriggers
      · next htriggers => cases h; exact .drained hphase htriggers
    · cases h

/-- What holds of a loop nobody has told to stop. -/
structure Loop.Sound (s : Loop) : Prop where
  running : s.shutdown = false
  alive : s.phase ≠ .stopped
  lastEnd_le : s.lastEnd ≤ s.now
  pause : ∀ wake, s.phase = .pausing wake → wake = s.lastEnd + minInterval ∧ s.now ≤ wake

theorem Loop.Sound.kept (h : s.Sound) (hsignal : a ≠ .signal) (hstep : step s a = some s') :
    s'.Sound := by
  obtain ⟨hrunning, halive, hend, hpause⟩ := h
  cases took_of_step hstep with
  | queue hroom => exact ⟨hrunning, halive, hend, hpause⟩
  | signal => exact absurd rfl hsignal
  | @pass time hpass =>
    refine ⟨hrunning, halive, Nat.le_add_right_of_le hend, fun wake hphase => ?_⟩
    replace hphase : s.phase = .pausing wake := hphase
    unfold Loop.mayPass at hpass
    rw [hphase] at hpass
    exact ⟨(hpause wake hphase).1, by simpa using hpass⟩
  | stop hphase hshutdown => rw [hrunning] at hshutdown; cases hshutdown
  | receive => exact ⟨hrunning, fun h => (by cases h), hend, fun _ h => (by cases h)⟩
  | sweep => exact ⟨hrunning, fun h => (by cases h), hend, fun _ h => (by cases h)⟩
  | begin hphase =>
    simp only [hrunning, Bool.false_eq_true, if_false]
    exact ⟨rfl, fun h => (by cases h), hend, fun _ h => (by cases h)⟩
  | finish hphase =>
    refine ⟨hrunning, fun h => (by cases h), Nat.le_refl _, fun wake hwake => ?_⟩
    injection hwake with hwake
    exact ⟨hwake.symm, hwake ▸ Nat.le_add_right _ _⟩
  | wake => exact ⟨hrunning, fun h => (by cases h), hend, fun _ h => (by cases h)⟩
  | drop hphase => exact ⟨hrunning, halive, hend, hpause⟩
  | drained => exact ⟨hrunning, fun h => (by cases h), hend, fun _ h => (by cases h)⟩

theorem Running.sound (h : Running s) : s.Sound := by
  obtain ⟨now, hrun⟩ := h
  refine hrun.invariant ?_ fun s a s' hs ha hstep => hs.kept ha hstep
  exact ⟨rfl, fun h => (by cases h), Nat.zero_le _, fun _ h => (by cases h)⟩

theorem Action.ne_signal_of_quiet (h : a.quiet = true) : a ≠ .signal := by
  rintro rfl
  cases h

theorem Loop.Sound.moves (h : s.Sound) :
    ∃ action : Action, action.own = true ∧ action ≠ .pass 0 ∧ (step s action).isSome = true := by
  cases hphase : s.phase with
  | waiting =>
    cases htriggers : s.triggers with
    | cons trigger rest =>
      exact ⟨.select, rfl, fun h => (by cases h), by simp [step, hphase, h.running, htriggers]⟩
    | nil =>
      by_cases hdue : s.sweepDue ≤ s.now
      · exact ⟨.select, rfl, fun h => (by cases h),
          by simp [step, hphase, h.running, htriggers, hdue]⟩
      · refine ⟨.pass 1, rfl, by decide, ?_⟩
        have hpass : s.mayPass 1 = true := by
          simp [Loop.mayPass, hphase, h.running, htriggers]
          omega
        simp [step, hpass]
  | picked reason => exact ⟨.begin, rfl, fun h => (by cases h), by simp [step, hphase]⟩
  | asserting => exact ⟨.finish, rfl, fun h => (by cases h), by simp [step, hphase]⟩
  | pausing wake =>
    by_cases hnow : wake ≤ s.now
    · exact ⟨.wake, rfl, fun h => (by cases h), by simp [step, hphase, hnow]⟩
    · refine ⟨.pass 1, rfl, by decide, ?_⟩
      have hpass : s.mayPass 1 = true := by
        simp [Loop.mayPass, hphase]
        omega
      simp [step, hpass]
  | draining =>
    cases htriggers : s.triggers with
    | nil => exact ⟨.drain, rfl, fun h => (by cases h), by simp [step, hphase, htriggers]⟩
    | cons trigger rest =>
      exact ⟨.drain, rfl, fun h => (by cases h), by simp [step, hphase, htriggers]⟩
  | stopped => exact absurd hphase h.alive

/-! ## §3. Triggers that are answered. -/

/-- Where the loop can be after a trigger queued at `queued`, with no re-assertion begun since, if
    it is to answer in time. -/
def Prompt (queued : Nat) (s : Loop) : Prop :=
  match s.phase with
  | .waiting => s.now ≤ max queued s.lastEnd + minInterval ∧
      (s.triggers ≠ [] ∨ s.sweepDue ≤ queued + minInterval)
  | .picked _ => s.now ≤ max queued s.lastEnd + minInterval
  | .asserting => s.sweepDue ≤ queued + minInterval
  | .pausing wake => s.sweepDue ≤ queued + minInterval ∧ wake ≤ max queued s.lastEnd + minInterval ∧
      s.now ≤ wake
  | .draining => s.sweepDue ≤ queued + minInterval ∧ s.now ≤ max queued s.lastEnd + minInterval
  | .stopped => False

theorem prompt_kept {queued : Nat} (h : Prompt queued s) (hrunning : s.shutdown = false)
    (hquiet : a.quiet = true) (hstep : step s a = some s') : Prompt queued s' := by
  cases took_of_step hstep with
  | queue hroom =>
    unfold Prompt at h ⊢
    cases hphase : s.phase with
    | waiting =>
      rw [hphase] at h
      exact ⟨h.1, .inl (by simp)⟩
    | _ =>
      rw [hphase] at h
      exact h
  | signal => cases hquiet
  | @pass time hpass =>
    unfold Loop.mayPass at hpass
    unfold Prompt at h ⊢
    cases hphase : s.phase with
    | waiting =>
      rw [hphase] at h hpass
      simp only [Bool.and_eq_true, List.isEmpty_iff, decide_eq_true_eq] at hpass
      -- with nothing queued the sweep is what the loop waits for
      have hdue := h.2.resolve_left (fun hne => hne hpass.1.2)
      have hmax := Nat.le_max_left queued s.lastEnd
      refine ⟨?_, .inr hdue⟩
      show s.now + time ≤ max queued s.lastEnd + minInterval
      omega
    | picked reason =>
      rw [hphase] at hpass
      cases hpass
    | asserting =>
      rw [hphase] at h
      exact h
    | pausing wake =>
      rw [hphase] at h hpass
      exact ⟨h.1, h.2.1, by simpa using hpass⟩
    | draining =>
      rw [hphase] at hpass
      cases hpass
    | stopped =>
      rw [hphase] at h
      exact h
  | stop hphase hshutdown =>
    rw [hrunning] at hshutdown
    cases hshutdown
  | receive hphase _ htriggers =>
    unfold Prompt at h
    rw [hphase] at h
    exact h.1
  | sweep hphase _ htriggers hdue =>
    unfold Prompt at h
    rw [hphase] at h
    exact h.1
  | begin hphase => cases hquiet
  | finish hphase =>
    unfold Prompt at h
    rw [hphase] at h
    exact ⟨h, Nat.add_le_add_right (Nat.le_max_right _ _) _, Nat.le_add_right _ _⟩
  | wake hphase hnow =>
    unfold Prompt at h
    rw [hphase] at h
    exact ⟨h.1, Nat.le_trans h.2.2 h.2.1⟩
  | drop hphase htriggers =>
    unfold Prompt at h ⊢
    rw [hphase] at h
    simp only [hphase]
    exact h
  | drained hphase htriggers =>
    unfold Prompt at h
    rw [hphase] at h
    exact ⟨h.2, .inr h.1⟩

theorem Prompt.in_time {queued : Nat} (h : Prompt queued s) :
    s.phase = .asserting ∨ s.now ≤ max queued s.lastEnd + minInterval := by
  unfold Prompt at h
  cases hphase : s.phase with
  | waiting => rw [hphase] at h; exact .inr h.1
  | picked reason => rw [hphase] at h; exact .inr h
  | asserting => exact .inl rfl
  | pausing wake => rw [hphase] at h; exact .inr (Nat.le_trans h.2.2 h.2.1)
  | draining => rw [hphase] at h; exact .inr h.2
  | stopped => rw [hphase] at h; exact h.elim

theorem prompt_of_queued {trigger : Trigger} (hs : s.Sound)
    (hcond : s.listening = true ∨ s.sweepDue ≤ s.now + minInterval) :
    Prompt s.now { s with triggers := s.triggers ++ [trigger] } := by
  have hnow : s.now ≤ max s.now s.lastEnd + minInterval :=
    Nat.le_add_right_of_le (Nat.le_max_left _ _)
  unfold Prompt
  cases hphase : s.phase with
  | waiting => exact ⟨hnow, .inl (by simp)⟩
  | picked reason => exact hnow
  | asserting => exact hcond.resolve_left (by simp [Loop.listening, hphase])
  | pausing wake =>
    obtain ⟨hwake, hle⟩ := hs.pause wake hphase
    refine ⟨hcond.resolve_left (by simp [Loop.listening, hphase]), ?_, hle⟩
    exact hwake ▸ Nat.add_le_add_right (Nat.le_max_right _ _) _
  | draining => exact ⟨hcond.resolve_left (by simp [Loop.listening, hphase]), hnow⟩
  | stopped => exact absurd hphase hs.alive

theorem answered_of_listening {trigger : Trigger} (hs : s.Sound)
    (hqueued : step s (.queue trigger) = some s')
    (hcond : s.listening = true ∨ s.sweepDue ≤ s.now + minInterval) : AnsweredInTime s.now s' := by
  have hs' : s'.Sound := hs.kept (a := .queue trigger) (by simp) hqueued
  have hprompt : Prompt s.now s' := by
    cases took_of_step hqueued
    exact prompt_of_queued hs hcond
  intro t hquiet
  have ht : Prompt s.now t ∧ t.Sound := by
    refine Reachable.invariant (I := fun u => Prompt s.now u ∧ u.Sound) ⟨hprompt, hs'⟩ ?_ hquiet
    intro u a u' hu ha hstep
    exact ⟨prompt_kept hu.1 hu.2.running ha hstep, hu.2.kept (Action.ne_signal_of_quiet ha) hstep⟩
  exact ⟨ht.1.in_time, ht.2.moves⟩

/-! ## §4. Triggers that are thrown away. -/

theorem quiet_step {t u : Loop} (a : Action) (hquiet : a.quiet = true) (hstep : step s a = some t)
    (hrest : Quiet t u) : Quiet s u :=
  Reachable.trans (.step .init hquiet hstep) hrest

theorem waiting_quiet {time : Nat} (hphase : s.phase = .waiting) (hrunning : s.shutdown = false)
    (htriggers : s.triggers = []) (hdue : s.now + time ≤ s.sweepDue) :
    Quiet s { s with now := s.now + time } := by
  have hpass : s.mayPass time = true := by
    simp [Loop.mayPass, hphase, hrunning, htriggers, hdue]
  exact quiet_step (.pass time) rfl (by rw [step, if_pos hpass]) .init

theorem draining_quiet {time : Nat} : ∀ {s : Loop}, s.phase = .draining → s.shutdown = false →
    s.now + time ≤ s.sweepDue →
    Quiet s { s with phase := .waiting, triggers := [], now := s.now + time } := by
  intro s
  obtain ⟨now, phase, triggers, sweepDue, shutdown, lastEnd⟩ := s
  intro hphase hrunning hdue
  simp only at hphase hrunning hdue
  subst hphase hrunning
  induction triggers with
  | nil => exact quiet_step .drain rfl rfl (waiting_quiet rfl rfl rfl hdue)
  | cons trigger rest ih => exact quiet_step .drain rfl rfl ih

theorem pausing_quiet {s : Loop} {wake time : Nat} (hphase : s.phase = .pausing wake)
    (hrunning : s.shutdown = false) (hwake : s.now ≤ wake) (hdue : wake + time ≤ s.sweepDue) :
    Quiet s { s with phase := .waiting, triggers := [], now := wake + time } := by
  obtain ⟨now, phase, triggers, sweepDue, shutdown, lastEnd⟩ := s
  simp only at hphase hrunning hwake hdue
  subst hphase hrunning
  have hpass : step ⟨now, .pausing wake, triggers, sweepDue, false, lastEnd⟩ (.pass (wake - now)) =
      some ⟨wake, .pausing wake, triggers, sweepDue, false, lastEnd⟩ := by
    simp [step, Loop.mayPass, Nat.add_sub_cancel' hwake]
  have hwakes : step ⟨wake, .pausing wake, triggers, sweepDue, false, lastEnd⟩ .wake =
      some ⟨wake, .draining, triggers, sweepDue, false, lastEnd⟩ := by
    simp [step]
  refine quiet_step _ rfl hpass (quiet_step _ rfl hwakes ?_)
  exact draining_quiet rfl rfl hdue

theorem lapses_of_busy (hs : s.Sound) (hbusy : s.listening = false)
    (hdue : s.now + minInterval < s.sweepDue) :
    ∃ t, Quiet s t ∧ t.phase = .waiting ∧ max s.now t.lastEnd + minInterval < t.now := by
  have hmax : max s.now s.lastEnd = s.now := Nat.max_eq_left hs.lastEnd_le
  unfold Loop.listening at hbusy
  cases hphase : s.phase with
  | waiting => rw [hphase] at hbusy; cases hbusy
  | picked reason => rw [hphase] at hbusy; cases hbusy
  | stopped => exact absurd hphase hs.alive
  | draining =>
    refine ⟨_, @draining_quiet (minInterval + 1) _ hphase hs.running (by omega), rfl, ?_⟩
    show max s.now s.lastEnd + minInterval < s.now + (minInterval + 1)
    omega
  | pausing wake =>
    obtain ⟨hwake, hle⟩ := hs.pause wake hphase
    have hend := hs.lastEnd_le
    refine ⟨_, @pausing_quiet _ _ (s.now + minInterval + 1 - wake) hphase hs.running hle
      (by omega), rfl, ?_⟩
    show max s.now s.lastEnd + minInterval < wake + (s.now + minInterval + 1 - wake)
    omega
  | asserting =>
    -- it may end at once, so the deadline is the end of the pause
    have hfinish : step s .finish =
        some { s with phase := .pausing (s.now + minInterval), lastEnd := s.now } := by
      simp [step, hphase]
    refine ⟨_, quiet_step _ rfl hfinish
      (@pausing_quiet _ _ 1 rfl hs.running (Nat.le_add_right _ _) hdue), rfl, ?_⟩
    show max s.now s.now + minInterval < s.now + minInterval + 1
    rw [Nat.max_self]
    omega

/-- **A trigger is answered in time exactly when it is queued to a loop that listens, or when the
    sweep is due within `minInterval` anyway.** -/
theorem answered_iff {s s' : Loop} {trigger : Trigger} (hrun : Running s)
    (hqueued : step s (.queue trigger) = some s') :
    AnsweredInTime s.now s' ↔ s.listening = true ∨ s.sweepDue ≤ s.now + minInterval := by
  constructor
  · intro hanswered
    by_contra hcond
    rw [not_or, Bool.not_eq_true, Nat.not_le] at hcond
    have hs' : s'.Sound := hrun.sound.kept (a := .queue trigger) (by simp) hqueued
    cases took_of_step hqueued
    obtain ⟨t, hquiet, hphase, hlate⟩ := lapses_of_busy hs' hcond.1 hcond.2
    rcases (hanswered t hquiet).1 with hasserting | hnow
    · rw [hphase] at hasserting
      cases hasserting
    · exact absurd hnow (Nat.not_le.mpr hlate)
  · exact answered_of_listening hrun.sound hqueued

/-- A second trigger that finds the loop back in its `select!` is answered. -/
theorem answered_second : ∃ s s', Running s ∧ step s (.queue .deletion) = some s' ∧
    s.lastEnd = 100000000 ∧ AnsweredInTime s.now s' := by
  let s : Loop := ⟨seconds 2, .waiting, [], seconds 30, false, 100000000⟩
  have hrun : Running s := ⟨0, replay_reachable
    [.queue .deletion, .select, .begin, .pass 100000000, .finish, .pass minInterval, .wake, .drain,
      .pass 900000000] .init (by decide)⟩
  exact ⟨s, _, hrun, rfl, rfl, (answered_iff hrun rfl).mpr (.inl rfl)⟩

/-- **The pause swallows a trigger.**  It is queued half a second after a re-assertion ended, and
    28 seconds later nothing has begun, nothing is queued and the loop waits for the sweep. -/
theorem pause_swallows_trigger : ∃ s s' t, Running s ∧ s.phase = .pausing 1100000000 ∧
    s.now = 600000000 ∧ step s (.queue .deletion) = some s' ∧ Quiet s' t ∧ t.phase = .waiting ∧
    t.triggers = [] ∧ t.lastEnd = s.lastEnd ∧ s.now + seconds 28 ≤ t.now := by
  let s : Loop := ⟨600000000, .pausing 1100000000, [], seconds 30, false, 100000000⟩
  let t : Loop := ⟨seconds 29, .waiting, [], seconds 30, false, 100000000⟩
  have hrun : Running s := ⟨0, replay_reachable
    [.queue .deletion, .select, .begin, .pass 100000000, .finish, .pass 500000000] .init
    (by decide)⟩
  have hquiet : Quiet { s with triggers := [.deletion] } t := replay_reachable
    [.pass 500000000, .wake, .drain, .drain, .pass 27900000000] .init (by decide)
  exact ⟨s, _, t, hrun, rfl, rfl, rfl, hquiet, rfl, rfl, rfl, by decide⟩

end ThisConnect.Watchdog
