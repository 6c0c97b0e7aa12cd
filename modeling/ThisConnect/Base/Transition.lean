/-
  ThisConnect.Base.Transition
  **SYSTEMS THAT TAKE ONE STEP AT A TIME.**
-/
import Mathlib.Logic.Function.Basic
import Mathlib.Tactic.Common
import ThisConnect.Base.Outcome

namespace ThisConnect.Transition

variable {S A : Type}

/-! ## §1. Runs. -/

/-- The states a system reaches from `init` by allowed actions. -/
inductive Reachable (step : S → A → Option S) (allowed : S → A → Prop) (init : S) : S → Prop where
  | init : Reachable step allowed init init
  | step {s s' : S} {a : A} (before : Reachable step allowed init s) (hallowed : allowed s a)
      (hstep : step s a = some s') : Reachable step allowed init s'

/-- No restriction on the schedule. -/
def Anything (_ : S) (_ : A) : Prop := True

instance (s : S) (a : A) : Decidable (Anything s a) := isTrue trivial

section Rules

variable {step : S → A → Option S} {allowed allowed' : S → A → Prop} {init s : S}

theorem Reachable.invariant {I : S → Prop} (hinit : I init)
    (hstep : ∀ s a s', I s → allowed s a → step s a = some s' → I s')
    (h : Reachable step allowed init s) : I s := by
  induction h with
  | init => exact hinit
  | step _ hallowed hs ih => exact hstep _ _ _ ih hallowed hs

theorem Reachable.trans {t : S} (hs : Reachable step allowed init s)
    (ht : Reachable step allowed s t) : Reachable step allowed init t := by
  induction ht with
  | init => exact hs
  | step _ hallowed hstep ih => exact .step ih hallowed hstep

end Rules

/-! ## §2. Replaying a run. -/

def replay (step : S → A → Option S) (allowed : S → A → Prop)
    [∀ s a, Decidable (allowed s a)] : S → List A → Option S
  | s, [] => some s
  | s, a :: rest =>
    if allowed s a then (step s a).bind fun s' => replay step allowed s' rest else none

variable {step : S → A → Option S} {allowed : S → A → Prop} {init s t : S} {a : A}

theorem replay_step [∀ s a, Decidable (allowed s a)] (hallowed : allowed s a)
    (hstep : step s a = some t) (rest : List A) :
    replay step allowed s (a :: rest) = replay step allowed t rest := by
  rw [replay, if_pos hallowed, hstep]
  rfl

theorem replay_cons [∀ s a, Decidable (allowed s a)] {s' : S} {rest : List A}
    (h : replay step allowed s (a :: rest) = some s') :
    allowed s a ∧ ∃ t, step s a = some t ∧ replay step allowed t rest = some s' := by
  unfold replay at h
  obtain ⟨hallowed, h⟩ := some_of_guard h
  exact ⟨hallowed, Option.bind_eq_some_iff.mp h⟩

theorem replay_append [∀ s a, Decidable (allowed s a)] (actions more : List A) : ∀ {s t u : S},
    replay step allowed s actions = some t → replay step allowed t more = some u →
      replay step allowed s (actions ++ more) = some u := by
  induction actions with
  | nil =>
    intro s t u h hmore
    injection h with h
    exact h ▸ hmore
  | cons a rest ih =>
    intro s t u h hmore
    obtain ⟨hallowed, s', hstep, hrest⟩ := replay_cons h
    rw [List.cons_append, replay_step hallowed hstep]
    exact ih hrest hmore

theorem replay_reachable [∀ s a, Decidable (allowed s a)] (actions : List A) :
    ∀ {s s' : S}, Reachable step allowed init s → replay step allowed s actions = some s' →
      Reachable step allowed init s' := by
  induction actions with
  | nil =>
    intro s s' hs h
    injection h with h
    exact h ▸ hs
  | cons a rest ih =>
    intro s s' hs h
    obtain ⟨hallowed, t, ht, hrest⟩ := replay_cons h
    exact ih (.step hs hallowed ht) hrest

/-- Every action of a run has `p`, in the state it is taken in. -/
def Throughout (step : S → A → Option S) (p : S → A → Prop) : S → List A → Prop
  | _, [] => True
  | s, a :: rest => p s a ∧ ∀ t, step s a = some t → Throughout step p t rest

theorem throughout_cons {p : S → A → Prop} (hstep : step s a = some t) (rest : List A) :
    Throughout step p s (a :: rest) ↔ p s a ∧ Throughout step p t rest := by
  constructor
  · rintro ⟨ha, hrest⟩
    exact ⟨ha, hrest t hstep⟩
  · rintro ⟨ha, hrest⟩
    refine ⟨ha, fun u hu => ?_⟩
    injection hstep.symm.trans hu with htu
    exact htu ▸ hrest

theorem reachable_of_replay [∀ s a, Decidable (allowed s a)] {p : S → Prop} [DecidablePred p]
    (actions : List A) (h : (replay step allowed init actions).any (fun s => decide (p s)) = true) :
    ∃ s, Reachable step allowed init s ∧ p s := by
  cases hrun : replay step allowed init actions with
  | none => rw [hrun] at h; exact absurd h (by simp)
  | some s =>
    rw [hrun] at h
    exact ⟨s, replay_reachable actions .init hrun, by simpa using h⟩

end ThisConnect.Transition
