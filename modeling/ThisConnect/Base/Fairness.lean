/-
  ThisConnect.Base.Fairness
  **RUNS THAT GO ON, AND WHAT MUST HAPPEN IN THEM.**
-/
import ThisConnect.Base.Transition

namespace ThisConnect.Transition

variable {S A : Type}

structure Execution (S A : Type) where
  state : Nat → S
  action : Nat → Option A

namespace Execution

variable {step : S → A → Option S} {allowed : S → A → Prop} {init : S} {σ : Execution S A}

/-- An execution of the system: every step is an allowed action, or nothing happens. -/
structure Of (step : S → A → Option S) (allowed : S → A → Prop) (init : S) (σ : Execution S A) :
    Prop where
  start : σ.state 0 = init
  next : ∀ k, (σ.action k = none ∧ σ.state (k + 1) = σ.state k) ∨
    ∃ a, σ.action k = some a ∧ allowed (σ.state k) a ∧ step (σ.state k) a = some (σ.state (k + 1))

/-- An action that stays possible is taken. -/
def Fair (step : S → A → Option S) (σ : Execution S A) (a : A) : Prop :=
  ∀ k, (∀ j, k ≤ j → (step (σ.state j) a).isSome = true) → ∃ j, k ≤ j ∧ σ.action j = some a

theorem Of.reachable (h : σ.Of step allowed init) (k : Nat) :
    Reachable step allowed init (σ.state k) := by
  induction k with
  | zero => rw [h.start]; exact .init
  | succ k ih =>
    rcases h.next k with ⟨_, hsame⟩ | ⟨a, _, hallowed, hstep⟩
    · rw [hsame]; exact ih
    · exact .step ih hallowed hstep

theorem Of.lasts {P Q : S → Prop} (h : σ.Of step allowed init)
    (hstep : ∀ s b s', P s → allowed s b → step s b = some s' → P s' ∨ Q s') {k : Nat}
    (hk : P (σ.state k)) (n : Nat) :
    P (σ.state (k + n)) ∨ ∃ m, m ≤ n ∧ Q (σ.state (k + m)) := by
  induction n with
  | zero => exact .inl hk
  | succ n ih =>
    rcases ih with hP | ⟨m, hm, hQ⟩
    · rcases h.next (k + n) with ⟨_, hsame⟩ | ⟨b, _, hallowed, hb⟩
      · rw [← Nat.add_assoc, hsame]
        exact .inl hP
      · rcases hstep _ b _ hP hallowed hb with hP' | hQ
        · exact .inl hP'
        · exact .inr ⟨n + 1, Nat.le_refl _, hQ⟩
    · exact .inr ⟨m, by omega, hQ⟩

theorem Of.wf1 {P Q : S → Prop} {a : A} (h : σ.Of step allowed init) (hfair : Fair step σ a)
    (henabled : ∀ s, P s → (step s a).isSome = true)
    (hstep : ∀ s b s', P s → allowed s b → step s b = some s' → P s' ∨ Q s')
    (htaken : ∀ s s', P s → step s a = some s' → Q s') {k : Nat} (hk : P (σ.state k)) :
    ∃ j, k ≤ j ∧ Q (σ.state j) := by
  by_contra hnever
  have hQ : ∀ j, k ≤ j → ¬ Q (σ.state j) := fun j hj hq => hnever ⟨j, hj, hq⟩
  have hP : ∀ n, P (σ.state (k + n)) := by
    intro n
    rcases h.lasts hstep hk n with hP | ⟨m, _, hm⟩
    · exact hP
    · exact absurd hm (hQ _ (by omega))
  obtain ⟨j, hj, hj'⟩ := hfair k fun j hj => by
    obtain ⟨n, rfl⟩ := Nat.exists_eq_add_of_le hj
    exact henabled _ (hP n)
  obtain ⟨n, rfl⟩ := Nat.exists_eq_add_of_le hj
  rcases h.next (k + n) with ⟨hnone, _⟩ | ⟨b, hb, _, hstep'⟩
  · rw [hnone] at hj'
    exact absurd hj' (by simp)
  · rw [hb] at hj'
    injection hj' with hj'
    subst hj'
    exact hQ (k + n + 1) (by omega) (htaken _ _ (hP n) hstep')

/-! ## Finite runs as executions. -/

def trace (step : S → A → Option S) : S → List A → Nat → S
  | s, [], _ => s
  | s, _ :: _, 0 => s
  | s, a :: rest, k + 1 => trace step ((step s a).getD s) rest k

/-- A list of actions, then rest. -/
def ofList (step : S → A → Option S) (init : S) (actions : List A) : Execution S A where
  state := trace step init actions
  action k := actions[k]?

section OfList

variable [∀ s a, Decidable (allowed s a)]

theorem ofList_rests (actions : List A) :
    ∀ (s s' : S) (n : Nat), replay step allowed s actions = some s' →
      (ofList step s actions).state (actions.length + n) = s' := by
  induction actions with
  | nil =>
    intro s s' n h
    injection h
  | cons a rest ih =>
    intro s s' n h
    unfold replay at h
    obtain ⟨_, h⟩ := some_of_guard h
    obtain ⟨t, ht, hrest⟩ := Option.bind_eq_some_iff.mp h
    have hlen : (a :: rest).length + n = (rest.length + n) + 1 := by
      simp only [List.length_cons]; omega
    rw [hlen]
    show trace step ((step s a).getD s) rest (rest.length + n) = s'
    rw [ht]
    exact ih t s' n hrest

theorem ofList_of (actions : List A) :
    ∀ (init s' : S), replay step allowed init actions = some s' →
      (ofList step init actions).Of step allowed init := by
  induction actions with
  | nil =>
    intro init s' _
    exact ⟨rfl, fun k => .inl ⟨rfl, rfl⟩⟩
  | cons a rest ih =>
    intro init s' h
    unfold replay at h
    obtain ⟨hallowed, h⟩ := some_of_guard h
    obtain ⟨t, ht, hrest⟩ := Option.bind_eq_some_iff.mp h
    have hstate : ∀ j, (ofList step init (a :: rest)).state (j + 1) =
        (ofList step t rest).state j := by
      intro j
      show trace step ((step init a).getD init) rest j = trace step t rest j
      rw [ht]
      rfl
    refine ⟨rfl, fun k => ?_⟩
    cases k with
    | zero =>
      refine .inr ⟨a, rfl, hallowed, ?_⟩
      show step init a = some ((ofList step init (a :: rest)).state (0 + 1))
      rw [hstate, (ih t s' hrest).start]
      exact ht
    | succ k =>
      rw [hstate, hstate]
      exact (ih t s' hrest).next k

theorem ofList_fair {actions : List A} {s' : S} {a : A}
    (h : replay step allowed init actions = some s') (hstuck : step s' a = none) :
    Fair step (ofList step init actions) a := by
  intro k henabled
  have hend := henabled (actions.length + k) (by omega)
  have hstate : (ofList step init actions).state (actions.length + k) = s' :=
    ofList_rests actions init s' k h
  rw [hstate, hstuck] at hend
  exact absurd hend (by simp)

end OfList

end Execution

end ThisConnect.Transition
