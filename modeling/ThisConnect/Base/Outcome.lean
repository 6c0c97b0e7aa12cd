/-
  ThisConnect.Base.Outcome
  **WHAT A SUCCESS TELLS.**
-/
import Mathlib.Logic.Basic
import Mathlib.Tactic.Common

namespace ThisConnect

variable {ε α β : Type}

/-! ## §1. Steps in a row. -/

variable {b : β} {x : Except ε α} {a : α} {e : ε}

theorem ok_of_bind {f : α → Except ε β} (h : x.bind f = .ok b) :
    ∃ a, x = .ok a ∧ f a = .ok b := by
  cases x with
  | error e => exact absurd h (by simp [Except.bind])
  | ok a => exact ⟨a, rfl, h⟩

theorem ok_of_map {f : α → β} (h : x.map f = .ok b) :
    ∃ a, x = .ok a ∧ f a = b := by
  cases x with
  | error e => exact absurd h (by simp [Except.map])
  | ok a =>
    injection h with h
    exact ⟨a, rfl, h⟩

/-! ## §2. Guards. -/

variable {c : Prop} [Decidable c]

theorem some_of_guard {x : Option α} (h : (if c then x else none) = some a) :
    c ∧ x = some a :=
  Option.ite_none_right_eq_some.mp h

theorem some_of_unless {x : Option α} (h : (if c then none else x) = some a) :
    ¬ c ∧ x = some a :=
  Option.ite_none_left_eq_some.mp h

theorem ok_of_guard (h : (if c then x else .error e) = .ok a) :
    c ∧ x = .ok a := by
  by_cases hc : c
  · rw [if_pos hc] at h
    exact ⟨hc, h⟩
  · rw [if_neg hc] at h
    cases h

theorem ok_of_unless (h : (if c then .error e else x) = .ok a) :
    ¬ c ∧ x = .ok a := by
  by_cases hc : c
  · rw [if_pos hc] at h
    cases h
  · rw [if_neg hc] at h
    exact ⟨hc, h⟩

theorem mem_of_mapM_ok {ε α β : Type} {f : α → Except ε β} {xs : List α} :
    ∀ {ys : List β}, xs.mapM f = .ok ys → ∀ y ∈ ys, ∃ x ∈ xs, f x = .ok y := by
  induction xs with
  | nil =>
    intro ys h y hy
    rw [List.mapM_nil] at h
    injection h with h
    subst h
    cases hy
  | cons x xs ih =>
    intro ys h y hy
    rw [List.mapM_cons] at h
    obtain ⟨y', hy', h⟩ := ok_of_bind h
    obtain ⟨ys', hys', h⟩ := ok_of_bind h
    injection h with h
    subst h
    rcases List.mem_cons.mp hy with rfl | hy
    · exact ⟨x, by simp, hy'⟩
    · obtain ⟨x', hx', hfx⟩ := ih hys' y hy
      exact ⟨x', by simp [hx'], hfx⟩

end ThisConnect
