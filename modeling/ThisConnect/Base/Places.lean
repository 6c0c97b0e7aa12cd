/-
  ThisConnect.Base.Places
  **LISTS WITH ONE PLACE CHANGED.**
-/
import Mathlib.Logic.Basic
import Mathlib.Tactic.Common

namespace ThisConnect.Places

variable {α : Type} {l : List α} {i j : Nat} {x y : α}

theorem set_cases (h : (l.set i x)[j]? = some y) :
    (j = i ∧ y = x) ∨ (j ≠ i ∧ l[j]? = some y) := by
  by_cases hij : j = i
  · subst hij
    obtain ⟨hlt, hget⟩ := List.getElem?_eq_some_iff.mp h
    exact .inl ⟨rfl, by rw [← hget, List.getElem_set_self]⟩
  · rw [List.getElem?_set_ne (Ne.symm hij)] at h
    exact .inr ⟨hij, h⟩

theorem set_self (h : l[i]? = some y) : (l.set i x)[i]? = some x := by
  obtain ⟨hlt, _⟩ := List.getElem?_eq_some_iff.mp h
  rw [List.getElem?_set_self hlt]

theorem set_other (hij : j ≠ i) (h : l[j]? = some y) : (l.set i x)[j]? = some y := by
  rw [List.getElem?_set_ne (Ne.symm hij)]
  exact h

theorem append_cases (h : (l ++ [x])[j]? = some y) :
    l[j]? = some y ∨ (j = l.length ∧ y = x) := by
  rcases Nat.lt_or_ge j l.length with hlt | hge
  · rw [List.getElem?_append_left hlt] at h
    exact .inl h
  · rw [List.getElem?_append_right hge] at h
    obtain ⟨hzero, hx⟩ := List.getElem?_eq_some_iff.mp h
    simp only [List.length_singleton] at hzero
    exact .inr ⟨by omega, by simpa using hx.symm⟩

theorem append_old (h : l[j]? = some y) : (l ++ [x])[j]? = some y := by
  obtain ⟨hlt, _⟩ := List.getElem?_eq_some_iff.mp h
  rw [List.getElem?_append_left hlt, h]

theorem modify_eq_set {f : α → α} (h : l[i]? = some x) : l.modify i f = l.set i (f x) := by
  apply List.ext_getElem?
  intro j
  rw [List.getElem?_modify]
  by_cases hij : i = j
  · subst hij
    rw [set_self h, h]
    simp
  · rw [List.getElem?_set_ne hij]
    simp [hij]

end ThisConnect.Places
