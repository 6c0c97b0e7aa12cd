/-
  ThisConnect.Base.TokenBucket
  **HOW MUCH A TOKEN BUCKET LETS THROUGH.**

  Main result:
    • `spent_in_window_le` — in a window of time no more is spent than the
      burst and what the window itself brings in.
-/
import Mathlib.Algebra.Order.Field.Basic
import Mathlib.Data.Nat.Cast.Order.Basic
import Mathlib.Tactic.Linarith
import Mathlib.Tactic.Ring

namespace ThisConnect.TokenBucket

variable {K : Type} [Field K] [LinearOrder K] [IsStrictOrderedRing K]

structure Reading (K : Type) where
  time : K
  level : K
  spent : Bool

namespace Reading

/-- The level after the reading. -/
def left (r : Reading K) : K := if r.spent then r.level - 1 else r.level

/-- A token was spent in the window. -/
def SpentIn (start stop : K) (r : Reading K) : Prop :=
  r.spent = true ∧ start ≤ r.time ∧ r.time ≤ stop

instance (start stop : K) (r : Reading K) : Decidable (r.SpentIn start stop) :=
  inferInstanceAs (Decidable (_ ∧ _ ∧ _))

omit [LinearOrder K] [IsStrictOrderedRing K] in
theorem left_of_spent {r : Reading K} (h : r.spent = true) : r.left = r.level - 1 := if_pos h

theorem left_le (r : Reading K) : r.left ≤ r.level := by
  unfold left
  split
  · linarith
  · exact le_refl _

end Reading

def Conserves (burst rate : K) : List (Reading K) → Prop
  | [] => True
  | r :: rest => r.level ≤ burst ∧ 0 ≤ r.left ∧
      (∀ next ∈ rest.head?, r.time ≤ next.time ∧
        next.level ≤ r.left + rate * (next.time - r.time)) ∧ Conserves burst rate rest

section Runs

variable {burst rate : K}

variable {rest readings : List (Reading K)} {start stop : K}

omit [IsStrictOrderedRing K] in
theorem Conserves.later {r : Reading K} (h : Conserves burst rate (r :: rest)) :
    ∀ x ∈ rest, r.time ≤ x.time := by
  induction rest generalizing r with
  | nil => simp
  | cons next rest ih =>
    obtain ⟨-, -, hnext, hrest⟩ := h
    have hlater := (hnext next rfl).1
    intro x hx
    rcases List.mem_cons.mp hx with rfl | hx
    · exact hlater
    · exact hlater.trans (ih hrest x hx)

omit [Field K] [IsStrictOrderedRing K] in
/-- Nothing is spent in a window that is over. -/
theorem countP_eq_zero_of_over (h : ∀ x ∈ readings, stop < x.time) :
    readings.countP (fun x => decide (x.SpentIn start stop)) = 0 := by
  refine List.countP_eq_zero.mpr fun x hx => ?_
  have hover := h x hx
  simp only [decide_eq_true_eq]
  rintro ⟨-, -, hstop⟩
  exact absurd hstop (not_le.mpr hover)

omit [IsStrictOrderedRing K] in
theorem cast_countP_cons (start stop : K) (r : Reading K) (rest : List (Reading K)) :
    (((r :: rest).countP fun x => decide (x.SpentIn start stop) : ℕ) : K) =
      (rest.countP fun x => decide (x.SpentIn start stop) : ℕ) +
        if r.SpentIn start stop then 1 else 0 := by
  rw [List.countP_cons]
  by_cases hspent : r.SpentIn start stop
  · simp [hspent]
  · simp [hspent]

theorem spent_from_le (hrate : 0 ≤ rate) :
    ∀ {r : Reading K}, Conserves burst rate (r :: rest) → r.time ≤ stop →
    (((r :: rest).countP fun x => decide (x.SpentIn start stop) : ℕ) : K) ≤
      r.level + rate * (stop - r.time) := by
  induction rest with
  | nil =>
    intro r h hstop
    obtain ⟨-, hcovered, -⟩ := h
    have hgain : 0 ≤ rate * (stop - r.time) := mul_nonneg hrate (by linarith)
    rw [cast_countP_cons, List.countP_nil, Nat.cast_zero]
    split
    · next hspent =>
      rw [Reading.left_of_spent hspent.1] at hcovered
      linarith
    · have hle := r.left_le
      linarith
  | cons next rest ih =>
    intro r h hstop
    obtain ⟨-, hcovered, hnext, hrest⟩ := h
    obtain ⟨hlater, hgained⟩ := hnext next rfl
    have hafter : (((next :: rest).countP fun x => decide (x.SpentIn start stop) : ℕ) : K) ≤
        r.left + rate * (stop - r.time) := by
      by_cases hin : next.time ≤ stop
      · have hrun := ih hrest hin
        have hsplit : rate * (stop - r.time) =
            rate * (next.time - r.time) + rate * (stop - next.time) := by ring
        linarith
      · -- the window is over before the next reading
        have hover : ∀ x ∈ next :: rest, stop < x.time := fun x hx => by
          rcases List.mem_cons.mp hx with rfl | hx
          · exact not_le.mp hin
          · exact (not_le.mp hin).trans_le (hrest.later x hx)
        have hgain : 0 ≤ rate * (stop - r.time) := mul_nonneg hrate (by linarith)
        rw [countP_eq_zero_of_over hover, Nat.cast_zero]
        linarith
    rw [cast_countP_cons]
    split
    · next hspent =>
      rw [Reading.left_of_spent hspent.1] at hafter
      linarith
    · have hle := r.left_le
      linarith

theorem spent_in_window_le (hburst : 0 ≤ burst) (hrate : 0 ≤ rate) (hwindow : start ≤ stop)
    (h : Conserves burst rate readings) :
    ((readings.countP fun x => decide (x.SpentIn start stop) : ℕ) : K) ≤
      burst + rate * (stop - start) := by
  have hwhole : 0 ≤ rate * (stop - start) := mul_nonneg hrate (by linarith)
  induction readings with
  | nil =>
    rw [List.countP_nil, Nat.cast_zero]
    linarith
  | cons r rest ih =>
    by_cases hbefore : r.time < start
    · -- not in the window yet
      have hnot : ¬ r.SpentIn start stop := fun hspent => absurd hspent.2.1 (not_le.mpr hbefore)
      rw [cast_countP_cons, if_neg hnot, add_zero]
      exact ih h.2.2.2
    · by_cases hafter : r.time ≤ stop
      · have hfrom : (((r :: rest).countP fun x => decide (x.SpentIn start stop) : ℕ) : K) ≤
            r.level + rate * (stop - r.time) := spent_from_le hrate h hafter
        have hgain : rate * (stop - r.time) ≤ rate * (stop - start) :=
          mul_le_mul_of_nonneg_left (by linarith) hrate
        have hfull := h.1
        linarith
      · have hover : ∀ x ∈ r :: rest, stop < x.time := fun x hx => by
          rcases List.mem_cons.mp hx with rfl | hx
          · exact not_le.mp hafter
          · exact (not_le.mp hafter).trans_le (h.later x hx)
        rw [countP_eq_zero_of_over hover, Nat.cast_zero]
        linarith

end Runs

end ThisConnect.TokenBucket
