/-
  ThisConnect.Base.Numeral
  **READING AND WRITING UNSIGNED NUMERALS.**
-/
import Mathlib
import ThisConnect.Base.Outcome

namespace ThisConnect.Numeral

/-! ## §1. Digits. -/

/-- `char::to_digit`. -/
def toDigit (radix : Nat) (c : Char) : Option Nat :=
  let v :=
    if c.isDigit then c.toNat - 48
    else if c.isLower then c.toNat - 87
    else if c.isUpper then c.toNat - 55
    else radix
  if v < radix then some v else none

variable {radix n bound : Nat}

theorem toDigit_digitChar {d : Nat} (hr : radix ≤ 16) (hd : d < radix) :
    toDigit radix d.digitChar = some d := by
  have h16 : d < 16 := lt_of_lt_of_le hd hr
  interval_cases d <;> simp_all [toDigit, Nat.digitChar, Char.isLower]

def digitsValue (radix : Nat) : Nat → List Char → Option Nat
  | acc, [] => some acc
  | acc, c :: cs => (toDigit radix c).bind fun d => digitsValue radix (acc * radix + d) cs

theorem digitsValue_append (radix : Nat) (xs ys : List Char) :
    ∀ acc, digitsValue radix acc (xs ++ ys)
      = (digitsValue radix acc xs).bind fun a => digitsValue radix a ys := by
  induction xs with
  | nil => intro acc; rfl
  | cons c xs ih =>
    intro acc
    simp only [List.cons_append, digitsValue]
    cases toDigit radix c with
    | none => rfl
    | some d => exact ih _

theorem digitsValue_toDigits (h1 : 1 < radix) (hr : radix ≤ 16) (n : Nat) :
    digitsValue radix 0 (Nat.toDigits radix n) = some n := by
  induction n using Nat.strong_induction_on with
  | _ n ih =>
    rw [Nat.toDigits_eq_if h1]
    split
    · next hlt => simp [digitsValue, toDigit_digitChar hr hlt]
    · next hge =>
      have hdiv : n / radix < n := Nat.div_lt_self (by omega) h1
      have hmod : n % radix < radix := Nat.mod_lt _ (by omega)
      rw [digitsValue_append, ih _ hdiv]
      simp [digitsValue, toDigit_digitChar hr hmod, Nat.div_add_mod']

theorem toDigits_injective {m : Nat} (h1 : 1 < radix) (hr : radix ≤ 16)
    (h : Nat.toDigits radix m = Nat.toDigits radix n) : m = n := by
  have hread := digitsValue_toDigits h1 hr m
  rw [h, digitsValue_toDigits h1 hr] at hread
  injection hread with hread
  exact hread.symm

theorem toDigit_isSome_of_mem_toDigits (h1 : 1 < radix) (hr : radix ≤ 16) (n : Nat) :
    ∀ c ∈ Nat.toDigits radix n, (toDigit radix c).isSome = true := by
  induction n using Nat.strong_induction_on with
  | _ n ih =>
    rw [Nat.toDigits_eq_if h1]
    split
    · next hlt =>
      intro c hc
      rw [List.mem_singleton.mp hc, toDigit_digitChar hr hlt]
      rfl
    · next hge =>
      intro c hc
      have hmod : n % radix < radix := Nat.mod_lt _ (by omega)
      rcases List.mem_append.mp hc with h | h
      · exact ih _ (Nat.div_lt_self (by omega) h1) c h
      · rw [List.mem_singleton.mp h, toDigit_digitChar hr hmod]
        rfl

/-! ## §2. `str::parse` at an integer type. -/

def dropPlus : List Char → List Char
  | '+' :: cs => cs
  | cs => cs

def parseUnsigned (bound : Nat) (s : List Char) : Option Nat :=
  if (dropPlus s).isEmpty then none
  else (digitsValue 10 0 (dropPlus s)).filter (· < bound)

def parseSigned (bound : Nat) : List Char → Option Int
  | '-' :: cs =>
    -- a sign is read once
    if cs.isEmpty then none
    else ((digitsValue 10 0 cs).filter (· ≤ bound)).map fun n => -(n : Int)
  | cs => (parseUnsigned bound cs).map Int.ofNat

theorem dropPlus_toDigits (n : Nat) : dropPlus (Nat.toDigits 10 n) = Nat.toDigits 10 n := by
  unfold dropPlus
  split
  · next cs h =>
    have := Nat.isDigit_of_mem_toDigits (b := 10) (c := '+') (n := n) (by decide) (by decide)
      (by simp [h])
    exact absurd this (by decide)
  · rfl

theorem parseUnsigned_toDigits (h : n < bound) :
    parseUnsigned bound (Nat.toDigits 10 n) = some n := by
  rw [parseUnsigned, dropPlus_toDigits, if_neg (by simp),
    digitsValue_toDigits (by decide) (by decide)]
  simp [h]

theorem parseUnsigned_lt {s : List Char} (h : parseUnsigned bound s = some n) :
    n < bound := by
  rw [parseUnsigned] at h
  obtain ⟨_, h⟩ := some_of_unless h
  simpa using (Option.filter_eq_some_iff.mp h).2

end ThisConnect.Numeral
