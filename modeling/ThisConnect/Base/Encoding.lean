/-
  ThisConnect.Base.Encoding
  **TEXT WRITTEN AS UTF-8 IS READ BACK.**

  Main results:
    • `fromUtf8_bytes`, `fromUtf8Lossy_bytes` — what was encoded is decoded.
    • `mem_of_ascii_mem_bytes` — an ASCII byte stands for its own character only.
-/
import Mathlib.Tactic.IntervalCases
import ThisConnect.Base.Ascii

namespace ThisConnect.Codec

open Text

variable {n : Nat} {b : UInt8}

/-! ## §1. The bytes of one scalar. -/

theorem toNat_ofNat_lt (hn : n < 256) : (UInt8.ofNat n).toNat = n := by
  rw [UInt8.toNat_ofNat']
  exact Nat.mod_eq_of_lt hn

theorem lead_two (hlow : 2 ≤ n) (hn : n < 32) :
    lead (UInt8.ofNat (n + 192)) = some { owed := 0, bits := n } := by
  interval_cases n <;> rfl

theorem lead_three (hn : n < 16) :
    lead (UInt8.ofNat (n + 224)) =
      some { owed := 1, bits := n, low := if n = 0 then 0xA0 else 0x80,
             high := if n = 13 then 0x9F else 0xBF } := by
  interval_cases n <;> rfl

theorem lead_four (hn : n < 5) :
    lead (UInt8.ofNat (n + 240)) =
      some { owed := 2, bits := n, low := if n = 0 then 0x90 else 0x80,
             high := if n = 4 then 0x8F else 0xBF } := by
  interval_cases n <;> rfl

theorem follow_continuation (hn : n < 64) (owed bits : Nat) (rest : List UInt8) :
    follow (owed + 1) bits (UInt8.ofNat (n + 128) :: rest) = follow owed (bits * 64 + n) rest := by
  have hbyte : (UInt8.ofNat (n + 128)).toNat = n + 128 := toNat_ofNat_lt (by omega)
  have hcont : isContinuation (UInt8.ofNat (n + 128)) = true := by
    simp only [isContinuation, Bool.and_eq_true, decide_eq_true_eq, UInt8.le_iff_toNat_le, hbyte]
    exact ⟨Nat.le_add_left _ _, by show n + 128 ≤ 191; omega⟩
  rw [follow, if_pos hcont, hbyte]
  congr 2
  omega

theorem next_lead {a : UInt8} {l : Lead} (ha : ¬ a < 0x80) (hlead : lead a = some l) (hn : n < 64)
    (hlow : l.low.toNat ≤ n + 128) (hhigh : n + 128 ≤ l.high.toNat) (rest : List UInt8) :
    next a (UInt8.ofNat (n + 128) :: rest) = follow l.owed (l.bits * 64 + n) rest := by
  have hbyte : (UInt8.ofNat (n + 128)).toNat = n + 128 := toNat_ofNat_lt (by omega)
  have hrange : l.low ≤ UInt8.ofNat (n + 128) ∧ UInt8.ofNat (n + 128) ≤ l.high := by
    rw [UInt8.le_iff_toNat_le, UInt8.le_iff_toNat_le, hbyte]
    exact ⟨hlow, hhigh⟩
  unfold next
  rw [if_neg ha, hlead]
  dsimp only
  rw [if_pos hrange, hbyte]
  congr 2
  omega

theorem not_lt_ofNat (hn : n < 256) (hlow : 128 ≤ n) : ¬ UInt8.ofNat n < 0x80 := by
  rw [UInt8.lt_iff_toNat_lt, toNat_ofNat_lt hn]
  exact Nat.not_lt.mpr hlow

theorem val_valid (c : Char) :
    c.val.toNat < 0xD800 ∨ 0xDFFF < c.val.toNat ∧ c.val.toNat < 0x110000 :=
  c.valid

theorem next_encode (c : Char) (rest : List UInt8) :
    ∃ a more, String.utf8EncodeChar c = a :: more ∧ next a (more ++ rest) = (some c, rest) := by
  have hvalid := val_valid c
  have hback : ∀ n, n = c.val.toNat → (some (Char.ofNat n), rest) = (some c, rest) := by
    intro n hn
    rw [hn, show c.val.toNat = c.toNat from rfl, Char.ofNat_toNat]
  unfold String.utf8EncodeChar
  dsimp only
  generalize c.val.toNat = v at hvalid hback ⊢
  split
  · next hone =>
    refine ⟨_, _, rfl, ?_⟩
    rw [List.nil_append, next_ascii]
    · exact hback _ (toNat_ofNat_lt (by omega))
    · rw [UInt8.lt_iff_toNat_lt, toNat_ofNat_lt (by omega)]
      exact Nat.lt_succ_of_le hone
  · split
    · refine ⟨_, _, rfl, ?_⟩
      rw [List.cons_append, next_lead (not_lt_ofNat (by omega) (by omega))
        (lead_two (by omega) (by omega)) (by omega) (Nat.le_add_left _ _)
        (by show v % 64 + 128 ≤ 191; omega)]
      exact hback _ (by dsimp only; omega)
    · split
      · refine ⟨_, _, rfl, ?_⟩
        rw [List.cons_append, next_lead (not_lt_ofNat (by omega) (by omega))
          (lead_three (by omega)) (by omega)
          (by dsimp only; split <;> [show 160 ≤ _; show 128 ≤ _] <;> omega)
          (by dsimp only; split <;> [show _ ≤ 159; show _ ≤ 191] <;> omega),
          List.cons_append, follow_continuation (by omega)]
        exact hback _ (by dsimp only; omega)
      · refine ⟨_, _, rfl, ?_⟩
        rw [Nat.mod_eq_of_lt (show v / 262144 < 8 by omega), List.cons_append,
          next_lead (not_lt_ofNat (by omega) (by omega)) (lead_four (by omega)) (by omega)
          (by dsimp only; split <;> [show 144 ≤ _; show 128 ≤ _] <;> omega)
          (by dsimp only; split <;> [show _ ≤ 143; show _ ≤ 191] <;> omega),
          List.cons_append, follow_continuation (by omega),
          List.cons_append, follow_continuation (by omega)]
        exact hback _ (by dsimp only; omega)

/-! ## §2. Whole texts. -/

theorem fromUtf8_bytes (s : List Char) : fromUtf8 (bytes s) = some s := by
  induction s with
  | nil => rfl
  | cons c s ih =>
    obtain ⟨a, more, hencode, hnext⟩ := next_encode c (bytes s)
    rw [bytes_cons, hencode, List.cons_append, fromUtf8_cons, hnext, ih]
    rfl

theorem fromUtf8Lossy_bytes (s : List Char) : fromUtf8Lossy (bytes s) = s :=
  fromUtf8Lossy_eq (fromUtf8_bytes s)

theorem fromUtf8_bytes_append (hb : b < 0x80) (s : List Char) :
    fromUtf8 (bytes s ++ [b]) = some (s ++ [Char.ofNat b.toNat]) := by
  rw [fromUtf8_append_ascii hb, fromUtf8_bytes]
  rfl

theorem ascii_mem_utf8EncodeChar {c : Char} (hb : b < 0x80) (h : b ∈ String.utf8EncodeChar c) :
    c = Char.ofNat b.toNat := by
  have hlt := UInt8.lt_iff_toNat_lt.mp hb
  by_cases hc : c.toNat < 128
  · rw [utf8EncodeChar_ascii hc, List.mem_singleton] at h
    rw [h, toNat_ofNat_byte hc, Char.ofNat_toNat]
  · exfalso
    change ¬ c.val.toNat < 128 at hc
    have hvalid := val_valid c
    unfold String.utf8EncodeChar at h
    dsimp only at h
    generalize c.val.toNat = v at hc hvalid h
    have hbyte : ∀ n, n < 256 → 128 ≤ n → b ≠ UInt8.ofNat n := by
      rintro n hn hlow rfl
      exact not_lt_ofNat hn hlow hb
    rw [if_neg (by omega)] at h
    split at h
    · simp only [List.mem_cons, List.not_mem_nil, or_false] at h
      rcases h with h | h
      all_goals exact hbyte _ (by omega) (by omega) h
    · split at h
      all_goals simp only [List.mem_cons, List.not_mem_nil, or_false] at h
      · rcases h with h | h | h
        all_goals exact hbyte _ (by omega) (by omega) h
      · rcases h with h | h | h | h
        all_goals exact hbyte _ (by omega) (by omega) h

theorem mem_of_ascii_mem_bytes {s : List Char} (hb : b < 0x80) (h : b ∈ bytes s) :
    Char.ofNat b.toNat ∈ s := by
  obtain ⟨c, hc, hmem⟩ := List.mem_flatMap.mp h
  exact ascii_mem_utf8EncodeChar hb hmem ▸ hc

end ThisConnect.Codec
