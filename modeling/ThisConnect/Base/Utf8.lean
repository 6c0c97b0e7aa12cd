/-
  ThisConnect.Base.Utf8
  **HOW DECODING COMPOSES.**
-/
import Mathlib
import ThisConnect.Base.Codec

namespace ThisConnect.Codec

variable {a b : UInt8}

/-! ## §1. One scalar. -/

theorem follow_suffix (owed : Nat) : ∀ (bits : Nat) (bytes : List UInt8),
    (follow owed bits bytes).2 <:+ bytes := by
  induction owed with
  | zero => intro bits bytes; exact List.suffix_refl _
  | succ owed ih =>
    intro bits bytes
    cases bytes with
    | nil => exact List.suffix_refl _
    | cons b rest =>
      unfold follow
      split
      · exact (ih _ rest).trans (List.suffix_cons b rest)
      · exact List.suffix_refl _

theorem next_suffix (a : UInt8) (rest : List UInt8) : (next a rest).2 <:+ rest := by
  unfold next
  split
  · exact List.suffix_refl _
  · split
    · split
      · exact (follow_suffix _ _ _).trans (List.suffix_cons _ _)
      · exact List.suffix_refl _
    · exact List.suffix_refl _

theorem next_ascii (ha : a < 0x80) (rest : List UInt8) :
    next a rest = (some (Char.ofNat a.toNat), rest) := by
  unfold next
  rw [if_pos ha]

theorem not_isContinuation (hb : b < 0x80) : isContinuation b = false := by
  have : ¬ (0x80 ≤ b) := UInt8.not_le.mpr hb
  simp [isContinuation, this]

theorem follow_append (hb : b < 0x80) (tail : List UInt8) (owed : Nat) :
    ∀ (bits : Nat) (bytes : List UInt8), follow owed bits (bytes ++ b :: tail) =
      ((follow owed bits bytes).1, (follow owed bits bytes).2 ++ b :: tail) := by
  induction owed with
  | zero => intro bits bytes; rfl
  | succ owed ih =>
    intro bits bytes
    cases bytes with
    | nil => simp [follow, not_isContinuation hb]
    | cons c rest =>
      by_cases hc : isContinuation c
      · simp [follow, hc, ih]
      · simp [follow, hc]

variable {l : Lead} {bytes rest : List UInt8} {text : List Char}

theorem le_low_of_lead (h : lead a = some l) : 0x80 ≤ l.low := by
  unfold lead at h
  repeat' split at h
  all_goals cases h
  all_goals dsimp only; decide

theorem next_append (hb : b < 0x80) (tail : List UInt8) (a : UInt8) (rest : List UInt8) :
    next a (rest ++ b :: tail) = ((next a rest).1, (next a rest).2 ++ b :: tail) := by
  unfold next
  by_cases ha : a < 0x80
  · simp [ha]
  · simp only [ha, ↓reduceIte]
    cases hlead : lead a with
    | none => cases rest <;> rfl
    | some l =>
      cases rest with
      | nil =>
        -- the byte after the lead would have to be in the lead's range
        have hlow : ¬ (l.low ≤ b) := by
          have hl := le_low_of_lead hlead
          rw [UInt8.le_iff_toNat_le] at hl ⊢
          rw [UInt8.lt_iff_toNat_lt] at hb
          omega
        simp [hlow]
      | cons c rest =>
        by_cases hc : l.low ≤ c ∧ c ≤ l.high
        · simp [hc, follow_append hb]
        · simp [hc]

/-! ## §2. Whole texts. -/

theorem fromUtf8Aux_fuel (fuel : Nat) : ∀ {fuel' : Nat} {bytes : List UInt8},
    bytes.length ≤ fuel → bytes.length ≤ fuel' →
      fromUtf8Aux fuel bytes = fromUtf8Aux fuel' bytes := by
  induction fuel with
  | zero =>
    intro fuel' bytes h _
    rw [List.length_eq_zero_iff.mp (Nat.le_zero.mp h)]
    cases fuel' <;> rfl
  | succ fuel ih =>
    intro fuel' bytes h h'
    cases bytes with
    | nil => cases fuel' <;> rfl
    | cons a rest =>
      obtain ⟨fuel', rfl⟩ : ∃ n, fuel' = n + 1 :=
        ⟨fuel' - 1, by simp only [List.length_cons] at h'; omega⟩
      simp only [List.length_cons, Nat.add_le_add_iff_right] at h h'
      have hnext := (next_suffix a rest).length_le
      unfold fromUtf8Aux
      generalize next a rest = scalar at hnext ⊢
      obtain ⟨c, rest'⟩ := scalar
      cases c with
      | none => rfl
      | some c =>
        dsimp only
        rw [ih (Nat.le_trans hnext h) (Nat.le_trans hnext h')]

theorem fromUtf8LossyAux_fuel (fuel : Nat) : ∀ {fuel' : Nat} {bytes : List UInt8},
    bytes.length ≤ fuel → bytes.length ≤ fuel' →
      fromUtf8LossyAux fuel bytes = fromUtf8LossyAux fuel' bytes := by
  induction fuel with
  | zero =>
    intro fuel' bytes h _
    rw [List.length_eq_zero_iff.mp (Nat.le_zero.mp h)]
    cases fuel' <;> rfl
  | succ fuel ih =>
    intro fuel' bytes h h'
    cases bytes with
    | nil => cases fuel' <;> rfl
    | cons a rest =>
      obtain ⟨fuel', rfl⟩ : ∃ n, fuel' = n + 1 :=
        ⟨fuel' - 1, by simp only [List.length_cons] at h'; omega⟩
      simp only [List.length_cons, Nat.add_le_add_iff_right] at h h'
      have hnext := (next_suffix a rest).length_le
      unfold fromUtf8LossyAux
      rw [ih (Nat.le_trans hnext h) (Nat.le_trans hnext h')]

theorem fromUtf8_cons (a : UInt8) (rest : List UInt8) :
    fromUtf8 (a :: rest) =
      (next a rest).1.bind fun c => (fromUtf8 (next a rest).2).map (c :: ·) := by
  have hnext := (next_suffix a rest).length_le
  show fromUtf8Aux (rest.length + 1) (a :: rest) = _
  unfold fromUtf8Aux
  generalize next a rest = scalar at hnext ⊢
  obtain ⟨c, rest'⟩ := scalar
  cases c with
  | none => rfl
  | some c => exact congrArg (Option.map (c :: ·)) (fromUtf8Aux_fuel _ hnext (Nat.le_refl _))

theorem fromUtf8Lossy_cons (a : UInt8) (rest : List UInt8) :
    fromUtf8Lossy (a :: rest) =
      (next a rest).1.getD '�' :: fromUtf8Lossy (next a rest).2 := by
  show fromUtf8LossyAux (rest.length + 1) (a :: rest) = _
  unfold fromUtf8LossyAux
  rw [fromUtf8LossyAux_fuel _ (next_suffix a rest).length_le (Nat.le_refl _)]
  rfl

theorem scalar_induction {motive : List UInt8 → Prop} (nil : motive [])
    (cons : ∀ a rest, motive (next a rest).2 → motive (a :: rest)) (bytes : List UInt8) :
    motive bytes := by
  induction hlen : bytes.length using Nat.strongRecOn generalizing bytes with
  | ind n ih =>
    cases bytes with
    | nil => exact nil
    | cons a rest =>
      refine cons a rest (ih _ ?_ _ rfl)
      have := (next_suffix a rest).length_le
      simp only [List.length_cons] at hlen
      omega

theorem fromUtf8_append_ascii (hb : b < 0x80) (tail bytes : List UInt8) :
    fromUtf8 (bytes ++ b :: tail) =
      (fromUtf8 bytes).bind fun left => (fromUtf8 tail).map fun right =>
        left ++ Char.ofNat b.toNat :: right := by
  induction bytes using scalar_induction with
  | nil =>
    rw [List.nil_append, fromUtf8_cons, next_ascii hb]
    rfl
  | cons a rest ih =>
    rw [List.cons_append, fromUtf8_cons, next_append hb, fromUtf8_cons]
    dsimp only
    rw [ih]
    cases (next a rest).1 <;> cases fromUtf8 (next a rest).2 <;> cases fromUtf8 tail <;> rfl

theorem eq_nil_of_fromUtf8 (h : fromUtf8 bytes = some []) : bytes = [] := by
  cases bytes with
  | nil => rfl
  | cons a rest =>
    rw [fromUtf8_cons] at h
    obtain ⟨c, _, h⟩ := Option.bind_eq_some_iff.mp h
    obtain ⟨_, _, h⟩ := Option.map_eq_some_iff.mp h
    exact absurd h (by simp)

theorem fromUtf8Lossy_eq (h : fromUtf8 bytes = some text) :
    fromUtf8Lossy bytes = text := by
  induction bytes using scalar_induction generalizing text with
  | nil =>
    injection h with h
  | cons a rest ih =>
    rw [fromUtf8_cons] at h
    obtain ⟨c, hc, h⟩ := Option.bind_eq_some_iff.mp h
    obtain ⟨text', htext', rfl⟩ := Option.map_eq_some_iff.mp h
    rw [fromUtf8Lossy_cons, hc, ih htext']
    rfl

/-! ## §3. Other bytes do not decode to ASCII. -/

theorem toNat_ofNat_ge {n : Nat} (hn : 128 ≤ n) :
    (Char.ofNat n).toNat = 0 ∨ 128 ≤ (Char.ofNat n).toNat := by
  unfold Char.ofNat
  split
  · exact .inr hn
  · exact .inl rfl

theorem follow_not_ascii (owed : Nat) : ∀ {bits : Nat} {bytes : List UInt8} {c : Char},
    128 ≤ bits * 64 ^ owed → (follow owed bits bytes).1 = some c → c.toNat = 0 ∨ 128 ≤ c.toNat := by
  induction owed with
  | zero =>
    intro bits bytes c hbits h
    injection h with h
    exact h ▸ toNat_ofNat_ge (by simpa using hbits)
  | succ owed ih =>
    intro bits bytes c hbits h
    cases bytes with
    | nil => exact absurd h (by simp [follow])
    | cons b rest =>
      unfold follow at h
      split at h
      · refine @ih (bits * 64 + b.toNat % 64) _ _ ?_ h
        rw [Nat.pow_succ'] at hbits
        calc 128 ≤ bits * (64 * 64 ^ owed) := hbits
          _ = bits * 64 * 64 ^ owed := by rw [Nat.mul_assoc]
          _ ≤ (bits * 64 + b.toNat % 64) * 64 ^ owed :=
            Nat.mul_le_mul_right _ (Nat.le_add_right _ _)
      · exact absurd h (by simp)

theorem lead_bits (h : lead a = some l) (hlow : l.low ≤ b) (hhigh : b ≤ l.high) :
    128 ≤ (l.bits * 64 + b.toNat % 64) * 64 ^ l.owed := by
  unfold lead at h
  rw [UInt8.le_iff_toNat_le] at hlow hhigh
  simp only [UInt8.le_iff_toNat_le] at h
  repeat' split at h
  all_goals cases h
  all_goals simp only [UInt8.toNat_ofNat] at *
  all_goals omega

theorem ascii_of_next {c : Char} (h : (next a rest).1 = some c) (hpos : 0 < c.toNat)
    (hascii : c.toNat < 128) : a < 0x80 := by
  by_contra ha
  unfold next at h
  rw [if_neg ha] at h
  split at h
  · next l b rest' hlead =>
    split at h
    · next hrange =>
      have := follow_not_ascii _ (lead_bits hlead hrange.1 hrange.2) h
      omega
    · exact absurd h (by simp)
  · exact absurd h (by simp)

theorem toNat_ofNat_ascii (hb : b < 0x80) : (Char.ofNat b.toNat).toNat = b.toNat := by
  have hvalid : ∀ n < 128, (Char.ofNat n).toNat = n := by decide
  exact hvalid _ (UInt8.lt_iff_toNat_lt.mp hb)

theorem ofNat_toNat_inj (ha : a < 0x80) (hb : b < 0x80)
    (h : Char.ofNat a.toNat = Char.ofNat b.toNat) : a = b := by
  have := congrArg Char.toNat h
  rw [toNat_ofNat_ascii ha, toNat_ofNat_ascii hb] at this
  exact UInt8.toNat_inj.mp this

theorem ascii_of_next_eq (hb : 0 < b ∧ b < 0x80) (h : (next a rest).1 = some (Char.ofNat b.toNat)) :
    a < 0x80 := by
  have htoNat := toNat_ofNat_ascii hb.2
  have hpos := UInt8.lt_iff_toNat_lt.mp hb.1
  have hlt := UInt8.lt_iff_toNat_lt.mp hb.2
  exact ascii_of_next h (by rw [htoNat]; exact hpos) (by rw [htoNat]; exact hlt)

/-- An ASCII mark. -/
def Ascii (mark : List UInt8) : Prop := ∀ b ∈ mark, 0 < b ∧ b < 0x80

theorem mark_prefix_iff {mark : List UInt8} (hmark : Ascii mark) (bytes : List UInt8) :
    mark.map (fun b => Char.ofNat b.toNat) <+: fromUtf8Lossy bytes ↔ mark <+: bytes := by
  induction mark generalizing bytes with
  | nil => simp
  | cons m mark ih =>
    have hm : 0 < m ∧ m < 0x80 := hmark m (by simp)
    have hrest : Ascii mark := fun b hb => hmark b (by simp [hb])
    cases bytes with
    | nil => simp [fromUtf8Lossy, fromUtf8LossyAux]
    | cons a rest =>
      rw [fromUtf8Lossy_cons, List.map_cons, List.cons_prefix_cons, List.cons_prefix_cons]
      by_cases ha : a < 0x80
      · rw [next_ascii ha, Option.getD_some, ih hrest]
        refine and_congr_left fun _ => ⟨fun h => ofNat_toNat_inj hm.2 ha h, fun h => by rw [h]⟩
      · -- a longer or broken sequence stands for no ASCII character
        refine iff_of_false (fun h => ?_) (fun h => ha (h.1 ▸ hm.2))
        cases hnext : (next a rest).1 with
        | none =>
          have hreplaced := congrArg Char.toNat h.1
          rw [toNat_ofNat_ascii hm.2, hnext] at hreplaced
          have hlt := UInt8.lt_iff_toNat_lt.mp hm.2
          rw [hreplaced] at hlt
          exact absurd hlt (by decide)
        | some c =>
          rw [hnext, Option.getD_some] at h
          exact ha (ascii_of_next_eq hm (hnext.trans (by rw [h.1])))

theorem getLast_ascii_iff {b : UInt8} (hb : 0 < b ∧ b < 0x80) (h : fromUtf8 bytes = some text) :
    text.getLast? = some (Char.ofNat b.toNat) ↔ bytes.getLast? = some b := by
  constructor
  · intro hlast
    induction bytes using scalar_induction generalizing text with
    | nil =>
      injection h with h
      subst h
      exact absurd hlast (by simp)
    | cons a rest ih =>
      rw [fromUtf8_cons] at h
      obtain ⟨c, hc, h⟩ := Option.bind_eq_some_iff.mp h
      obtain ⟨text', htext', rfl⟩ := Option.map_eq_some_iff.mp h
      cases text' with
      | nil =>
        have hc' : (next a rest).1 = some (Char.ofNat b.toNat) := by
          rw [hc]
          exact hlast
        have ha := ascii_of_next_eq hb hc'
        rw [next_ascii ha] at hc' htext'
        obtain rfl : rest = [] := eq_nil_of_fromUtf8 htext'
        rw [ofNat_toNat_inj ha hb.2 (Option.some.inj hc')]
        rfl
      | cons c' text' =>
        rw [List.getLast?_cons_cons] at hlast
        obtain ⟨init, hinit⟩ := List.getLast?_eq_some_iff.mp (ih htext' hlast)
        obtain ⟨front, hfront⟩ := next_suffix a rest
        refine List.getLast?_eq_some_iff.mpr ⟨a :: front ++ init, ?_⟩
        rw [← hfront, hinit]
        simp
  · intro hlast
    obtain ⟨init, rfl⟩ : ∃ init, bytes = init ++ [b] := List.getLast?_eq_some_iff.mp hlast
    rw [fromUtf8_append_ascii hb.2] at h
    obtain ⟨left, _, h⟩ := Option.bind_eq_some_iff.mp h
    obtain ⟨right, hright, rfl⟩ := Option.map_eq_some_iff.mp h
    injection hright with hright
    subst hright
    simp

end ThisConnect.Codec
