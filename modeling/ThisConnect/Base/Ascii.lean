/-
  ThisConnect.Base.Ascii
  **TEXT THAT IS ITS OWN ENCODING.**
-/
import ThisConnect.Base.Text
import ThisConnect.Base.Utf8

namespace ThisConnect.Codec

open Text

variable {c : Char} {bs : List UInt8} {s : List Char}

/-- ASCII bytes as text. -/
def chars (bs : List UInt8) : List Char := bs.map fun b => Char.ofNat b.toNat

@[simp] theorem chars_nil : chars [] = [] := rfl

@[simp] theorem chars_cons (b : UInt8) (bs : List UInt8) :
    chars (b :: bs) = Char.ofNat b.toNat :: chars bs := rfl

@[simp] theorem chars_append (xs ys : List UInt8) : chars (xs ++ ys) = chars xs ++ chars ys :=
  List.map_append

@[simp] theorem bytes_cons (c : Char) (s : List Char) :
    bytes (c :: s) = String.utf8EncodeChar c ++ bytes s := rfl

theorem length_bytes (s : List Char) : (bytes s).length = byteLen s := by
  induction s with
  | nil => rfl
  | cons c s ih =>
    rw [bytes_cons, List.length_append, ih, String.length_utf8EncodeChar, byteLen_cons]

theorem utf8EncodeChar_ascii (hc : c.toNat < 128) :
    String.utf8EncodeChar c = [UInt8.ofNat c.toNat] := by
  unfold String.utf8EncodeChar
  exact if_pos (Nat.le_of_lt_succ hc)

theorem toNat_ofNat_byte (hc : c.toNat < 128) : (UInt8.ofNat c.toNat).toNat = c.toNat := by
  rw [UInt8.toNat_ofNat']
  exact Nat.mod_eq_of_lt (by omega)

theorem bytes_chars (h : ∀ b ∈ bs, b < 0x80) : bytes (chars bs) = bs := by
  induction bs with
  | nil => rfl
  | cons b bs ih =>
    have hb : b < 0x80 := h b (by simp)
    have hchar := toNat_ofNat_ascii hb
    have hlt := UInt8.lt_iff_toNat_lt.mp hb
    rw [chars_cons, bytes_cons, ih fun b' hb' => h b' (by simp [hb']),
      utf8EncodeChar_ascii (by rw [hchar]; exact hlt), hchar, UInt8.ofNat_toNat]
    rfl

theorem chars_bytes (h : ∀ c ∈ s, c.toNat < 128) : chars (bytes s) = s := by
  induction s with
  | nil => rfl
  | cons c s ih =>
    have hc : c.toNat < 128 := h c (by simp)
    rw [bytes_cons, utf8EncodeChar_ascii hc, chars_append, ih fun c' hc' => h c' (by simp [hc']),
      chars_cons, toNat_ofNat_byte hc, Char.ofNat_toNat]
    rfl

theorem fromUtf8_ascii (h : ∀ b ∈ bs, b < 0x80) : fromUtf8 bs = some (chars bs) := by
  induction bs with
  | nil => rfl
  | cons b bs ih =>
    rw [fromUtf8_cons, next_ascii (h b (by simp)), ih fun b' hb' => h b' (by simp [hb'])]
    rfl

theorem byteLen_ascii (h : ∀ c ∈ s, c.toNat < 128) : byteLen s = s.length := by
  rw [← length_bytes]
  conv_rhs => rw [← chars_bytes h]
  exact (List.length_map _).symm

theorem byteLen_chars (h : ∀ b ∈ bs, b < 0x80) : byteLen (chars bs) = bs.length := by
  rw [← length_bytes, bytes_chars h]

theorem mem_chars_iff (h : ∀ b ∈ bs, b < 0x80) {b : UInt8} (hb : b < 0x80) :
    Char.ofNat b.toNat ∈ chars bs ↔ b ∈ bs := by
  constructor
  · intro hmem
    obtain ⟨b', hb', heq⟩ := List.mem_map.mp hmem
    exact ofNat_toNat_inj (h b' hb') hb heq ▸ hb'
  · intro hmem
    exact List.mem_map.mpr ⟨b, hmem, rfl⟩

end ThisConnect.Codec
