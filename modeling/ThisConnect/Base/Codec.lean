/-
  ThisConnect.Base.Codec
  **BYTES AND TEXT.**
-/
import Mathlib.Data.List.Basic
import ThisConnect.Base.Outcome

namespace ThisConnect.Codec

/-! ## §1. UTF-8. -/

structure Lead where
  owed : Nat
  bits : Nat
  low : UInt8 := 0x80
  high : UInt8 := 0xBF

def lead (a : UInt8) : Option Lead :=
  if 0xC2 ≤ a ∧ a ≤ 0xDF then some { owed := 0, bits := a.toNat % 32 }
  -- a low second byte would be an overlong form
  else if a = 0xE0 then some { owed := 1, bits := 0, low := 0xA0 }
  -- a high one would be a surrogate
  else if a = 0xED then some { owed := 1, bits := 13, high := 0x9F }
  else if 0xE1 ≤ a ∧ a ≤ 0xEF then some { owed := 1, bits := a.toNat % 16 }
  else if a = 0xF0 then some { owed := 2, bits := 0, low := 0x90 }
  else if 0xF1 ≤ a ∧ a ≤ 0xF3 then some { owed := 2, bits := a.toNat % 8 }
  else if a = 0xF4 then some { owed := 2, bits := 4, high := 0x8F }
  else none

def isContinuation (b : UInt8) : Bool := 0x80 ≤ b && b ≤ 0xBF

def follow : Nat → Nat → List UInt8 → Option Char × List UInt8
  | 0, bits, bytes => (some (Char.ofNat bits), bytes)
  | owed + 1, bits, b :: rest =>
    if isContinuation b then follow owed (bits * 64 + b.toNat % 64) rest else (none, b :: rest)
  | _ + 1, _, [] => (none, [])

def next (a : UInt8) (rest : List UInt8) : Option Char × List UInt8 :=
  if a < 0x80 then (some (Char.ofNat a.toNat), rest)
  else
    match lead a, rest with
    | some l, b :: rest' =>
      if l.low ≤ b ∧ b ≤ l.high then follow l.owed (l.bits * 64 + b.toNat % 64) rest'
      else (none, b :: rest')
    | _, rest => (none, rest)

def fromUtf8Aux : Nat → List UInt8 → Option (List Char)
  | _, [] => some []
  | 0, _ :: _ => none
  | fuel + 1, a :: rest =>
    match next a rest with
    | (some c, rest') => (fromUtf8Aux fuel rest').map (c :: ·)
    | (none, _) => none

/-- `std::str::from_utf8`. -/
def fromUtf8 (bytes : List UInt8) : Option (List Char) := fromUtf8Aux bytes.length bytes

def fromUtf8LossyAux : Nat → List UInt8 → List Char
  | _, [] => []
  | 0, _ :: _ => []
  | fuel + 1, a :: rest =>
    (next a rest).1.getD '�' :: fromUtf8LossyAux fuel (next a rest).2

/-- `String::from_utf8_lossy`. -/
def fromUtf8Lossy (bytes : List UInt8) : List Char := fromUtf8LossyAux bytes.length bytes

example : fromUtf8 [0x68, 0xC3, 0xA9, 0xE2, 0x82, 0xAC] = some ['h', 'é', '€'] := by decide
example : fromUtf8 [0xC0, 0x80] = none := by decide
example : fromUtf8Lossy [0x61, 0xE2, 0x82, 0x62, 0xFF] = ['a', '�', 'b', '�'] := by decide

/-! ## §2. Base64. -/

/-- The digit for six bits. -/
def base64Digit (n : Nat) : Char :=
  if n < 26 then Char.ofNat ('A'.toNat + n)
  else if n < 52 then Char.ofNat ('a'.toNat + (n - 26))
  else if n < 62 then Char.ofNat ('0'.toNat + (n - 52))
  else if n = 62 then '+' else '/'

/-- The standard alphabet with padding. -/
def base64 : List UInt8 → List Char
  | [] => []
  | [a] => [base64Digit (a.toNat / 4), base64Digit (a.toNat % 4 * 16), '=', '=']
  | [a, b] =>
    [base64Digit (a.toNat / 4), base64Digit (a.toNat % 4 * 16 + b.toNat / 16),
      base64Digit (b.toNat % 16 * 4), '=']
  | a :: b :: c :: rest =>
    base64Digit (a.toNat / 4) :: base64Digit (a.toNat % 4 * 16 + b.toNat / 16) ::
      base64Digit (b.toNat % 16 * 4 + c.toNat / 64) :: base64Digit (c.toNat % 64) :: base64 rest

/-- A decoder that accepts nothing but encodings. -/
def DecodesBase64 (decode : List Char → Option (List UInt8)) : Prop :=
  ∀ token decoded, decode token = some decoded → token = base64 decoded

example : base64 [0x66, 0x6F, 0x6F, 0x62] = ['Z', 'm', '9', 'v', 'Y', 'g', '=', '='] := by decide

end ThisConnect.Codec
