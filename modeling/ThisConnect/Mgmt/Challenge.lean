/-
  ThisConnect.Mgmt.Challenge
  **STATIC AND DYNAMIC CHALLENGES.**
-/
import ThisConnect.Base.Codec
import ThisConnect.Mgmt.Escape

namespace ThisConnect.Mgmt

open Text

/-! ## §1. Static challenges. -/

inductive StaticChallengeFormat where
  | scrv1
  | concat
  deriving DecidableEq, Repr

structure StaticChallenge where
  echo : Bool
  text : String
  deriving DecidableEq, Repr

/-- `SC:1,Please enter your token`. -/
def StaticChallenge.parse (payload : List Char) : Option StaticChallenge := do
  let rest ← payload.dropPrefix? "SC:".toList
  let (flag, text) ← splitOnce ',' rest
  return ⟨trim flag == ['1'], String.ofList text⟩

def base64Text (s : String) : String := String.ofList (Codec.base64 (bytes s.toList))

def encodeStaticResponse (password response : String) : StaticChallengeFormat → String
  | .scrv1 => "SCRV1:" ++ base64Text password ++ ":" ++ base64Text response
  | .concat => password ++ response

/-! ## §2. Dynamic challenges. -/

structure DynamicChallenge where
  flags : String
  stateId : String
  usernameB64 : String
  challengeText : String
  deriving DecidableEq, Repr

namespace DynamicChallenge

def parse (raw : List Char) : Except MgmtError DynamicChallenge :=
  match splitn 5 ':' (trimMatches (· = '\'') (trim raw)) with
  | tag :: fields =>
    if tag ≠ "CRV1".toList then .error (.invalidChallenge "not a CRV1 challenge")
    else
      match fields with
      | [] => .error (.invalidChallenge "missing flags")
      | [_] => .error (.invalidChallenge "missing state id")
      | [_, _] => .error (.invalidChallenge "missing username")
      | [_, _, _] => .error (.invalidChallenge "missing challenge text")
      | flags :: stateId :: usernameB64 :: challengeText :: _ =>
        if stateId.isEmpty then .error (.invalidChallenge "empty state id")
        else .ok ⟨String.ofList flags, String.ofList stateId, String.ofList usernameB64,
          String.ofList challengeText⟩
  | [] => .error (.invalidChallenge "not a CRV1 challenge")

/-- The answer may be echoed. -/
def echo (challenge : DynamicChallenge) : Bool := challenge.flags.toList.contains 'E'

def username (decode : List Char → Option (List UInt8)) (challenge : DynamicChallenge) :
    Option String :=
  (decode challenge.usernameB64.toList).bind fun raw => (Codec.fromUtf8 raw).map String.ofList

end DynamicChallenge

def encodeDynamicResponse (stateId response : String) : Except MgmtError String :=
  if stateId.toList.isEmpty || stateId.toList.contains ':' then
    .error (.invalidChallenge "state id is not a single field")
  else .ok ("CRV1::" ++ stateId ++ "::" ++ response)

/-- The parameter of `cr-response`. -/
def encodeCrResponse (response : String) : String := base64Text response

example : (StaticChallenge.parse "SC:0,Enter code, then press OK".toList) =
    some ⟨false, "Enter code, then press OK"⟩ := by decide

end ThisConnect.Mgmt
