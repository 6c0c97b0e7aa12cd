/-
  ThisConnect.Mgmt.Escape
  **COMMANDS AS OPENVPN'S CONFIG LEXER READS THEM.**
-/
import ThisConnect.Base.Text

namespace ThisConnect.Mgmt

open Text

def maxLineBytes : Nat := 900

def maxInboundLineBytes : Nat := 8192

def announcedVersion : Nat := 6

def minManagementVersion : Nat := 5

def replyBearingVersion : Nat := 6

inductive MgmtError where
  | io
  | lineTooLong (bytes : Nat)
  | forbiddenControlChar
  | invalidVerb
  | timeout
  | eof
  | closed
  | unsupportedVersion (found : Nat)
  | greeting
  | commandFailed (text : String)
  | missingDev
  | invalidChallenge (detail : String)
  deriving DecidableEq, Repr

def isFramingHazard (c : Char) : Bool := c = '\n' || c = '\r' || c = '\x00'

def isVerbChar (c : Char) : Bool := c.isAlphanum || c = '-' || c = '_'

/-- One parameter, always double quoted. -/
def escapeParam (raw : List Char) : Except MgmtError (List Char) :=
  if raw.any isFramingHazard then .error .forbiddenControlChar
  else
    .ok ('"' :: raw.flatMap (fun c => if c = '"' ∨ c = '\\' then ['\\', c] else [c]) ++ ['"'])

def checkLineLength (line : List Char) : Except MgmtError Unit :=
  if maxLineBytes < byteLen line then .error (.lineTooLong (byteLen line))
  else if line.any isFramingHazard then .error .forbiddenControlChar
  else .ok ()

/-- `verb "p1" "p2"`. -/
def buildCommand (verb : List Char) (params : List (List Char)) : Except MgmtError (List Char) :=
  if verb.isEmpty || !verb.all isVerbChar then .error .invalidVerb
  else
    (params.foldlM (fun acc param => (escapeParam param).map (acc ++ ' ' :: ·)) verb).bind
      fun line => (checkLineLength line).map fun () => line

example : buildCommand "password".toList ["Auth".toList, "pa\"ss".toList] =
    .ok "password \"Auth\" \"pa\\\"ss\"".toList := by decide

end ThisConnect.Mgmt
