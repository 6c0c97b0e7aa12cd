/-
  ThisConnect.Ovpn.Error
  **WHY A PROFILE IS REFUSED, AND THE CAPS IT IS HELD TO.**
-/
import Mathlib
import ThisConnect.Base.Interaction

namespace ThisConnect.Ovpn

/-! ## §1. Caps. -/

def maxFileBytes : Nat := 256 * 1024
def maxDirectives : Nat := 256
def maxLineBytes : Nat := 4096
def maxInlineBytes : Nat := 128 * 1024
def maxInlineBlocks : Nat := 16
def maxArgs : Nat := 16

/-! ## §2. Rejections. -/

inductive CharsetDetail where
  | dotDot
  | notPermitted (bad : Char)
  deriving DecidableEq, Repr

/-- A profile rejection. -/
inductive ValidationError where
  | fileTooLarge (size max : Nat)
  | tooManyDirectives (max : Nat)
  | tooManyInlineBlocks (max : Nat)
  | lineTooLong (line max : Nat)
  | nulByte (line : Nat)
  | unterminatedQuote (line : Nat)
  | tooManyArguments (line max : Nat)
  | unterminatedInlineBlock (line : Nat) (tag : String)
  | unexpectedInlineClose (line : Nat) (tag : String)
  | nestedInlineBlock (line : Nat) (tag : String)
  | inlineBlockTooLarge (line : Nat) (tag : String) (max : Nat)
  | forbiddenInlineTag (line : Nat) (tag : String)
  | duplicateInlineTag (line : Nat) (tag : String)
  | forbiddenDirective (line : Nat) (directive reason : String)
  | unknownDirective (line : Nat) (directive : String)
  | invalidArgument (line : Nat) (directive detail : String)
  | unsafeArgument (line : Nat) (directive : String) (detail : CharsetDetail)
  | emptyProfile
  | missingRemote
  deriving DecidableEq, Repr

namespace ValidationError

def line : ValidationError → Option Nat
  | lineTooLong line _ | nulByte line | unterminatedQuote line | tooManyArguments line _
  | unterminatedInlineBlock line _ | unexpectedInlineClose line _ | nestedInlineBlock line _
  | inlineBlockTooLarge line _ _ | forbiddenInlineTag line _ | duplicateInlineTag line _
  | forbiddenDirective line _ _ | unknownDirective line _ | invalidArgument line _ _
  | unsafeArgument line _ _ => some line
  | _ => none

def directive : ValidationError → Option String
  | forbiddenDirective _ directive _ | unknownDirective _ directive
  | invalidArgument _ directive _ | unsafeArgument _ directive _ => some directive
  | unterminatedInlineBlock _ tag | unexpectedInlineClose _ tag | nestedInlineBlock _ tag
  | inlineBlockTooLarge _ tag _ | forbiddenInlineTag _ tag | duplicateInlineTag _ tag => some tag
  | _ => none

end ValidationError

end ThisConnect.Ovpn
