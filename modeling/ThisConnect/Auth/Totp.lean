/-
  ThisConnect.Auth.Totp
  **ONE-TIME CODES FOR THE SECOND FACTOR.**
-/
import Mathlib.Data.List.Basic

namespace ThisConnect.Auth

inductive TotpError where
  | disabled
  | seedNotBase32
  | rejected (detail : String)
  | alreadyConsumed (seconds : Nat)
  | clock
  deriving DecidableEq, Repr

inductive BuildError where
  | secretTooShort (bits : Nat)
  | other (detail : String)
  deriving DecidableEq, Repr

/-- The TOTP library, with SHA-1. -/
structure TotpLibrary where
  fromBase32 : String → Option (List UInt8)
  build : List UInt8 → (digits stepSeconds : Nat) → Except BuildError Unit
  generate : List UInt8 → (digits stepSeconds : Nat) → (unixSecs : Nat) → String

def sampleSeed : String := "GEZDGNBVGY3TQOJQGEZDGNBVGY3TQOJQ"

def sampleLibrary : TotpLibrary where
  fromBase32 seed := if seed = sampleSeed then some "12345678901234567890".toUTF8.toList else none
  build secret _ _ :=
    if secret.length * 8 < 128 then .error (.secretTooShort (secret.length * 8)) else .ok ()
  generate _ _ stepSeconds unixSecs :=
    ["841346", "749439", "037211", "003784"].getD (unixSecs / stepSeconds - 33) ""

structure TotpSettings where
  enabled : Bool := false
  digits : Nat := 6
  stepSeconds : Nat := 30
  deriving DecidableEq, Repr

inductive SeedCompliance where
  | compliant
  | shortSeed (bits : Nat)
  deriving DecidableEq, Repr

def SeedCompliance.warning : SeedCompliance → Option String
  | .compliant => none
  | .shortSeed bits => some (s!"This account's TOTP seed is {bits} bits. " ++
      "RFC 4226 requires at least 128. " ++
      "Codes will still be generated, but the second factor is weaker than it looks.")

structure TotpGenerator where
  secret : List UInt8
  digits : Nat
  compliance : SeedCompliance
  stepSeconds : Nat

namespace TotpGenerator

def fromBase32Seed (library : TotpLibrary) (seed : String) (settings : TotpSettings) :
    Except TotpError TotpGenerator :=
  if !settings.enabled then .error .disabled
  else if settings.digits < 6 ∨ 8 < settings.digits then .error (.rejected "digits must be 6-8")
  else if settings.stepSeconds = 0 then .error (.rejected "step duration must not be zero")
  else
    match library.fromBase32 seed with
    | none => .error .seedNotBase32
    | some secret =>
      match library.build secret settings.digits settings.stepSeconds with
      | .ok () => .ok ⟨secret, settings.digits, .compliant, settings.stepSeconds⟩
      -- a short seed is usable, and reported
      | .error (.secretTooShort bits) =>
        .ok ⟨secret, settings.digits, .shortSeed bits, settings.stepSeconds⟩
      | .error (.other detail) => .error (.rejected detail)

def stepAt (generator : TotpGenerator) (unixSecs : Nat) : Nat := unixSecs / generator.stepSeconds

def codeAt (library : TotpLibrary) (generator : TotpGenerator) (unixSecs : Nat) : String :=
  library.generate generator.secret generator.digits generator.stepSeconds unixSecs

end TotpGenerator

structure ReplayGuard where
  lastStep : Option Nat := none
  deriving DecidableEq, Repr

def ReplayGuard.admits (guard : ReplayGuard) (step stepSeconds now : Nat) :
    Except TotpError ReplayGuard :=
  if guard.lastStep = some step then
    .error (.alreadyConsumed (stepSeconds - now % max stepSeconds 1))
  else .ok ⟨some step⟩

end ThisConnect.Auth
