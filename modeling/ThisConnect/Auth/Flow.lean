/-
  ThisConnect.Auth.Flow
  **ANSWERING OPENVPN'S CREDENTIAL PROMPTS.**
-/
import ThisConnect.Auth.Totp
import ThisConnect.Base.Interaction
import ThisConnect.Ipc.Handler
import ThisConnect.Mgmt.Event

namespace ThisConnect.Auth

open Interaction Mgmt
open Ipc (PromptError)

/-! ## §1. Credentials. -/

/-- Where a credential comes from. -/
inductive Source where
  | stored
  | remembered
  | typed
  | challenge
  deriving DecidableEq, Repr

structure Credential where
  text : String
  source : Source
  deriving DecidableEq, Repr

inductive MgmtAnswer where
  | credentials (kind : String) (username : Option Credential) (password : Credential)
  | crResponse (value : String)
  deriving DecidableEq, Repr

def MgmtAnswer.commands : MgmtAnswer → Except MgmtError (List (List Char))
  | .credentials kind username password => do
      let first ← match username with
        | some name =>
          (buildCommand "username".toList [kind.toList, name.text.toList]).map ([·])
        | none => .ok []
      let second ← buildCommand "password".toList [kind.toList, password.text.toList]
      return first ++ [second]
  | .crResponse value => (buildCommand "cr-response".toList [value.toList]).map ([·])

inductive StoreError where
  | unavailable (detail : String)
  | notFound
  | ambiguous
  | rejected (detail : String)
  deriving DecidableEq, Repr

inductive CredentialPrompt where
  | usernamePassword (profileId : String) (usernameHint : Option String)
  | staticChallenge (profileId challengeText : String) (echo : Bool)
  | dynamicChallenge (profileId stateId challengeText : String) (echo : Bool)
  deriving DecidableEq, Repr

inductive PromptAnswer where
  | usernamePassword (username password : String)
  | challenge (response : String)
  deriving DecidableEq, Repr

inductive AuthError where
  | prompt (error : PromptError)
  | store (error : StoreError)
  | totp (error : TotpError)
  | challenge (error : MgmtError)
  | nothingToAnswer
  | unknownUsername
  | clock
  deriving DecidableEq, Repr

/-! ## §2. The flow. -/

structure FlowState where
  username : Option String := none
  storedPasswordOffered : Bool := false
  replay : ReplayGuard := {}
  warnedShortSeed : Bool := false
  deriving DecidableEq, Repr

inductive Call where
  | recv (flow : FlowState)
  | loadPassword
  | loadSeed
  | ask (prompt : CredentialPrompt)
  | announce (message : String)
  | now
  | send (answer : MgmtAnswer) (line : List Char)

def Call.Answer : Call → Type
  | .recv _ => Mgmt.Event
  | .loadPassword | .loadSeed => Except StoreError String
  | .ask _ => Except PromptError PromptAnswer
  | .announce _ => Unit
  | .now => Except AuthError Nat
  | .send _ _ => Except MgmtError (Bool × String)

/-- A fallible step of the flow. -/
abbrev Flow (α : Type) := FlowState → Prog Call Call.Answer (Except AuthError α × FlowState)

structure AuthFlow where
  profileId : String
  totp : TotpSettings
  library : TotpLibrary
  decode : List Char → Option (List UInt8)

namespace AuthFlow

variable (auth : AuthFlow)

/-- Asks for the pair. -/
def askPair (remembered : Option String) : Flow (Credential × Credential) := fun flow =>
  .call (.ask (.usernamePassword auth.profileId remembered)) fun
    | .error error => .ret (.error (.prompt error), flow)
    | .ok (.usernamePassword username password) =>
      .ret (.ok (⟨username, .typed⟩, ⟨password, .typed⟩), { flow with username := some username })
    | .ok (.challenge _) => .ret (.error (.prompt .mismatchedReply), flow)

def usernamePassword : Flow (Credential × Credential) := fun flow =>
  match flow.username, flow.storedPasswordOffered with
  | some username, false =>
    .call .loadPassword fun
      | .ok password =>
        .ret (.ok (⟨username, .remembered⟩, ⟨password, .stored⟩),
          { flow with storedPasswordOffered := true })
      | .error .notFound => auth.askPair flow.username flow
      | .error error => .ret (.error (.store error), flow)
  | _, _ => auth.askPair flow.username flow

def askForResponse (prompt : CredentialPrompt) : Flow String := fun flow =>
  .call (.ask prompt) fun
    | .error error => .ret (.error (.prompt error), flow)
    | .ok (.challenge response) => .ret (.ok response, flow)
    | .ok (.usernamePassword _ _) => .ret (.error (.prompt .mismatchedReply), flow)

/-- Once per flow. -/
def warnAboutShortSeed (compliance : SeedCompliance) (flow : FlowState) :
    Prog Call Call.Answer FlowState :=
  match compliance.warning with
  | none => .ret flow
  | some warning =>
    if flow.warnedShortSeed then .ret flow
    else .call (.announce warning) fun _ => .ret { flow with warnedShortSeed := true }

def generated (generator : TotpGenerator) (prompt : CredentialPrompt) : Flow String := fun flow =>
  .call .now fun
    | .error error => .ret (.error error, flow)
    | .ok now =>
      match flow.replay.admits (generator.stepAt now) generator.stepSeconds now with
      | .ok next => .ret (.ok (generator.codeAt auth.library now), { flow with replay := next })
      | .error (.alreadyConsumed seconds) =>
        .call (.announce
          (s!"The generated one-time code was already sent to the server. Waiting {seconds}s " ++
            "would replay it, so you are being asked instead.")) fun _ =>
          askForResponse prompt flow
      | .error error => .ret (.error (.totp error), flow)

def secondFactor (prompt : CredentialPrompt) : Flow String := fun flow =>
  if !auth.totp.enabled then askForResponse prompt flow
  else
    .call .loadSeed fun
      | .error .notFound => askForResponse prompt flow
      | .error error => .ret (.error (.store error), flow)
      | .ok seed =>
        match TotpGenerator.fromBase32Seed auth.library seed auth.totp with
        | .error error => .ret (.error (.totp error), flow)
        | .ok generator =>
          warnAboutShortSeed generator.compliance flow >>= auth.generated generator prompt

def answerNeed (kind : String) (needsUsername needsPassword : Bool)
    (challenge : Option StaticChallenge) (format : StaticChallengeFormat) : Flow MgmtAnswer :=
  fun flow =>
    if !needsUsername && !needsPassword then .ret (.error .nothingToAnswer, flow)
    else
      auth.usernamePassword flow >>= fun
        | (.error error, flow) => .ret (.error error, flow)
        | (.ok (username, password), flow) =>
          let answer (password : Credential) : MgmtAnswer :=
            .credentials kind (if needsUsername then some username else none) password
          match challenge with
          | none => .ret (.ok (answer password), flow)
          | some challenge =>
            auth.secondFactor
                (.staticChallenge auth.profileId challenge.text challenge.echo) flow >>= fun
              | (.error error, flow) => .ret (.error error, flow)
              | (.ok response, flow) =>
                .ret (.ok (answer { password with
                  text := encodeStaticResponse password.text response format }), flow)

def accountFor (challenge : DynamicChallenge) (flow : FlowState) : Option Credential :=
  match challenge.username auth.decode with
  | some username => some ⟨username, .challenge⟩
  | none => flow.username.map (⟨·, .remembered⟩)

def answerDynamicChallenge (kind : String) (challenge : DynamicChallenge) : Flow MgmtAnswer :=
  fun flow =>
    match auth.accountFor challenge flow with
    | none => .ret (.error .unknownUsername, flow)
    | some username =>
      auth.secondFactor (.dynamicChallenge auth.profileId challenge.stateId
          challenge.challengeText challenge.echo) flow >>= fun
        | (.error error, flow) => .ret (.error error, flow)
        | (.ok response, flow) =>
          match encodeDynamicResponse challenge.stateId response with
          | .error error => .ret (.error (.challenge error), flow)
          | .ok password =>
            .ret (.ok (.credentials kind (some username) ⟨password, .typed⟩), flow)

/-- Answers `>INFOMSG:CR_TEXT:<text>`. -/
def answerCrText (text : String) : Flow MgmtAnswer := fun flow =>
  auth.secondFactor (.staticChallenge auth.profileId text false) flow >>= fun
    | (.error error, flow) => .ret (.error error, flow)
    | (.ok response, flow) => .ret (.ok (.crResponse (encodeCrResponse response)), flow)

end AuthFlow

end ThisConnect.Auth
