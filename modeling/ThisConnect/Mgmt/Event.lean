/-
  ThisConnect.Mgmt.Event
  **NOTIFICATIONS OF THE MANAGEMENT CHANNEL.**
-/
import ThisConnect.Base.Numeral
import ThisConnect.Mgmt.Challenge

namespace ThisConnect.Mgmt

open Text Numeral

/-! ## §1. Notifications. -/

structure StateEvent where
  time : Option Int
  name : String
  description : Option String
  localV4 : Option String
  remoteAddr : Option String
  remotePort : Option String
  localAddr : Option String
  localPort : Option String
  localV6 : Option String
  deriving DecidableEq, Repr

structure LogEvent where
  time : Option Int
  flags : String
  text : String
  deriving DecidableEq, Repr

inductive PasswordEvent where
  | need (kind : String) (needsUsername needsPassword : Bool) (challenge : Option StaticChallenge)
  | verificationFailed (kind : String) (reason : Option String) (dynamic : Option DynamicChallenge)
  | authToken
  | other (payload : String)
  deriving DecidableEq, Repr

inductive InfoMsg where
  | crText (text : String)
  | other (payload : String)
  deriving DecidableEq, Repr

inductive UpDown where
  | up
  | down
  | envBegin
  | envEnd
  | env (key value : String)
  | other (payload : String)
  deriving DecidableEq, Repr

inductive Event where
  | info (text : String)
  | state (state : StateEvent)
  | hold (message : String) (seconds : Option Nat)
  | password (password : PasswordEvent)
  | log (log : LogEvent)
  | byteCount (bytesIn bytesOut : Nat)
  | upDown (line : UpDown)
  | fatal (text : String)
  | infoMsg (message : InfoMsg)
  | needOk (kind message : String)
  | needStr (kind message : String)
  | unknown (tag payload : String)
  deriving DecidableEq, Repr

/-! ## §2. Parsing. -/

def StateEvent.parse (payload : List Char) : Option StateEvent :=
  let fields := payload.splitOn ','
  let field (index : Nat) : Option String :=
    ((fields[index]?.map trim).filter (!·.isEmpty)).map String.ofList
  (field 1).map fun name =>
    { time := (field 0).bind fun value => parseSigned (2 ^ 63) value.toList
      name, description := field 2, localV4 := field 3, remoteAddr := field 4
      remotePort := field 5, localAddr := field 6, localPort := field 7, localV6 := field 8 }

/-- The only admissible connected signal. -/
def StateEvent.isConnected (state : StateEvent) : Bool := state.name == "CONNECTED"

/-- `>HOLD:Waiting for hold release:0`. -/
def parseHold (payload : List Char) : Event :=
  match rsplitOnce ':' payload with
  | some (message, tail) =>
    match parseUnsigned (2 ^ 64) (trim tail) with
    | some seconds => .hold (String.ofList message) (some seconds)
    | none => .hold (String.ofList payload) none
  | none => .hold (String.ofList payload) none

def parseByteCount (payload : List Char) : Option Event := do
  let (rawIn, rawOut) ← splitOnce ',' payload
  let bytesIn ← parseUnsigned (2 ^ 64) (trim rawIn)
  let bytesOut ← parseUnsigned (2 ^ 64) (trim rawOut)
  return .byteCount bytesIn bytesOut

def LogEvent.parse (payload : List Char) : LogEvent :=
  let fields := splitn 3 ',' payload
  { time := fields[0]?.bind fun value => parseSigned (2 ^ 63) (trim value)
    flags := String.ofList (fields[1]?.getD [])
    text := String.ofList (fields[2]?.getD []) }

/-- A leading quoted token, and the rest. -/
def splitQuoted (input : List Char) : List Char × List Char :=
  (((trimStart input).dropPrefix? ['\'']).bind (splitOnce '\'')).getD ([], trimStart input)

def extractQuoted (input : List Char) : Option (List Char) :=
  (splitOnce '\'' input).bind fun (_, rest) => (rsplitOnce '\'' rest).map Prod.fst

def PasswordEvent.parseNeed (rest : List Char) : PasswordEvent :=
  let (kind, tail) := splitQuoted rest
  let (want, challenge) := match splitOnceAt "SC:".toList tail with
    | some (want, sc) => (want, StaticChallenge.parse ("SC:".toList ++ sc))
    | none => (tail, none)
  .need (String.ofList kind) (containsText "username".toList want)
    (containsText "password".toList want) challenge

def PasswordEvent.parseVerificationFailed (rest : List Char) : PasswordEvent :=
  let (kind, tail) := splitQuoted rest
  let reason := extractQuoted tail
  .verificationFailed (String.ofList kind) (reason.map String.ofList)
    (reason.bind fun value => (DynamicChallenge.parse value).toOption)

def PasswordEvent.parse (payload : List Char) : PasswordEvent :=
  match payload.dropPrefix? "Need ".toList, payload.dropPrefix? "Verification Failed:".toList with
  | some rest, _ => parseNeed rest
  | none, some rest => parseVerificationFailed (trim rest)
  | none, none =>
    if "Auth-Token:".toList.isPrefixOf payload then .authToken else .other (String.ofList payload)

def InfoMsg.parse (payload : List Char) : InfoMsg :=
  match payload.dropPrefix? "CR_TEXT:".toList with
  | some text => .crText (String.ofList text)
  | none => .other (String.ofList payload)

def UpDown.parse (payload : List Char) : UpDown :=
  match splitOnce ',' payload with
  | some (['E', 'N', 'V'], ['E', 'N', 'D']) => .envEnd
  | some (['E', 'N', 'V'], ['B', 'E', 'G', 'I', 'N']) => .envBegin
  | some (['E', 'N', 'V'], entry) =>
    match splitOnce '=' entry with
    | some (key, value) => .env (String.ofList key) (String.ofList value)
    | none => .other (String.ofList payload)
  | _ =>
    if trim payload = "UP".toList then .up
    else if trim payload = "DOWN".toList then .down
    else .other (String.ofList (trim payload))

def Event.parse (line : List Char) : Event :=
  let body := (line.dropPrefix? ['>']).getD line
  let (tag, payload) := (splitOnce ':' body).getD (body, [])
  let unknown : Event := .unknown (String.ofList tag) (String.ofList payload)
  match String.ofList tag with
  | "INFO" => .info (String.ofList payload)
  | "STATE" => ((StateEvent.parse payload).map .state).getD unknown
  | "HOLD" => parseHold payload
  | "PASSWORD" => .password (PasswordEvent.parse payload)
  | "LOG" => .log (LogEvent.parse payload)
  | "BYTECOUNT" => (parseByteCount payload).getD unknown
  | "UPDOWN" => .upDown (UpDown.parse payload)
  | "FATAL" => .fatal (String.ofList payload)
  | "INFOMSG" => .infoMsg (InfoMsg.parse payload)
  | "NEED-OK" => ((splitOnce ':' payload).map fun (kind, message) =>
    Event.needOk (String.ofList kind) (String.ofList message)).getD unknown
  | "NEED-STR" => ((splitOnce ':' payload).map fun (kind, message) =>
    Event.needStr (String.ofList kind) (String.ofList message)).getD unknown
  | _ => unknown

example : Event.parse ">PASSWORD:Need 'HTTP Proxy' username/password".toList =
    .password (.need "HTTP Proxy" true true none) := by decide +kernel

/-! ## §3. The identity of a tunnel. -/

structure TunnelIdentity where
  dev : String
  devType : Option String
  ifconfigLocal : Option String
  ifconfigIpv6Local : Option String
  deriving DecidableEq, Repr

structure UpDownCollector where
  inUpBlock : Bool := false
  env : List (String × String) := []
  deriving DecidableEq, Repr

inductive UpDownOutcome where
  | up (identity : TunnelIdentity)
  | down
  deriving DecidableEq, Repr

namespace UpDownCollector

def get (collector : UpDownCollector) (wanted : String) : Option String :=
  ((collector.env.find? (·.1 == wanted)).map Prod.snd).filter (· ≠ "")

def finish (collector : UpDownCollector) : Except MgmtError UpDownOutcome :=
  match collector.get "dev" with
  | none => .error .missingDev
  | some dev =>
    .ok (.up ⟨dev, collector.get "dev_type", collector.get "ifconfig_local",
      collector.get "ifconfig_ipv6_local"⟩)

def observe (collector : UpDownCollector) :
    UpDown → UpDownCollector × Option (Except MgmtError UpDownOutcome)
  | .up => ({ inUpBlock := true }, none)
  | .down => ({}, some (.ok .down))
  | .envBegin => (collector, none)
  | .env key value => ({ collector with env := collector.env ++ [(key, value)] }, none)
  | .envEnd => if collector.inUpBlock then ({}, some collector.finish) else ({}, none)
  | .other _ => ({}, none)

end UpDownCollector

end ThisConnect.Mgmt
