/-
  ThisConnect.Ovpn.Args
  **TYPED ARGUMENT VALIDATION.**
-/
import ThisConnect.Base.Numeral
import ThisConnect.Ovpn.Error
import ThisConnect.Ovpn.Profile

namespace ThisConnect.Ovpn

open Text Net Numeral

/-! ## §1. The character set. -/

def allowedPunctuation : List Char :=
  ['.', '_', '-', ':', '/', ',', '=', '+', '@', '[', ']', '%', ' ']

def maxHostnameLen : Nat := 253
def maxLabelLen : Nat := 63

structure Ctx where
  line : Nat
  name : String

def Ctx.invalid (ctx : Ctx) (detail : String) : ValidationError :=
  .invalidArgument ctx.line ctx.name detail

def Ctx.unsafeArg (ctx : Ctx) (detail : CharsetDetail) : ValidationError :=
  .unsafeArgument ctx.line ctx.name detail

def isPermitted (c : Char) : Bool := c.isAlphanum || allowedPunctuation.contains c

def checkCharset (ctx : Ctx) : List String → Except ValidationError Unit
  | [] => .ok ()
  | arg :: args =>
    if ['.', '.'] <:+: arg.toList then .error (ctx.unsafeArg .dotDot)
    else
      match arg.toList.find? fun c => !isPermitted c with
      | some bad => .error (ctx.unsafeArg (.notPermitted bad))
      | none => checkCharset ctx args

/-! ## §2. Shape and numbers. -/

def expectNoArgs (ctx : Ctx) (args : List String) : Except ValidationError Unit :=
  if args.isEmpty then .ok () else .error (ctx.invalid "takes no arguments")

def expectArity (ctx : Ctx) (args : List String) (min max : Nat) : Except ValidationError Unit :=
  if args.length < min ∨ max < args.length then
    .error (ctx.invalid
      s!"expects between {min} and {max} arguments, got {args.length}")
  else .ok ()

def parseU32In (ctx : Ctx) (arg : String) (lo hi : Nat) : Except ValidationError Nat :=
  match parseUnsigned (2 ^ 32) arg.toList with
  | none => .error (ctx.invalid s!"`{arg}` is not a non-negative integer")
  | some value =>
    if value < lo ∨ hi < value then .error (ctx.invalid s!"`{arg}` is outside {lo}..={hi}")
    else .ok value

def parsePort (ctx : Ctx) (arg : String) : Except ValidationError UInt16 := do
  let port ← parseU32In ctx arg 1 65535
  if port < 65536 then .ok (UInt16.ofNat port) else .error (ctx.invalid "port out of range")

def debugChoices (allowed : List String) : String :=
  "[" ++ ", ".intercalate (allowed.map fun a => "\"" ++ a ++ "\"") ++ "]"

def expectOneOf (ctx : Ctx) (arg : String) (allowed : List String) :
    Except ValidationError Unit :=
  if allowed.contains arg then .ok ()
  else .error (ctx.invalid s!"`{arg}` is not one of {debugChoices allowed}")

/-! ## §3. Hosts and transports. -/

/-- One label of a hostname. -/
def isLabel (label : List Char) : Bool :=
  !label.isEmpty && decide (byteLen label ≤ maxLabelLen) && label.head? != some '-'
    && label.getLast? != some '-' && label.all fun c => c.isAlphanum || c == '-'

def isRfc1123Hostname (host : List Char) : Bool :=
  if host.isEmpty || decide (maxHostnameLen < byteLen host) then false
  else
    let host := (host.dropSuffix? ['.']).getD host
    !host.isEmpty && (host.splitOn '.').all isLabel

def parseHost (ctx : Ctx) (arg : String) : Except ValidationError RemoteHost :=
  match parseIpAddr arg.toList with
  | some ip => .ok (.ip ip)
  | none =>
    if isRfc1123Hostname arg.toList then .ok (.name arg)
    else .error (ctx.invalid s!"`{arg}` is neither an IP nor an RFC1123 hostname")

def parseTransport (ctx : Ctx) (arg : String) : Except ValidationError TransportProto :=
  match arg with
  | "udp" => .ok .udp
  | "udp4" => .ok .udp4
  | "udp6" => .ok .udp6
  -- the `-client` spellings mean the same to a client and are normalised
  | "tcp" | "tcp-client" => .ok .tcp
  | "tcp4" | "tcp4-client" => .ok .tcp4
  | "tcp6" | "tcp6-client" => .ok .tcp6
  | other => .error (ctx.invalid s!"`{other}` is not a supported transport")

/-! ## §4. Directives with typed arguments. -/

def onPresent {α : Type} (f : String → Except ValidationError α) :
    Option String → Except ValidationError (Option α)
  | none => .ok none
  | some arg => (f arg).map some

/-- `remote <host> [port] [proto]`. -/
def parseRemote (ctx : Ctx) (args : List String) : Except ValidationError Remote := do
  expectArity ctx args 1 3
  let host ← parseHost ctx (args.getD 0 "")
  let port ← onPresent (parsePort ctx) args[1]?
  let proto ← onPresent (parseTransport ctx) args[2]?
  .ok ⟨host, port.getD 1194, proto⟩

/-- `proto udp|tcp-client|…`. -/
def parseProto (ctx : Ctx) (args : List String) : Except ValidationError String := do
  expectArity ctx args 1 1
  expectOneOf ctx (args.getD 0 "")
    ["udp", "udp4", "udp6", "tcp", "tcp4", "tcp6", "tcp-client", "tcp4-client", "tcp6-client"]
  .ok (args.getD 0 "")

def isAllDigits (s : List Char) : Bool := !s.isEmpty && s.all Char.isDigit

def isDeviceFamily (name dev : List Char) : Bool :=
  dev == name || ((dev.dropPrefix? name).map isAllDigits).getD false

/-- `dev tun|utun[0-9]*`. -/
def parseDev (ctx : Ctx) (args : List String) : Except ValidationError String := do
  expectArity ctx args 1 1
  let dev := args.getD 0 ""
  let isTun := isDeviceFamily "tun".toList dev.toList
  let isUtun := isDeviceFamily "utun".toList dev.toList
  if isTun || isUtun then .ok dev
  else .error (ctx.invalid s!"`{dev}` is not a tun or utun device")

/-- `char::is_ascii_hexdigit`. -/
def isHexDigit (c : Char) : Bool := (toDigit 16 c).isSome

def looksHex (value : List Char) : Bool :=
  let bytes := value.splitOn ':'
  decide (2 ≤ bytes.length) && bytes.all fun b => decide (byteLen b = 2) && b.all isHexDigit

/-- `str::to_ascii_uppercase`. -/
def toAsciiUppercase (s : String) : String := String.ofList (s.toList.map Char.toUpper)

/-- `peer-fingerprint AA:BB:…`. -/
def parsePeerFingerprint (ctx : Ctx) (args : List String) : Except ValidationError String := do
  expectArity ctx args 1 1
  let value := args.getD 0 ""
  if looksHex value.toList then .ok (toAsciiUppercase value)
  else .error (ctx.invalid "expects a colon-separated hex fingerprint")

def parseStaticChallenge (ctx : Ctx) (args : List String) :
    Except ValidationError StaticChallenge := do
  expectArity ctx args 2 3
  let echo ← parseU32In ctx (args.getD 1 "") 0 1
  let flags ← onPresent (fun f => parseU32In ctx f 0 255) args[2]?
  -- `u8::try_from(..).unwrap_or_default()`
  let toU8 (n : Nat) : UInt8 := if n < 256 then UInt8.ofNat n else 0
  .ok ⟨args.getD 0 "", echo == 1, flags.map toU8⟩

def parseRoute (ctx : Ctx) (args : List String) : Except ValidationError RouteDirective := do
  expectArity ctx args 1 4
  let metric ← onPresent (fun m => parseU32In ctx m 0 65535) args[3]?
  .ok ⟨args.getD 0 "", args[1]?, args[2]?, metric⟩

/-- `dhcp-option <TYPE> [value…]`. -/
def parseDhcpOption (ctx : Ctx) (args : List String) : Except ValidationError DhcpOption := do
  expectArity ctx args 1 8
  .ok ⟨toAsciiUppercase (args.getD 0 ""), args.drop 1⟩

def parseProxy (ctx : Ctx) (args : List String) : Except ValidationError (List String) := do
  expectArity ctx args 2 4
  let host ← parseHost ctx (args.getD 0 "")
  let port ← parsePort ctx (args.getD 1 "")
  let third ← onPresent (fun third =>
    ((expectOneOf ctx third ["auto", "auto-nct"]).mapError fun _ =>
      ctx.invalid "proxy credentials must not be a file path").map fun _ => third) args[2]?
  let fourth ← onPresent (fun fourth =>
    (expectOneOf ctx fourth ["basic", "digest", "ntlm2", "none"]).map fun _ => fourth) args[3]?
  .ok ([host.display, port.toNat.repr] ++ third.toList ++ fourth.toList)

end ThisConnect.Ovpn
