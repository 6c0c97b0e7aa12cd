/-
  ThisConnect.Ovpn.Directive
  **THE ALLOWLIST, THE HARD-REJECT TABLE AND PER-DIRECTIVE CLASSIFICATION.**
-/
import ThisConnect.Ovpn.Args
import ThisConnect.Ovpn.Lexer

namespace ThisConnect.Ovpn

/-! ## §1. Tables. -/

def inlineMaterial : List String :=
  ["ca", "cert", "key", "dh", "tls-auth", "tls-crypt", "tls-crypt-v2", "pkcs12", "crl-verify",
    "extra-certs"]

def hardReject : List (String × String) :=
  [("plugin", "loads code into the privileged process"),
    ("pkcs11-providers", "loads code into the privileged process"),
    ("pkcs11-id", "loads code into the privileged process"),
    ("pkcs11-id-management", "loads code into the privileged process"),
    ("pkcs11-cert-private", "loads code into the privileged process"),
    ("pkcs11-private-mode", "loads code into the privileged process"),
    ("pkcs11-protected-authentication", "loads code into the privileged process"),
    ("pkcs11-pin-cache", "loads code into the privileged process"),
    ("cryptoapicert", "loads code into the privileged process"),
    ("engine", "loads code into the privileged process"),
    ("providers", "loads code into the privileged process"),
    ("up", "runs a script"),
    ("down", "runs a script"),
    ("route-up", "runs a script"),
    ("route-pre-down", "runs a script"),
    ("ipchange", "runs a script"),
    ("tls-verify", "runs a script"),
    ("auth-user-pass-verify", "runs a script"),
    ("client-connect", "runs a script"),
    ("client-disconnect", "runs a script"),
    ("learn-address", "runs a script"),
    ("tls-export-cert", "runs a script"),
    ("client-crresponse", "runs a script"),
    ("tls-crypt-v2-verify", "runs a script"),
    ("auth-gen-token-secret", "runs a script"),
    ("log", "writes to a path of the profile's choosing"),
    ("log-append", "writes to a path of the profile's choosing"),
    ("status", "writes to a path of the profile's choosing"),
    ("status-version", "writes to a path of the profile's choosing"),
    ("writepid", "writes to a path of the profile's choosing"),
    ("tmp-dir", "writes to a path of the profile's choosing"),
    ("cd", "changes the privileged process working directory"),
    ("chroot", "changes the privileged process root"),
    ("client-config-dir", "reads a path of the profile's choosing"),
    ("ccd-exclusive", "reads a path of the profile's choosing"),
    ("iproute", "substitutes the command the daemon executes"),
    ("setcon", "changes the security context"),
    ("askpass", "reads a path of the profile's choosing"),
    ("capath", "reads a path of the profile's choosing"),
    ("setenv-safe", "injects environment into the privileged process"),
    ("config", "nested includes are flattened, not followed"),
    ("http-proxy-user-pass", "reads credentials from a path"),
    ("auth-token-secret-file", "reads a path of the profile's choosing")]

def connectionScoped : List String :=
  ["remote", "proto", "port", "lport", "rport", "nobind", "float", "connect-retry",
    "connect-retry-max", "connect-timeout", "explicit-exit-notify", "http-proxy", "socks-proxy",
    "tun-mtu", "tun-mtu-extra", "fragment", "mssfix"]

def inertSetenv : List (String × List String) :=
  [("CLIENT_CERT", ["0", "1"]), ("GENERIC_CONFIG", ["0", "1"]),
    ("USERNAME_AS_COMMON_NAME", ["0", "1"]), ("FORWARD_COMPATIBLE", ["0", "1"]),
    ("ALLOW_PASSWORD_SAVE", ["0", "1"]), ("AUTOLOGIN", ["0", "1"])]

def flags : List String :=
  ["client", "pull", "tls-client", "nobind", "float", "remote-random", "persist-key",
    "persist-tun", "auth-nocache", "mute-replay-warnings"]

def maxSeconds : Nat := 86400

def ranges : List (String × Nat × Nat) :=
  [("port", 1, 65535), ("lport", 0, 65535), ("rport", 1, 65535), ("reneg-sec", 0, maxSeconds),
    ("ping", 1, maxSeconds), ("ping-restart", 1, maxSeconds), ("tun-mtu", 68, 65536),
    ("tun-mtu-extra", 0, 65536), ("fragment", 0, 65536), ("mssfix", 0, 9000),
    ("sndbuf", 0, 16777216), ("rcvbuf", 0, 16777216), ("mute", 0, 1000),
    ("connect-timeout", 1, 600), ("connect-retry-max", 0, 1000)]

def choices : List (String × List String) :=
  [("dev-type", ["tun"]), ("topology", ["subnet", "net30", "p2p"]),
    ("remote-cert-tls", ["server"]), ("ns-cert-type", ["server"]), ("key-direction", ["0", "1"]),
    ("route-method", ["exe", "ipapi", "adaptive"]),
    ("tls-version-min", ["1.0", "1.1", "1.2", "1.3"]),
    ("tls-version-max", ["1.0", "1.1", "1.2", "1.3"])]

def tokenLists : List String :=
  ["cipher", "data-ciphers", "data-ciphers-fallback", "auth", "tls-cipher", "tls-ciphersuites",
    "remote-cert-eku", "remote-cert-ku"]

/-! ## §2. Verdicts. -/

inductive Classified where
  | emit (d : EmittedDirective)
  | remote (r : Remote)
  | route (r : RouteDirective)
  | redirectGateway (r : RedirectGateway)
  | dhcpOption (o : DhcpOption)
  | authUserPass
  | staticChallenge (c : StaticChallenge)
  | ignored
  deriving DecidableEq, Repr

inductive Scope where
  | topLevel
  | connection
  deriving DecidableEq, Repr

def isInlineMaterial (tag : String) : Bool := inlineMaterial.contains tag

def isInertSetenv (args : List String) : Bool :=
  match args with
  | [name, value] => inertSetenv.any fun entry => entry.1 == name && entry.2.contains value
  | _ => false

def dangerReason (name : String) (args : List String) : Option String :=
  if "management".toList.isPrefixOf name.toList then
    some "hijacks the daemon's control channel"
  else if name == "dns-updown" && args.head? != some "disable" then
    some "runs the built-in dns handler as root"
  else if name == "dev" && args.head? == some "tap" then
    some "tap devices are not supported"
  else if name == "setenv" && !isInertSetenv args then
    some "injects environment into the privileged process"
  else (hardReject.find? fun entry => entry.1 == name).map Prod.snd

def rejectDangerous (ctx : Ctx) (name : String) (args : List String) :
    Except ValidationError Unit :=
  match dangerReason name args with
  | some reason => .error (.forbiddenDirective ctx.line name reason)
  | none => .ok ()

/-! ## §3. Handlers. -/

abbrev Outcome := Option (Except ValidationError Classified)

def emitAfter (check : Except ValidationError Unit) (name : String) (args : List String) :
    Outcome :=
  some (check.map fun _ => .emit ⟨name, args⟩)

/-- Argument-free switches. -/
def asFlag (ctx : Ctx) (name : String) (args : List String) : Outcome :=
  if name = "auth-user-pass" then
    if !args.isEmpty then
      some (.error (ctx.invalid "must be bare; credential files are supplied by the daemon"))
    else some (.ok .authUserPass)
  else if !flags.contains name then none
  else emitAfter (expectNoArgs ctx args) name []

def checkEach (ctx : Ctx) (lo hi : Nat) : List String → Except ValidationError Unit
  | [] => .ok ()
  | arg :: args => do
      let _ ← parseU32In ctx arg lo hi
      checkEach ctx lo hi args

def checkInfiniteOr (ctx : Ctx) (arg : String) (lo hi : Nat) : Except ValidationError Unit :=
  if arg != "infinite" then (parseU32In ctx arg lo hi).map fun _ => () else .ok ()

def asNumber (ctx : Ctx) (name : String) (args : List String) : Outcome :=
  match name with
  | "verb" => some do
      expectArity ctx args 1 1
      let raw ← parseU32In ctx (args.getD 0 "") 0 11
      .ok (.emit ⟨name, [(min raw 4).repr]⟩)
  | "keepalive" | "connect-retry" =>
    emitAfter (do expectArity ctx args 1 2; checkEach ctx 0 maxSeconds args) name args
  | "resolv-retry" =>
    emitAfter (do expectArity ctx args 1 1; checkInfiniteOr ctx (args.getD 0 "") 0 maxSeconds)
      name args
  | "explicit-exit-notify" =>
    emitAfter (do expectArity ctx args 0 1; checkEach ctx 0 2 args.head?.toList) name args
  | _ =>
    (ranges.find? fun entry => entry.1 == name).bind fun (_, lo, hi) =>
      emitAfter (do expectArity ctx args 1 2; checkInfiniteOr ctx (args.getD 0 "") lo hi)
        name args

def asKeyword (ctx : Ctx) (name : String) (args : List String) : Outcome :=
  match name with
  | "dns-updown" => some (.ok .ignored)
  -- parsed so that a real profile is accepted, then dropped
  | "setenv" => some (.ok .ignored)
  | "proto" => some ((parseProto ctx args).map fun p => .emit ⟨name, [p]⟩)
  | "dev" => some ((parseDev ctx args).map fun d => .emit ⟨name, [d]⟩)
  | _ =>
    (choices.find? fun entry => entry.1 == name).bind fun (_, allowed) =>
      let max := if name == "tls-version-min" then 2 else 1
      emitAfter (do
        expectArity ctx args 1 max
        expectOneOf ctx (args.getD 0 "") allowed
        match args[1]? with
        | some second => expectOneOf ctx second ["or-highest"]
        | none => .ok ()) name args

def asCrypto (ctx : Ctx) (name : String) (args : List String) : Outcome :=
  match name with
  | "peer-fingerprint" => some ((parsePeerFingerprint ctx args).map fun fp => .emit ⟨name, [fp]⟩)
  | "verify-x509-name" =>
    emitAfter (do
      expectArity ctx args 1 2
      match args[1]? with
      | some kind => expectOneOf ctx kind ["name", "name-prefix", "subject"]
      | none => .ok ()) name args
  | _ =>
    if !tokenLists.contains name then none
    else
      let max := if name == "remote-cert-ku" then 8 else 1
      emitAfter (expectArity ctx args 1 max) name args

/-- Directives parsed into typed values. -/
def asTyped (ctx : Ctx) (name : String) (args : List String) : Outcome :=
  match name with
  | "remote" => some ((parseRemote ctx args).map .remote)
  | "route" => some ((parseRoute ctx args).map .route)
  | "redirect-gateway" => some (.ok (.redirectGateway ⟨args⟩))
  | "dhcp-option" => some ((parseDhcpOption ctx args).map .dhcpOption)
  | "static-challenge" => some ((parseStaticChallenge ctx args).map .staticChallenge)
  | "http-proxy" | "socks-proxy" =>
    some ((parseProxy ctx args).map fun out => .emit ⟨name, out⟩)
  | _ => none

/-! ## §4. Classification. -/

abbrev Handler := Ctx → String → List String → Outcome

def handlers : List Handler := [asFlag, asNumber, asKeyword, asCrypto, asTyped]

def handle (ctx : Ctx) (name : String) (args : List String) : Outcome :=
  handlers.findSome? fun handler => handler ctx name args

def classify (raw : RawDirective) (scope : Scope) : Except ValidationError Classified := do
  let ctx : Ctx := ⟨raw.line, raw.name⟩
  rejectDangerous ctx raw.name raw.args
  checkCharset ctx raw.args
  if scope = .connection ∧ !connectionScoped.contains raw.name then
    .error (.forbiddenDirective raw.line raw.name "not valid inside a <connection> block")
  else
    match handle ctx raw.name raw.args with
    | some result => result
    | none => .error (.unknownDirective raw.line raw.name)

end ThisConnect.Ovpn
