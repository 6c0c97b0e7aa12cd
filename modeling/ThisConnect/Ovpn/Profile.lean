/-
  ThisConnect.Ovpn.Profile
  **THE TYPED PROFILE AND ITS CANONICAL EMISSION.**
-/
import ThisConnect.Base.IpAddr
import ThisConnect.Base.Text

namespace ThisConnect.Ovpn

open Text Net

/-! ## §1. Directives. -/

structure EmittedDirective where
  name : String
  args : List String
  deriving DecidableEq, Repr

def EmittedDirective.bare (name : String) : EmittedDirective := ⟨name, []⟩

def quoteArg (arg : String) : List Char :=
  if arg.toList.isEmpty || arg.toList.contains ' ' then '"' :: (arg.toList ++ ['"'])
  else arg.toList

/-- `Display for EmittedDirective`. -/
def EmittedDirective.display (d : EmittedDirective) : List Char :=
  d.name.toList ++ d.args.flatMap fun arg => ' ' :: quoteArg arg

/-! ## §2. Typed values. -/

inductive TransportProto where
  | udp | udp4 | udp6 | tcp | tcp4 | tcp6
  deriving DecidableEq, Repr

def TransportProto.isTcp : TransportProto → Bool
  | .tcp | .tcp4 | .tcp6 => true
  | _ => false

def TransportProto.display : TransportProto → String
  | .udp => "udp"
  | .udp4 => "udp4"
  | .udp6 => "udp6"
  | .tcp => "tcp"
  | .tcp4 => "tcp4"
  | .tcp6 => "tcp6"

inductive RemoteHost where
  | name (host : String)
  | ip (addr : IpAddr)
  deriving DecidableEq, Repr

def RemoteHost.display : RemoteHost → String
  | .name host => host
  | .ip addr => String.ofList addr.display

structure Remote where
  host : RemoteHost
  port : UInt16
  proto : Option TransportProto
  deriving DecidableEq, Repr

def Remote.toDirective (r : Remote) : EmittedDirective :=
  ⟨"remote", [r.host.display, r.port.toNat.repr] ++ (r.proto.map TransportProto.display).toList⟩

structure RouteDirective where
  network : String
  netmask : Option String
  gateway : Option String
  metric : Option Nat
  deriving DecidableEq, Repr

structure RedirectGateway where
  flags : List String
  deriving DecidableEq, Repr

structure DhcpOption where
  kind : String
  values : List String
  deriving DecidableEq, Repr

structure StaticChallenge where
  prompt : String
  echo : Bool
  formatFlags : Option UInt8
  deriving DecidableEq, Repr

def StaticChallenge.toDirective (c : StaticChallenge) : EmittedDirective :=
  ⟨"static-challenge", [c.prompt, if c.echo then "1" else "0"]
    ++ (c.formatFlags.map fun flags => flags.toNat.repr).toList⟩

/-! ## §3. The profile. -/

structure ConnectionBlock where
  directives : List EmittedDirective
  remotes : List Remote
  deriving DecidableEq, Repr

/-- Inline crypto material, verbatim. -/
structure InlineMaterial where
  tag : String
  body : List Char
  deriving DecidableEq, Repr

structure Profile where
  directives : List EmittedDirective := []
  connections : List ConnectionBlock := []
  inline : List InlineMaterial := []
  remotes : List Remote := []
  routes : List RouteDirective := []
  redirectGateway : List RedirectGateway := []
  dhcpOptions : List DhcpOption := []
  needsAuthUserPass : Bool := false
  staticChallenge : Option StaticChallenge := none
  deriving DecidableEq, Repr

def Profile.dhcpDnsServers (p : Profile) : List String :=
  (p.dhcpOptions.filter fun o => o.kind == "DNS" || o.kind == "DNS6").filterMap
    fun o => o.values.head?

/-! ## §4. Emission. -/

/-- The line `<tag>`. -/
def openingLine (tag : String) : List Char := '<' :: (tag.toList ++ ['>'])

/-- The line `</tag>`. -/
def closingLine (tag : String) : List Char := '<' :: '/' :: (tag.toList ++ ['>'])

def ConnectionBlock.emit (c : ConnectionBlock) : List Char :=
  openingLine "connection" ++ '\n' ::
    (c.directives.flatMap (fun d => d.display ++ ['\n']) ++ (closingLine "connection" ++ ['\n']))

def InlineMaterial.emit (m : InlineMaterial) : List Char :=
  openingLine m.tag ++ '\n' ::
    (m.body ++ ((if m.body.getLast? = some '\n' then [] else ['\n'])
      ++ (closingLine m.tag ++ ['\n'])))

/-- The canonical config body. -/
def Profile.toCanonicalConfig (p : Profile) : List Char :=
  p.directives.flatMap (fun d => d.display ++ ['\n'])
    ++ p.connections.flatMap ConnectionBlock.emit
    ++ p.inline.flatMap InlineMaterial.emit

end ThisConnect.Ovpn
