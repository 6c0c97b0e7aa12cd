/-
  ThisConnect.Proxy.Egress
  **THE TUNNEL IDENTITY SOCKETS ARE PINNED TO.**
-/
import ThisConnect.Base.Interaction
import ThisConnect.Base.IpAddr

namespace ThisConnect.Proxy.Egress

open Net

/-! ## §1. Destinations. -/

inductive DenyReason where
  | loopback
  | unspecified
  | linkLocal
  | multicast
  | broadcast
  | privateRange
  | reserved
  deriving DecidableEq, Repr

abbrev OsError := Option Nat

inductive EgressError where
  | tunnelNotReady
  | staleTunnel
  | stateUnavailable
  | invalidInterfaceName (device : String)
  | unknownInterface (device : String)
  | ipv6Unsupported
  | invalidTunnelAddress (addr : IpAddr)
  | destinationDenied (addr : IpAddr) (reason : DenyReason)
  | invalidPort
  | pin (device : String) (source : OsError)
  | bind (addr : IpAddr) (source : OsError)
  | networkUnreachable
  | hostUnreachable
  | connectionRefused (addr : SocketAddr)
  | io (source : OsError)
  | unsupportedPlatform
  deriving DecidableEq, Repr

structure DestinationPolicy where
  allowPrivate : Bool := true
  deriving DecidableEq, Repr

def canonicalIp : IpAddr → IpAddr
  | .v6 v6 =>
    match v6.toIpv4Mapped with
    | some v4 => .v4 v4
    | none => .v6 v6
  | .v4 v4 => .v4 v4

/-- `Ipv4Addr::is_private`: RFC 1918. -/
def isPrivateV4 (addr : Ipv4Addr) : Bool :=
  addr.a == 10 || (addr.a == 172 && decide (16 ≤ addr.b) && decide (addr.b ≤ 31)) ||
    (addr.a == 192 && addr.b == 168)

def denyReasonV4 (addr : Ipv4Addr) (policy : DestinationPolicy) : Option DenyReason :=
  if addr.isLoopback then some .loopback
  else if addr.a == 0 then some .unspecified
  else if addr.isLinkLocal then some .linkLocal
  else if (IpAddr.v4 addr).isMulticast then some .multicast
  else if addr.isBroadcast then some .broadcast
  else if isPrivateV4 addr && !policy.allowPrivate then some .privateRange
  else none

def denyReasonV6 (addr : Ipv6Addr) (policy : DestinationPolicy) : Option DenyReason :=
  if addr.isLoopback then some .loopback
  else if (IpAddr.v6 addr).isUnspecified then some .unspecified
  else if (IpAddr.v6 addr).isMulticast then some .multicast
  else if (addr.segments.headD 0 &&& 0xffc0) == 0xfe80 then some .linkLocal
  else if !addr.isLoopback && !(IpAddr.v6 addr).isUnspecified &&
      addr.segments.take 6 == [0, 0, 0, 0, 0, 0] then some .reserved
  else if (addr.segments.headD 0 &&& 0xfe00) == 0xfc00 && !policy.allowPrivate then
    some .privateRange
  else none

def checkDestination (addr : IpAddr) (policy : DestinationPolicy) : Except EgressError Unit :=
  let denied :=
    match canonicalIp addr with
    | .v4 v4 => denyReasonV4 v4 policy
    | .v6 v6 => denyReasonV6 v6 policy
  match denied with
  | some reason => .error (.destinationDenied addr reason)
  | none => .ok ()

/-! ## §2. Tunnel identities. -/

structure TunnelConfig where
  device : String
  ipv4 : Ipv4Addr
  ipv6 : Option Ipv6Addr
  mtu : UInt32
  deriving DecidableEq

structure TunEgress where
  device : String
  ifindex : UInt32
  ipv4 : Ipv4Addr
  ipv6 : Option Ipv6Addr
  mtu : UInt32
  policy : DestinationPolicy
  generation : UInt64
  ifindex_ne : ifindex ≠ 0
  deriving DecidableEq

def validateTunnelSource (addr : IpAddr) : Except EgressError Unit :=
  let usable :=
    match addr with
    | .v4 v4 =>
      !addr.isUnspecified && !v4.isLoopback && !v4.isLinkLocal && !addr.isMulticast &&
        !v4.isBroadcast && v4.a != 0
    | .v6 v6 =>
      !addr.isUnspecified && !v6.isLoopback && !addr.isMulticast &&
        (v6.segments.headD 0 &&& 0xffc0) != 0xfe80 && v6.toIpv4Mapped.isNone &&
        v6.segments.take 6 != [0, 0, 0, 0, 0, 0]
  if usable then .ok () else .error (.invalidTunnelAddress addr)

structure EgressState where
  current : Option TunEgress
  liveGeneration : UInt64
  policy : DestinationPolicy
  deriving DecidableEq

namespace EgressState

def new (policy : DestinationPolicy) : EgressState := ⟨none, 0, policy⟩

def isCurrent (state : EgressState) (egress : TunEgress) : Bool :=
  state.liveGeneration == egress.generation

section

-- `if_nametoindex`: zero for a name no interface has
variable (nameToIndex : String → UInt32)

def resolveIfindex (device : String) : Except EgressError {index : UInt32 // index ≠ 0} :=
  if device.toList.contains '\x00' then .error (.invalidInterfaceName device)
  else if h : nameToIndex device ≠ 0 then .ok ⟨nameToIndex device, h⟩
  else .error (.unknownInterface device)

def admitTunnel (config : TunnelConfig) : Except EgressError {index : UInt32 // index ≠ 0} := do
  let ifindex ← resolveIfindex nameToIndex config.device
  validateTunnelSource (.v4 config.ipv4)
  match config.ipv6 with
  | some v6 => validateTunnelSource (.v6 v6)
  | none => .ok ()
  .ok ifindex

def tunnelUp (state : EgressState) (config : TunnelConfig) :
    Except EgressError (TunEgress × EgressState) :=
  (admitTunnel nameToIndex config).map fun ifindex =>
    let generation := state.liveGeneration + 1
    let egress : TunEgress :=
      { device := config.device, ifindex := ifindex.val, ipv4 := config.ipv4, ipv6 := config.ipv6
        mtu := config.mtu, policy := state.policy, generation, ifindex_ne := ifindex.property }
    (egress, { state with current := some egress, liveGeneration := generation })

end

/-- Strands every outstanding handle. -/
def tunnelDown (state : EgressState) : EgressState :=
  { state with current := none, liveGeneration := state.liveGeneration + 1 }

def currentEgress (state : EgressState) : Except EgressError TunEgress :=
  match state.current with
  | some egress => if state.isCurrent egress then .ok egress else .error .tunnelNotReady
  | none => .error .tunnelNotReady

theorem tunnelUp_ok {nameToIndex : String → UInt32} {state state' : EgressState}
    {config : TunnelConfig} {egress : TunEgress}
    (h : state.tunnelUp nameToIndex config = .ok (egress, state')) :
    egress.generation = state.liveGeneration + 1 ∧ state'.current = some egress ∧
      state'.liveGeneration = state.liveGeneration + 1 := by
  obtain ⟨ifindex, -, h⟩ := ok_of_map h
  cases h
  exact ⟨rfl, rfl, rfl⟩

end EgressState

end ThisConnect.Proxy.Egress
