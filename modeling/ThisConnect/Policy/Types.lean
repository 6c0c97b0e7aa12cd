/-
  ThisConnect.Policy.Types
  **VALIDATED INPUTS TO TUNNEL POLICY.**
-/
import ThisConnect.Base.IpAddr
import ThisConnect.Base.Text

namespace ThisConnect.Policy

open Net Text

/-! ## §1. The names that are ours. -/

def policyTable : String := "218"

def rulePriority : String := "18000"

def backstopPriority : String := "18500"

def floorMetric : String := "4000"

def routeMetric : String := "100"

def maxDeviceLen : Nat := 15
def minMtu : UInt32 := 576
def maxMtu : UInt32 := 9000

/-- The IPv6 minimum. -/
def minMtuV6 : UInt32 := 1280

/-! ## §2. Failures. -/

inductive PolicyError where
  | invalidDevice (reason value : String)
  | invalidAddress (reason value : String)
  | invalidMtu (mtu : UInt32)
  | unsafeArgument (reason value : String)
  | ordering (detail : String)
  | spawn (command source : String)
  | commandFailed (what command stderr : String)
  | verification (probe detail : String)
  | rollbackFailed (cause rollback : PolicyError)
  | residueRemains (passes : Nat)
  | unsupportedPlatform
  deriving DecidableEq, Repr

/-! ## §3. Address families. -/

inductive Family where
  | v4
  | v6
  deriving DecidableEq, Repr

def Family.ipFlag : Family → String
  | .v4 => "-4"
  | .v6 => "-6"

def Family.hostBits : Family → Nat
  | .v4 => 32
  | .v6 => 128

def Family.hostPrefix (family : Family) : String := "/" ++ family.hostBits.repr

def Family.matchesAddr : Family → IpAddr → Bool
  | .v4, .v4 _ => true
  | .v6, .v6 _ => true
  | _, _ => false

def validateAddress (family : Family) (address : IpAddr) : Except PolicyError Unit :=
  let reject (reason : String) : Except PolicyError Unit :=
    .error (.invalidAddress reason (String.ofList address.display))
  if !family.matchesAddr address then reject "address family does not match the endpoint"
  else if address.isUnspecified || address.isLoopback || address.isMulticast then
    reject "unspecified, loopback and multicast addresses cannot carry a tunnel"
  else
    match address with
    | .v4 v4 =>
      if v4.isBroadcast || v4.isLinkLocal || v4.a == 0 then
        reject "broadcast, link-local and 0.0.0.0/8 addresses cannot carry a tunnel"
      else .ok ()
    | .v6 v6 =>
      if (v6.segments.headD 0 &&& 0xffc0) == 0xfe80 then
        reject "link-local v6 addresses need a scope id we never carry"
      else .ok ()

/-! ## §4. Device names and MTUs. -/

def isDeviceChar (c : Char) : Bool := c.isAlphanum || c == '_' || c == '-' || c == '.'

structure DeviceName where
  name : String
  nonempty : name.toList ≠ []
  length_le : byteLen name.toList ≤ maxDeviceLen
  head_alpha : name.toList.head?.all Char.isAlpha = true
  chars_ok : name.toList.all isDeviceChar = true
  deriving DecidableEq, Repr

def DeviceName.parse (raw : String) : Except PolicyError DeviceName :=
  if hempty : raw.toList = [] then .error (.invalidDevice "length must be 1..=15 bytes" raw)
  else if hlen : byteLen raw.toList ≤ maxDeviceLen then
    if hhead : raw.toList.head?.all Char.isAlpha = true then
      if hchars : raw.toList.all isDeviceChar = true then
        .ok ⟨raw, hempty, hlen, hhead, hchars⟩
      else .error (.invalidDevice "may only contain [A-Za-z0-9_.-]" raw)
    else .error (.invalidDevice "must start with an ASCII letter" raw)
  else .error (.invalidDevice "length must be 1..=15 bytes" raw)

structure Mtu where
  value : UInt32
  ge_min : minMtu ≤ value
  le_max : value ≤ maxMtu
  deriving DecidableEq, Repr

def Mtu.parse (value : UInt32) : Except PolicyError Mtu :=
  if hmin : minMtu ≤ value then
    if hmax : value ≤ maxMtu then .ok ⟨value, hmin, hmax⟩ else .error (.invalidMtu value)
  else .error (.invalidMtu value)

def Mtu.display (mtu : Mtu) : String := mtu.value.toNat.repr

/-! ## §5. Tunnels. -/

inductive Topology where
  | gateway (address : IpAddr)
  | interface
  deriving DecidableEq, Repr

/-- One address family of a live tunnel. -/
structure TunnelEndpoint where
  family : Family
  localAddr : IpAddr
  topology : Topology
  valid : validateAddress family localAddr = .ok ()
  deriving DecidableEq

def TunnelEndpoint.new (family : Family) (localAddr : IpAddr) (gateway : Option IpAddr) :
    Except PolicyError {endpoint : TunnelEndpoint // endpoint.family = family} :=
  match h : validateAddress family localAddr with
  | .error e => .error e
  | .ok () =>
    match gateway with
    | some address => do
        validateAddress family address
        if address = localAddr then
          .error (.invalidAddress "gateway must differ from the tunnel local address"
            (String.ofList address.display))
        else .ok ⟨⟨family, localAddr, .gateway address, h⟩, rfl⟩
    | none => .ok ⟨⟨family, localAddr, .interface, h⟩, rfl⟩

def TunnelEndpoint.localHostCidr (endpoint : TunnelEndpoint) : String :=
  String.ofList endpoint.localAddr.display ++ endpoint.family.hostPrefix

structure RawTunnel where
  device : String
  localV4 : String
  gatewayV4 : Option String := none
  localV6 : Option String := none
  gatewayV6 : Option String := none
  mtu : UInt32

structure TunnelSpec where
  device : DeviceName
  v4 : TunnelEndpoint
  v6 : Option TunnelEndpoint
  mtu : Mtu
  v4_family : v4.family = .v4
  v6_family : ∀ endpoint ∈ v6, endpoint.family = .v6
  v6_mtu : v6.isSome = true → minMtuV6 ≤ mtu.value
  deriving DecidableEq

def parseAddress (raw : String) : Except PolicyError IpAddr :=
  match parseIpAddr raw.toList with
  | some address => .ok address
  | none => .error (.invalidAddress "not an IP literal" raw)

def parseOptionalAddress : Option String → Except PolicyError (Option IpAddr)
  | some value => (parseAddress value).map some
  | none => .ok none

def parseEndpoint (family : Family) (localRaw : String) (gatewayRaw : Option String) :
    Except PolicyError {endpoint : TunnelEndpoint // endpoint.family = family} := do
  let localAddr ← parseAddress localRaw
  let gateway ← parseOptionalAddress gatewayRaw
  TunnelEndpoint.new family localAddr gateway

def TunnelSpec.parse (raw : RawTunnel) : Except PolicyError TunnelSpec := do
  let device ← DeviceName.parse raw.device
  let v4 ← parseEndpoint .v4 raw.localV4 raw.gatewayV4
  let v6 ← match raw.localV6 with
    | some localRaw => (parseEndpoint .v6 localRaw raw.gatewayV6).map some
    | none => .ok none
  let mtu ← Mtu.parse raw.mtu
  if h : v6.isSome = true → minMtuV6 ≤ mtu.value then
    .ok
      { device
        v4 := v4.1
        v6 := v6.map Subtype.val
        mtu
        v4_family := v4.2
        v6_family := by
          intro endpoint hmem
          obtain ⟨e, -, rfl⟩ := Option.mem_map.mp hmem
          exact e.2
        v6_mtu := fun hsome => h (by simpa using hsome) }
  else .error (.invalidMtu mtu.value)

/-- The families to install, v4 first. -/
def TunnelSpec.endpoints (spec : TunnelSpec) : List TunnelEndpoint := spec.v4 :: spec.v6.toList

end ThisConnect.Policy
