/-
  ThisConnect.Session.Publisher
  **PUBLISHING A TUNNEL TO THE PROXY, AND TAKING IT BACK.**

  Main results:
    • `strands_iff` — which calls leave a state in which an identity is current
      only while a listener is published,
    • `told_iff_used` — when the DNS the user is told about is the one in use.
-/
import ThisConnect.Ovpn.Parse
import ThisConnect.Session.Dns

namespace ThisConnect.Session

open Net Policy Proxy Proxy.Egress
  ThisConnect.Proxy.Resolver

/-! ## §1. The runtime and the publisher. -/

structure ProxyStartRequest where
  binding : TunnelBinding
  dns : TunnelDnsPlan

structure Surroundings where
  nameToIndex : String → UInt32
  resolverBuilds : Bool
  bindOne : Nat → SocketAddr → Except IoError SocketAddr
  credentials : ProxyCredentials

structure LinkedRuntime where
  egress : EgressState
  resolver : Option TunnelResolver
  bindAddrs : List SocketAddr
  issued : List TunEgress

structure LinkedListener where
  handle : Handle
  resolver : TunnelResolver
  request : ProxyStartRequest

def tunnelConfig (binding : TunnelBinding) : TunnelConfig :=
  ⟨binding.device, binding.ipv4, binding.ipv6, binding.mtu⟩

def listenerConfig (around : Surroundings) (bindAddrs : List SocketAddr) (tunnelHasV6 : Bool) :
    ListenerConfig :=
  ⟨bindAddrs, .required around.credentials, [], tunnelHasV6, 10000000000, 30000000000⟩

def LinkedRuntime.start (around : Surroundings) (runtime : LinkedRuntime)
    (request : ProxyStartRequest) : Except ProxyError LinkedListener × LinkedRuntime :=
  match runtime.egress.tunnelUp around.nameToIndex (tunnelConfig request.binding) with
  | .error error => (.error (.listener (.egress error)), runtime)
  | .ok (egress, state) =>
    let up := { runtime with egress := state, issued := runtime.issued ++ [egress] }
    match TunnelResolver.new around.resolverBuilds egress
        (request.dns.toConfig request.binding) with
    | .error error => (.error (.listener (.resolver error)), up)
    | .ok resolver =>
      let resolved := { up with resolver := some resolver }
      match Proxy.start around.bindOne
          (listenerConfig around runtime.bindAddrs request.binding.tunnelHasV6) with
      | .error error => (.error (.listener (.bind error)), resolved)
      | .ok handle => (.ok ⟨handle, resolver, request⟩, resolved)

structure ProxyPublisher where
  runtime : LinkedRuntime
  fallbackDns : List IpAddr
  capture : DnsCapture
  listener : Option LinkedListener

namespace ProxyPublisher

def new (policy : DestinationPolicy) (bindAddrs : List SocketAddr) (fallbackDns : List IpAddr) :
    ProxyPublisher :=
  ⟨⟨.new policy, none, bindAddrs, []⟩, fallbackDns, .noneReceived, none⟩

def stopListener (publisher : ProxyPublisher) : ProxyPublisher :=
  { publisher with listener := none }

def publish (around : Surroundings) (publisher : ProxyPublisher) (binding : TunnelBinding) :
    Except ProxyError Unit × ProxyPublisher :=
  let publisher := publisher.stopListener
  match planDns publisher.capture publisher.fallbackDns binding with
  | .error error => (.error error, publisher)
  | .ok dns =>
    match publisher.runtime.start around ⟨binding, dns⟩ with
    | (.error error, runtime) => (.error error, { publisher with runtime })
    | (.ok listener, runtime) => (.ok (), { publisher with runtime, listener := some listener })

def revoke (publisher : ProxyPublisher) : ProxyPublisher :=
  { publisher.stopListener with capture := .noneReceived }

end ProxyPublisher

/-! ## §2. What a call does. -/

def Surroundings.admits (around : Surroundings) (binding : TunnelBinding) : Bool :=
  (EgressState.admitTunnel around.nameToIndex (tunnelConfig binding)).isOk

def Surroundings.serves (around : Surroundings) (bindAddrs : List SocketAddr)
    (binding : TunnelBinding) : Bool :=
  around.resolverBuilds &&
    (Proxy.start around.bindOne (listenerConfig around bindAddrs binding.tunnelHasV6)).isOk

def ProxyPublisher.hasServer (publisher : ProxyPublisher) (binding : TunnelBinding) : Bool :=
  (publisher.capture.servers ++ publisher.fallbackDns).any (usableFor binding)

theorem planDns_isOk (publisher : ProxyPublisher) (binding : TunnelBinding) :
    (planDns publisher.capture publisher.fallbackDns binding).isOk =
      publisher.hasServer binding := by
  unfold ProxyPublisher.hasServer
  rw [List.any_append]
  have hany : ∀ servers : List IpAddr, servers.any (usableFor binding) =
      !(servers.filter (usableFor binding)).isEmpty := by
    intro servers
    induction servers with
    | nil => rfl
    | cons server rest ih =>
      cases h : usableFor binding server with
      | true => simp [h]
      | false => simp only [List.any_cons, h, Bool.false_or, List.filter_cons_of_neg, ih,
          Bool.false_eq_true, not_false_eq_true]
  rw [hany, hany]
  rcases planDns_cases publisher.capture publisher.fallbackDns binding with
    ⟨hcaptured, _, hplan⟩ | ⟨hcaptured, hfallback, hplan⟩ | ⟨hcaptured, hfallback, _, hplan⟩
  · rw [hplan]
    simp [Except.isOk, Except.toBool, hcaptured]
  · rw [hplan]
    simp [Except.isOk, Except.toBool, hcaptured, hfallback]
  · rw [hplan]
    simp [Except.isOk, Except.toBool, hcaptured, hfallback]

variable {binding : TunnelBinding}

variable {capture : DnsCapture} {fallbackDns : List IpAddr} {plan : TunnelDnsPlan}
  {request : ProxyStartRequest} {publisher : ProxyPublisher} {runtime : LinkedRuntime}
  {around : Surroundings}

theorem resolver_isOk (h : planDns capture fallbackDns binding = .ok plan) (builds : Bool)
    (egress : TunEgress) :
    (TunnelResolver.new builds egress (plan.toConfig binding)).isOk = builds := by
  have haccepted := planDns_accepts h
  unfold TunnelResolver.new
  cases builds with
  | true => simp [Except.isOk, Except.toBool]
  | false => simp [Except.isOk, Except.toBool, haccepted]

theorem start_effect (around : Surroundings) (runtime : LinkedRuntime)
    (hplan : planDns capture fallbackDns request.binding = .ok request.dns) :
    (around.admits request.binding = false ∧ (runtime.start around request).1.isOk = false ∧
      (runtime.start around request).2 = runtime) ∨
    (around.admits request.binding = true ∧
      (runtime.start around request).1.isOk =
        around.serves runtime.bindAddrs request.binding ∧
      ∃ egress, (runtime.start around request).2.issued = runtime.issued ++ [egress] ∧
        egress.generation = runtime.egress.liveGeneration + 1 ∧
        (runtime.start around request).2.egress.current = some egress ∧
        (runtime.start around request).2.egress.liveGeneration =
          runtime.egress.liveGeneration + 1) := by
  unfold Surroundings.admits
  cases hup : runtime.egress.tunnelUp around.nameToIndex (tunnelConfig request.binding) with
  | error error =>
    left
    have hstart : runtime.start around request =
        (.error (.listener (.egress error)), runtime) := by
      simp only [LinkedRuntime.start, hup]
    unfold EgressState.tunnelUp at hup
    cases hadmitted : EgressState.admitTunnel around.nameToIndex (tunnelConfig request.binding) with
    | ok ifindex =>
      rw [hadmitted] at hup
      cases hup
    | error e =>
      rw [hstart]
      exact ⟨rfl, rfl, rfl⟩
  | ok result =>
    obtain ⟨egress, state⟩ := result
    obtain ⟨hgeneration, hcurrent, hlive⟩ := EgressState.tunnelUp_ok hup
    obtain ⟨ifindex, hadmitted, -⟩ := ok_of_map hup
    have hresolver := resolver_isOk hplan around.resolverBuilds egress
    refine .inr ⟨by rw [hadmitted]; rfl, ?_⟩
    unfold Surroundings.serves
    rw [← hresolver]
    simp only [LinkedRuntime.start, hup]
    cases TunnelResolver.new around.resolverBuilds egress
        (request.dns.toConfig request.binding) with
    | error error => exact ⟨rfl, egress, rfl, hgeneration, hcurrent, hlive⟩
    | ok resolver =>
      cases Proxy.start around.bindOne
          (listenerConfig around runtime.bindAddrs request.binding.tunnelHasV6) with
      | error error => exact ⟨rfl, egress, rfl, hgeneration, hcurrent, hlive⟩
      | ok handle => exact ⟨rfl, egress, rfl, hgeneration, hcurrent, hlive⟩

theorem publish_of_plan (around : Surroundings) {dns : TunnelDnsPlan}
    (hplan : planDns publisher.capture publisher.fallbackDns binding = .ok dns) :
    (publisher.publish around binding).2.runtime =
        (publisher.runtime.start around ⟨binding, dns⟩).2 ∧
      (publisher.publish around binding).2.listener =
        (publisher.runtime.start around ⟨binding, dns⟩).1.toOption ∧
      (publisher.publish around binding).1 =
        (publisher.runtime.start around ⟨binding, dns⟩).1.map fun _ => () := by
  simp only [ProxyPublisher.publish, ProxyPublisher.stopListener, hplan]
  generalize publisher.runtime.start around ⟨binding, dns⟩ = result
  obtain ⟨outcome, runtime⟩ := result
  cases outcome with
  | error error => exact ⟨rfl, rfl, rfl⟩
  | ok listener => exact ⟨rfl, rfl, rfl⟩

inductive PublisherCall where
  | publish (around : Surroundings) (binding : TunnelBinding)
  | revoke
  | observe (capture : DnsCapture)

def ProxyPublisher.call (publisher : ProxyPublisher) : PublisherCall → ProxyPublisher
  | .publish around binding => (publisher.publish around binding).2
  | .revoke => publisher.revoke
  | .observe capture => { publisher with capture }

/-- The call brings an identity up. -/
def ProxyPublisher.issues (publisher : ProxyPublisher) : PublisherCall → Bool
  | .publish around binding => publisher.hasServer binding && around.admits binding
  | _ => false

def ProxyPublisher.listensAfter (publisher : ProxyPublisher) : PublisherCall → Bool
  | .publish around binding => publisher.hasServer binding && around.admits binding &&
      around.serves publisher.runtime.bindAddrs binding
  | .revoke => false
  | .observe _ => publisher.listener.isSome

theorem call_effect (publisher : ProxyPublisher) (call : PublisherCall) :
    (publisher.call call).listener.isSome = publisher.listensAfter call ∧
    ((publisher.issues call = false ∧ (publisher.call call).runtime = publisher.runtime) ∨
      (publisher.issues call = true ∧ ∃ egress,
        (publisher.call call).runtime.issued = publisher.runtime.issued ++ [egress] ∧
        egress.generation = publisher.runtime.egress.liveGeneration + 1 ∧
        (publisher.call call).runtime.egress.current = some egress ∧
        (publisher.call call).runtime.egress.liveGeneration =
          publisher.runtime.egress.liveGeneration + 1)) := by
  cases call with
  | revoke => exact ⟨rfl, .inl ⟨rfl, rfl⟩⟩
  | observe capture => exact ⟨rfl, .inl ⟨rfl, rfl⟩⟩
  | publish around binding =>
    have hok := planDns_isOk publisher binding
    show (publisher.publish around binding).2.listener.isSome = _ ∧ _
    unfold ProxyPublisher.listensAfter ProxyPublisher.issues
    simp only [← hok]
    cases hplan : planDns publisher.capture publisher.fallbackDns binding with
    | error error =>
      have hpublish : publisher.publish around binding =
          (.error error, publisher.stopListener) := by
        simp only [ProxyPublisher.publish, ProxyPublisher.stopListener, hplan]
      simp only [ProxyPublisher.call, hpublish]
      exact ⟨rfl, .inl ⟨rfl, rfl⟩⟩
    | ok dns =>
      obtain ⟨hruntime, hlistener, -⟩ := publish_of_plan around hplan
      have hsome : ∀ outcome : Except ProxyError LinkedListener,
          outcome.toOption.isSome = outcome.isOk := by
        intro outcome
        cases outcome <;> rfl
      simp only [ProxyPublisher.call, hruntime, hlistener, hsome]
      rcases @start_effect _ _ ⟨binding, dns⟩ around publisher.runtime hplan with
        ⟨hadmits, hfails, hsame⟩ | ⟨hadmits, hserves, hidentity⟩
      · rw [hfails, hsame]
        simp [hadmits]
      · rw [hserves]
        simp only [hadmits, Bool.and_true]
        exact ⟨rfl, .inr ⟨rfl, hidentity⟩⟩

/-! ## §3. Who is current. -/

def ProxyPublisher.Stranded (publisher : ProxyPublisher) : Prop :=
  (publisher.listener = none →
    publisher.runtime.egress.currentEgress = .error .tunnelNotReady ∧
      ∀ egress ∈ publisher.runtime.issued, publisher.runtime.egress.isCurrent egress = false) ∧
  ∀ (i j : Nat) (a b : TunEgress),
    publisher.runtime.issued[i]? = some a → publisher.runtime.issued[j]? = some b →
    publisher.runtime.egress.isCurrent a = true → publisher.runtime.egress.isCurrent b = true →
      i = j

structure LinkedRuntime.Numbered (runtime : LinkedRuntime) : Prop where
  generation : ∀ i egress, runtime.issued[i]? = some egress →
    egress.generation = UInt64.ofNat (i + 1)
  live : runtime.egress.liveGeneration = UInt64.ofNat runtime.issued.length
  current : runtime.egress.current = runtime.issued.getLast?

theorem LinkedRuntime.Numbered.call (call : PublisherCall) (h : publisher.runtime.Numbered) :
    (publisher.call call).runtime.Numbered := by
  rcases (call_effect publisher call).2 with
    ⟨-, hsame⟩ | ⟨-, egress, hissued, hgen, hcurrent, hlive⟩
  · rw [hsame]
    exact h
  · have hnext : publisher.runtime.egress.liveGeneration + 1 =
        UInt64.ofNat (publisher.runtime.issued.length + 1) := by
      rw [h.live, UInt64.ofNat_add]
      rfl
    refine ⟨fun i e he => ?_, ?_, ?_⟩
    · rw [hissued] at he
      by_cases hi : i < publisher.runtime.issued.length
      · rw [List.getElem?_append_left hi] at he
        exact h.generation i e he
      · rw [List.getElem?_append_right (Nat.not_lt.mp hi)] at he
        obtain ⟨hzero, hegress⟩ := List.getElem?_eq_some_iff.mp he
        have hlast : i = publisher.runtime.issued.length := by
          have := Nat.not_lt.mp hi
          simp only [List.length_singleton] at hzero
          omega
        rw [List.getElem_singleton] at hegress
        rw [← hegress, hgen, hnext, hlast]
    · rw [hlive, hissued, List.length_append, List.length_singleton]
      exact hnext
    · rw [hcurrent, hissued, List.getLast?_append]
      rfl

theorem isCurrent_iff (h : runtime.Numbered) {i : Nat} {egress : TunEgress}
    (hi : runtime.issued[i]? = some egress) :
    runtime.egress.isCurrent egress = true ↔
      runtime.issued.length % 2 ^ 64 = (i + 1) % 2 ^ 64 := by
  unfold EgressState.isCurrent
  rw [beq_iff_eq, h.generation i egress hi, h.live, ← UInt64.toNat_inj, UInt64.toNat_ofNat',
    UInt64.toNat_ofNat']

theorem stranded_iff (h : publisher.runtime.Numbered) :
    publisher.Stranded ↔
      (publisher.listener.isSome = true ∨ publisher.runtime.issued = []) ∧
        publisher.runtime.issued.length ≤ 2 ^ 64 := by
  constructor
  · rintro ⟨hstranded, hunique⟩
    constructor
    · cases hlistener : publisher.listener with
      | some listener => exact .inl rfl
      | none =>
        -- the last identity issued is current whatever happened since
        refine .inr (List.eq_nil_iff_forall_not_mem.mpr fun _ hmem => ?_)
        have hpos := List.length_pos_of_mem hmem
        obtain ⟨last, hlast⟩ : ∃ last,
            publisher.runtime.issued[publisher.runtime.issued.length - 1]? = some last :=
          ⟨_, List.getElem?_eq_getElem (by omega)⟩
        have hcurrent := (isCurrent_iff h hlast).mpr (by rw [Nat.sub_add_cancel hpos])
        rw [(hstranded hlistener).2 last (List.mem_of_getElem? hlast)] at hcurrent
        cases hcurrent
    · by_contra hlong
      obtain ⟨a, ha⟩ : ∃ a,
          publisher.runtime.issued[publisher.runtime.issued.length - 1]? = some a :=
        ⟨_, List.getElem?_eq_getElem (by omega)⟩
      obtain ⟨b, hb⟩ : ∃ b,
          publisher.runtime.issued[publisher.runtime.issued.length - 1 - 2 ^ 64]? = some b :=
        ⟨_, List.getElem?_eq_getElem (by omega)⟩
      have heq := hunique _ _ a b ha hb ((isCurrent_iff h ha).mpr (by congr 1; omega))
        ((isCurrent_iff h hb).mpr (by omega))
      omega
  · rintro ⟨hlistening, hshort⟩
    refine ⟨fun hnone => ?_, fun i j a b hi hj ha hb => ?_⟩
    · have hempty : publisher.runtime.issued = [] := by
        rcases hlistening with hsome | hempty
        · rw [hnone] at hsome
          cases hsome
        · exact hempty
      have hcurrent := h.current
      rw [hempty] at hcurrent
      refine ⟨?_, by simp [hempty]⟩
      unfold EgressState.currentEgress
      rw [hcurrent]
      rfl
    · have hi' := (List.getElem?_eq_some_iff.mp hi).1
      have hj' := (List.getElem?_eq_some_iff.mp hj).1
      have hmod := (isCurrent_iff h hi).mp ha
      have hmod' := (isCurrent_iff h hj).mp hb
      omega

def ProxyPublisher.after (publisher : ProxyPublisher) (calls : List PublisherCall) :
    ProxyPublisher :=
  calls.foldl ProxyPublisher.call publisher

theorem numbered_after (policy : DestinationPolicy) (bindAddrs : List SocketAddr)
    (fallbackDns : List IpAddr) (calls : List PublisherCall) :
    ((ProxyPublisher.new policy bindAddrs fallbackDns).after calls).runtime.Numbered := by
  unfold ProxyPublisher.after
  generalize hstart : ProxyPublisher.new policy bindAddrs fallbackDns = publisher
  have h : publisher.runtime.Numbered := by
    subst hstart
    exact ⟨fun i egress h => by simp [ProxyPublisher.new] at h, rfl, rfl⟩
  clear hstart
  induction calls generalizing publisher with
  | nil => exact h
  | cons call rest ih => exact ih (publisher.call call) (h.call call)

/-- **Which calls keep the egress stranded**, after any sequence of calls with any failures: those
    that leave a listener, and those that bring no identity up while there has never been one. -/
theorem strands_iff (policy : DestinationPolicy) (bindAddrs : List SocketAddr)
    (fallbackDns : List IpAddr) (calls : List PublisherCall) (call : PublisherCall) :
    let publisher := (ProxyPublisher.new policy bindAddrs fallbackDns).after calls
    (publisher.call call).Stranded ↔
      (publisher.listensAfter call = true ∨
        (publisher.runtime.issued = [] ∧ publisher.issues call = false)) ∧
        publisher.runtime.issued.length + (if publisher.issues call then 1 else 0) ≤ 2 ^ 64 := by
  intro publisher
  have hnumbered : publisher.runtime.Numbered := numbered_after policy bindAddrs fallbackDns calls
  rw [stranded_iff (hnumbered.call call)]
  obtain ⟨hlistener, heffect⟩ := call_effect publisher call
  rw [hlistener]
  rcases heffect with ⟨hquiet, hsame⟩ | ⟨hissues, egress, hissued, -⟩
  · simp [hsame, hquiet]
  · simp [hissued, hissues]

def sampleAround : Surroundings where
  nameToIndex _ := 7
  resolverBuilds := true
  bindOne _ addr := .ok addr
  credentials := exampleCredentials

def samplePublisher : ProxyPublisher :=
  .new {} [⟨.v4 ⟨127, 0, 0, 1⟩, 1080⟩] [.v4 ⟨9, 9, 9, 9⟩, .v4 ⟨1, 1, 1, 1⟩]

/-- **Revoking leaves the identity current.** -/
theorem revoke_keeps_egress :
    (samplePublisher.publish sampleAround sampleV4Binding).1.isOk = true ∧
      let revoked := samplePublisher.after [.publish sampleAround sampleV4Binding, .revoke]
      revoked.listener.isNone = true ∧
        ∃ egress ∈ revoked.runtime.issued, revoked.runtime.egress.isCurrent egress = true ∧
          revoked.runtime.egress.currentEgress = .ok egress := by
  refine ⟨by decide, rfl, ?_⟩
  exact ⟨⟨"tun0", 7, ⟨10, 8, 0, 2⟩, none, 1400, {}, 1, by decide⟩, by decide, by decide, by decide⟩

/-! ## §4. What the user is told. -/

/-- What openvpn reported of the tunnel. -/
structure TunnelIdentity where
  dev : String
  ifconfigLocal : Option String
  ifconfigIpv6Local : Option String
  deriving DecidableEq, Repr

structure TunnelInfo where
  device : String
  ipv4 : Option Ipv4Addr
  ipv6 : Option Ipv6Addr
  mtu : Option UInt32
  tunnelHasV6 : Bool
  dnsServers : List IpAddr
  dnsSource : DnsSource
  searchDomains : List String
  deriving DecidableEq

inductive InstallFailure where
  | missingTunnelAddress
  | policy (error : PolicyError)
  | publish (error : ProxyError)
  deriving DecidableEq

def defaultTunnelMtu : UInt32 := 1500

def profileMtu (profile : Ovpn.Profile) : UInt32 :=
  ((profile.directives.find? fun directive => directive.name == "tun-mtu").bind fun directive =>
    directive.args.head?.bind fun raw =>
      (Numeral.parseUnsigned (2 ^ 32) raw.toList).map UInt32.ofNat).getD defaultTunnelMtu

def specFromIdentity (dev localV4 : String) (localV6 : Option String) (mtu : UInt32) :
    Except PolicyError TunnelSpec :=
  TunnelSpec.parse { device := dev, localV4, localV6, mtu }

def declaredDns (profile : Ovpn.Profile) : List IpAddr :=
  profile.dhcpDnsServers.filterMap fun raw => parseIpAddr raw.toList

def describeTunnel (binding : TunnelBinding) (profile : Ovpn.Profile) (fallbackDns : List IpAddr) :
    TunnelInfo :=
  let pushed := declaredDns profile
  let (dnsServers, dnsSource) :=
    if pushed.isEmpty then (fallbackDns, DnsSource.tunnelFallback) else (pushed, .pushed)
  { device := binding.device, ipv4 := some binding.ipv4, ipv6 := binding.ipv6
    mtu := some binding.mtu, tunnelHasV6 := binding.tunnelHasV6, dnsServers, dnsSource
    searchDomains := [] }

def installPolicy (install : TunnelSpec → UInt32 → Except PolicyError TunnelBinding)
    (around : Surroundings) (publisher : ProxyPublisher) (profile : Ovpn.Profile)
    (identity : TunnelIdentity) : Except InstallFailure TunnelInfo × ProxyPublisher :=
  match identity.ifconfigLocal with
  | none => (.error .missingTunnelAddress, publisher)
  | some localV4 =>
    let mtu := profileMtu profile
    match (specFromIdentity identity.dev localV4 identity.ifconfigIpv6Local mtu).bind
        (install · mtu) with
    | .error error => (.error (.policy error), publisher)
    | .ok binding =>
      match publisher.publish around binding with
      | (.error error, publisher) => (.error (.publish error), publisher)
      | (.ok (), publisher) =>
        (.ok (describeTunnel binding profile publisher.fallbackDns), publisher)

/-- The user is told the servers and the source that are in use. -/
def TunnelInfo.Tells (info : TunnelInfo) (plan : TunnelDnsPlan) : Prop :=
  info.dnsServers = plan.nameservers ∧ info.dnsSource = plan.source

theorem start_request {listener : LinkedListener}
    (h : (runtime.start around request).1 = .ok listener) : listener.request = request := by
  unfold LinkedRuntime.start at h
  split at h
  · cases h
  · dsimp only at h
    split at h
    · cases h
    · split at h
      · cases h
      · injection h with h
        rw [← h]

theorem publish_ok {publisher' : ProxyPublisher}
    (h : publisher.publish around binding = (.ok (), publisher')) :
    ∃ plan listener, planDns publisher.capture publisher.fallbackDns binding = .ok plan ∧
      publisher'.listener = some listener ∧ listener.request = ⟨binding, plan⟩ ∧
      publisher'.fallbackDns = publisher.fallbackDns := by
  cases hplan : planDns publisher.capture publisher.fallbackDns binding with
  | error error =>
    simp [ProxyPublisher.publish, ProxyPublisher.stopListener, hplan] at h
  | ok plan =>
    simp only [ProxyPublisher.publish, ProxyPublisher.stopListener, hplan] at h
    split at h
    · cases h
    · next listener runtime hstart =>
      injection h with _ h
      subst h
      exact ⟨plan, listener, rfl, rfl, start_request (by rw [hstart]), rfl⟩

theorem describeTunnel_tells (profile : Ovpn.Profile)
    (hplan : planDns capture fallbackDns binding = .ok plan) :
    (describeTunnel binding profile fallbackDns).Tells plan ↔
      (capture.servers.filter (usableFor binding) ≠ [] ∧
        declaredDns profile = capture.servers.filter (usableFor binding)) ∨
      (capture.servers.filter (usableFor binding) = [] ∧ declaredDns profile = [] ∧
        ∀ server ∈ fallbackDns, usableFor binding server = true) := by
  unfold TunnelInfo.Tells describeTunnel
  rcases planDns_cases capture fallbackDns binding with
    ⟨hcaptured, _, h⟩ | ⟨hcaptured, _, h⟩ | ⟨_, _, _, h⟩
  · rw [h] at hplan
    cases hplan
    by_cases hdeclared : declaredDns profile = []
    · simp [hdeclared, hcaptured, Ne.symm hcaptured]
    · simp [hdeclared, hcaptured]
  · rw [h] at hplan
    cases hplan
    by_cases hdeclared : declaredDns profile = []
    · have hall : fallbackDns = fallbackDns.filter (usableFor binding) ↔
          ∀ server ∈ fallbackDns, usableFor binding server = true := by
        rw [eq_comm, List.filter_eq_self]
      simp [hdeclared, hcaptured, hall]
    · simp [hdeclared, hcaptured]
  · rw [h] at hplan
    cases hplan

/-- **When the DNS the user is told about is the DNS that is used**: exactly when the profile
    itself lists the usable servers of the push, in their order, or when neither has any and
    every configured fallback may be queried. -/
theorem told_iff_used {install : TunnelSpec → UInt32 → Except PolicyError TunnelBinding}
    {around : Surroundings} {publisher publisher' : ProxyPublisher} {profile : Ovpn.Profile}
    {identity : TunnelIdentity} {info : TunnelInfo}
    (h : installPolicy install around publisher profile identity = (.ok info, publisher')) :
    ∃ spec binding listener, install spec (profileMtu profile) = .ok binding ∧
      publisher'.listener = some listener ∧ listener.request.binding = binding ∧
      (info.Tells listener.request.dns ↔
        (publisher.capture.servers.filter (usableFor binding) ≠ [] ∧
          declaredDns profile = publisher.capture.servers.filter (usableFor binding)) ∨
        (publisher.capture.servers.filter (usableFor binding) = [] ∧ declaredDns profile = [] ∧
          ∀ server ∈ publisher.fallbackDns, usableFor binding server = true)) := by
  unfold installPolicy at h
  split at h
  · cases h
  · dsimp only at h
    split at h
    · cases h
    · next binding hbinding =>
      obtain ⟨spec, -, hinstall⟩ := ok_of_bind hbinding
      split at h
      · cases h
      · next published hpublish =>
        injection h with hinfo hpublished
        subst hpublished
        injection hinfo with hinfo
        obtain ⟨plan, listener, hplan, hlistener, hrequest, hfallback⟩ := publish_ok hpublish
        refine ⟨spec, binding, listener, hinstall, hlistener, by rw [hrequest], ?_⟩
        rw [hrequest, ← hinfo, hfallback]
        exact describeTunnel_tells profile hplan

def sampleIdentity : TunnelIdentity := ⟨"tun0", some "10.8.0.2", none⟩

def samplePushed : ProxyPublisher :=
  samplePublisher.call (.observe (.captured ⟨[.v4 ⟨10, 8, 0, 1⟩], [], false⟩))

def sampleInstall (_ : TunnelSpec) (mtu : UInt32) : Except PolicyError TunnelBinding :=
  .ok { sampleV4Binding with mtu }

def sampleDeclaring : Ovpn.Profile :=
  (Ovpn.parseProfile "remote 192.0.2.1 1194\ndhcp-option DNS 10.8.0.1\n".toList).toOption.getD {}

theorem told_iff_used_declared :
    Ovpn.parseProfile "remote 192.0.2.1 1194\ndhcp-option DNS 10.8.0.1\n".toList =
      .ok sampleDeclaring ∧
    ∃ info publisher listener,
      installPolicy sampleInstall sampleAround samplePushed sampleDeclaring sampleIdentity =
        (.ok info, publisher) ∧ publisher.listener = some listener ∧
      info.Tells listener.request.dns := by
  obtain ⟨spec, binding, listener, hinstall, hlistener, -, htells⟩ :=
    @told_iff_used sampleInstall sampleAround samplePushed _ sampleDeclaring sampleIdentity _ rfl
  injection hinstall with hinstall
  subst hinstall
  exact ⟨rfl, _, _, listener, rfl, hlistener, htells.mpr (.inl (by decide +kernel))⟩

/-- **The user is told of a third party that is not asked.**  The profile lists no server and the
    tunnel pushes its own. -/
theorem told_of_fallback : ∃ profile info publisher listener,
    Ovpn.parseProfile "remote 192.0.2.1 1194\n".toList = .ok profile ∧
    installPolicy sampleInstall sampleAround samplePushed profile sampleIdentity =
      (.ok info, publisher) ∧ publisher.listener = some listener ∧
    info.dnsServers = [.v4 ⟨9, 9, 9, 9⟩, .v4 ⟨1, 1, 1, 1⟩] ∧
    info.dnsSource = .tunnelFallback ∧
    listener.request.dns.nameservers = [.v4 ⟨10, 8, 0, 1⟩] ∧
    listener.request.dns.source = .pushed :=
  ⟨_, _, _, _, rfl, rfl, rfl, rfl, rfl, rfl, rfl⟩

end ThisConnect.Session
