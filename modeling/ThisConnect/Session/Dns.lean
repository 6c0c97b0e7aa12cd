/-
  ThisConnect.Session.Dns
  **WHICH RESOLVER A TUNNEL'S LISTENER IS GIVEN.**

  Main results:
    • `isUsableResolver_eq` — the two copies agree on every address,
    • `planDns_pool` — the plan is what the vetting rules say, and the proxy's
      resolver queries exactly the servers of the plan.
-/
import ThisConnect.Policy.Managed
import ThisConnect.Proxy.Listener
import ThisConnect.Proxy.Resolver

namespace ThisConnect.Session

open Net Policy Proxy.Egress Proxy.Resolver

/-! ## §1. What the push supplied. -/

inductive MissingDns where
  | noPushReply
  | noDnsOptions
  | allAddressesMalformed (dropped : Nat)
  | unreachableFamily (discarded : Nat)
  deriving DecidableEq, Repr

structure TunnelDns where
  nameservers : List IpAddr
  searchDomains : List String
  tunnelHasV6 : Bool
  deriving DecidableEq, Repr

inductive DnsCapture where
  | captured (dns : TunnelDns)
  | missing (reason : MissingDns)
  deriving DecidableEq, Repr

def DnsCapture.noneReceived : DnsCapture := .missing .noPushReply

/-- The servers a capture holds. -/
def DnsCapture.servers : DnsCapture → List IpAddr
  | .captured dns => dns.nameservers
  | .missing _ => []

/-! ## §2. The daemon's denylist. -/

def isUsableV4 (addr : Ipv4Addr) : Bool :=
  !addr.isLoopback && addr.a != 0 && !addr.isLinkLocal && !(IpAddr.v4 addr).isMulticast &&
    !addr.isBroadcast

def isUsableV6 (addr : Ipv6Addr) : Bool :=
  !addr.isLoopback && !(IpAddr.v6 addr).isUnspecified && !(IpAddr.v6 addr).isMulticast &&
    (addr.segments.headD 0 &&& 0xffc0) != 0xfe80 && addr.segments.take 6 != [0, 0, 0, 0, 0, 0]

def canonicalResolver : IpAddr → IpAddr
  | .v6 v6 =>
    match v6.toIpv4Mapped with
    | some v4 => .v4 v4
    | none => .v6 v6
  | .v4 v4 => .v4 v4

def isUsableResolver (addr : IpAddr) : Bool :=
  match canonicalResolver addr with
  | .v4 v4 => isUsableV4 v4
  | .v6 v6 => isUsableV6 v6

/-! ## §3. Planning. -/

/-- Shown to the user. -/
inductive DnsSource where
  | pushed
  | tunnelFallback
  deriving DecidableEq, Repr

structure TunnelDnsPlan where
  nameservers : List IpAddr
  searchDomains : List String
  source : DnsSource
  deriving DecidableEq, Repr

inductive ResolverGap where
  | notPushed (reason : MissingDns)
  | denied (denied : Nat)
  deriving DecidableEq, Repr

inductive StartFailure where
  | egress (error : EgressError)
  | resolver (error : ResolveError)
  | bind (error : Proxy.ListenerError)
  deriving DecidableEq, Repr

inductive ProxyError where
  | noResolver (reason : ResolverGap)
  | listener (cause : StartFailure)
  deriving DecidableEq, Repr

structure VettedServers where
  usable : List IpAddr := []
  denied : Nat := 0
  wrongFamily : Nat := 0
  deriving DecidableEq, Repr

def VettedServers.gap (vetted : VettedServers) : ResolverGap :=
  if 0 < vetted.denied then .denied vetted.denied
  else .notPushed (.unreachableFamily vetted.wrongFamily)

def VettedServers.vet (tunnelHasV6 : Bool) (acc : VettedServers) (server : IpAddr) :
    VettedServers :=
  if !isUsableResolver server then { acc with denied := acc.denied + 1 }
  else if !tunnelHasV6 && server.isIpv6 then { acc with wrongFamily := acc.wrongFamily + 1 }
  else { acc with usable := acc.usable ++ [server] }

def usableServers (servers : List IpAddr) (tunnelHasV6 : Bool) : VettedServers :=
  servers.foldl (VettedServers.vet tunnelHasV6) {}

def fallbackPlan (fallbackDns : List IpAddr) (reason : ResolverGap) (binding : TunnelBinding) :
    Except ProxyError TunnelDnsPlan :=
  let vetted := usableServers fallbackDns binding.tunnelHasV6
  if vetted.usable.isEmpty then .error (.noResolver reason)
  else .ok ⟨vetted.usable, [], .tunnelFallback⟩

def planDns (capture : DnsCapture) (fallbackDns : List IpAddr) (binding : TunnelBinding) :
    Except ProxyError TunnelDnsPlan :=
  match capture with
  | .captured dns =>
    let vetted := usableServers dns.nameservers binding.tunnelHasV6
    if vetted.usable.isEmpty then fallbackPlan fallbackDns vetted.gap binding
    else .ok ⟨vetted.usable, dns.searchDomains, .pushed⟩
  | .missing reason => fallbackPlan fallbackDns (.notPushed reason) binding

def TunnelDnsPlan.toConfig (plan : TunnelDnsPlan) (binding : TunnelBinding) : TunnelDnsConfig where
  pushed := plan.nameservers
  fallback := []
  tunnelHasV6 := binding.tunnelHasV6

/-! ## §4. The two copies agree. -/

-- Both sides are functions of the same few tests on the address, in whatever order they are made.

theorem isUsableV4_eq (addr : Ipv4Addr) :
    isUsableV4 addr = (denyReasonV4 addr nameserverPolicy).isNone := by
  unfold isUsableV4 denyReasonV4 nameserverPolicy bne
  generalize addr.isLoopback = loopback
  generalize (addr.a == 0) = zero
  generalize addr.isLinkLocal = linkLocal
  generalize (IpAddr.v4 addr).isMulticast = multicast
  generalize addr.isBroadcast = broadcast
  generalize isPrivateV4 addr = privateRange
  revert loopback zero linkLocal multicast broadcast privateRange
  decide

theorem isUsableV6_eq (addr : Ipv6Addr) :
    isUsableV6 addr = (denyReasonV6 addr nameserverPolicy).isNone := by
  unfold isUsableV6 denyReasonV6 nameserverPolicy bne
  generalize addr.isLoopback = loopback
  generalize (IpAddr.v6 addr).isUnspecified = unspecified
  generalize (IpAddr.v6 addr).isMulticast = multicast
  generalize (addr.segments.headD 0 &&& 0xffc0 == 0xfe80) = linkLocal
  generalize (addr.segments.take 6 == [0, 0, 0, 0, 0, 0]) = compatible
  generalize (addr.segments.headD 0 &&& 0xfe00 == 0xfc00) = uniqueLocal
  revert loopback unspecified multicast linkLocal compatible uniqueLocal
  decide

theorem isUsableResolver_eq (addr : IpAddr) :
    isUsableResolver addr = (checkDestination addr nameserverPolicy).isOk := by
  have hcanonical : canonicalResolver addr = canonicalIp addr := by
    cases addr <;> rfl
  unfold isUsableResolver checkDestination
  rw [hcanonical]
  cases canonicalIp addr with
  | v4 v4 =>
    simp only [isUsableV4_eq]
    cases denyReasonV4 v4 nameserverPolicy <;> rfl
  | v6 v6 =>
    simp only [isUsableV6_eq]
    cases denyReasonV6 v6 nameserverPolicy <;> rfl

def usableFor (binding : TunnelBinding) (server : IpAddr) : Bool :=
  isUsableResolver server && (!server.isIpv6 || binding.tunnelHasV6)

theorem vet_usable (binding : TunnelBinding) (acc : VettedServers) (server : IpAddr) :
    (VettedServers.vet binding.tunnelHasV6 acc server).usable =
      acc.usable ++ [server].filter (usableFor binding) := by
  unfold VettedServers.vet
  rw [List.filter_singleton, usableFor]
  cases isUsableResolver server with
  | false => simp
  | true => cases server.isIpv6 <;> cases binding.tunnelHasV6 <;> simp

theorem usableServers_usable (servers : List IpAddr) (binding : TunnelBinding) :
    (usableServers servers binding.tunnelHasV6).usable = servers.filter (usableFor binding) := by
  have hfold : ∀ acc : VettedServers,
      (servers.foldl (VettedServers.vet binding.tunnelHasV6) acc).usable =
        acc.usable ++ servers.filter (usableFor binding) := by
    induction servers with
    | nil => intro acc; simp
    | cons server rest ih =>
      intro acc
      rw [List.foldl_cons, ih, vet_usable, List.append_assoc, ← List.filter_append,
        List.singleton_append]
  exact hfold {}

/-! ## §5. The plan and the pool. -/

theorem fallbackPlan_eq (fallbackDns : List IpAddr) (reason : ResolverGap)
    (binding : TunnelBinding) :
    fallbackPlan fallbackDns reason binding =
      if (fallbackDns.filter (usableFor binding)).isEmpty then .error (.noResolver reason)
      else .ok ⟨fallbackDns.filter (usableFor binding), [], .tunnelFallback⟩ := by
  unfold fallbackPlan
  simp only [usableServers_usable]

theorem planDns_cases (capture : DnsCapture) (fallbackDns : List IpAddr)
    (binding : TunnelBinding) :
    (capture.servers.filter (usableFor binding) ≠ [] ∧ ∃ searchDomains,
      planDns capture fallbackDns binding =
        .ok ⟨capture.servers.filter (usableFor binding), searchDomains, .pushed⟩) ∨
    (capture.servers.filter (usableFor binding) = [] ∧
      fallbackDns.filter (usableFor binding) ≠ [] ∧ planDns capture fallbackDns binding =
        .ok ⟨fallbackDns.filter (usableFor binding), [], .tunnelFallback⟩) ∨
    (capture.servers.filter (usableFor binding) = [] ∧
      fallbackDns.filter (usableFor binding) = [] ∧
      ∃ error, planDns capture fallbackDns binding = .error error) := by
  -- without a captured server it is the fallback's turn, whatever the reason
  have hfallback : ∀ reason, planDns capture fallbackDns binding =
      fallbackPlan fallbackDns reason binding →
      (fallbackDns.filter (usableFor binding) ≠ [] ∧ planDns capture fallbackDns binding =
        .ok ⟨fallbackDns.filter (usableFor binding), [], .tunnelFallback⟩) ∨
      (fallbackDns.filter (usableFor binding) = [] ∧
        ∃ error, planDns capture fallbackDns binding = .error error) := by
    intro reason h
    rw [fallbackPlan_eq] at h
    by_cases hempty : fallbackDns.filter (usableFor binding) = []
    · rw [hempty] at h
      exact .inr ⟨hempty, _, h⟩
    · rw [if_neg (by simpa using hempty)] at h
      exact .inl ⟨hempty, h⟩
  cases capture with
  | missing reason =>
    right
    rcases hfallback (.notPushed reason) rfl with h | h
    · exact .inl ⟨rfl, h⟩
    · exact .inr ⟨rfl, h⟩
  | captured dns =>
    by_cases hempty : dns.nameservers.filter (usableFor binding) = []
    · right
      have hplan : planDns (.captured dns) fallbackDns binding = fallbackPlan fallbackDns
          (usableServers dns.nameservers binding.tunnelHasV6).gap binding := by
        simp [planDns, usableServers_usable, hempty]
      rcases hfallback _ hplan with h | h
      · exact .inl ⟨hempty, h⟩
      · exact .inr ⟨hempty, h⟩
    · refine .inl ⟨hempty, dns.searchDomains, ?_⟩
      simp only [planDns, usableServers_usable]
      rw [if_neg (by simpa using hempty)]
      rfl

variable {plan : TunnelDnsPlan} {binding : TunnelBinding}

theorem selectNameservers_toConfig (hne : plan.nameservers ≠ [])
    (husable : ∀ server ∈ plan.nameservers, usableFor binding server = true) :
    selectNameservers (plan.toConfig binding) = ⟨plan.nameservers.eraseDups, .pushed⟩ := by
  have hall : plan.nameservers.filter (fun ip => (binding.tunnelHasV6 || !ip.isIpv6) &&
      (checkDestination ip nameserverPolicy).isOk) = plan.nameservers := by
    rw [List.filter_eq_self]
    intro server hserver
    have := husable server hserver
    rw [← isUsableResolver_eq]
    simpa [usableFor, and_comm, or_comm] using this
  have hpushed : usable plan.nameservers binding.tunnelHasV6 = plan.nameservers.eraseDups := by
    rw [usable_eq, hall]
  have hnonempty : plan.nameservers.eraseDups.isEmpty = false := by
    cases h : plan.nameservers with
    | nil => exact absurd h hne
    | cons server rest => simp [List.eraseDups_cons]
  unfold selectNameservers TunnelDnsPlan.toConfig
  simp only [hpushed]
  simp [usable, hnonempty]

variable {capture : DnsCapture} {fallbackDns : List IpAddr}

theorem planDns_usable (h : planDns capture fallbackDns binding = .ok plan) :
    plan.nameservers ≠ [] ∧ ∀ server ∈ plan.nameservers, usableFor binding server = true := by
  rcases planDns_cases capture fallbackDns binding with
    ⟨hne, _, hplan⟩ | ⟨-, hne, hplan⟩ | ⟨-, -, _, hplan⟩
  · rw [hplan] at h
    cases h
    exact ⟨hne, fun _ hserver => (List.mem_filter.mp hserver).2⟩
  · rw [hplan] at h
    cases h
    exact ⟨hne, fun _ hserver => (List.mem_filter.mp hserver).2⟩
  · rw [hplan] at h
    cases h

theorem planDns_accepts (h : planDns capture fallbackDns binding = .ok plan) :
    (selectNameservers (plan.toConfig binding)).accepted ≠ [] := by
  obtain ⟨hne, husable⟩ := planDns_usable h
  rw [selectNameservers_toConfig hne husable]
  obtain ⟨server, rest, hcons⟩ := List.exists_cons_of_ne_nil hne
  simp [hcons, List.eraseDups_cons]

/-- **The daemon's plan is the proxy's nameserver pool.** -/
theorem planDns_pool (capture : DnsCapture) (fallbackDns : List IpAddr) (binding : TunnelBinding) :
    ((∃ error, planDns capture fallbackDns binding = .error error) ↔
      ∀ server ∈ capture.servers ++ fallbackDns, usableFor binding server = false) ∧
    ∀ plan, planDns capture fallbackDns binding = .ok plan →
      ((∃ server ∈ capture.servers, usableFor binding server = true) →
        plan.nameservers = capture.servers.filter (usableFor binding) ∧ plan.source = .pushed) ∧
      ((∀ server ∈ capture.servers, usableFor binding server = false) →
        plan.nameservers = fallbackDns.filter (usableFor binding) ∧
          plan.source = .tunnelFallback) ∧
      (selectNameservers (plan.toConfig binding)).accepted = plan.nameservers.eraseDups ∧
      (selectNameservers (plan.toConfig binding)).accepted ≠ [] ∧
      (selectNameservers (plan.toConfig binding)).source = .pushed := by
  have hnone : ∀ servers : List IpAddr, servers.filter (usableFor binding) = [] ↔
      ∀ server ∈ servers, usableFor binding server = false := by
    intro servers
    simp [List.filter_eq_nil_iff]
  have hpool : ∀ plan, planDns capture fallbackDns binding = .ok plan →
      (selectNameservers (plan.toConfig binding)).accepted = plan.nameservers.eraseDups ∧
        (selectNameservers (plan.toConfig binding)).accepted ≠ [] ∧
        (selectNameservers (plan.toConfig binding)).source = .pushed := by
    intro plan h
    obtain ⟨hne, husable⟩ := planDns_usable h
    have hselect := selectNameservers_toConfig hne husable
    exact ⟨by rw [hselect], planDns_accepts h, by rw [hselect]⟩
  rcases planDns_cases capture fallbackDns binding with
    ⟨hcaptured, searchDomains, hplan⟩ | ⟨hcaptured, hfallback, hplan⟩ |
      ⟨hcaptured, hfallback, error, hplan⟩
  · have hsome : ¬ ∀ server ∈ capture.servers, usableFor binding server = false :=
      fun h => hcaptured ((hnone _).mpr h)
    refine ⟨⟨fun ⟨_, h⟩ => ?_, fun h => ?_⟩, fun plan h => ?_⟩
    · rw [hplan] at h
      cases h
    · exact absurd (fun server hserver => h server (by simp [hserver])) hsome
    · have hservers := hpool plan h
      rw [hplan] at h
      cases h
      exact ⟨fun _ => ⟨rfl, rfl⟩, fun h => absurd h hsome, hservers⟩
  · refine ⟨⟨fun ⟨_, h⟩ => ?_, fun h => ?_⟩, fun plan h => ?_⟩
    · rw [hplan] at h
      cases h
    · exact absurd ((hnone _).mpr fun server hserver => h server (by simp [hserver])) hfallback
    · have hservers := hpool plan h
      rw [hplan] at h
      cases h
      refine ⟨fun ⟨server, hserver, husable⟩ => ?_, fun _ => ⟨rfl, rfl⟩, hservers⟩
      rw [(hnone _).mp hcaptured server hserver] at husable
      cases husable
  · refine ⟨⟨fun _ server hserver => ?_, fun _ => ⟨error, hplan⟩⟩, fun plan h => ?_⟩
    · rcases List.mem_append.mp hserver with h | h
      · exact (hnone _).mp hcaptured server h
      · exact (hnone _).mp hfallback server h
    · rw [hplan] at h
      cases h

def sampleV4Binding : TunnelBinding := ⟨"tun0", ⟨10, 8, 0, 2⟩, none, 1400⟩

def samplePush : DnsCapture :=
  .captured
    { nameservers := [.v4 ⟨10, 8, 0, 1⟩, .v6 ⟨[0xfd00, 0, 0, 0, 0, 0, 0, 0x53], rfl⟩,
        .v4 ⟨127, 0, 0, 53⟩, .v4 ⟨10, 8, 0, 1⟩]
      searchDomains := ["corp.example"]
      tunnelHasV6 := true }

theorem planDns_pool_sample :
    planDns samplePush [.v4 ⟨9, 9, 9, 9⟩] sampleV4Binding =
        .ok ⟨[.v4 ⟨10, 8, 0, 1⟩, .v4 ⟨10, 8, 0, 1⟩], ["corp.example"], .pushed⟩ ∧
      (selectNameservers (TunnelDnsPlan.toConfig
          ⟨[.v4 ⟨10, 8, 0, 1⟩, .v4 ⟨10, 8, 0, 1⟩], ["corp.example"], .pushed⟩
          sampleV4Binding)).accepted =
        [IpAddr.v4 ⟨10, 8, 0, 1⟩, .v4 ⟨10, 8, 0, 1⟩].eraseDups := by
  have hplan : planDns samplePush [.v4 ⟨9, 9, 9, 9⟩] sampleV4Binding =
      .ok ⟨[.v4 ⟨10, 8, 0, 1⟩, .v4 ⟨10, 8, 0, 1⟩], ["corp.example"], .pushed⟩ := by
    decide
  exact ⟨hplan, ((planDns_pool _ _ _).2 _ hplan).2.2.1⟩

end ThisConnect.Session
