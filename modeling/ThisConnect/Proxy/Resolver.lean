/-
  ThisConnect.Proxy.Resolver
  **WHICH NAMESERVERS A TUNNEL'S RESOLVER MAY QUERY.**
-/
import ThisConnect.Proxy.Egress
import Mathlib.Data.List.Basic

namespace ThisConnect.Proxy.Resolver

open Net Proxy.Egress

/-- Where answers come from. -/
inductive DnsSource where
  | none
  | pushed
  | fallback
  | pushedWithFallback
  deriving DecidableEq, Repr

def defaultTunnelFallbackDns : List IpAddr := [.v4 ⟨9, 9, 9, 9⟩, .v4 ⟨1, 1, 1, 1⟩]

structure TunnelDnsConfig where
  pushed : List IpAddr := []
  fallback : List IpAddr := defaultTunnelFallbackDns
  tunnelHasV6 : Bool := false
  deriving DecidableEq, Repr

structure Nameservers where
  accepted : List IpAddr
  source : DnsSource
  deriving DecidableEq, Repr

/-- Keep the first of each. -/
def keepFirst (kept : List IpAddr) (ip : IpAddr) : List IpAddr :=
  if !kept.contains ip then kept ++ [ip] else kept

def nameserverPolicy : DestinationPolicy := { allowPrivate := true }

def usable (servers : List IpAddr) (hasV6 : Bool) : List IpAddr :=
  ((servers.filter fun ip => hasV6 || !ip.isIpv6).filter fun ip =>
    (checkDestination ip nameserverPolicy).isOk).foldl keepFirst []

def selectNameservers (config : TunnelDnsConfig) : Nameservers :=
  let pushed := usable config.pushed config.tunnelHasV6
  let fallback := (usable config.fallback config.tunnelHasV6).filter fun ip => !pushed.contains ip
  { accepted := pushed ++ fallback
    source :=
      match pushed.isEmpty, fallback.isEmpty with
      | true, true => .none
      | false, true => .pushed
      | true, false => .fallback
      | false, false => .pushedWithFallback }

structure TunnelResolver where
  egress : TunEgress
  nameservers : List IpAddr
  source : DnsSource
  tunnelHasV6 : Bool
  deriving DecidableEq

inductive ResolveError where
  | noTunnelResolver
  | staleTunnel
  | stateUnavailable
  | notConstructed
  | invalidName
  | notFound
  | addressesDenied
  | ipv6Unsupported
  | timeout
  | backend
  deriving DecidableEq, Repr

def TunnelResolver.new (builds : Bool) (egress : TunEgress) (config : TunnelDnsConfig) :
    Except ResolveError TunnelResolver :=
  let selected := selectNameservers config
  if selected.accepted.isEmpty || builds then
    .ok
      { egress, nameservers := selected.accepted, source := selected.source
        tunnelHasV6 := config.tunnelHasV6 }
  else .error .notConstructed

/-! ## Repetitions. -/

theorem foldl_keepFirst (servers : List IpAddr) : ∀ kept,
    servers.foldl keepFirst kept =
      kept ++ (servers.filter fun ip => !kept.contains ip).eraseDups := by
  induction servers with
  | nil => intro kept; simp
  | cons ip rest ih =>
    intro kept
    rw [List.foldl_cons, ih]
    by_cases hmem : ip ∈ kept
    · simp [keepFirst, hmem]
    · -- what is new from here on is neither in `kept` nor `ip`
      have hrest : rest.filter (fun b => !(kept ++ [ip]).contains b) =
          (rest.filter fun b => !kept.contains b).filter fun b => !b == ip := by
        rw [List.filter_filter]
        refine List.filter_congr fun b _ => ?_
        simp only [List.contains_append, List.contains_cons, List.contains_nil, Bool.or_false,
          Bool.not_or]
        exact Bool.and_comm _ _
      have hkept : keepFirst kept ip = kept ++ [ip] := by simp [keepFirst, hmem]
      have hfirst : (ip :: rest).filter (fun b => !kept.contains b) =
          ip :: rest.filter fun b => !kept.contains b := by simp [hmem]
      rw [hkept, hrest, hfirst, List.eraseDups_cons, List.append_assoc, List.singleton_append]

theorem usable_eq (servers : List IpAddr) (hasV6 : Bool) :
    usable servers hasV6 = (servers.filter fun ip =>
      (hasV6 || !ip.isIpv6) && (checkDestination ip nameserverPolicy).isOk).eraseDups := by
  unfold usable
  rw [foldl_keepFirst, List.filter_filter]
  simp [Bool.and_comm]

end ThisConnect.Proxy.Resolver
