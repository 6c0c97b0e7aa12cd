/-
  ThisConnect.Proxy.Dialer
  **WHERE A DESTINATION BECOMES A SOCKET.**

  Main result:
    • `dial_name` — dialling a name is dialling its addresses: whatever the
      answers and however the connects go, the addresses attempted are those an
      IP target would be attempted for, in order and up to the first success,
      and the error is the last attempt's.
-/
import ThisConnect.Base.Text
import ThisConnect.Proxy.Client
import ThisConnect.Proxy.Resolver

namespace ThisConnect.Proxy.Dialer

open Net Interaction Proxy.Egress Proxy.Resolver

/-! ## §1. What a dial asks for. -/

/-- Which step of a TCP connect failed. -/
inductive SocketError where
  | socket (source : OsError)
  | pin (source : OsError)
  | bind (source : OsError)
  | connect (source : OsError)
  deriving DecidableEq, Repr

/-- How the resolver library fails. -/
inductive NetError where
  | noRecordsFound
  | timeout
  | other
  deriving DecidableEq, Repr

inductive Call where
  | isCurrent (generation : UInt64)
  | lookup (name : List Char)
  | connect (source : IpAddr) (dst : SocketAddr)

@[reducible] def Call.Answer : Call → Type
  | .isCurrent _ => Bool
  | .lookup _ => Option (Except NetError (List IpAddr))
  | .connect _ _ => Except SocketError Unit

abbrev Dial (α : Type) := Prog Call Call.Answer α

/-! ## §2. The egress. -/

def eNetUnreach : Nat := 101

def eConnRefused : Nat := 111
def eHostUnreach : Nat := 113

def classifyDial (source : OsError) (dst : SocketAddr) : EgressError :=
  if source = some eNetUnreach then .networkUnreachable
  else if source = some eHostUnreach then .hostUnreachable
  else if source = some eConnRefused then .connectionRefused dst
  else .io source

def canonicalize (addr : SocketAddr) : SocketAddr :=
  match addr.ip with
  | .v6 v6 =>
    match v6.toIpv4Mapped with
    | some v4 => ⟨.v4 v4, addr.port⟩
    | none => addr
  | .v4 _ => addr

def attemptError (egress : TunEgress) (source : IpAddr) (dst : SocketAddr) :
    SocketError → EgressError
  | .socket e => .io e
  | .pin e => .pin egress.device e
  | .bind e => .bind source e
  | .connect e => classifyDial e dst

def connectFrom (egress : TunEgress) (source : IpAddr) (dst : SocketAddr) :
    Dial (Except EgressError Unit) :=
  .call (.connect source dst) fun r => .ret (r.mapError (attemptError egress source dst))

def connectV4 (egress : TunEgress) (dst : SocketAddr) : Dial (Except EgressError Unit) :=
  connectFrom egress (.v4 egress.ipv4) dst

def connectV6 (egress : TunEgress) (dst : SocketAddr) : Dial (Except EgressError Unit) :=
  match egress.ipv6 with
  | some source => connectFrom egress (.v6 source) dst
  | none => .ret (.error .ipv6Unsupported)

/-- `TunEgress::tcp`. -/
def egressTcp (egress : TunEgress) (dst : SocketAddr) : Dial (Except EgressError Unit) :=
  .call (.isCurrent egress.generation) fun current =>
    if !current then .ret (.error .staleTunnel)
    else
      let dst := canonicalize dst
      if dst.port = 0 then .ret (.error .invalidPort)
      else
        match checkDestination dst.ip egress.policy with
        | .error e => .ret (.error e)
        | .ok () =>
          match dst.ip with
          | .v4 _ => connectV4 egress dst
          | .v6 _ => connectV6 egress dst

/-! ## §3. The resolver. -/

structure PinnedResolver extends TunnelResolver where
  policy : DestinationPolicy
  deriving DecidableEq

def maxNameLen : Nat := 253

namespace PinnedResolver

variable (validName : List Char → Bool) (resolver : PinnedResolver)

def acceptLiteral (literal : IpAddr) : Except ResolveError (List IpAddr) :=
  if literal.isIpv6 && !resolver.tunnelHasV6 && (canonicalIp literal).isIpv6 then
    .error .ipv6Unsupported
  else
    match checkDestination literal resolver.policy with
    | .error _ => .error .addressesDenied
    | .ok () => .ok [literal]

def parseName (host : List Char) : Except ResolveError (List Char) :=
  if host.isEmpty || Text.byteLen host > maxNameLen then .error .invalidName
  else if validName host then .ok host
  else .error .invalidName

def acceptAnswers (answers : List IpAddr) : Except ResolveError (List IpAddr) :=
  let (accepted, denied) :=
    (answers.filter fun addr => resolver.tunnelHasV6 || !(canonicalIp addr).isIpv6).foldl
      (fun (kept, denied) addr =>
        match checkDestination addr resolver.policy with
        | .ok () => (kept ++ [addr], denied)
        | .error _ => (kept, denied + 1)) (([], 0) : List IpAddr × Nat)
  if accepted.isEmpty then
    match denied with
    | 0 => .error .notFound
    | _ => .error .addressesDenied
  else .ok accepted

def classify : NetError → ResolveError
  | .noRecordsFound => .notFound
  | .timeout => .timeout
  | .other => .backend

def resolve (host : List Char) : Dial (Except ResolveError (List IpAddr)) :=
  match parseIpAddr host with
  | some literal => .ret (resolver.acceptLiteral literal)
  | none =>
    match parseName validName host with
    | .error e => .ret (.error e)
    | .ok name =>
      if resolver.nameservers.isEmpty then .ret (.error .noTunnelResolver)
      else
        .call (.isCurrent resolver.egress.generation) fun current =>
          if !current then .ret (.error .staleTunnel)
          else
            .call (.lookup name) fun
              | some (.ok answers) => .ret (resolver.acceptAnswers answers)
              | some (.error e) => .ret (.error (classify e))
              | none => .ret (.error .timeout)

def resolveSocketAddrs (host : List Char) (port : UInt16) :
    Dial (Except ResolveError (List SocketAddr)) :=
  resolver.resolve validName host >>= fun outcome =>
    .ret (outcome.map fun addrs => addrs.map (⟨·, port⟩))

end PinnedResolver

/-! ## §4. The dialer. -/

def dialError : EgressError → DialError
  | .hostUnreachable => .hostUnreachable
  | .networkUnreachable | .tunnelNotReady | .staleTunnel | .ipv6Unsupported => .networkUnreachable
  | .connectionRefused _ => .connectionRefused
  | .destinationDenied _ _ | .invalidPort => .policyRejected
  | _ => .other

def resolveError : ResolveError → DialError
  | .notFound => .nameNotResolved
  | .addressesDenied => .policyRejected
  | .invalidName | .ipv6Unsupported => .policyRejected
  | .timeout | .backend => .networkUnreachable
  | .noTunnelResolver | .staleTunnel | .stateUnavailable | .notConstructed => .networkUnreachable

structure TunnelDialer where
  egress : TunEgress
  resolver : PinnedResolver

namespace TunnelDialer

variable (validName : List Char → Bool) (dialer : TunnelDialer)

def tryCandidates : DialError → List SocketAddr → Dial (Except DialError Unit)
  | last, [] => .ret (.error last)
  | _, addr :: rest =>
    egressTcp dialer.egress addr >>= fun
      | .ok () => .ret (.ok ())
      | .error error => tryCandidates (dialError error) rest

def tcp : Target → Dial (Except DialError Unit)
  | .ip addr => egressTcp dialer.egress addr >>= fun r => .ret (r.mapError dialError)
  | .domain host port =>
    dialer.resolver.resolveSocketAddrs validName host port >>= fun
      | .error error => .ret (.error (resolveError error))
      | .ok candidates => dialer.tryCandidates .nameNotResolved candidates

end TunnelDialer

/-! ## §5. What is seen of a dial. -/

/-- A connect, and how it went. -/
structure Attempt where
  source : IpAddr
  dst : SocketAddr
  outcome : Except SocketError Unit

/-- The connects there were. -/
structure Trace where
  attempts : List Attempt := []

def onCurrent (answers : List IpAddr) : Env Call Call.Answer Trace := fun s c r s' =>
  match c, r with
  | .isCurrent _, current => current = true ∧ s' = s
  | .lookup _, outcome => outcome = some (.ok answers) ∧ s' = s
  | .connect source dst, outcome => s' = ⟨s.attempts ++ [⟨source, dst, outcome⟩]⟩

abbrev Connects := Trace → IpAddr → SocketAddr → Except SocketError Unit

def replies (answers : List IpAddr) (connects : Connects) (s : Trace) :
    (c : Call) → c.Answer × Trace
  | .isCurrent _ => (true, s)
  | .lookup _ => (some (.ok answers), s)
  | .connect source dst =>
    (connects s source dst, ⟨s.attempts ++ [⟨source, dst, connects s source dst⟩]⟩)

theorem replies_onCurrent (answers : List IpAddr) (connects : Connects) (s : Trace) (c : Call) :
    onCurrent answers s c (replies answers connects s c).1 (replies answers connects s c).2 := by
  cases c with
  | isCurrent generation => exact ⟨rfl, rfl⟩
  | lookup name => exact ⟨rfl, rfl⟩
  | connect source dst => rfl

section

variable (validName : List Char → Bool) (dialer : TunnelDialer) (answers : List IpAddr)
  (connects : Connects) (port : UInt16)

def dialled (target : Target) : Except DialError Unit × Trace :=
  (dialer.tcp validName target).exec (replies answers connects) {}

def ipAttempts (addr : IpAddr) : List SocketAddr :=
  (dialled validName dialer answers connects (.ip ⟨addr, port⟩)).2.attempts.map (·.dst)

def carries (addr : IpAddr) : Bool := dialer.egress.ipv6.isSome || !(canonicalIp addr).isIpv6

/-- The address is not on the denylist. -/
def allows (addr : IpAddr) : Bool := (checkDestination addr dialer.egress.policy).isOk

def qualifies (addr : IpAddr) : Bool := carries dialer addr && allows dialer addr

def refusal : DialError :=
  if answers.any fun addr => carries dialer addr && !allows dialer addr then .policyRejected
  else .nameNotResolved

end

structure Dialled (egress : TunEgress) (would : List SocketAddr) (attempts : List Attempt)
    (r : Except DialError Unit) : Prop where
  order : attempts.map (·.dst) <+: would
  untilSuccess : ∀ attempt ∈ attempts.dropLast, attempt.outcome ≠ .ok ()
  success : r = .ok () ↔ ∃ last, attempts.getLast? = some last ∧ last.outcome = .ok ()
  exhausted : r ≠ .ok () → attempts.map (·.dst) = would
  lastError : ∀ last e, attempts.getLast? = some last → last.outcome = .error e →
    r = .error (dialError (attemptError egress last.source last.dst e))

/-! ## §6. One address. -/

theorem canonicalIp_idem (addr : IpAddr) : canonicalIp (canonicalIp addr) = canonicalIp addr := by
  cases addr with
  | v4 v4 => rfl
  | v6 v6 =>
    cases hmapped : v6.toIpv4Mapped with
    | none => simp only [canonicalIp, hmapped]
    | some v4 => simp only [canonicalIp, hmapped]

theorem canonicalize_eq (addr : IpAddr) (port : UInt16) :
    canonicalize ⟨addr, port⟩ = ⟨canonicalIp addr, port⟩ := by
  cases addr with
  | v4 v4 => rfl
  | v6 v6 =>
    cases hmapped : v6.toIpv4Mapped with
    | none => simp only [canonicalize, canonicalIp, hmapped]
    | some v4 => simp only [canonicalize, canonicalIp, hmapped]

theorem isOk_checkDestination_canonicalIp (addr : IpAddr) (policy : DestinationPolicy) :
    (checkDestination (canonicalIp addr) policy).isOk = (checkDestination addr policy).isOk := by
  unfold checkDestination
  rw [canonicalIp_idem]
  dsimp only
  split <;> rfl

section

variable {validName : List Char → Bool} {dialer : TunnelDialer} {port : UInt16}
  {answers : List IpAddr}

def Tried (dialer : TunnelDialer) (port : UInt16) (addr : IpAddr) (s : Trace)
    (r : Except EgressError Unit) (t : Trace) : Prop :=
  if qualifies dialer addr then
    ∃ source outcome, t.attempts = s.attempts ++ [⟨source, ⟨canonicalIp addr, port⟩, outcome⟩] ∧
      r = outcome.mapError (attemptError dialer.egress source ⟨canonicalIp addr, port⟩)
  else t = s ∧ r.isOk = false

theorem connectFrom_tried {addr : IpAddr} (hcarries : carries dialer addr = true)
    (hallows : allows dialer addr = true) (source : IpAddr) (s : Trace) :
    Safe (onCurrent answers) (fun _ => True) (Tried dialer port addr s)
      (connectFrom dialer.egress source ⟨canonicalIp addr, port⟩) s := by
  refine ⟨trivial, fun outcome t hanswer => ⟨trivial, ?_⟩⟩
  have ht : t = ⟨s.attempts ++ [Attempt.mk source ⟨canonicalIp addr, port⟩ outcome]⟩ := hanswer
  rw [Tried, qualifies, hcarries, hallows, ht]
  exact ⟨source, outcome, rfl, rfl⟩

theorem egressTcp_tried (hport : port ≠ 0) (addr : IpAddr) (s : Trace) :
    Safe (onCurrent answers) (fun _ => True) (Tried dialer port addr s)
      (egressTcp dialer.egress ⟨addr, port⟩) s := by
  refine ⟨trivial, fun current t hanswer => ?_⟩
  obtain ⟨rfl, rfl⟩ := hanswer
  rw [canonicalize_eq]
  simp only [Bool.not_true, Bool.false_eq_true, ↓reduceIte, hport]
  have hdenied := isOk_checkDestination_canonicalIp addr dialer.egress.policy
  cases hcheck : checkDestination (canonicalIp addr) dialer.egress.policy with
  | error e =>
    rw [hcheck] at hdenied
    have hallows : allows dialer addr = false := hdenied.symm
    refine ⟨trivial, ?_⟩
    rw [Tried, qualifies, hallows, Bool.and_false]
    exact ⟨rfl, rfl⟩
  | ok _ =>
    rw [hcheck] at hdenied
    have hallows : allows dialer addr = true := hdenied.symm
    cases hcanonical : canonicalIp addr with
    | v4 v4 =>
      have hcarries : carries dialer addr = true := by
        simp [carries, hcanonical, IpAddr.isIpv6]
      have htried : Safe (onCurrent answers) (fun _ => True) (Tried dialer port addr t)
          (connectFrom dialer.egress (.v4 dialer.egress.ipv4) ⟨canonicalIp addr, port⟩) t :=
        connectFrom_tried hcarries hallows _ t
      rw [hcanonical] at htried
      exact htried
    | v6 v6 =>
      dsimp only [connectV6]
      cases hipv6 : dialer.egress.ipv6 with
      | some source =>
        have hcarries : carries dialer addr = true := by simp [carries, hipv6]
        have htried : Safe (onCurrent answers) (fun _ => True) (Tried dialer port addr t)
            (connectFrom dialer.egress (.v6 source) ⟨canonicalIp addr, port⟩) t :=
          connectFrom_tried hcarries hallows _ t
        rw [hcanonical] at htried
        exact htried
      | none =>
        have hcarries : carries dialer addr = false := by
          simp [carries, hipv6, hcanonical, IpAddr.isIpv6]
        refine ⟨trivial, ?_⟩
        rw [Tried, qualifies, hcarries]
        exact ⟨rfl, rfl⟩

theorem ip_attempts_of_run (hport : port ≠ 0) {addr : IpAddr} {r : Except DialError Unit}
    {t : Trace}
    (hrun : Reaches (onCurrent answers) (dialer.tcp validName (.ip ⟨addr, port⟩)) {} (.ret r) t) :
    t.attempts.map (·.dst) =
      if qualifies dialer addr then [⟨canonicalIp addr, port⟩] else [] := by
  have hsafe : Safe (onCurrent answers) (fun _ => True) (fun _ t => t.attempts.map (·.dst) =
      if qualifies dialer addr then [⟨canonicalIp addr, port⟩] else [])
      (dialer.tcp validName (.ip ⟨addr, port⟩)) {} := by
    refine Safe.bind ?_ (egressTcp_tried hport addr {})
    intro r t _ htried
    refine ⟨trivial, ?_⟩
    unfold Tried at htried
    split at htried
    · next hqualifies =>
      obtain ⟨source, outcome, hattempts, _⟩ := htried
      rw [if_pos hqualifies, hattempts]
      rfl
    · next hnot =>
      rw [if_neg hnot, htried.1]
      rfl
  exact hsafe.post_of_reaches hrun

theorem ipAttempts_eq (connects : Connects) (hport : port ≠ 0) (addr : IpAddr) :
    ipAttempts validName dialer answers connects port addr =
      if qualifies dialer addr then [⟨canonicalIp addr, port⟩] else [] :=
  ip_attempts_of_run hport (exec_reaches (replies_onCurrent answers connects) _ _)

theorem flatMap_ipAttempts (connects : Connects) (hport : port ≠ 0) (addrs : List IpAddr) :
    addrs.flatMap (ipAttempts validName dialer answers connects port) =
      (addrs.filter (qualifies dialer)).map fun addr => ⟨canonicalIp addr, port⟩ := by
  induction addrs with
  | nil => rfl
  | cons addr rest ih =>
    rw [List.flatMap_cons, ipAttempts_eq connects hport, ih, List.filter_cons]
    by_cases hqualifies : qualifies dialer addr = true
    · rw [if_pos hqualifies, if_pos hqualifies, List.map_cons, List.singleton_append]
    · rw [if_neg hqualifies, if_neg hqualifies, List.nil_append]

/-! ## §7. All answers. -/

theorem Dialled.of_success {egress : TunEgress} {attempt : Attempt} {rest : List SocketAddr}
    (hok : attempt.outcome = .ok ()) :
    Dialled egress (attempt.dst :: rest) [attempt] (.ok ()) where
  order := by simp
  untilSuccess := by simp
  success := by simp [hok]
  exhausted h := absurd rfl h
  lastError last e hlast herror := by
    obtain rfl : attempt = last := by simpa using hlast
    rw [hok] at herror
    exact absurd herror (by simp)

theorem Dialled.of_none {egress : TunEgress} {e : DialError} :
    Dialled egress [] [] (.error e) :=
  ⟨by simp, by simp, by simp, by simp, by simp⟩

theorem Dialled.of_failure {egress : TunEgress} {attempt : Attempt} {e : SocketError}
    {would : List SocketAddr} {more : List Attempt} {r : Except DialError Unit}
    (hfailed : attempt.outcome = .error e) (hmore : Dialled egress would more r)
    (hnone : more = [] →
      r = .error (dialError (attemptError egress attempt.source attempt.dst e))) :
    Dialled egress (attempt.dst :: would) (attempt :: more) r := by
  cases more with
  | nil =>
    have hr := hnone rfl
    refine ⟨by simp, by simp, by simp [hr, hfailed], fun hne => ?_, fun last e' hlast he' => ?_⟩
    · have hwould : [] = would := hmore.exhausted hne
      rw [← hwould]
      rfl
    · obtain rfl : attempt = last := by simpa using hlast
      rw [hfailed] at he'
      injection he' with he'
      rw [hr, he']
  | cons second tail =>
    refine ⟨?_, ?_, by simpa using hmore.success, fun hne => ?_, fun last e' hlast he' => ?_⟩
    · rw [List.map_cons, List.cons_prefix_cons]
      exact ⟨rfl, hmore.order⟩
    · intro other hother
      rw [List.dropLast_cons_cons, List.mem_cons] at hother
      rcases hother with rfl | hother
      · rw [hfailed]
        simp
      · exact hmore.untilSuccess other hother
    · rw [List.map_cons, hmore.exhausted hne]
    · exact hmore.lastError last e' (by simpa using hlast) he'

theorem tryCandidates_dialled (hport : port ≠ 0) (addrs : List IpAddr)
    (hqualify : ∀ addr ∈ addrs, qualifies dialer addr = true) :
    ∀ (last : DialError) (s : Trace), Safe (onCurrent answers) (fun _ => True)
      (fun r t => ∃ more, t.attempts = s.attempts ++ more ∧
        Dialled dialer.egress (addrs.map fun addr => ⟨canonicalIp addr, port⟩) more r ∧
        (more = [] → r = .error last))
      (dialer.tryCandidates last (addrs.map (⟨·, port⟩))) s := by
  induction addrs with
  | nil =>
    intro last s
    exact ⟨trivial, [], by simp, Dialled.of_none, fun _ => rfl⟩
  | cons addr rest ih =>
    intro last s
    refine Safe.bind ?_ (egressTcp_tried hport addr s)
    intro r t _ htried
    rw [Tried, if_pos (hqualify addr (by simp))] at htried
    obtain ⟨source, outcome, hattempts, rfl⟩ := htried
    cases outcome with
    | ok _ =>
      rw [List.map_cons]
      exact ⟨trivial, _, hattempts,
        @Dialled.of_success _ ⟨source, ⟨canonicalIp addr, port⟩, .ok ()⟩ _ rfl, by simp⟩
    | error e =>
      refine (ih (fun a ha => hqualify a (by simp [ha])) _ t).mono (fun _ h => h) ?_
      rintro r u _ ⟨more, hmore, hdialled, hlast⟩
      refine ⟨⟨source, ⟨canonicalIp addr, port⟩, .error e⟩ :: more, ?_,
        @Dialled.of_failure _ ⟨source, ⟨canonicalIp addr, port⟩, .error e⟩ _ _ _ _ rfl
          hdialled hlast, by simp⟩
      rw [hmore, hattempts, List.append_assoc]
      rfl

theorem screen_eq (policy : DestinationPolicy) (addrs : List IpAddr) :
    ∀ (kept : List IpAddr) (denied : Nat), addrs.foldl
      (fun (kept, denied) addr =>
        match checkDestination addr policy with
        | .ok () => (kept ++ [addr], denied)
        | .error _ => (kept, denied + 1)) (kept, denied) =
      (kept ++ addrs.filter (fun addr => (checkDestination addr policy).isOk),
        denied + addrs.countP (fun addr => !(checkDestination addr policy).isOk)) := by
  induction addrs with
  | nil => simp
  | cons addr rest ih =>
    intro kept denied
    cases hcheck : checkDestination addr policy with
    | ok u =>
      simp [hcheck, ih, Except.isOk, Except.toBool]
    | error e =>
      simp [hcheck, ih, Except.isOk, Except.toBool]
      omega

theorem acceptAnswers_eq (hpolicy : dialer.resolver.policy = dialer.egress.policy)
    (hv6 : dialer.resolver.tunnelHasV6 = dialer.egress.ipv6.isSome) (answers : List IpAddr) :
    (dialer.resolver.acceptAnswers answers).mapError resolveError =
      if (answers.filter (qualifies dialer)).isEmpty then .error (refusal dialer answers)
      else .ok (answers.filter (qualifies dialer)) := by
  have hkept : (answers.filter fun addr => dialer.resolver.tunnelHasV6 ||
        !(canonicalIp addr).isIpv6).filter
          (fun addr => (checkDestination addr dialer.resolver.policy).isOk) =
      answers.filter (qualifies dialer) := by
    rw [List.filter_filter, hpolicy, hv6]
    exact List.filter_congr fun addr _ => Bool.and_comm _ _
  have hdenied : (answers.filter fun addr => dialer.resolver.tunnelHasV6 ||
        !(canonicalIp addr).isIpv6).countP
          (fun addr => !(checkDestination addr dialer.resolver.policy).isOk) =
      answers.countP fun addr => carries dialer addr && !allows dialer addr := by
    rw [List.countP_filter, hpolicy, hv6]
    exact List.countP_congr fun addr _ => by rw [Bool.and_comm]; rfl
  unfold PinnedResolver.acceptAnswers refusal
  rw [screen_eq]
  simp only [List.nil_append, Nat.zero_add, hkept, hdenied]
  by_cases hempty : (answers.filter (qualifies dialer)).isEmpty = true
  · rw [if_pos hempty, if_pos hempty]
    cases hcount : answers.countP (fun addr => carries dialer addr && !allows dialer addr) with
    | zero =>
      rw [if_neg]
      · rfl
      · rw [List.any_eq_true]
        rintro ⟨addr, hmem, hden⟩
        exact List.countP_eq_zero.mp hcount addr hmem hden
    | succ n =>
      rw [if_pos]
      · rfl
      · rw [List.any_eq_true]
        exact List.countP_pos_iff.mp (by omega)
  · rw [if_neg hempty, if_neg hempty]
    rfl

theorem resolve_safe {host : List Char} (hname : parseIpAddr host = none)
    (hlength : host ≠ [] ∧ Text.byteLen host ≤ maxNameLen) (hvalid : validName host = true)
    (hservers : dialer.resolver.nameservers ≠ []) (s : Trace) :
    Safe (onCurrent answers) (fun _ => True)
      (fun r t => t = s ∧ r = dialer.resolver.acceptAnswers answers)
      (dialer.resolver.resolve validName host) s := by
  have hparse : PinnedResolver.parseName validName host = .ok host := by
    simp [PinnedResolver.parseName, hlength, hvalid]
  simp only [PinnedResolver.resolve, hname, hparse, List.isEmpty_iff, hservers, ↓reduceIte]
  refine ⟨trivial, fun current t hanswer => ?_⟩
  obtain ⟨rfl, rfl⟩ := hanswer
  refine ⟨trivial, fun outcome u hanswer => ?_⟩
  obtain ⟨rfl, rfl⟩ := hanswer
  exact ⟨trivial, rfl, rfl⟩

theorem domain_dialled {host : List Char} (hpolicy : dialer.resolver.policy = dialer.egress.policy)
    (hv6 : dialer.resolver.tunnelHasV6 = dialer.egress.ipv6.isSome) (hport : port ≠ 0)
    (hname : parseIpAddr host = none)
    (hlength : host ≠ [] ∧ Text.byteLen host ≤ maxNameLen) (hvalid : validName host = true)
    (hservers : dialer.resolver.nameservers ≠ []) :
    Safe (onCurrent answers) (fun _ => True)
      (fun r t =>
        Dialled dialer.egress
          ((answers.filter (qualifies dialer)).map fun addr => ⟨canonicalIp addr, port⟩)
          t.attempts r ∧
        (answers.filter (qualifies dialer) = [] →
          t.attempts = [] ∧ r = .error (refusal dialer answers)))
      (dialer.tcp validName (.domain host port)) {} := by
  have hcandidates : Safe (onCurrent answers) (fun _ => True)
      (fun r t => t = {} ∧
        r = (dialer.resolver.acceptAnswers answers).map fun addrs => addrs.map (⟨·, port⟩))
      (dialer.resolver.resolveSocketAddrs validName host port) {} := by
    refine Safe.bind ?_ (resolve_safe hname hlength hvalid hservers {})
    rintro r t _ ⟨rfl, rfl⟩
    exact ⟨trivial, rfl, rfl⟩
  refine Safe.bind ?_ hcandidates
  rintro r t _ ⟨rfl, rfl⟩
  have haccepted := acceptAnswers_eq hpolicy hv6 answers
  cases haccept : dialer.resolver.acceptAnswers answers with
  | error e =>
    rw [haccept] at haccepted
    by_cases hempty : (answers.filter (qualifies dialer)).isEmpty = true
    · rw [if_pos hempty] at haccepted
      injection haccepted with he
      rw [List.isEmpty_iff.mp hempty, ← he]
      exact ⟨trivial, Dialled.of_none, fun _ => ⟨rfl, rfl⟩⟩
    · rw [if_neg hempty] at haccepted
      exact absurd haccepted (by simp [Except.mapError])
  | ok addrs =>
    rw [haccept] at haccepted
    by_cases hempty : (answers.filter (qualifies dialer)).isEmpty = true
    · rw [if_pos hempty] at haccepted
      exact absurd haccepted (by simp [Except.mapError])
    · rw [if_neg hempty] at haccepted
      injection haccepted with haddrs
      have hqualify : ∀ addr ∈ addrs, qualifies dialer addr = true := by
        intro addr hmem
        rw [haddrs] at hmem
        exact (List.mem_filter.mp hmem).2
      refine (tryCandidates_dialled hport addrs hqualify _ {}).mono (fun _ h => h) ?_
      rintro r t _ ⟨more, hmore, hdialled, _⟩
      have hattempts : t.attempts = more := by simpa using hmore
      rw [hattempts, ← haddrs]
      refine ⟨hdialled, fun hnone => absurd hnone ?_⟩
      rw [haddrs]
      simpa using hempty

/-- **Dialing a name is dialing its addresses.** -/
theorem dial_name {host : List Char} (connects : Connects)
    (hpolicy : dialer.resolver.policy = dialer.egress.policy)
    (hv6 : dialer.resolver.tunnelHasV6 = dialer.egress.ipv6.isSome) (hport : port ≠ 0)
    (hname : parseIpAddr host = none)
    (hlength : host ≠ [] ∧ Text.byteLen host ≤ maxNameLen) (hvalid : validName host = true)
    (hservers : dialer.resolver.nameservers ≠ []) :
    let would := answers.flatMap (ipAttempts validName dialer answers connects port)
    let (r, t) := dialled validName dialer answers connects (.domain host port)
    Dialled dialer.egress would t.attempts r ∧
      (would = [] → t.attempts = [] ∧ r = .error (refusal dialer answers)) := by
  have hwould : answers.flatMap (ipAttempts validName dialer answers connects port) =
      (answers.filter (qualifies dialer)).map fun addr => ⟨canonicalIp addr, port⟩ :=
    flatMap_ipAttempts connects hport answers
  have hrun := (domain_dialled hpolicy hv6 hport hname hlength hvalid hservers).post_of_reaches
    (exec_reaches (replies_onCurrent answers connects) _ _)
  intro would
  rw [show would = _ from hwould, List.map_eq_nil_iff]
  exact hrun

end

def exampleEgress : TunEgress where
  device := "tun0"
  ifindex := 7
  ipv4 := ⟨10, 8, 0, 2⟩
  ipv6 := none
  mtu := 1500
  policy := {}
  generation := 1
  ifindex_ne := by decide

def exampleDialer : TunnelDialer where
  egress := exampleEgress
  resolver :=
    { egress := exampleEgress, nameservers := [.v4 ⟨10, 8, 0, 1⟩], source := .pushed,
      tunnelHasV6 := false, policy := {} }

/-- A loopback answer is passed over, a refused connect goes on to the next answer. -/
theorem dial_name_second_answer :
    let answers : List IpAddr := [.v4 ⟨127, 0, 0, 1⟩, .v4 ⟨192, 0, 2, 1⟩, .v4 ⟨192, 0, 2, 2⟩]
    let connects : Connects := fun s _ _ =>
      if s.attempts.isEmpty then .error (.connect (some eConnRefused)) else .ok ()
    let would := answers.flatMap (ipAttempts (fun _ => true) exampleDialer answers connects 443)
    let (r, t) := dialled (fun _ => true) exampleDialer answers connects
      (.domain "example.com".toList 443)
    r = .ok () ∧ t.attempts.map (·.dst) = would ∧
      would = [⟨.v4 ⟨192, 0, 2, 1⟩, 443⟩, ⟨.v4 ⟨192, 0, 2, 2⟩, 443⟩] ∧
      Dialled exampleDialer.egress would t.attempts r := by
  intro answers connects would
  refine ⟨rfl, rfl, rfl, ?_⟩
  exact (dial_name connects rfl rfl (by decide) (by decide) (by decide) rfl (by decide)).1

end ThisConnect.Proxy.Dialer
