/-
  ThisConnect.Proxy.Replies
  **A SOCKS5 REQUEST AND ITS ANSWER, WHATEVER THE PACKETS.**

  Main results:
    • `negotiate_round_trip` — a request that was encoded is decoded to its
      target, and what the client sent after it is what is left,
    • `handshake_answered_iff` — a request gets exactly one reply, exactly if
      its address type is a defined one.  For any other type the negotiation
      ends in `malformed`, which has no reply code, and nothing is written.
-/
import Mathlib.Tactic.IntervalCases
import ThisConnect.Base.Ascii
import ThisConnect.Proxy.Budget
import ThisConnect.Proxy.Requests
import ThisConnect.Proxy.Listener

namespace ThisConnect.Proxy.Socks5

open Net Codec

variable {config : Socks5Config} {port : UInt16} {e : Socks5Error} {peer : IpAddr}

section Phases

variable {dialer : Target → Except DialError Unit} {c c' : Conn}

/-! ## §1. Greeting and credentials. -/

variable {rest methods field host tail raw : List UInt8} {len high low atyp command : UInt8}
  {r : Except Socks5Error Target} {ip : IpAddr} {s u : Script}

theorem gives_readExact (dialer : Target → Except DialError Unit) {c : Conn} (n : Nat)
    {bytes : List UInt8} (hn : bytes.length = n) (hunread : c.unread = bytes ++ rest) :
    ∃ v : Vector UInt8 n, v.toList = bytes ∧
      Gives dialer (readExact n) c (.ok v) { c with unread := rest } :=
  Gives.readExact bytes rest hunread hn

theorem gives_greet (config : Socks5Config) {n : UInt8} (hn : n.toNat = methods.length)
    (hoffered : config.offeredMethod ∈ methods)
    (hunread : c.unread = [verSocks5, n] ++ (methods ++ rest)) :
    Gives dialer (greet config) c (.ok ())
      { c with unread := rest, sent := c.sent ++ [verSocks5, config.offeredMethod] } := by
  obtain ⟨head, hhead, hread⟩ := gives_readExact dialer 2 rfl hunread
  obtain ⟨hversion, hcount⟩ := octets_two hhead
  have hne : head[1].toNat ≠ 0 := by
    rw [hcount, hn]
    exact (List.length_pos_of_mem hoffered).ne'
  refine hread.bind ?_
  rw [if_neg (by simp [hversion])]
  dsimp only
  rw [if_neg hne]
  obtain ⟨offered, hmethods, hread⟩ := gives_readExact (c := { c with unread := methods ++ rest })
    dialer head[1].toNat (by rw [hcount, hn]) rfl
  refine hread.bind ?_
  rw [if_neg (by simpa [hmethods] using hoffered)]
  exact Gives.send _ _

theorem gives_readLengthPrefixed (hlen : len.toNat = field.length)
    (hunread : c.unread = len :: field ++ rest) :
    Gives dialer readLengthPrefixed c (.ok field) { c with unread := rest } := by
  obtain ⟨read, hread, hgives⟩ := @gives_readExact (field ++ rest) dialer c 1 [len] rfl hunread
  rw [toList_one] at hread
  injection hread with hread
  refine hgives.bind ?_
  rw [hread]
  split
  · next hzero =>
    rw [hlen, List.length_eq_zero_iff] at hzero
    subst hzero
    exact Gives.pure _
  · obtain ⟨buf, rfl, hgives⟩ := gives_readExact (c := { c with unread := field ++ rest })
      dialer len.toNat hlen.symm rfl
    exact hgives.bind (Gives.pure _)

/-- What `authenticate` makes of a pair. -/
def authVerdict (credentials : Credentials) (limiter : AuthRateLimiter) (a : Attempt) :
    Except Socks5Error Unit :=
  if !limiter.hasCapacityAt a.peer a.now then .error .authRateLimited
  else if credentials.verify a.username a.password then .ok ()
  else .error .authFailed

/-- The second byte of the answer. -/
def authStatus (verdict : Except Socks5Error Unit) : UInt8 :=
  match verdict with
  | .ok _ => authOk
  | .error _ => authDenied

theorem gives_authenticate (peer : IpAddr) (credentials : Credentials) {ulen plen : UInt8}
    {username password : List UInt8} (hulen : ulen.toNat = username.length)
    (hplen : plen.toNat = password.length)
    (hunread : c.unread = [verUserpass] ++ (ulen :: username ++ (plen :: password ++ rest))) :
    Gives dialer (authenticate peer credentials) c
      (authVerdict credentials c.limiter ⟨peer, c.now, username, password⟩)
      { c with
        unread := rest
        sent := c.sent ++ [verUserpass,
          authStatus (authVerdict credentials c.limiter ⟨peer, c.now, username, password⟩)]
        limiter := (attempt credentials c.limiter ⟨peer, c.now, username, password⟩).1
        events := c.events ++ [.checked peer c.limiter c.now] } := by
  obtain ⟨version, hversion, hread⟩ := gives_readExact dialer 1 rfl hunread
  rw [toList_one] at hversion
  injection hversion with hversion
  refine hread.bind ?_
  rw [if_neg (by simp [hversion])]
  refine (gives_readLengthPrefixed hulen rfl).bind ?_
  refine (gives_readLengthPrefixed hplen rfl).bind ?_
  refine (Gives.hasCapacity peer).bind ?_
  dsimp only
  unfold attempt authVerdict
  dsimp only
  split
  · exact (Gives.send _ _).bind (Gives.throw _)
  · split
    · exact Gives.send _ _
    · exact (Gives.recordFailure peer).bind ((Gives.send _ _).bind (Gives.throw _))

/-! ## §2. Requests. -/

theorem gives_readPort (hunread : c.unread = [high, low] ++ rest) :
    Gives dialer readPort c (.ok (fromBeBytes high low)) { c with unread := rest } := by
  obtain ⟨port, hport, hread⟩ := gives_readExact dialer 2 rfl hunread
  obtain ⟨hhigh, hlow⟩ := octets_two hport
  refine hread.bind ?_
  rw [hhigh, hlow]
  exact Gives.pure _

theorem gives_readTarget_v4 (config : Socks5Config) (ip : Ipv4Addr)
    (hunread : c.unread = ip.octets ++ ([high, low] ++ rest)) :
    Gives dialer (readTarget atypV4 config) c
      (finishIpTarget (.v4 ip) (fromBeBytes high low) config) { c with unread := rest } := by
  obtain ⟨o, ho, hread⟩ := gives_readExact dialer 4 rfl hunread
  have hip : Ipv4Addr.mk o[0] o[1] o[2] o[3] = ip := by
    obtain ⟨h0, h1, h2, h3⟩ := octets_four ho
    rw [h0, h1, h2, h3]
  rw [readTarget, if_pos rfl]
  refine hread.bind ((gives_readPort rfl).bind ?_)
  rw [hip]
  exact Gives.ofExcept _

theorem gives_readTarget_v6 (config : Socks5Config) {octets : List UInt8}
    (hlength : octets.length = 16) (hunread : c.unread = octets ++ ([high, low] ++ rest)) :
    ∃ ip : Ipv6Addr, ip.octets = octets ∧ Gives dialer (readTarget atypV6 config) c
      (finishIpTarget (.v6 ip) (fromBeBytes high low) config) { c with unread := rest } := by
  obtain ⟨o, ho, hread⟩ := gives_readExact dialer 16 hlength hunread
  refine ⟨⟨[fromBeBytes o[0] o[1], fromBeBytes o[2] o[3], fromBeBytes o[4] o[5],
    fromBeBytes o[6] o[7], fromBeBytes o[8] o[9], fromBeBytes o[10] o[11],
    fromBeBytes o[12] o[13], fromBeBytes o[14] o[15]], rfl⟩, ?_, ?_⟩
  · have hsegment : ∀ high low, segmentOctets (fromBeBytes high low) = [high, low] :=
      fun high low => by
        rw [segmentOctets, (octets_fromBeBytes high low).1, (octets_fromBeBytes high low).2]
    rw [← ho, toList_sixteen]
    simp [Ipv6Addr.octets, hsegment]
  · rw [readTarget, if_neg (by decide), if_pos rfl]
    refine hread.bind ((gives_readPort rfl).bind ?_)
    exact Gives.ofExcept _

theorem gives_readTarget_domain (config : Socks5Config) (hlen : len.toNat = host.length)
    (hunread : c.unread = len :: host ++ ([high, low] ++ rest)) :
    Gives dialer (readTarget atypDomain config) c
      (domainTarget host (fromBeBytes high low) config) { c with unread := rest } := by
  rw [readTarget, if_neg (by decide), if_neg (by decide), if_pos rfl]
  refine (gives_readLengthPrefixed hlen hunread).bind ((gives_readPort rfl).bind ?_)
  exact Gives.ofExcept _

def judged (command : UInt8) (target : Except Socks5Error Target) : Except Socks5Error Target :=
  target.bind fun target =>
    if command ≠ cmdConnect then .error (.commandNotSupported command) else .ok target

theorem gives_readRequest (config : Socks5Config)
    (hunread : c.unread = [verSocks5, command, 0, atyp] ++ tail)
    (htarget : Gives dialer (readTarget atyp config) { c with unread := tail } r c') :
    Gives dialer (readRequest config) c (judged command r) c' := by
  obtain ⟨head, hhead, hread⟩ := gives_readExact dialer 4 rfl hunread
  obtain ⟨hversion, hcommand, hreserved, hatyp⟩ := octets_four hhead
  refine hread.bind ?_
  rw [if_neg (by simp [hversion]), if_neg (by simp [hreserved]), hatyp, hcommand]
  cases r with
  | error e => exact htarget.error
  | ok target =>
    refine htarget.bind ?_
    unfold judged
    dsimp only [Except.bind]
    split
    · exact Gives.throw _
    · exact Gives.pure _

/-! ## §3. Round trip. -/

inductive Destination where
  | v4 (ip : Ipv4Addr)
  | v6 (ip : Ipv6Addr)
  | name (host : List UInt8)

namespace Destination

/-- The address type and the address. -/
def encoded : Destination → UInt8 × List UInt8
  | .v4 ip => (atypV4, ip.octets)
  | .v6 ip => (atypV6, ip.octets)
  | .name host => (atypDomain, UInt8.ofNat host.length :: host)

def target (port : UInt16) : Destination → Target
  | .v4 ip => .ip ⟨.v4 ip, port⟩
  | .v6 ip => .ip ⟨.v6 ip, port⟩
  | .name host =>
    match parseIpAddr (chars host) with
    | some ip => .ip ⟨ip, port⟩
    | none => .domain (chars host) port

/-- An IPv6 address needs a tunnel with v6; a name is printable ASCII of 1 to 255 bytes. -/
def Admissible (config : Socks5Config) : Destination → Prop
  | .v4 _ => True
  | .v6 _ => config.tunnelHasV6 = true
  | .name host => host ≠ [] ∧ host.length ≤ 255 ∧ (∀ b ∈ host, 0x21 ≤ b ∧ b ≤ 0x7e) ∧
      ∀ ip, parseIpAddr (chars host) = some ip → ip.isIpv6 = true → config.tunnelHasV6 = true

end Destination

theorem finishIpTarget_ok (hfamily : ip.isIpv6 = true → config.tunnelHasV6 = true)
    (hport : port ≠ 0) : finishIpTarget ip port config = .ok (.ip ⟨ip, port⟩) := by
  have hcarried : (ip.isIpv6 && !config.tunnelHasV6) = false := by
    cases hv6 : ip.isIpv6 with
    | false => rfl
    | true => simp [hfamily hv6]
  rw [finishIpTarget, hcarried, if_neg (by decide), if_neg hport]

theorem domainTarget_ok (h : (Destination.name host).Admissible config) (hport : port ≠ 0) :
    domainTarget host port config = .ok ((Destination.name host).target port) := by
  obtain ⟨hne, hlength, hprintable, hfamily⟩ := h
  rw [domainTarget, Http.validateHostname_printable hprintable (by omega) hne]
  dsimp only [Except.bind, Destination.target]
  cases hliteral : parseIpAddr (chars host) with
  | none => exact if_neg hport
  | some ip => exact finishIpTarget_ok (hfamily ip hliteral) hport

theorem gives_readTarget (config : Socks5Config) {dest : Destination}
    (hdest : dest.Admissible config) (hport : port ≠ 0)
    (hunread : c.unread = dest.encoded.2 ++ (segmentOctets port ++ rest)) :
    Gives dialer (readTarget dest.encoded.1 config) c (.ok (dest.target port))
      { c with unread := rest } := by
  cases dest with
  | v4 ip =>
    have hgives := @gives_readTarget_v4 dialer c rest _ _ config ip hunread
    rw [fromBeBytes_segment, finishIpTarget_ok (fun h => by cases h) hport] at hgives
    exact hgives
  | v6 ip =>
    obtain ⟨ip', hoctets, hgives⟩ := @gives_readTarget_v6 dialer c rest _ _ config ip.octets
      (length_octets_v6 ip) hunread
    rw [octets_inj hoctets, fromBeBytes_segment,
      finishIpTarget_ok (fun _ => hdest) hport] at hgives
    exact hgives
  | name host =>
    have hlen : (UInt8.ofNat host.length).toNat = host.length := by
      rw [UInt8.toNat_ofNat', Nat.mod_eq_of_lt]
      have hlength := hdest.2.1
      omega
    have hgives := @gives_readTarget_domain dialer c rest host _ _ _ config hlen hunread
    rw [fromBeBytes_segment, domainTarget_ok hdest hport] at hgives
    exact hgives

/-- Everything before the request. -/
def approach (peer : IpAddr) (config : Socks5Config) : Session Socks5Error Unit := do
  greet config
  match config.auth with
  | .required credentials => authenticate peer credentials
  | .disabled => pure ()

def answerRequest (config : Socks5Config) : Session Socks5Error Target :=
  tryCatch (readRequest config) fun err => do
    (match err.replyCode with
      | some rep => writeReply rep
      | none => pure ())
    throw err

/-- A reply without an address. -/
def replyBytes (code : UInt8) : List UInt8 := [verSocks5, code, 0x00, atypV4, 0, 0, 0, 0, 0, 0]

theorem gives_answerRequest_ok {target : Target}
    (h : Gives dialer (readRequest config) c (.ok target) c') :
    Gives dialer (answerRequest config) c (.ok target) c' :=
  Gives.tryCatch_ok h

theorem gives_answerRequest_explained {code : UInt8} (hcode : e.replyCode = some code)
    (h : Gives dialer (readRequest config) c (.error e) c') :
    Gives dialer (answerRequest config) c (.error e)
      { c' with sent := c'.sent ++ replyBytes code } := by
  refine Gives.tryCatch_error h ?_
  rw [hcode]
  exact (Gives.send _ _).bind (Gives.throw _)

theorem gives_answerRequest_silent (hcode : e.replyCode = none)
    (h : Gives dialer (readRequest config) c (.error e) c') :
    Gives dialer (answerRequest config) c (.error e) c' := by
  refine Gives.tryCatch_error h ?_
  rw [hcode]
  exact (Gives.pure _).bind (Gives.throw _)

theorem run_negotiate {t : Script} (h : run dialer (approach peer config) s = (.ok (), t)) :
    run dialer (negotiate peer config) s = run dialer (answerRequest config) t := by
  obtain ⟨_, u, hgreet, hauth⟩ := run_bind_eq_ok dialer h
  rw [negotiate, run_bind_ok dialer hgreet]
  exact run_bind_ok dialer hauth

def credentialBytes : AuthPolicy → List UInt8
  | .disabled => []
  | .required credentials =>
    [verUserpass] ++ (UInt8.ofNat credentials.username.length :: credentials.username ++
      (UInt8.ofNat credentials.password.length :: credentials.password))

/-- The configured pair fits its length bytes, and the limiter has capacity for the peer. -/
def Passable (auth : AuthPolicy) (peer : IpAddr) (limiter : AuthRateLimiter)
    (now : Instant) : Prop :=
  ∀ credentials, auth = .required credentials → credentials.username.length ≤ 255 ∧
    credentials.password.length ≤ 255 ∧ limiter.hasCapacityAt peer now = true

theorem toNat_ofNat_length (h : field.length ≤ 255) :
    (UInt8.ofNat field.length).toNat = field.length := by
  rw [UInt8.toNat_ofNat', Nat.mod_eq_of_lt (by omega)]

theorem gives_approach (peer : IpAddr) {config : Socks5Config} (hmethods : methods.length ≤ 255)
    (hoffered : config.offeredMethod ∈ methods) (hauth : Passable config.auth peer c.limiter c.now)
    (hunread : c.unread = [verSocks5, UInt8.ofNat methods.length] ++
      (methods ++ (credentialBytes config.auth ++ rest))) :
    ∃ c', Gives dialer (approach peer config) c (.ok ()) c' ∧ c'.unread = rest := by
  have hgreet := @gives_greet dialer c _ methods config _ (toNat_ofNat_length hmethods) hoffered
    hunread
  unfold approach
  cases hpolicy : config.auth with
  | disabled =>
    rw [hpolicy] at hgreet
    exact ⟨_, hgreet.bind (Gives.pure ()), rfl⟩
  | required credentials =>
    obtain ⟨husername, hpassword, hcapacity⟩ := hauth credentials hpolicy
    rw [hpolicy] at hgreet
    have hpass := @gives_authenticate dialer
      { c with
        unread := credentialBytes (.required credentials) ++ rest
        sent := c.sent ++ [verSocks5, config.offeredMethod] } rest peer credentials _ _ _ _
      (toNat_ofNat_length husername) (toNat_ofNat_length hpassword)
      (by simp [credentialBytes])
    have hverdict : authVerdict credentials c.limiter
        ⟨peer, c.now, credentials.username, credentials.password⟩ = .ok () := by
      simp [authVerdict, hcapacity, Credentials.verify]
    rw [hverdict] at hpass
    exact ⟨_, hgreet.bind hpass, rfl⟩

/-- **A request that was encoded is decoded to its target**, and what the client sent after it is
    what the relay reads next, however the bytes are cut. -/
theorem negotiate_round_trip (dialer : Target → Except DialError Unit) (peer : IpAddr)
    (config : Socks5Config) {methods payload : List UInt8} {dest : Destination} {port : UInt16}
    {s : Script} (hmethods : methods.length ≤ 255) (hoffered : config.offeredMethod ∈ methods)
    (hauth : Passable config.auth peer s.limiter s.now)
    (hdest : dest.Admissible config) (hport : port ≠ 0)
    (hreads : s.reads.flatten = [verSocks5, UInt8.ofNat methods.length] ++ (methods ++
      (credentialBytes config.auth ++ ([verSocks5, cmdConnect, 0, dest.encoded.1] ++
        (dest.encoded.2 ++ (segmentOctets port ++ payload)))))) :
    (run dialer (negotiate peer config) s).1 = .ok (dest.target port) ∧
      (run dialer (negotiate peer config) s).2.reads.flatten = payload := by
  obtain ⟨c', happroach, hunread⟩ := @gives_approach dialer s.conn _ methods peer config hmethods
    hoffered hauth hreads
  obtain ⟨hok, hconn⟩ := happroach s rfl
  have hrequest : Gives dialer (answerRequest config) c' (.ok (dest.target port))
      { c' with unread := payload } :=
    gives_answerRequest_ok
      (gives_readRequest config hunread (gives_readTarget config hdest hport rfl))
  obtain ⟨htarget, hleft⟩ := hrequest _ hconn
  rw [run_negotiate (Prod.ext hok rfl)]
  exact ⟨htarget, congrArg Conn.unread hleft⟩

/-! ## §4. Replies. -/

/-- The address and the port are there, if the address type is a defined one. -/
structure Complete (atyp : UInt8) (tail : List UInt8) : Prop where
  v4 : atyp = atypV4 → 6 ≤ tail.length
  v6 : atyp = atypV6 → 18 ≤ tail.length
  name : atyp = atypDomain → ∃ len rest, tail = len :: rest ∧ len.toNat + 2 ≤ rest.length

/-- **Between the two one reply was written**: an error without a dial, or the outcome of the one
    dial that was made. -/
def Answered (dialer : Target → Except DialError Unit) (before after : Script) : Prop :=
  ∃ code, after.sent = before.sent ++ replyBytes code ∧
    (code ≠ repSuccess ∧ after.events = before.events ∨
      ∃ target, after.events = before.events ++ [.dialled target] ∧
        (code = repSuccess ↔ dialer target = .ok ()))

theorem split_port {n : Nat} (h : n + 2 ≤ tail.length) :
    ∃ field high low rest, tail = field ++ ([high, low] ++ rest) ∧ field.length = n := by
  have hdrop : 2 ≤ (tail.drop n).length := by
    rw [List.length_drop]
    omega
  match hrest : tail.drop n with
  | [] =>
    rw [hrest] at hdrop
    cases hdrop
  | [_] =>
    rw [hrest] at hdrop
    exact absurd hdrop (by simp)
  | high :: low :: rest =>
    refine ⟨tail.take n, high, low, rest, ?_, List.length_take_of_le (by omega)⟩
    have hsplit := List.take_append_drop n tail
    rw [hrest] at hsplit
    exact hsplit.symm

def Explained (e : Socks5Error) : Prop := ∃ code, e.replyCode = some code ∧ code ≠ repSuccess

theorem explained_invalidDestination (what : String) : Explained (.invalidDestination what) :=
  ⟨repGeneralFailure, rfl, by decide⟩

theorem explained_finishIpTarget (h : finishIpTarget ip port config = .error e) :
    Explained e := by
  unfold finishIpTarget at h
  split at h
  · cases h
    exact ⟨repAddressTypeNotSupported, rfl, by decide⟩
  · split at h
    · cases h
      exact explained_invalidDestination _
    · cases h

theorem explained_validateHostname (h : validateHostname raw = .error e) :
    Explained e := by
  unfold validateHostname at h
  split at h
  · cases h
    exact explained_invalidDestination _
  · split at h
    · cases h
      exact explained_invalidDestination _
    · split at h
      · cases h
        exact explained_invalidDestination _
      · split at h
        · cases h
          exact explained_invalidDestination _
        · split at h
          · cases h
          · cases h
            exact explained_invalidDestination _

theorem explained_domainTarget (h : domainTarget raw port config = .error e) :
    Explained e := by
  unfold domainTarget at h
  cases hhost : validateHostname raw with
  | error e' =>
    rw [hhost] at h
    cases h
    exact explained_validateHostname hhost
  | ok host =>
    rw [hhost] at h
    dsimp only [Except.bind] at h
    split at h
    · exact explained_finishIpTarget h
    · split at h
      · cases h
        exact explained_invalidDestination _
      · cases h

theorem explained_judged (hr : ∀ e, r = .error e → Explained e) (h : judged command r = .error e) :
    Explained e := by
  cases r with
  | error e' =>
    cases h
    exact hr _ rfl
  | ok target =>
    unfold judged at h
    dsimp only [Except.bind] at h
    split at h
    · cases h
      exact ⟨repCommandNotSupported, rfl, by decide⟩
    · cases h

theorem gives_readTarget_defined (config : Socks5Config)
    (hdefined : atyp ∈ [atypV4, atypDomain, atypV6]) (hcomplete : Complete atyp tail)
    (hunread : c.unread = tail) : ∃ r rest,
      Gives dialer (readTarget atyp config) c r { c with unread := rest } ∧
        ∀ e, r = .error e → Explained e := by
  simp only [List.mem_cons, List.not_mem_nil, or_false] at hdefined
  rcases hdefined with rfl | rfl | rfl
  · obtain ⟨octets, high, low, rest, rfl, hlength⟩ := split_port (n := 4) (hcomplete.v4 rfl)
    obtain ⟨x, y, z, w, rfl⟩ : ∃ x y z w, octets = [x, y, z, w] := by
      rcases octets with _ | ⟨x, _ | ⟨y, _ | ⟨z, _ | ⟨w, _ | _⟩⟩⟩⟩ <;> simp_all
    exact ⟨_, rest, gives_readTarget_v4 config ⟨x, y, z, w⟩ hunread,
      fun e he => explained_finishIpTarget he⟩
  · obtain ⟨len, rest, rfl, hlength⟩ := hcomplete.name rfl
    obtain ⟨host, high, low, rest, rfl, hhost⟩ := split_port hlength
    exact ⟨_, rest, gives_readTarget_domain config hhost.symm hunread,
      fun e he => explained_domainTarget he⟩
  · obtain ⟨octets, high, low, rest, rfl, hlength⟩ := split_port (n := 16) (hcomplete.v6 rfl)
    obtain ⟨ip, -, hgives⟩ := @gives_readTarget_v6 dialer c rest _ _ config _ hlength hunread
    exact ⟨_, rest, hgives, fun e he => explained_finishIpTarget he⟩

theorem gives_readTarget_undefined (config : Socks5Config)
    (hundefined : atyp ∉ [atypV4, atypDomain, atypV6]) :
    Gives dialer (readTarget atyp config) c (.error (.malformed "unknown address type")) c := by
  simp only [List.mem_cons, List.not_mem_nil, or_false, not_or] at hundefined
  rw [readTarget, if_neg hundefined.1, if_neg hundefined.2.2, if_neg hundefined.2.1]
  exact Gives.throw _

theorem run_handshake_error (h : run dialer (negotiate peer config) s = (.error e, u)) :
    run dialer (handshake peer config) s = (.error e, u) := by
  refine run_bind_error dialer ?_
  rw [run_deadline, h]
  rfl

/-- The reply to the outcome of a dial. -/
def dialReply : Except DialError Unit → UInt8
  | .ok _ => repSuccess
  | .error err => dialReplyCode err

theorem dialReply_eq_success_iff (r : Except DialError Unit) :
    dialReply r = repSuccess ↔ r = .ok () := by
  cases r with
  | ok _ => exact ⟨fun _ => rfl, fun _ => rfl⟩
  | error err => cases err <;> exact ⟨fun h => absurd h (by decide), fun h => by cases h⟩

theorem run_handshake_ok {target : Target}
    (h : run dialer (negotiate peer config) s = (.ok target, u)) :
    (run dialer (handshake peer config) s).2.conn =
      { u.conn with
        sent := u.sent ++ replyBytes (dialReply (dialer target))
        events := u.events ++ [.dialled target] } := by
  have hdeadline : run dialer (deadline config.handshakeTimeout (negotiate peer config)) s =
      (.ok (some target), u) := by
    rw [run_deadline, h]
    rfl
  rw [handshake, run_bind_ok dialer hdeadline]
  have hdial : run dialer (dial target : Session Socks5Error _) u =
      (.ok (dialer target), { u with events := u.events ++ [.dialled target] }) := rfl
  dsimp only
  rw [run_bind_ok dialer hdial]
  cases dialer target with
  | ok _ => rfl
  | error err => rfl

/-- **A request gets exactly one reply, exactly if its address type is a defined one**: an error
    without a dial, or the outcome of the one dial. -/
theorem handshake_answered_iff (dialer : Target → Except DialError Unit) (peer : IpAddr)
    (config : Socks5Config) {s t : Script} {command atyp : UInt8} {tail : List UInt8}
    (hpassed : run dialer (approach peer config) s = (.ok (), t))
    (hrequest : t.reads.flatten = [verSocks5, command, 0, atyp] ++ tail)
    (hcomplete : Complete atyp tail) :
    Answered dialer t (run dialer (handshake peer config) s).2 ↔
      atyp ∈ [atypV4, atypDomain, atypV6] := by
  have hnegotiate := run_negotiate hpassed
  constructor
  · intro hanswered
    by_contra hundefined
    have hread := gives_readRequest config hrequest
      (@gives_readTarget_undefined dialer { t.conn with unread := tail } _ config hundefined)
    obtain ⟨herror, hconn⟩ := gives_answerRequest_silent rfl hread t rfl
    rw [← hnegotiate] at herror hconn
    rw [run_handshake_error (Prod.ext herror rfl)] at hanswered
    obtain ⟨code, hsent, -⟩ := hanswered
    -- nothing was written
    have hsame : (run dialer (negotiate peer config) s).2.sent = t.sent := congrArg Conn.sent hconn
    rw [hsame] at hsent
    exact absurd (List.self_eq_append_right.mp hsent) (by simp [replyBytes])
  · intro hdefined
    obtain ⟨r, rest, htarget, hexplained⟩ := @gives_readTarget_defined dialer
      { t.conn with unread := tail } _ _ config hdefined hcomplete rfl
    have hread := gives_readRequest config hrequest htarget
    cases hjudged : judged command r with
    | error e =>
      obtain ⟨code, hcode, hfailure⟩ := explained_judged hexplained hjudged
      rw [hjudged] at hread
      obtain ⟨herror, hconn⟩ := gives_answerRequest_explained hcode hread t rfl
      rw [← hnegotiate] at herror hconn
      rw [run_handshake_error (Prod.ext herror rfl)]
      exact ⟨code, congrArg Conn.sent hconn, .inl ⟨hfailure, congrArg Conn.events hconn⟩⟩
    | ok target =>
      rw [hjudged] at hread
      obtain ⟨hok, hconn⟩ := gives_answerRequest_ok hread t rfl
      rw [← hnegotiate] at hok hconn
      have hafter := run_handshake_ok (Prod.ext hok rfl)
      rw [hconn] at hafter
      refine ⟨dialReply (dialer target), ?_, .inr ⟨target, ?_, dialReply_eq_success_iff _⟩⟩
      · exact (congrArg Conn.sent hafter).trans
          (congrArg (· ++ replyBytes (dialReply (dialer target))) (congrArg Conn.sent hconn))
      · exact (congrArg Conn.events hafter).trans
          (congrArg (· ++ [Event.dialled target]) (congrArg Conn.events hconn))

end Phases

def scripted (reads : List (List UInt8)) : Script := ⟨reads, [], [], 0, []⟩

/-- `192.0.2.1:443` with credentials, in packets that respect no boundary, and three bytes more. -/
theorem negotiate_round_trip_v4 :
    (run (fun _ => .ok ()) (negotiate (.v4 ⟨127, 0, 0, 1⟩)
      ⟨.required ⟨[0x75], [0x70]⟩, false, 10000000000⟩)
      (scripted [[5], [1, 2, 1, 1], [0x75, 1, 0x70, 5, 1, 0, 1, 192], [0, 2, 1, 1, 187, 7],
        [8, 9]])).1 = .ok (.ip ⟨.v4 ⟨192, 0, 2, 1⟩, 443⟩) ∧
    (run (fun _ => .ok ()) (negotiate (.v4 ⟨127, 0, 0, 1⟩)
      ⟨.required ⟨[0x75], [0x70]⟩, false, 10000000000⟩)
      (scripted [[5], [1, 2, 1, 1], [0x75, 1, 0x70, 5, 1, 0, 1, 192], [0, 2, 1, 1, 187, 7],
        [8, 9]])).2.reads.flatten = [7, 8, 9] := by
  refine @negotiate_round_trip _ _ _ [2] [7, 8, 9] (.v4 ⟨192, 0, 2, 1⟩) 443 _ (by decide)
    (by decide) (fun credentials h => ?_) trivial (by decide) rfl
  cases h
  exact ⟨by decide, by decide, rfl⟩

/-- A dial that is refused is one reply. -/
theorem handshake_answered_refused :
    Answered (fun _ => .error .connectionRefused)
      (run (fun _ => .error .connectionRefused)
        (approach (.v4 ⟨127, 0, 0, 1⟩) ⟨.disabled, false, 10000000000⟩)
        (scripted [[5, 1, 0, 5, 1, 0, 1, 192, 0, 2, 1, 1, 187]])).2
      (run (fun _ => .error .connectionRefused)
        (handshake (.v4 ⟨127, 0, 0, 1⟩) ⟨.disabled, false, 10000000000⟩)
        (scripted [[5, 1, 0, 5, 1, 0, 1, 192, 0, 2, 1, 1, 187]])).2 :=
  (@handshake_answered_iff _ _ _ _ _ 1 1 [192, 0, 2, 1, 1, 187] (Prod.ext rfl rfl) rfl
    ⟨by decide, by decide, fun h => absurd h (by decide)⟩).mpr (by decide)

/-- A request with address type 9 is dropped without a word: all that was written is the answer to
    the greeting. -/
theorem handshake_unknown_type :
    (run (fun _ => .ok ()) (approach (.v4 ⟨127, 0, 0, 1⟩) ⟨.disabled, false, 10000000000⟩)
      (scripted [[5, 1, 0, 5, 1, 0, 9]])).1 = .ok () ∧
    (run (fun _ => .ok ()) (approach (.v4 ⟨127, 0, 0, 1⟩) ⟨.disabled, false, 10000000000⟩)
      (scripted [[5, 1, 0, 5, 1, 0, 9]])).2.reads.flatten = [5, 1, 0, 9] ∧
    (run (fun _ => .ok ()) (handshake (.v4 ⟨127, 0, 0, 1⟩) ⟨.disabled, false, 10000000000⟩)
      (scripted [[5, 1, 0, 5, 1, 0, 9]])).1 = .error (.malformed "unknown address type") ∧
    (run (fun _ => .ok ()) (handshake (.v4 ⟨127, 0, 0, 1⟩) ⟨.disabled, false, 10000000000⟩)
      (scripted [[5, 1, 0, 5, 1, 0, 9]])).2.sent = [5, 0] := by
  have hnegotiate : run (fun _ => .ok ())
      (negotiate (.v4 ⟨127, 0, 0, 1⟩) ⟨.disabled, false, 10000000000⟩)
      (scripted [[5, 1, 0, 5, 1, 0, 9]]) =
        (.error (.malformed "unknown address type"), ⟨[], [5, 0], [], 0, []⟩) := rfl
  rw [run_handshake_error hnegotiate]
  exact ⟨rfl, rfl, rfl, rfl⟩

end ThisConnect.Proxy.Socks5
