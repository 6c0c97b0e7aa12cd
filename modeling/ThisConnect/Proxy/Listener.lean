/-
  ThisConnect.Proxy.Listener
  **THE MIXED LISTENER, AND WHY IT IS NEVER AN OPEN PROXY.**

  Main result: `never_open_proxy`.  Whatever a peer sends and however the
  session runs, a dial means that the peer was admitted and either the address
  it reached is loopback with authentication switched off, or it transmitted
  the configured credentials while the limiter had capacity for it.
-/
import ThisConnect.Proxy.Http
import ThisConnect.Proxy.Script

namespace ThisConnect.Proxy

open Net Interaction

/-! ## §1. Credentials. -/

inductive CredentialError where
  | empty
  | tooLong
  | notUrlSafe
  deriving DecidableEq, Repr

def maxFieldLen : Nat := 255

def isUrlUnreserved (byte : UInt8) : Bool :=
  (Char.ofNat byte.toNat).isAlphanum || [0x2D, 0x2E, 0x5F, 0x7E].contains byte

def validated (value : List UInt8) : Except CredentialError (List UInt8) :=
  if value.isEmpty then .error .empty
  else if value.length > maxFieldLen then .error .tooLong
  else if !value.all isUrlUnreserved then .error .notUrlSafe
  else .ok value

structure ProxyCredentials where
  username : List UInt8
  password : List UInt8
  username_valid : validated username = .ok username
  password_valid : validated password = .ok password

def ProxyCredentials.toSocks5 (credentials : ProxyCredentials) : Credentials :=
  ⟨credentials.username, credentials.password⟩

inductive AuthSetting where
  | required (credentials : ProxyCredentials)
  | disabled

namespace AuthSetting

def isRequired : AuthSetting → Bool
  | .required _ => true
  | .disabled => false

/-- Both front ends get the same policy. -/
def policy : AuthSetting → AuthPolicy
  | .required credentials => .required credentials.toSocks5
  | .disabled => .disabled

end AuthSetting

/-! ## §2. Starting. -/

structure ListenerConfig where
  bindAddrs : List SocketAddr
  auth : AuthSetting
  allowedCidrs : List Cidr
  tunnelHasV6 : Bool
  handshakeTimeout : Duration
  connectTimeout : Duration

inductive ListenerError where
  | nonLoopbackWithoutAuth (addr : SocketAddr)
  | noBindAddress
  | bind (addr : SocketAddr) (source : IoError)
  deriving DecidableEq, Repr

def ListenerConfig.validate (config : ListenerConfig) : Except ListenerError Unit :=
  if config.bindAddrs.isEmpty then .error .noBindAddress
  else if config.auth.isRequired then .ok ()
  else
    match config.bindAddrs.find? fun addr => !addr.ip.isLoopback with
    | some addr => .error (.nonLoopbackWithoutAuth addr)
    | none => .ok ()

structure BindOutcome where
  bound : List SocketAddr
  skipped : List SocketAddr

section Binding

-- what binding the `i`-th address of the list comes to
variable (bindOne : Nat → SocketAddr → Except IoError SocketAddr)

def bindLoop : Nat → List SocketAddr → BindOutcome → Option ListenerError →
    Except ListenerError (BindOutcome × Option ListenerError)
  | _, [], outcome, firstFailure => .ok (outcome, firstFailure)
  | i, addr :: addrs, outcome, firstFailure =>
    match bindOne i addr with
    | .ok bound =>
      bindLoop (i + 1) addrs { outcome with bound := outcome.bound ++ [bound] } firstFailure
    | .error source =>
      if addr.ip.isLoopback then
        bindLoop (i + 1) addrs { outcome with skipped := outcome.skipped ++ [addr] }
          (firstFailure.or (some (.bind addr source)))
      else .error (.bind addr source)

def bindAll (addrs : List SocketAddr) : Except ListenerError BindOutcome :=
  (bindLoop bindOne 0 addrs ⟨[], []⟩ none).bind fun (outcome, firstFailure) =>
    match firstFailure with
    | some failure => if outcome.bound.isEmpty then .error failure else .ok outcome
    | none => .ok outcome

structure Runtime where
  socks5 : Socks5.Socks5Config
  http : Http.HttpConfig
  allowedCidrs : List Cidr

/-- An accept loop on a bound address. -/
structure Acceptor where
  addr : SocketAddr
  runtime : Runtime

structure Handle where
  listenAddrs : List SocketAddr
  skippedAddrs : List SocketAddr
  acceptors : List Acceptor

def start (config : ListenerConfig) : Except ListenerError Handle :=
  config.validate.bind fun _ =>
  (bindAll bindOne config.bindAddrs).map fun outcome =>
    let runtime : Runtime :=
      { socks5 := ⟨config.auth.policy, config.tunnelHasV6, config.handshakeTimeout⟩
        http := ⟨config.auth.policy, config.tunnelHasV6, config.handshakeTimeout,
          config.connectTimeout⟩
        allowedCidrs := config.allowedCidrs }
    { listenAddrs := outcome.bound
      skippedAddrs := outcome.skipped
      acceptors := outcome.bound.map fun addr => ⟨addr, runtime⟩ }

end Binding

/-! ## §3. A session. -/

inductive Protocol where
  | socks5
  | http
  | socks4
  | unsupported (byte : UInt8)
  deriving DecidableEq, Repr

def classify (first : UInt8) : Protocol :=
  if first = 0x05 then .socks5
  else if first = 0x04 then .socks4
  else if 0x41 ≤ first ∧ first ≤ 0x5A then .http
  else .unsupported first

inductive SessionError where
  | peek (e : IoError)
  | empty
  | dispatchTimeout
  | socks4
  | unsupported (byte : UInt8)
  | socks5 (e : Socks5.Socks5Error)
  | http (e : Http.HttpError)
  deriving DecidableEq, Repr

def peekFirstByte (limit : Duration) : Session SessionError UInt8 := do
  match ← deadline limit (client SessionError.peek .peek) with
  | none => throw .dispatchTimeout
  | some [] => throw .empty
  | some (first :: _) => pure first

section Serving

variable (decode : List Char → Option (List UInt8))

def serve (peer : IpAddr) (runtime : Runtime) : Session SessionError (Nat × Nat) := do
  let first ← peekFirstByte runtime.socks5.handshakeTimeout
  match classify first with
  | .socks5 => ExceptT.adapt SessionError.socks5 (Socks5.serve peer runtime.socks5)
  | .http => ExceptT.adapt SessionError.http (Http.serve decode peer runtime.http)
  | .socks4 => throw .socks4
  | .unsupported byte => throw (.unsupported byte)

def admitPeer (peer : IpAddr) (runtime : Runtime) :
    Task (Option (Except SessionError (Nat × Nat))) :=
  if !isPeerAllowed peer runtime.allowedCidrs then pure none
  else do
    let outcome ← (serve decode peer runtime).run
    pure (some outcome)

end Serving

/-! ## §4. What an accepted configuration promises. -/

variable {bindOne : Nat → SocketAddr → Except IoError SocketAddr} {config : ListenerConfig}
  {bytes password username : List UInt8}

theorem bindLoop_ip (hbind : ∀ i addr bound, bindOne i addr = .ok bound → bound.ip = addr.ip)
    (addrs : List SocketAddr) :
    ∀ {i outcome failure result failure'},
      bindLoop bindOne i addrs outcome failure = .ok (result, failure') →
      ∀ addr ∈ result.bound,
        addr ∈ outcome.bound ∨ ∃ requested ∈ addrs, addr.ip = requested.ip := by
  induction addrs with
  | nil =>
    intro i outcome failure result failure' h addr hmem
    cases h
    exact .inl hmem
  | cons first addrs ih =>
    intro i outcome failure result failure' h addr hmem
    rw [bindLoop] at h
    split at h
    · next bound hok =>
      rcases ih h addr hmem with hmem | ⟨requested, hreq, hip⟩
      · rcases List.mem_append.mp hmem with hmem | hmem
        · exact .inl hmem
        · rw [List.mem_singleton.mp hmem]
          exact .inr ⟨first, by simp, hbind i first bound hok⟩
      · exact .inr ⟨requested, List.mem_cons_of_mem _ hreq, hip⟩
    · obtain ⟨_, h⟩ := ok_of_guard h
      rcases ih h addr hmem with hmem | ⟨requested, hreq, hip⟩
      · exact .inl hmem
      · exact .inr ⟨requested, List.mem_cons_of_mem _ hreq, hip⟩

theorem bindAll_ip (hbind : ∀ i addr bound, bindOne i addr = .ok bound → bound.ip = addr.ip)
    {addrs : List SocketAddr} {outcome : BindOutcome} (h : bindAll bindOne addrs = .ok outcome) :
    ∀ addr ∈ outcome.bound, ∃ requested ∈ addrs, addr.ip = requested.ip := by
  intro addr hmem
  obtain ⟨⟨result, failure⟩, hloop, h⟩ := ok_of_bind h
  have hsame : result = outcome := by
    dsimp only at h
    split at h
    · obtain ⟨_, h⟩ := ok_of_unless h
      injection h
    · injection h
  subst hsame
  rcases bindLoop_ip hbind addrs hloop addr hmem with hnil | hreq
  · simp at hnil
  · exact hreq

theorem loopback_of_validate (h : config.validate = .ok ()) (hauth : config.auth = .disabled) :
    ∀ addr ∈ config.bindAddrs, addr.ip.isLoopback = true := by
  intro addr hmem
  unfold ListenerConfig.validate at h
  obtain ⟨_, h⟩ := ok_of_unless h
  rw [hauth] at h
  split at h
  · next hrequired => cases hrequired
  · split at h
    · cases h
    · next hnone => simpa using List.find?_eq_none.mp hnone addr hmem

theorem start_spec (hbind : ∀ i addr bound, bindOne i addr = .ok bound → bound.ip = addr.ip)
    {handle : Handle} (h : start bindOne config = .ok handle) {acceptor : Acceptor}
    (hmem : acceptor ∈ handle.acceptors) :
    acceptor.runtime.socks5.auth = config.auth.policy ∧
      acceptor.runtime.http.auth = config.auth.policy ∧
      acceptor.runtime.allowedCidrs = config.allowedCidrs ∧
      (config.auth = .disabled → acceptor.addr.ip.isLoopback = true) := by
  obtain ⟨_, hvalid, h⟩ := ok_of_bind h
  obtain ⟨outcome, hbound, rfl⟩ := ok_of_map h
  obtain ⟨addr, haddr, rfl⟩ := List.mem_map.mp hmem
  refine ⟨rfl, rfl, rfl, fun hauth => ?_⟩
  obtain ⟨requested, hreq, hip⟩ := bindAll_ip hbind hbound addr haddr
  rw [hip]
  exact loopback_of_validate hvalid hauth requested hreq

/-! ## §5. What a session promises. -/

theorem talks_peekFirstByte (limit : Duration) :
    Talks (peekFirstByte limit) fun _ bytes log => bytes = [] ∧ log = [] := by
  refine ((Talks.client .peek).deadline limit).bind fun outcome bytes log h => ?_
  split
  · exact Talks.throw
  · exact Talks.throw
  · obtain ⟨rfl, rfl⟩ := h _ rfl
    exact Talks.pure ⟨rfl, rfl⟩

theorem DialsOnce.adapt {ε ε' α : Type} {P : List UInt8 → List Event → Prop} {p : Session ε α}
    (f : ε → ε') (hp : DialsOnce p P) : DialsOnce (ExceptT.adapt f p) P := by
  intro s
  refine Safe.bind (fun _ _ honce _ => ?_) (hp s)
  exact ⟨honce, trivial⟩

section Sessions

variable {decode : List Char → Option (List UInt8)}

theorem dialsOnce_serve (hdecode : Codec.DecodesBase64 decode) (peer : IpAddr) (runtime : Runtime) :
    DialsOnce (serve decode peer runtime) fun bytes log =>
      runtime.socks5.auth.Vetted Socks5.Carries peer bytes log ∨
        runtime.http.auth.Vetted Http.Carries peer bytes log := by
  refine DialsOnce.after (talks_peekFirstByte _) fun first bytes log h => ?_
  obtain ⟨rfl, rfl⟩ := h
  split
  · exact ((Socks5.dialsOnce_serve peer _).mono fun _ _ h => .inl h).adapt _
  · exact ((Http.dialsOnce_serve hdecode peer _).mono fun _ _ h => .inr h).adapt _
  · exact DialsOnce.of_talks (Q := fun _ _ _ => True) Talks.throw
  · exact DialsOnce.of_talks (Q := fun _ _ _ => True) Talks.throw

theorem safe_admission (hdecode : Codec.DecodesBase64 decode) (peer : IpAddr) (runtime : Runtime)
    (s : Conn) : Safe answers
      (fun t => Once (fun bytes log => isPeerAllowed peer runtime.allowedCidrs = true ∧
        (runtime.socks5.auth.Vetted Socks5.Carries peer bytes log ∨
          runtime.http.auth.Vetted Http.Carries peer bytes log)) s t)
      (fun _ _ => True) (admitPeer decode peer runtime) s := by
  unfold admitPeer
  split
  · exact ⟨.inl ⟨[], by simp, rfl⟩, trivial⟩
  · next hallowed =>
    have hserve := (dialsOnce_serve hdecode peer runtime).mono
      (fun bytes log h => And.intro (by simpa using hallowed) h)
    refine Safe.bind (fun _ _ honce _ => ?_) (hserve s)
    exact ⟨honce, trivial⟩

end Sessions

theorem Socks5.Carries.append (h : Socks5.Carries username password bytes) (more : List UInt8) :
    Socks5.Carries username password (bytes ++ more) := by
  obtain ⟨n, ulen, plen, methods, rest, rfl, hrest⟩ := h
  exact ⟨n, ulen, plen, methods, rest ++ more, by simp, hrest⟩

theorem Http.Carries.append (h : Http.Carries username password bytes) (more : List UInt8) :
    Http.Carries username password (bytes ++ more) := by
  obtain ⟨head, rest, text, requestLine, before, line, after, rfl, hfirst, hrest⟩ := h
  exact ⟨head, rest ++ more, text, requestLine, before, line, after, by simp, hfirst.append more,
    hrest⟩

/-! ## §6. Never an open proxy. -/

theorem carried_of_vetted {carries : List UInt8 → List UInt8 → List UInt8 → Prop}
    (happend : ∀ {u p bytes}, carries u p bytes → ∀ more, carries u p (bytes ++ more))
    {credentials : ProxyCredentials} {peer : IpAddr} {log : List Event}
    (h : (AuthSetting.required credentials).policy.Vetted carries peer bytes log)
    (rest : List UInt8) (target : Target) :
    carries credentials.username credentials.password (bytes ++ rest) ∧
      ∃ limiter now dialledTo, log ++ [.dialled target] =
          [.checked peer limiter now, .dialled dialledTo] ∧
        limiter.hasCapacityAt peer now = true := by
  obtain ⟨hcarries, limiter, now, rfl, hcapacity⟩ := h
  exact ⟨happend hcarries rest, limiter, now, target, rfl, hcapacity⟩

/-- **Never an open proxy.** -/
theorem never_open_proxy {decode : List Char → Option (List UInt8)}
    (hdecode : Codec.DecodesBase64 decode)
    {bindOne : Nat → SocketAddr → Except IoError SocketAddr}
    (hbind : ∀ i addr bound, bindOne i addr = .ok bound → bound.ip = addr.ip)
    {config : ListenerConfig} {handle : Handle} (hstart : start bindOne config = .ok handle)
    {acceptor : Acceptor} (hacceptor : acceptor ∈ handle.acceptors) (peer : IpAddr)
    {conn t : Conn} (hfresh : conn.events = [])
    {left : Task (Option (Except SessionError (Nat × Nat)))}
    (hrun : Reaches answers (admitPeer decode peer acceptor.runtime) conn left t) :
    (dialled t.events).length ≤ 1 ∧
      (dialled t.events ≠ [] →
        ((canonical peer).isLoopback = true ∨ ∃ cidr ∈ config.allowedCidrs, cidr.Covers peer) ∧
        ((config.auth = .disabled ∧ acceptor.addr.ip.isLoopback = true) ∨
          ∃ credentials, config.auth = .required credentials ∧
            (Socks5.Carries credentials.username credentials.password conn.unread ∨
              Http.Carries credentials.username credentials.password conn.unread) ∧
            ∃ limiter now target, t.events = [.checked peer limiter now, .dialled target] ∧
              limiter.hasCapacityAt peer now = true)) := by
  have honce := (safe_admission hdecode peer acceptor.runtime conn).inv_of_reaches hrun
  rw [Once, hfresh] at honce
  rcases honce with ⟨log, hevents, hnone⟩ | ⟨bytes, rest, log, target, ⟨hallowed, hvetted⟩, hbytes,
    hnone, hevents⟩
  · have hquiet : dialled t.events = [] := by rw [hevents, List.nil_append, hnone]
    rw [hquiet]
    exact ⟨by decide, fun h => absurd rfl h⟩
  · have hone : dialled t.events = [target] := by
      rw [hevents, List.nil_append, dialled_append, hnone]
      rfl
    obtain ⟨hsocks, hhttp, hcidrs, hloopback⟩ := start_spec hbind hstart hacceptor
    rw [hcidrs] at hallowed
    refine ⟨by rw [hone]; exact Nat.le_refl 1, fun _ =>
      ⟨(isPeerAllowed_iff peer _).mp hallowed, ?_⟩⟩
    rw [hsocks, hhttp] at hvetted
    cases hauth : config.auth with
    | disabled => exact .inl ⟨rfl, hloopback hauth⟩
    | required credentials =>
      rw [hauth] at hvetted
      rw [hbytes, hevents, List.nil_append]
      refine .inr ⟨credentials, rfl, ?_⟩
      rcases hvetted with hvetted | hvetted
      · obtain ⟨hcarries, hchecked⟩ :=
          carried_of_vetted Socks5.Carries.append hvetted rest target
        exact ⟨.inl hcarries, hchecked⟩
      · obtain ⟨hcarries, hchecked⟩ :=
          carried_of_vetted Http.Carries.append hvetted rest target
        exact ⟨.inr hcarries, hchecked⟩

def exampleCredentials : ProxyCredentials := ⟨[0x75], [0x70], rfl, rfl⟩

def exampleConfig : ListenerConfig where
  bindAddrs := [⟨.v4 ⟨127, 0, 0, 1⟩, 1080⟩]
  auth := .required ⟨[0x75], [0x70], rfl, rfl⟩
  allowedCidrs := []
  tunnelHasV6 := false
  handshakeTimeout := 10000000000
  connectTimeout := 30000000000

def exampleConn : Conn where
  unread := [5, 1, 2, 1, 1, 0x75, 1, 0x70, 5, 1, 0, 1, 192, 0, 2, 1, 1, 187]
  sent := []
  limiter := []
  now := 0
  events := []

def exampleDecode (token : List Char) : Option (List UInt8) :=
  if token = Codec.base64 [0x75, 0x3A, 0x70] then some [0x75, 0x3A, 0x70] else none

theorem exampleDecode_sound : Codec.DecodesBase64 exampleDecode := by
  intro token decoded h
  unfold exampleDecode at h
  obtain ⟨htoken, h⟩ := some_of_guard h
  injection h with h
  rw [← h, htoken]

/-- A session that does dial, and what the result says of it. -/
theorem never_open_proxy_dials :
    ∃ (handle : Handle) (acceptor : Acceptor)
      (left : Task (Option (Except SessionError (Nat × Nat)))) (t : Conn),
      start (fun _ addr => .ok addr) exampleConfig = .ok handle ∧ acceptor ∈ handle.acceptors ∧
      Reaches answers (admitPeer exampleDecode (.v4 ⟨127, 0, 0, 1⟩) acceptor.runtime) exampleConn
        left t ∧
      dialled t.events = [.ip ⟨.v4 ⟨192, 0, 2, 1⟩, 443⟩] ∧
      ∃ credentials, exampleConfig.auth = .required credentials ∧
        (Socks5.Carries credentials.username credentials.password exampleConn.unread ∨
          Http.Carries credentials.username credentials.password exampleConn.unread) := by
  have hbind : ∀ (i : Nat) (addr bound : SocketAddr),
      (Except.ok addr : Except IoError SocketAddr) = .ok bound → bound.ip = addr.ip := by
    intro i addr bound h
    cases h
    rfl
  have hrun := exec_reaches answers_obliging
    (admitPeer exampleDecode (.v4 ⟨127, 0, 0, 1⟩) ⟨⟨exampleConfig.auth.policy, false, 10000000000⟩,
      ⟨exampleConfig.auth.policy, false, 10000000000, 30000000000⟩, []⟩) exampleConn
  have hdial : dialled (Prog.exec obliging (admitPeer exampleDecode (.v4 ⟨127, 0, 0, 1⟩)
      ⟨⟨exampleConfig.auth.policy, false, 10000000000⟩,
      ⟨exampleConfig.auth.policy, false, 10000000000, 30000000000⟩, []⟩) exampleConn).2.events =
      [.ip ⟨.v4 ⟨192, 0, 2, 1⟩, 443⟩] := by decide +kernel
  refine ⟨_, _, _, _, rfl, List.mem_singleton.mpr rfl, hrun, hdial, ?_⟩
  obtain ⟨-, hvetted⟩ := @never_open_proxy _ exampleDecode_sound _ hbind exampleConfig _ rfl _
    (List.mem_singleton.mpr rfl) _ _ _ rfl _ hrun
  rcases (hvetted (by rw [hdial]; simp)).2 with ⟨hauth, -⟩ | ⟨credentials, hauth, hcarries, -⟩
  · cases hauth
  · exact ⟨credentials, hauth, hcarries⟩

end ThisConnect.Proxy
