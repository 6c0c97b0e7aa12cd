/-
  ThisConnect.Proxy.Deadline
  **HOW LONG A DIAL MAY TAKE.**

  Main results:
    • `dial_ends_iff` — a dial ends within the timeout exactly for an HTTP
      client or with a dialer that is in time by itself,
    • `socks5_dial_never_ends` — a SOCKS5 session whose dial never ends.
-/
import ThisConnect.Proxy.Listener

namespace ThisConnect.Proxy

open Net Interaction

/-! ## §1. Dials that take time. -/

abbrev Dialer := Conn → Target → Option (Duration × Except DialError Unit)

def within {α : Type} (limit : Duration) : Option (Duration × α) → Duration × Option α
  | some (d, a) => if d ≤ limit then (d, some a) else (limit, none)
  | none => (limit, none)

def Elapsed (s : Conn) (target : Target) (d : Duration) (s' : Conn) : Prop :=
  ∃ limiter, s' =
    { s with limiter := limiter, now := s.now + d, events := s.events ++ [.dialled target] }

def timed (dialer : Dialer) : Env Call Call.Answer Conn := fun s c r s' =>
  match c, r with
  | .dial target, r => ∃ d, dialer s target = some (d, r) ∧ Elapsed s target d s'
  | .dialWithin limit target, r =>
    r = (within limit (dialer s target)).2 ∧
      Elapsed s target (within limit (dialer s target)).1 s'
  | .io op, r => answers s (.io op) r s'
  | .timed limit op, r => answers s (.timed limit op) r s'
  | .hasCapacity peer, r => answers s (.hasCapacity peer) r s'
  | .recordFailure peer, r => answers s (.recordFailure peer) r s'
  | .forward bytes, r => answers s (.forward bytes) r s'
  | .relay, r => answers s .relay r s'

/-- The call is answered, and no later than that. -/
def EndsWithin (env : Env Call Call.Answer Conn) (s : Conn) (c : Call) (limit : Duration) : Prop :=
  (∃ r s', env s c r s') ∧ ∀ r s', env s c r s' → s'.now ≤ s.now + limit

/-- The destination of a dial. -/
def Call.dials : Call → Option Target
  | .dial target => some target
  | .dialWithin _ target => some target
  | _ => none

variable {s s' : Conn} {c : Call}

variable {d : Duration} {target : Target} {dialer : Dialer} {r : c.Answer} {α : Type} {t : Conn}

theorem Elapsed.acts (h : Elapsed s target d s') :
    ∃ t, Meanwhile s t ∧ s' = { t with events := t.events ++ [.dialled target] } := by
  obtain ⟨limiter, rfl⟩ := h
  exact ⟨{ s with limiter := limiter, now := s.now + d }, ⟨limiter, _, Nat.le_add_right _ _, rfl⟩,
    rfl⟩

theorem timed_answers (h : timed dialer s c r s') :
    answers s c r s' := by
  cases c with
  | dial target =>
    obtain ⟨d, -, helapsed⟩ := h
    exact helapsed.acts
  | dialWithin limit target => exact h.2.acts
  | _ => exact h

theorem timed_of_not_dials (hc : c.dials = none) (h : answers s c r s') :
    timed dialer s c r s' := by
  cases c with
  | dial target => cases hc
  | dialWithin limit target => cases hc
  | _ => exact h

theorem within_le (limit : Duration) (future : Option (Duration × α)) :
    (within limit future).1 ≤ limit := by
  rcases future with - | ⟨d, a⟩
  · exact Nat.le_refl limit
  · rw [within]
    split
    · assumption
    · exact Nat.le_refl limit

theorem Elapsed.now_eq (h : Elapsed s target d s') :
    s'.now = s.now + d := by
  obtain ⟨limiter, rfl⟩ := h
  rfl

theorem Elapsed.exists (s : Conn) (target : Target) (d : Duration) :
    ∃ s', Elapsed s target d s' :=
  ⟨_, s.limiter, rfl⟩

theorem endsWithin_dialWithin (dialer : Dialer) (s : Conn) (limit : Duration) (target : Target) :
    EndsWithin (timed dialer) s (.dialWithin limit target) limit := by
  constructor
  · obtain ⟨s', helapsed⟩ := Elapsed.exists s target (within limit (dialer s target)).1
    exact ⟨_, s', rfl, helapsed⟩
  · intro r s' h
    rw [h.2.now_eq]
    exact Nat.add_le_add_left (within_le limit _) _

theorem endsWithin_dial_iff (dialer : Dialer) (s : Conn) (limit : Duration) (target : Target) :
    EndsWithin (timed dialer) s (.dial target) limit ↔
      ∃ d r, dialer s target = some (d, r) ∧ d ≤ limit := by
  constructor
  · rintro ⟨⟨r, s', d, hd, helapsed⟩, hlimit⟩
    have hnow := hlimit r s' ⟨d, hd, helapsed⟩
    rw [helapsed.now_eq] at hnow
    exact ⟨d, r, hd, Nat.le_of_add_le_add_left hnow⟩
  · rintro ⟨d, r, hd, hle⟩
    obtain ⟨s', helapsed⟩ := Elapsed.exists s target d
    refine ⟨⟨r, s', d, hd, helapsed⟩, fun r' s'' h => ?_⟩
    obtain ⟨d', hd', helapsed'⟩ := h
    rw [hd] at hd'
    injection hd' with hd'
    injection hd' with hd' _
    rw [helapsed'.now_eq, ← hd']
    exact Nat.add_le_add_left hle _

/-! ## §2. Which dial a session makes. -/

theorem dialled_of_answers (h : answers s c r s') :
    dialled s'.events = dialled s.events ++ c.dials.toList := by
  obtain ⟨t, hwhile, hacts⟩ := h
  obtain ⟨limiter, now, hnow, rfl⟩ := hwhile
  have hquiet : s'.events = s.events → dialled s'.events = dialled s.events ++ [] := by
    intro hevents
    rw [hevents, List.append_nil]
  have hbreaks : Breaks { s with limiter := limiter, now := now } s' → s'.events = s.events := by
    rintro ⟨taken, rest, part, -, rfl⟩
    rfl
  cases c with
  | io op =>
    cases r with
    | ok a => exact hquiet (Io.Completes.effect ⟨limiter, now, hnow, rfl⟩ hacts).2
    | error e => exact hquiet (hbreaks hacts)
  | timed limit op =>
    rcases r with - | (e | a)
    · exact hquiet (hbreaks hacts)
    · exact hquiet (hbreaks hacts)
    · exact hquiet (Io.Completes.effect ⟨limiter, now, hnow, rfl⟩ hacts).2
  | hasCapacity peer =>
    rw [hacts.2, dialled_append]
    rfl
  | recordFailure peer => exact hquiet (by rw [show s' = _ from hacts])
  | dial target =>
    rw [show s' = _ from hacts, dialled_append]
    rfl
  | dialWithin limit target =>
    rw [show s' = _ from hacts, dialled_append]
    rfl
  | forward bytes => exact hquiet (by rw [show s' = _ from hacts])
  | relay => exact hquiet (hbreaks hacts)

def Dials {ε α : Type} (how : Target → Call) (p : Session ε α) : Prop :=
  ∀ s, Issues answers (fun _ c => ∀ target, c.dials = some target → c = how target)
    (fun _ _ => True) p.run s

section

variable {ε ε' α β : Type} {how : Target → Call} {p : Session ε α}

theorem issues_of_safe {α : Type} (targets : List Target) (p : Task α) :
    ∀ s, Safe answers (fun t => dialled t.events = targets) (fun _ _ => True) p s →
      Issues answers (fun _ c => ∀ target, c.dials = some target → c = how target)
        (fun _ _ => True) p s := by
  induction p with
  | ret a => intro s h; exact h.2
  | call c k ih =>
    intro s h
    refine ⟨fun target htarget => ?_, fun r s' answered => ih r s' (h.2 r s' answered)⟩
    have hafter : dialled (obliging s c).2.events = targets :=
      (h.2 _ _ (answers_obliging s c)).inv
    rw [dialled_of_answers (answers_obliging s c), h.1, htarget] at hafter
    simp at hafter

theorem Talks.dials {P : α → List UInt8 → List Event → Prop} (hp : Talks p P) : Dials how p := by
  intro s
  refine issues_of_safe (dialled s.events) p.run s ?_
  refine (hp s).mono (fun t ht => ?_) (fun _ _ _ _ => trivial)
  obtain ⟨log, hevents, hnone⟩ := ht.events
  rw [hevents, dialled_append, hnone, List.append_nil]

theorem Silent.dials (hp : Silent p) : Dials how p := by
  intro s
  refine issues_of_safe (dialled s.events) p.run s ?_
  exact (hp s).mono (fun t ht => congrArg dialled ht) (fun _ _ _ h => h)

theorem Dials.bind {f : α → Session ε β} (hp : Dials how p) (hf : ∀ a, Dials how (f a)) :
    Dials how (p >>= f) :=
  fun s => Issues.bindExcept (hp s) (fun a s' _ => hf a s') (fun _ _ _ => trivial)

theorem Dials.adapt (f : ε → ε') (hp : Dials how p) : Dials how (ExceptT.adapt f p) := by
  intro s
  refine Issues.bind (fun _ _ _ => ?_) (hp s)
  trivial

end

theorem Socks5.dials_serve (peer : IpAddr) (config : Socks5.Socks5Config) :
    Dials .dial (Socks5.serve peer config) := by
  have hhandshake : Dials .dial (Socks5.handshake peer config) := by
    refine ((talks_negotiate peer config).deadline _).dials.bind fun outcome => ?_
    cases outcome with
    | none => exact Silent.throw.dials
    | some target =>
      refine Dials.bind ?_ fun r => ?_
      · intro s
        refine ⟨fun target' h => ?_, fun _ _ _ => trivial⟩
        injection h with h
        rw [h]
      · cases r with
        | ok _ => exact ((Silent.send _).bind fun _ => Silent.pure).dials
        | error err => exact ((Silent.send _).bind fun _ => Silent.throw).dials
  exact hhandshake.bind fun _ => Silent.relay.dials

theorem Http.dials_serve (decode : List Char → Option (List UInt8)) (peer : IpAddr)
    (config : Http.HttpConfig) :
    Dials (.dialWithin config.connectTimeout) (Http.serve decode peer config) := by
  have hdial : ∀ target, Dials (.dialWithin config.connectTimeout)
      (dialUpstream target config.connectTimeout) := by
    intro target
    refine Dials.bind ?_ fun r => ?_
    · intro s
      refine ⟨fun target' h => ?_, fun _ _ _ => trivial⟩
      injection h with h
      rw [h]
    · split
      · exact Silent.pure.dials
      · exact Silent.pure.dials
      · exact Silent.pure.dials
  have hhandshake : Dials (.dialWithin config.connectTimeout)
      (Http.handshake decode peer config) := by
    refine ((talks_negotiate peer config).deadline _).dials.bind fun outcome => ?_
    cases outcome with
    | none => exact ((Silent.send _).bind fun _ => Silent.throw).dials
    | some head =>
      refine (hdial head.target).bind fun r => ?_
      cases r with
      | ok _ => exact ((Silent.send _).bind fun _ => Silent.pure).dials
      | error err =>
        refine Silent.dials (Silent.bind ?_ fun _ => Silent.throw)
        split
        · exact Silent.send _
        · exact Silent.pure
  refine hhandshake.bind fun session => Silent.dials ?_
  refine Silent.bind ?_ fun _ => Silent.relay.bind fun _ => Silent.pure
  split
  · exact Silent.pure
  · exact Silent.forward _

/-! ## §3. A session of the listener. -/

/-- The first byte of the stream decides on the protocol. -/
def speaks (protocol : Protocol) (conn : Conn) : Prop :=
  ∃ first rest, conn.unread = first :: rest ∧ classify first = protocol

theorem peekFirstByte_issues (limit : Duration) (permits : Conn → Call → Prop) (s : Conn)
    (hpermits : permits s (.timed limit .peek)) :
    Issues answers permits
      (fun outcome _ => ∀ first, outcome = .ok first → ∃ rest, s.unread = first :: rest)
      (peekFirstByte limit).run s := by
  have hpeek : Issues answers permits
      (fun outcome _ => ∀ peeked, outcome = .ok (some peeked) → peeked = s.unread.take 1)
      (deadline limit (client SessionError.peek .peek)).run s := by
    refine Issues.bind (fun outcome t h => ?_) (Q := fun outcome _ =>
      ∀ peeked, outcome = some (.ok peeked) → peeked = s.unread.take 1) ?_
    · intro peeked hpeeked
      rcases outcome with - | (e | bytes)
      · exact absurd hpeeked (by simp)
      · exact absurd hpeeked (by simp)
      · injection hpeeked with hpeeked
        injection hpeeked with hpeeked
        exact h peeked (by rw [hpeeked])
    · unfold client ExceptT.run ExceptT.mk
      rw [timeout]
      refine ⟨hpermits, fun r s' answered => ?_⟩
      rcases r with - | (e | bytes)
      · exact fun _ h => by cases h
      · exact fun _ h => by cases h
      · obtain ⟨t, ⟨limiter, now, -, rfl⟩, hbytes, -⟩ := answered
        intro peeked hpeeked
        injection hpeeked with hpeeked
        injection hpeeked with hpeeked
        rw [← hpeeked, hbytes]
  refine Issues.bindExcept hpeek (fun outcome t h => ?_) (fun _ _ _ _ h => by cases h)
  rcases outcome with - | (- | ⟨first, rest⟩)
  · exact fun _ h => by cases h
  · exact fun _ h => by cases h
  · intro first' hfirst
    injection hfirst with hfirst
    have htake := h _ rfl
    cases hunread : s.unread with
    | nil => simp [hunread] at htake
    | cons byte more =>
      rw [hunread] at htake
      injection htake with hbyte _
      exact ⟨more, by rw [← hfirst, hbyte]⟩

theorem admit_issues {decode : List Char → Option (List UInt8)} (peer : IpAddr)
    (runtime : Runtime) (conn : Conn) :
    Issues answers
      (fun _ c => ∀ target, c.dials = some target →
        (speaks .socks5 conn ∧ c = .dial target) ∨
        (speaks .http conn ∧ c = .dialWithin runtime.http.connectTimeout target))
      (fun _ _ => True) (admitPeer decode peer runtime) conn := by
  unfold admitPeer
  split
  · trivial
  · refine Issues.bind (fun _ _ _ => ?_) (Q := fun _ _ => True) ?_
    · trivial
    · refine Issues.bindExcept (peekFirstByte_issues _ _ conn fun _ h => by cases h)
        (fun first t h => ?_) (fun _ _ _ => trivial)
      obtain ⟨rest, hunread⟩ := h first rfl
      split
      · next hprotocol =>
        have hdials := (Socks5.dials_serve peer runtime.socks5).adapt SessionError.socks5 t
        exact hdials.permits_mono fun _ c hc target h =>
          .inl ⟨⟨first, rest, hunread, hprotocol⟩, hc target h⟩
      · next hprotocol =>
        have hdials := (Http.dials_serve decode peer runtime.http).adapt SessionError.http t
        exact hdials.permits_mono fun _ c hc target h =>
          .inr ⟨⟨first, rest, hunread, hprotocol⟩, hc target h⟩
      · trivial
      · trivial

/-! ## §4. When a dial ends. -/

theorem connectTimeout_of_start {bindOne : Nat → SocketAddr → Except IoError SocketAddr}
    {config : ListenerConfig} {handle : Handle} (h : start bindOne config = .ok handle)
    {acceptor : Acceptor} (hmem : acceptor ∈ handle.acceptors) :
    acceptor.runtime.http.connectTimeout = config.connectTimeout := by
  obtain ⟨_, -, h⟩ := ok_of_bind h
  obtain ⟨outcome, -, rfl⟩ := ok_of_map h
  obtain ⟨addr, -, rfl⟩ := List.mem_map.mp hmem
  rfl

/-- **A dial ends within the timeout exactly for an HTTP client, or with a dialer that is in time
    by itself.** -/
theorem dial_ends_iff {decode : List Char → Option (List UInt8)}
    {bindOne : Nat → SocketAddr → Except IoError SocketAddr} {config : ListenerConfig}
    {handle : Handle} (hstart : start bindOne config = .ok handle)
    {acceptor : Acceptor} (hacceptor : acceptor ∈ handle.acceptors) (peer : IpAddr)
    (dialer : Dialer) {conn t : Conn} {c : Call} {target : Target}
    {k : c.Answer → Task (Option (Except SessionError (Nat × Nat)))}
    (hrun : Reaches (timed dialer) (admitPeer decode peer acceptor.runtime) conn (.call c k) t)
    (hdials : c.dials = some target) :
    EndsWithin (timed dialer) t c config.connectTimeout ↔
      speaks .http conn ∨ ∃ d r, dialer t target = some (d, r) ∧ d ≤ config.connectTimeout := by
  have hissued := (admit_issues peer acceptor.runtime conn).permits_of_reaches
    (hrun.mono fun _ _ _ _ h => timed_answers h)
  rw [connectTimeout_of_start hstart hacceptor] at hissued
  rcases hissued target hdials with ⟨⟨first, rest, hunread, hsocks⟩, rfl⟩ | ⟨hhttp, rfl⟩
  · have hnot : ¬ speaks .http conn := by
      rintro ⟨first', rest', hunread', hhttp⟩
      rw [hunread] at hunread'
      injection hunread' with hfirst _
      rw [← hfirst, hsocks] at hhttp
      cases hhttp
    rw [endsWithin_dial_iff, or_iff_right hnot]
  · exact ⟨fun _ => .inl hhttp, fun _ => endsWithin_dialWithin dialer t _ target⟩

theorem dialled_of_reaches {p q : Task α} (hrun : Reaches answers p s q t) :
    ∃ more, dialled t.events = dialled s.events ++ more := by
  induction hrun with
  | here p s => exact ⟨[], by simp⟩
  | step answered rest ih =>
    obtain ⟨more, hmore⟩ := ih
    exact ⟨_, by rw [hmore, dialled_of_answers answered, List.append_assoc]⟩

theorem timed_of_quiet (dialer : Dialer) {p q : Task α} (hrun : Reaches answers p s q t)
    (hquiet : dialled t.events = dialled s.events) :
    Reaches (timed dialer) p s q t := by
  induction hrun with
  | here p s => exact .here p s
  | @step c _ _ _ _ _ _ answered rest ih =>
    obtain ⟨more, hmore⟩ := dialled_of_reaches rest
    rw [dialled_of_answers answered, hquiet] at hmore
    have hnone : c.dials = none ∧ more = [] := by simpa using hmore
    refine .step (timed_of_not_dials hnone.1 answered) (ih ?_)
    rw [hquiet, dialled_of_answers answered, hnone.1]
    simp

def blackHole : Dialer := fun _ _ => none

def exampleRuntime : Runtime where
  socks5 := ⟨exampleConfig.auth.policy, false, exampleConfig.handshakeTimeout⟩
  http := ⟨exampleConfig.auth.policy, false, exampleConfig.handshakeTimeout,
    exampleConfig.connectTimeout⟩
  allowedCidrs := []

def exampleTarget : Target := .ip ⟨.v4 ⟨192, 0, 2, 1⟩, 443⟩

theorem obliged_to {conn : Conn} {c : Call} (dialer : Dialer) (n : Nat)
    (hcall : ((admitPeer exampleDecode (.v4 ⟨127, 0, 0, 1⟩) exampleRuntime).after obliging n
      conn).1.issues? = some c)
    (hquiet : dialled ((admitPeer exampleDecode (.v4 ⟨127, 0, 0, 1⟩) exampleRuntime).after
      obliging n conn).2.events = dialled conn.events) :
    ∃ k t, Reaches (timed dialer) (admitPeer exampleDecode (.v4 ⟨127, 0, 0, 1⟩) exampleRuntime) conn
      (.call c k) t := by
  obtain ⟨k, hk⟩ := Prog.eq_call_of_issues hcall
  have hrun := after_reaches answers_obliging n
    (admitPeer exampleDecode (.v4 ⟨127, 0, 0, 1⟩) exampleRuntime) conn
  rw [hk] at hrun
  exact ⟨k, _, timed_of_quiet dialer hrun hquiet⟩

def exampleHttpConn : Conn where
  unread := Text.bytes
    "CONNECT 192.0.2.1:443 HTTP/1.1\r\nProxy-Authorization: Basic dTpw\r\n\r\n".toList
  sent := []
  limiter := []
  now := 0
  events := []

/-- The black hole does not hold an HTTP session. -/
theorem dial_ends_iff_http :
    ∃ (handle : Handle) (acceptor : Acceptor),
      start (fun _ addr => .ok addr) exampleConfig = .ok handle ∧ acceptor ∈ handle.acceptors ∧
      ∃ k t, Reaches (timed blackHole)
          (admitPeer exampleDecode (.v4 ⟨127, 0, 0, 1⟩) acceptor.runtime) exampleHttpConn
          (.call (.dialWithin exampleConfig.connectTimeout exampleTarget) k) t ∧
        EndsWithin (timed blackHole) t (.dialWithin exampleConfig.connectTimeout exampleTarget)
          exampleConfig.connectTimeout := by
  obtain ⟨k, t, hrun⟩ := @obliged_to exampleHttpConn
    (.dialWithin exampleConfig.connectTimeout exampleTarget) blackHole 3
    (by decide +kernel) (by decide +kernel)
  refine ⟨_, ⟨⟨.v4 ⟨127, 0, 0, 1⟩, 1080⟩, exampleRuntime⟩, rfl, List.mem_singleton.mpr rfl, k, t,
    hrun, ?_⟩
  refine (@dial_ends_iff _ (fun _ addr => .ok addr) exampleConfig _ rfl _
    (List.mem_singleton.mpr rfl) _ _ _ _ _ _ _ hrun rfl).mpr (.inl ?_)
  exact ⟨0x43, exampleHttpConn.unread.tail, by decide +kernel, by decide⟩

/-- It holds a SOCKS5 session for good. -/
theorem socks5_dial_never_ends :
    ∃ (handle : Handle) (acceptor : Acceptor),
      start (fun _ addr => .ok addr) exampleConfig = .ok handle ∧ acceptor ∈ handle.acceptors ∧
      ∃ k t, Reaches (timed blackHole)
          (admitPeer exampleDecode (.v4 ⟨127, 0, 0, 1⟩) acceptor.runtime) exampleConn
          (.call (.dial exampleTarget) k) t ∧
        ∀ limit, ¬ EndsWithin (timed blackHole) t (.dial exampleTarget) limit := by
  obtain ⟨k, t, hrun⟩ := @obliged_to exampleConn (.dial exampleTarget) blackHole 16
    (by decide +kernel) (by decide +kernel)
  refine ⟨_, ⟨⟨.v4 ⟨127, 0, 0, 1⟩, 1080⟩, exampleRuntime⟩, rfl, List.mem_singleton.mpr rfl, k, t,
    hrun, fun limit hends => ?_⟩
  obtain ⟨d, r, hd, -⟩ := (endsWithin_dial_iff _ _ _ _).mp hends
  cases hd

end ThisConnect.Proxy
