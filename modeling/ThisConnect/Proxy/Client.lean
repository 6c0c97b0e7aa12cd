/-
  ThisConnect.Proxy.Client
  **A CLIENT'S CONNECTION.**
-/
import Mathlib.Data.List.Basic
import ThisConnect.Base.Interaction
import ThisConnect.Proxy.Admission

namespace ThisConnect.Proxy

open Net Interaction

/-! ## §1. What a front end asks for. -/

abbrev Duration := Nat

inductive IoError where
  | unexpectedEof
  | connectionRefused
  | networkUnreachable
  | addrNotAvailable
  | hostUnreachable
  | timedOut
  | permissionDenied
  | other
  deriving DecidableEq, Repr

inductive Target where
  | ip (addr : SocketAddr)
  | domain (host : List Char) (port : UInt16)
  deriving DecidableEq, Repr

inductive DialError where
  | nameNotResolved
  | hostUnreachable
  | networkUnreachable
  | connectionRefused
  | policyRejected
  | other
  deriving DecidableEq, Repr

/-- An operation on the client's socket. -/
inductive Io where
  | peek
  | read (max : Nat)
  | readExact (n : Nat)
  | writeAll (bytes : List UInt8)
  | flush
  deriving DecidableEq

@[reducible] def Io.Answer : Io → Type
  | .peek => List UInt8
  | .read _ => List UInt8
  | .readExact n => Vector UInt8 n
  | .writeAll _ => Unit
  | .flush => Unit

inductive Call where
  | io (op : Io)
  | timed (limit : Duration) (op : Io)
  | hasCapacity (peer : IpAddr)
  | recordFailure (peer : IpAddr)
  | dial (target : Target)
  | dialWithin (limit : Duration) (target : Target)
  | forward (bytes : List UInt8)
  | relay
  deriving DecidableEq

@[reducible] def Call.Answer : Call → Type
  | .io op => Except IoError op.Answer
  | .timed _ op => Option (Except IoError op.Answer)
  | .hasCapacity _ => Bool
  | .recordFailure _ => Unit
  | .dial _ => Except DialError Unit
  | .dialWithin _ _ => Option (Except DialError Unit)
  | .forward _ => Except IoError Unit
  | .relay => Except IoError (Nat × Nat)

abbrev Task := Prog Call Call.Answer

abbrev Session (ε α : Type) := ExceptT ε Task α

section Operations

variable {ε α : Type}

def client (wrap : IoError → ε) (op : Io) : Session ε op.Answer :=
  ExceptT.mk <| .call (.io op) fun r =>
    .ret (match (r : Except IoError op.Answer) with
      | .ok a => .ok a
      | .error e => .error (wrap e))

/-- `write_all`, then `flush`. -/
def send (wrap : IoError → ε) (bytes : List UInt8) : Session ε Unit := do
  client wrap (.writeAll bytes)
  client wrap .flush

/-- `limiter.has_capacity(peer)`. -/
def hasCapacity (peer : IpAddr) : Session ε Bool :=
  ExceptT.mk <| .call (.hasCapacity peer) fun r => .ret (.ok r)

/-- `limiter.record_failure(peer)`. -/
def recordFailure (peer : IpAddr) : Session ε Unit :=
  ExceptT.mk <| .call (.recordFailure peer) fun r => .ret (.ok r)

/-- `dialer.tcp(target).await`. -/
def dial (target : Target) : Session ε (Except DialError Unit) :=
  ExceptT.mk <| .call (.dial target) fun r => .ret (.ok r)

def dialWithin (limit : Duration) (target : Target) : Session ε (Option (Except DialError Unit)) :=
  ExceptT.mk <| .call (.dialWithin limit target) fun r => .ret (.ok r)

/-- `upstream.write_all(bytes).await?`. -/
def forward (wrap : IoError → ε) (bytes : List UInt8) : Session ε Unit :=
  ExceptT.mk <| .call (.forward bytes) fun r =>
    .ret (match (r : Except IoError Unit) with
      | .ok a => .ok a
      | .error e => .error (wrap e))

def relay (wrap : IoError → ε) : Session ε (Nat × Nat) :=
  ExceptT.mk <| .call .relay fun r =>
    .ret (match (r : Except IoError (Nat × Nat)) with
      | .ok a => .ok a
      | .error e => .error (wrap e))

def timeout (limit : Duration) : Task α → Task (Option α)
  | .ret a => .ret (some a)
  | .call (.io op) k => .call (.timed limit op) fun r =>
    match (r : Option (Except IoError op.Answer)) with
    | some r => timeout limit (k r)
    | none => .ret none
  | .call c k => .call c fun r => timeout limit (k r)

def deadline (limit : Duration) (p : Session ε α) : Session ε (Option α) :=
  ExceptT.mk <| timeout limit p.run >>= fun outcome =>
    .ret (match outcome with
      | some (.ok a) => .ok (some a)
      | some (.error e) => .error e
      | none => .ok none)

end Operations

/-! ## §2. What may happen. -/

inductive Event where
  | checked (peer : IpAddr) (limiter : AuthRateLimiter) (now : Instant)
  | dialled (target : Target)

structure Conn where
  unread : List UInt8
  sent : List UInt8
  limiter : AuthRateLimiter
  now : Instant
  events : List Event

def Io.Completes (s : Conn) : (op : Io) → op.Answer → Conn → Prop
  | .peek, bytes, s' => bytes = s.unread.take 1 ∧ s' = s
  | .read max, chunk, s' => ∃ rest : List UInt8, s.unread = chunk ++ rest ∧ chunk.length ≤ max ∧
      (chunk = [] → rest = []) ∧ s' = { s with unread := rest }
  | .readExact _, bytes, s' =>
    ∃ rest : List UInt8, s.unread = bytes.toList ++ rest ∧ s' = { s with unread := rest }
  | .writeAll bytes, _, s' => s' = { s with sent := s.sent ++ bytes }
  | .flush, _, s' => s' = s

def Breaks (s s' : Conn) : Prop :=
  ∃ taken rest part, s.unread = taken ++ rest ∧
    s' = { s with unread := rest, sent := s.sent ++ part }

def Meanwhile (s s' : Conn) : Prop :=
  ∃ limiter now, s.now ≤ now ∧ s' = { s with limiter := limiter, now := now }

/-- What a call does at the moment it is carried out. -/
def acts (s : Conn) : (c : Call) → c.Answer → Conn → Prop
  | .io op, .ok a, s' => op.Completes s a s'
  | .io _, .error _, s' => Breaks s s'
  | .timed _ op, some (.ok a), s' => op.Completes s a s'
  | .timed _ _, some (.error _), s' => Breaks s s'
  | .timed _ _, none, s' => Breaks s s'
  | .hasCapacity peer, r, s' => r = s.limiter.hasCapacityAt peer s.now ∧
      s' = { s with events := s.events ++ [.checked peer s.limiter s.now] }
  | .recordFailure peer, _, s' => s' = { s with limiter := s.limiter.recordFailureAt peer s.now }
  | .dial target, _, s' => s' = { s with events := s.events ++ [.dialled target] }
  | .dialWithin _ target, _, s' => s' = { s with events := s.events ++ [.dialled target] }
  | .forward _, _, s' => s' = s
  | .relay, _, s' => Breaks s s'

theorem Breaks.refl (s : Conn) : Breaks s s := ⟨[], s.unread, [], rfl, by simp⟩

variable {op : Io} {s s' t : Conn} {α : Type}

theorem acts_timed {r : Except IoError op.Answer} (limit : Duration) (h : acts s (.io op) r s') :
    acts s (.timed limit op) (some r) s' := by
  cases r with
  | ok a => exact h
  | error e => exact h

def answers : Env Call Call.Answer Conn := fun s c r s' =>
  ∃ t, Meanwhile s t ∧ acts t c r s'

def dialled (events : List Event) : List Target :=
  events.filterMap fun
    | .dialled target => some target
    | .checked _ _ _ => none

@[simp] theorem dialled_append (xs ys : List Event) :
    dialled (xs ++ ys) = dialled xs ++ dialled ys := by
  simp [dialled]

/-! ## §3. Conversations before the dial. -/

structure Progress (s t : Conn) : Prop where
  unread : ∃ taken, s.unread = taken ++ t.unread
  events : ∃ log, t.events = s.events ++ log ∧ dialled log = []

theorem Progress.refl (s : Conn) : Progress s s := ⟨⟨[], rfl⟩, [], by simp, rfl⟩

theorem Progress.trans {u : Conn} (h : Progress s t) (h' : Progress t u) : Progress s u := by
  obtain ⟨⟨x, hx⟩, l, hl, hnone⟩ := h
  obtain ⟨⟨y, hy⟩, m, hm, hnone'⟩ := h'
  refine ⟨⟨x ++ y, ?_⟩, l ++ m, ?_, ?_⟩
  · rw [hx, hy, List.append_assoc]
  · rw [hm, hl, List.append_assoc]
  · rw [dialled_append, hnone, hnone', List.append_nil]

theorem Breaks.progress (hwhile : Meanwhile s t) (h : Breaks t s') :
    Progress s s' := by
  obtain ⟨limiter, now, -, rfl⟩ := hwhile
  obtain ⟨taken, rest, part, hunread, rfl⟩ := h
  exact ⟨⟨taken, hunread⟩, [], by simp, rfl⟩

def Io.consumed : (op : Io) → op.Answer → List UInt8
  | .read _, chunk => chunk
  | .readExact _, bytes => bytes.toList
  | .peek, _ => []
  | .writeAll _, _ => []
  | .flush, _ => []

theorem Io.Completes.effect {a : op.Answer} (hwhile : Meanwhile s t) (h : op.Completes t a s') :
    s.unread = op.consumed a ++ s'.unread ∧ s'.events = s.events := by
  obtain ⟨limiter, now, -, rfl⟩ := hwhile
  cases op with
  | peek => obtain ⟨-, rfl⟩ := h; exact ⟨rfl, rfl⟩
  | read max => obtain ⟨rest, hunread, -, -, rfl⟩ := h; exact ⟨hunread, rfl⟩
  | readExact n => obtain ⟨rest, hunread, rfl⟩ := h; exact ⟨hunread, rfl⟩
  | writeAll bytes => subst h; exact ⟨rfl, rfl⟩
  | flush => subst h; exact ⟨rfl, rfl⟩

def Talks {ε α : Type} (p : Session ε α) (P : α → List UInt8 → List Event → Prop) : Prop :=
  ∀ s, Safe answers (Progress s)
    (fun outcome t => ∀ a, outcome = .ok a → ∃ bytes log,
      P a bytes log ∧ s.unread = bytes ++ t.unread ∧ t.events = s.events ++ log)
    p.run s

namespace Talks

variable {ε α β : Type} {p : Session ε α} {P P' : α → List UInt8 → List Event → Prop}

theorem pure {a : α} (h : P a [] []) : Talks (pure a : Session ε α) P := by
  intro s
  refine ⟨.refl s, fun b hb => ?_⟩
  injection hb with hb
  exact ⟨[], [], hb ▸ h, rfl, (List.append_nil _).symm⟩

theorem throw {e : ε} : Talks (throw e : Session ε α) P := by
  intro s
  exact ⟨.refl s, fun b hb => by cases hb⟩

theorem ofExcept (r : Except ε α) :
    Talks (ExceptT.mk (Pure.pure r)) fun a bytes log => r = .ok a ∧ bytes = [] ∧ log = [] := by
  intro s
  exact ⟨.refl s, fun a ha => ⟨[], [], ⟨ha, rfl, rfl⟩, rfl, (List.append_nil _).symm⟩⟩

theorem bind {f : α → Session ε β} {R : β → List UInt8 → List Event → Prop} (hp : Talks p P)
    (hf : ∀ a bytes log, P a bytes log →
      Talks (f a) fun b more later => R b (bytes ++ more) (log ++ later)) :
    Talks (p >>= f) R := by
  intro s
  refine Safe.bindExcept (hp s) (fun a s' hprogress hq => ?_) (fun e s' _ _ b hb => by cases hb)
  obtain ⟨bytes, log, hP, hunread, hevents⟩ := hq a rfl
  refine (hf a bytes log hP s').mono (fun t ht => hprogress.trans ht) (fun outcome t _ hq' => ?_)
  intro b hb
  obtain ⟨more, later, hR, hunread', hevents'⟩ := hq' b hb
  refine ⟨bytes ++ more, log ++ later, hR, ?_, ?_⟩
  · rw [hunread, hunread', List.append_assoc]
  · rw [hevents', hevents, List.append_assoc]

theorem mono (hp : Talks p P) (h : ∀ a bytes log, P a bytes log → P' a bytes log) :
    Talks p P' := by
  intro s
  refine (hp s).mono (fun _ ht => ht) (fun outcome t _ hq a ha => ?_)
  obtain ⟨bytes, log, hP, hrest⟩ := hq a ha
  exact ⟨bytes, log, h a bytes log hP, hrest⟩

theorem rethrow {handler : ε → Session ε α} (hp : Talks p P)
    (hh : ∀ e, Talks (handler e) fun _ _ _ => False) : Talks (tryCatch p handler) P := by
  intro s
  refine Safe.bind (fun outcome s' hprogress hq => ?_) (hp s)
  cases outcome with
  | ok a => exact ⟨hprogress, hq⟩
  | error e =>
    refine (hh e s').mono (fun t ht => hprogress.trans ht) (fun outcome t _ hq' a ha => ?_)
    obtain ⟨bytes, log, hfalse, -⟩ := hq' a ha
    exact hfalse.elim

variable {wrap : IoError → ε}

theorem client (op : Io) :
    Talks (client wrap op) fun a bytes log => bytes = op.consumed a ∧ log = [] := by
  intro s
  refine ⟨.refl s, fun r s' answered => ?_⟩
  obtain ⟨t, hwhile, hacts⟩ := answered
  cases r with
  | error e => exact ⟨Breaks.progress hwhile hacts, fun a ha => by cases ha⟩
  | ok a =>
    obtain ⟨hunread, hevents⟩ := Io.Completes.effect hwhile hacts
    refine ⟨⟨⟨op.consumed a, hunread⟩, [], by simp [hevents], rfl⟩, fun b hb => ?_⟩
    injection hb with hb
    exact ⟨op.consumed a, [], ⟨by rw [hb], rfl⟩, hunread, by simp [hevents]⟩

theorem send (bytes : List UInt8) :
    Talks (send wrap bytes) fun _ taken log => taken = [] ∧ log = [] := by
  refine (Talks.client (.writeAll bytes)).bind fun _ taken log h => ?_
  obtain ⟨rfl, rfl⟩ := h
  exact (Talks.client .flush).mono fun _ _ _ h => h

theorem hasCapacity (peer : IpAddr) :
    Talks (hasCapacity peer : Session ε Bool) fun r bytes log => bytes = [] ∧
      ∃ limiter now, log = [.checked peer limiter now] ∧ r = limiter.hasCapacityAt peer now := by
  intro s
  refine ⟨.refl s, fun r s' answered => ?_⟩
  obtain ⟨t, ⟨limiter, now, -, rfl⟩, hr, rfl⟩ := answered
  refine ⟨⟨⟨[], rfl⟩, [.checked peer limiter now], rfl, rfl⟩, fun b hb => ?_⟩
  injection hb with hb
  exact ⟨[], [.checked peer limiter now], ⟨rfl, limiter, now, rfl, hb ▸ hr⟩, rfl, rfl⟩

theorem recordFailure (peer : IpAddr) :
    Talks (recordFailure peer : Session ε Unit) fun _ bytes log => bytes = [] ∧ log = [] := by
  intro s
  refine ⟨.refl s, fun r s' answered => ?_⟩
  obtain ⟨t, ⟨limiter, now, -, rfl⟩, rfl⟩ := answered
  exact ⟨⟨⟨[], rfl⟩, [], (List.append_nil _).symm, rfl⟩,
    fun _ _ => ⟨[], [], ⟨rfl, rfl⟩, rfl, (List.append_nil _).symm⟩⟩

end Talks

theorem safe_timeout {I : Conn → Prop} {Q : α → Conn → Prop} (limit : Duration)
    (hbreaks : ∀ s t s', I s → Meanwhile s t → Breaks t s' → I s') (p : Task α) :
    ∀ {s}, Safe answers I Q p s →
      Safe answers I (fun r t => ∀ a, r = some a → Q a t) (timeout limit p) s := by
  induction p with
  | ret a =>
    intro s h
    refine ⟨h.1, fun b hb => ?_⟩
    injection hb with hb
    exact hb ▸ h.2
  | call c k ih =>
    intro s h
    cases c with
    | io op =>
      rw [timeout]
      refine ⟨h.1, fun r s' answered => ?_⟩
      cases r with
      | none =>
        obtain ⟨t, hwhile, hbreak⟩ := answered
        exact ⟨hbreaks s t s' h.1 hwhile hbreak, fun a ha => by cases ha⟩
      | some r =>
        refine ih r (h.2 r s' ?_)
        cases r with
        | ok a => exact answered
        | error e => exact answered
    | _ => exact ⟨h.1, fun r s' answered => ih r (h.2 r s' answered)⟩

theorem Talks.deadline {ε : Type} {p : Session ε α} {P : α → List UInt8 → List Event → Prop}
    (limit : Duration) (hp : Talks p P) :
    Talks (deadline limit p) fun r bytes log => ∀ a, r = some a → P a bytes log := by
  intro s
  have htimed := safe_timeout limit
    (fun _ _ _ hs hwhile hbreak => hs.trans (Breaks.progress hwhile hbreak)) p.run (hp s)
  refine Safe.bind (fun outcome t hprogress hq => ?_) htimed
  refine ⟨hprogress, fun r hr => ?_⟩
  cases outcome with
  | none =>
    -- what the dropped future had read and asked by then
    obtain ⟨⟨bytes, hbytes⟩, log, hlog, -⟩ := hprogress
    injection hr with hr
    exact ⟨bytes, log, fun a ha => absurd (hr.trans ha) (by simp), hbytes, hlog⟩
  | some outcome =>
    cases outcome with
    | error e => cases hr
    | ok a =>
      obtain ⟨bytes, log, hP, hrest⟩ := hq (.ok a) rfl a rfl
      injection hr with hr
      refine ⟨bytes, log, fun b hb => ?_, hrest⟩
      injection hr.trans hb with hab
      exact hab ▸ hP

/-! ## §4. Sessions that dial. -/

def Silent {ε α : Type} (p : Session ε α) : Prop :=
  ∀ s, Safe answers (fun t => t.events = s.events) (fun _ _ => True) p.run s

def Once (P : List UInt8 → List Event → Prop) (s t : Conn) : Prop :=
  (∃ log, t.events = s.events ++ log ∧ dialled log = []) ∨
    ∃ bytes rest log target, P bytes log ∧ s.unread = bytes ++ rest ∧ dialled log = [] ∧
      t.events = s.events ++ log ++ [.dialled target]

def DialsOnce {ε α : Type} (p : Session ε α) (P : List UInt8 → List Event → Prop) : Prop :=
  ∀ s, Safe answers (Once P s) (fun _ _ => True) p.run s

section SessionRules

variable {ε α β : Type} {P : List UInt8 → List Event → Prop}

theorem Silent.pure {a : α} : Silent (pure a : Session ε α) := fun _ => ⟨rfl, trivial⟩

theorem Silent.throw {e : ε} : Silent (throw e : Session ε α) := fun _ => ⟨rfl, trivial⟩

variable {f : α → Session ε β} {p : Session ε α} {wrap : IoError → ε}
  {Q : α → List UInt8 → List Event → Prop}

theorem Silent.bind (hp : Silent p) (hf : ∀ a, Silent (f a)) : Silent (p >>= f) := by
  intro s
  refine Safe.bindExcept (hp s) (fun a s' hsame _ => ?_) (fun _ _ _ _ => trivial)
  exact (hf a s').mono (fun t ht => ht.trans hsame) (fun _ _ _ h => h)

theorem Silent.client (op : Io) : Silent (client wrap op) := by
  intro s
  refine ⟨rfl, fun r s' answered => ?_⟩
  obtain ⟨t, hwhile, hacts⟩ := answered
  cases r with
  | ok a => exact ⟨(Io.Completes.effect hwhile hacts).2, trivial⟩
  | error e =>
    obtain ⟨limiter, now, -, rfl⟩ := hwhile
    obtain ⟨taken, rest, part, -, rfl⟩ := hacts
    exact ⟨rfl, trivial⟩

theorem Silent.send (bytes : List UInt8) : Silent (send wrap bytes) :=
  (Silent.client _).bind fun _ => Silent.client _

theorem Silent.forward (bytes : List UInt8) : Silent (forward wrap bytes) := by
  intro s
  refine ⟨rfl, fun r s' answered => ?_⟩
  obtain ⟨t, ⟨limiter, now, -, rfl⟩, rfl⟩ := answered
  exact ⟨rfl, trivial⟩

theorem Silent.relay : Silent (relay wrap) := by
  intro s
  refine ⟨rfl, fun r s' answered => ?_⟩
  obtain ⟨t, ⟨limiter, now, -, rfl⟩, taken, rest, part, -, rfl⟩ := answered
  exact ⟨rfl, trivial⟩

theorem DialsOnce.of_talks (hp : Talks p Q) : DialsOnce p P :=
  fun s => (hp s).mono (fun _ ht => .inl ht.events) (fun _ _ _ _ => trivial)

theorem DialsOnce.after (hp : Talks p Q)
    (hf : ∀ a bytes log, Q a bytes log →
      DialsOnce (f a) fun more later => P (bytes ++ more) (log ++ later)) :
    DialsOnce (p >>= f) P := by
  intro s
  refine Safe.bindExcept (Q := fun outcome t => Progress s t ∧ ∀ a, outcome = .ok a →
      ∃ bytes log, Q a bytes log ∧ s.unread = bytes ++ t.unread ∧ t.events = s.events ++ log)
    ((hp s).mono (fun _ ht => .inl ht.events) (fun _ _ ht hq => ⟨ht, hq⟩)) ?_
    (fun _ _ _ _ => trivial)
  rintro a s' - ⟨hprogress, hq⟩
  obtain ⟨bytes, log, hQ, hunread, hevents⟩ := hq a rfl
  have hquiet : dialled log = [] := by
    obtain ⟨log', hlog', hnone⟩ := hprogress.events
    rw [hevents] at hlog'
    rw [List.append_cancel_left hlog', hnone]
  refine (hf a bytes log hQ s').mono (fun t ht => ?_) (fun _ _ _ h => h)
  rcases ht with ⟨later, ht, hnone⟩ | ⟨more, rest, later, target, hP, hmore, hnone, ht⟩
  · refine .inl ⟨log ++ later, ?_, ?_⟩
    · rw [ht, hevents, List.append_assoc]
    · rw [dialled_append, hquiet, hnone, List.append_nil]
  · refine .inr ⟨bytes ++ more, rest, log ++ later, target, hP, ?_, ?_, ?_⟩
    · rw [hunread, hmore, List.append_assoc]
    · rw [dialled_append, hquiet, hnone, List.append_nil]
    · rw [ht, hevents, List.append_assoc s.events]

theorem DialsOnce.silent (hp : DialsOnce p P) (hf : ∀ a, Silent (f a)) : DialsOnce (p >>= f) P := by
  intro s
  refine Safe.bindExcept (hp s) (fun a s' honce _ => ?_) (fun _ _ _ _ => trivial)
  refine (hf a s').mono (fun t ht => ?_) (fun _ _ _ h => h)
  rcases honce with ⟨log, hs', hnone⟩ | ⟨bytes, rest, log, target, hP, hbytes, hnone, hs'⟩
  · exact .inl ⟨log, ht.trans hs', hnone⟩
  · exact .inr ⟨bytes, rest, log, target, hP, hbytes, hnone, ht.trans hs'⟩

theorem DialsOnce.dial (h : P [] []) (target : Target) :
    DialsOnce (dial target : Session ε (Except DialError Unit)) P := by
  intro s
  refine ⟨.inl ⟨[], by simp, rfl⟩, fun r s' answered => ?_⟩
  obtain ⟨t, ⟨limiter, now, -, rfl⟩, rfl⟩ := answered
  exact ⟨.inr ⟨[], s.unread, [], target, h, rfl, rfl, by simp⟩, trivial⟩

theorem DialsOnce.dialWithin (h : P [] []) (limit : Duration) (target : Target) :
    DialsOnce (dialWithin limit target : Session ε (Option (Except DialError Unit))) P := by
  intro s
  refine ⟨.inl ⟨[], by simp, rfl⟩, fun r s' answered => ?_⟩
  obtain ⟨t, ⟨limiter, now, -, rfl⟩, rfl⟩ := answered
  exact ⟨.inr ⟨[], s.unread, [], target, h, rfl, rfl, by simp⟩, trivial⟩

theorem DialsOnce.mono {P' : List UInt8 → List Event → Prop} (hp : DialsOnce p P)
    (h : ∀ bytes log, P bytes log → P' bytes log) : DialsOnce p P' := by
  intro s
  refine (hp s).mono (fun t ht => ?_) (fun _ _ _ h => h)
  rcases ht with ht | ⟨bytes, rest, log, target, hP, hrest⟩
  · exact .inl ht
  · exact .inr ⟨bytes, rest, log, target, h bytes log hP, hrest⟩

end SessionRules

end ThisConnect.Proxy
