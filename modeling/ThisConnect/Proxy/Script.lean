/-
  ThisConnect.Proxy.Script
  **A CLIENT WHOSE PACKETS ARE WRITTEN DOWN.**
-/
import ThisConnect.Proxy.Client

namespace ThisConnect.Proxy

open Net Interaction

/-! ## §1. Scripts. -/

structure Script where
  reads : List (List UInt8)
  sent : List UInt8
  limiter : AuthRateLimiter
  now : Instant
  events : List Event

namespace Script

def conn (s : Script) : Conn := ⟨s.reads.flatten, s.sent, s.limiter, s.now, s.events⟩

/-- No read comes back empty before the end. -/
def Proper (s : Script) : Prop := ∀ chunk ∈ s.reads, chunk ≠ []

end Script

def skip : Nat → List (List UInt8) → List (List UInt8)
  | 0, reads => reads
  | _ + 1, [] => []
  | n + 1, chunk :: reads =>
    if n + 1 < chunk.length then chunk.drop (n + 1) :: reads
    else skip (n + 1 - chunk.length) reads

theorem flatten_skip (reads : List (List UInt8)) :
    ∀ n, (skip n reads).flatten = reads.flatten.drop n := by
  induction reads with
  | nil =>
    intro n
    cases n with
    | zero => rfl
    | succ n => rfl
  | cons chunk reads ih =>
    intro n
    cases n with
    | zero => rfl
    | succ n =>
      rw [skip]
      split
      · next hinside =>
        rw [List.flatten_cons, List.flatten_cons, List.drop_append_of_le_length (by omega)]
      · next hpast =>
        rw [ih, List.flatten_cons, List.drop_append,
          List.drop_eq_nil_of_le (by omega : chunk.length ≤ n + 1), List.nil_append]

theorem skip_proper (reads : List (List UInt8)) : ∀ n, (∀ chunk ∈ reads, chunk ≠ []) →
    ∀ chunk ∈ skip n reads, chunk ≠ [] := by
  induction reads with
  | nil =>
    intro n _ chunk hchunk
    cases n with
    | zero => cases hchunk
    | succ n => cases hchunk
  | cons first reads ih =>
    intro n hreads chunk hchunk
    cases n with
    | zero => exact hreads chunk hchunk
    | succ n =>
      rw [skip] at hchunk
      split at hchunk
      · next hinside =>
        rcases List.mem_cons.mp hchunk with rfl | hchunk
        · exact fun hnil => absurd (List.drop_eq_nil_iff.mp hnil) (by omega)
        · exact hreads chunk (List.mem_cons_of_mem _ hchunk)
      · exact ih _ (fun c hc => hreads c (List.mem_cons_of_mem _ hc)) chunk hchunk

namespace Script

def complete (s : Script) : (op : Io) → Except IoError op.Answer × Script
  | .peek => (.ok (s.reads.flatten.take 1), s)
  | .read max =>
    if max = 0 then (.error .other, s)
    else
      match s.reads with
      | [] => (.ok [], s)
      | chunk :: reads =>
        if chunk.length ≤ max then (.ok chunk, { s with reads := reads })
        else (.ok (chunk.take max), { s with reads := chunk.drop max :: reads })
  | .readExact n =>
    if h : n ≤ s.reads.flatten.length then
      (.ok ⟨(s.reads.flatten.take n).toArray,
          by rw [List.size_toArray, List.length_take_of_le h]⟩,
        { s with reads := skip n s.reads })
    else (.error .unexpectedEof, { s with reads := [] })
  | .writeAll bytes => (.ok (), { s with sent := s.sent ++ bytes })
  | .flush => (.ok (), s)

def deliver (dialer : Target → Except DialError Unit) (s : Script) : (c : Call) → c.Answer × Script
  | .io op => s.complete op
  | .timed _ op => (some (s.complete op).1, (s.complete op).2)
  | .hasCapacity peer => (s.limiter.hasCapacityAt peer s.now,
      { s with events := s.events ++ [.checked peer s.limiter s.now] })
  | .recordFailure peer => ((), { s with limiter := s.limiter.recordFailureAt peer s.now })
  | .dial target => (dialer target, { s with events := s.events ++ [.dialled target] })
  | .dialWithin _ target =>
    (some (dialer target), { s with events := s.events ++ [.dialled target] })
  | .forward _ => (.ok (), s)
  | .relay => (.ok (0, 0), s)

end Script

/-! ## §2. The network may behave like this. -/

variable {s t : Script}

theorem Script.complete_acts (h : s.Proper) (op : Io) :
    acts s.conn (.io op) (s.complete op).1 (s.complete op).2.conn := by
  cases op with
  | peek => exact ⟨rfl, rfl⟩
  | read max =>
    rw [complete]
    split
    · exact Breaks.refl s.conn
    · next hmax =>
      split
      · next hreads =>
        refine ⟨[], ?_, Nat.zero_le _, fun _ => rfl, ?_⟩
        · show s.reads.flatten = []
          rw [hreads]
          rfl
        · show s.conn = { s.conn with unread := [] }
          unfold conn
          rw [hreads]
          rfl
      · next chunk reads hreads =>
        have hne : chunk ≠ [] := h chunk (by rw [hreads]; simp)
        have hunread : s.conn.unread = chunk ++ reads.flatten := by
          show s.reads.flatten = chunk ++ reads.flatten
          rw [hreads, List.flatten_cons]
        split
        · next hfits =>
          exact ⟨reads.flatten, hunread, hfits, fun hnil => absurd hnil hne, rfl⟩
        · refine ⟨chunk.drop max ++ reads.flatten, ?_, List.length_take_le _ _,
            fun hnil => ?_, rfl⟩
          · rw [hunread, ← List.append_assoc, List.take_append_drop]
          · exact absurd ((List.take_eq_nil_iff.mp hnil).resolve_left hmax) hne
  | readExact n =>
    rw [complete]
    split
    · refine ⟨s.reads.flatten.drop n, ?_, ?_⟩
      · show s.reads.flatten = (s.reads.flatten.take n).toArray.toList ++ s.reads.flatten.drop n
        rw [List.toList_toArray, List.take_append_drop]
      · show (Script.mk _ _ _ _ _).conn = _
        unfold conn
        rw [flatten_skip]
    · exact ⟨s.reads.flatten, [], [], (List.append_nil _).symm, by simp [conn]⟩
  | writeAll bytes => exact rfl
  | flush => exact rfl

theorem Script.complete_proper (h : s.Proper) (op : Io) : (s.complete op).2.Proper := by
  cases op with
  | read max =>
    rw [complete]
    split
    · exact h
    · split
      · exact h
      · next chunk reads hreads =>
        have hrest : ∀ c ∈ reads, c ≠ [] := fun c hc => h c (by rw [hreads]; simp [hc])
        split
        · exact hrest
        · next hlong =>
          intro c hc
          rcases List.mem_cons.mp hc with rfl | hc
          · exact fun hnil => absurd (List.drop_eq_nil_iff.mp hnil) (by omega)
          · exact hrest c hc
  | readExact n =>
    rw [complete]
    split
    · exact skip_proper s.reads n h
    · exact fun c hc => by cases hc
  | peek => exact h
  | writeAll bytes => exact h
  | flush => exact h

section Delivery

variable (dialer : Target → Except DialError Unit)

theorem Script.deliver_proper (h : s.Proper) (c : Call) : (s.deliver dialer c).2.Proper := by
  cases c with
  | io op => exact complete_proper h op
  | timed limit op => exact complete_proper h op
  | _ => exact h

theorem Script.deliver_acts (h : s.Proper) (c : Call) :
    acts s.conn c (s.deliver dialer c).1 (s.deliver dialer c).2.conn := by
  cases c with
  | io op => exact complete_acts h op
  | timed limit op => exact acts_timed limit (complete_acts h op)
  | hasCapacity peer => exact ⟨rfl, rfl⟩
  | relay => exact Breaks.refl s.conn
  | _ => exact rfl

def run {ε α : Type} (p : Session ε α) (s : Script) : Except ε α × Script :=
  p.run.exec (fun s c => s.deliver dialer c) s

theorem Script.reaches {α : Type} (p : Task α) : ∀ {s : Script}, s.Proper →
    Reaches answers p s.conn (.ret (p.exec (fun s c => s.deliver dialer c) s).1)
      (p.exec (fun s c => s.deliver dialer c) s).2.conn := by
  induction p with
  | ret a => intro s _; exact .here _ _
  | call c k ih =>
    intro s h
    refine .step ⟨s.conn, ⟨s.limiter, s.now, Nat.le_refl _, rfl⟩, deliver_acts dialer h c⟩ ?_
    exact ih _ (deliver_proper dialer h c)

def Conn.script (s : Conn) : Script :=
  ⟨if s.unread.isEmpty then [] else [s.unread], s.sent, s.limiter, s.now, s.events⟩

theorem Conn.conn_script (s : Conn) : s.script.conn = s := by
  have hreads : (if s.unread.isEmpty then [] else [s.unread]).flatten = s.unread := by
    split
    · next hnil => exact (List.isEmpty_iff.mp hnil).symm
    · exact List.flatten_singleton
  unfold script Script.conn
  rw [hreads]

theorem Conn.script_proper (s : Conn) : s.script.Proper := by
  intro chunk hchunk
  unfold script at hchunk
  split at hchunk
  · cases hchunk
  · next hunread =>
    rw [List.mem_singleton.mp hchunk]
    simpa using hunread

def obliging (s : Conn) (c : Call) : c.Answer × Conn :=
  let (answer, left) := s.script.deliver (fun _ => .ok ()) c
  (answer, left.conn)

theorem answers_obliging (s : Conn) (c : Call) :
    answers s c (obliging s c).1 (obliging s c).2 := by
  have hacts := Script.deliver_acts (fun _ => .ok ()) s.script_proper c
  rw [s.conn_script] at hacts
  exact ⟨s, ⟨s.limiter, s.now, Nat.le_refl _, rfl⟩, hacts⟩

/-! ## §3. Running. -/

variable {ε α β : Type}

variable {a : α} {f : α → Session ε β} {p : Session ε α} {e : ε} {handler : ε → Session ε α}

theorem run_bind_ok (h : run dialer p s = (.ok a, t)) :
    run dialer (p >>= f) s = run dialer (f a) t := by
  refine (Prog.exec_bind _ _ _ _).trans ?_
  rw [show Prog.exec (fun s c => s.deliver dialer c) p s = _ from h]
  rfl

theorem run_bind_error (h : run dialer p s = (.error e, t)) :
    run dialer (p >>= f) s = (.error e, t) := by
  refine (Prog.exec_bind _ _ _ _).trans ?_
  rw [show Prog.exec (fun s c => s.deliver dialer c) p s = _ from h]
  rfl

theorem run_bind_eq_ok {b : β} (h : run dialer (p >>= f) s = (.ok b, t)) :
    ∃ a u, run dialer p s = (.ok a, u) ∧ run dialer (f a) u = (.ok b, t) := by
  cases hp : run dialer p s with
  | mk outcome u =>
    cases outcome with
    | error e =>
      rw [run_bind_error dialer hp] at h
      cases h
    | ok a =>
      rw [run_bind_ok dialer hp] at h
      exact ⟨a, u, rfl, h⟩

theorem run_client_ok {wrap : IoError → ε} {op : Io} {a : op.Answer}
    (h : s.complete op = (.ok a, t)) : run dialer (client wrap op) s = (.ok a, t) := by
  show (match (s.complete op).1 with
    | .ok a => Except.ok a
    | .error e => .error (wrap e), (s.complete op).2) = _
  rw [h]

theorem run_tryCatch_ok (h : run dialer p s = (.ok a, t)) :
    run dialer (tryCatch p handler) s = (.ok a, t) := by
  refine (Prog.exec_bind _ _ _ _).trans ?_
  rw [show Prog.exec (fun s c => s.deliver dialer c) p s = _ from h]
  rfl

theorem run_tryCatch_error (h : run dialer p s = (.error e, t)) :
    run dialer (tryCatch p handler) s = run dialer (handler e) t := by
  refine (Prog.exec_bind _ _ _ _).trans ?_
  rw [show Prog.exec (fun s c => s.deliver dialer c) p s = _ from h]
  rfl

theorem exec_timeout (limit : Duration) (p : Task α) : ∀ s : Script,
    (timeout limit p).exec (fun s c => s.deliver dialer c) s =
      (some (p.exec (fun s c => s.deliver dialer c) s).1,
        (p.exec (fun s c => s.deliver dialer c) s).2) := by
  induction p with
  | ret a => intro s; rfl
  | call c k ih =>
    intro s
    cases c with
    | io op =>
      rw [timeout]
      exact ih (s.complete op).1 (s.complete op).2
    | _ => exact ih _ _

theorem run_deadline (limit : Duration) (p : Session ε α) (s : Script) :
    run dialer (deadline limit p) s = ((run dialer p s).1.map some, (run dialer p s).2) := by
  refine (Prog.exec_bind _ _ _ _).trans ?_
  rw [exec_timeout]
  show _ = ((Prog.exec (fun s c => s.deliver dialer c) p.run s).1.map some, _)
  cases (Prog.exec (fun s c => s.deliver dialer c) p.run s).1 with
  | ok a => rfl
  | error e => rfl

end Delivery

/-! ## §4. What does not depend on the cut. -/

def Gives {ε α : Type} (dialer : Target → Except DialError Unit) (p : Session ε α) (c : Conn)
    (r : Except ε α) (c' : Conn) : Prop :=
  ∀ s : Script, s.conn = c → (run dialer p s).1 = r ∧ (run dialer p s).2.conn = c'

namespace Gives

variable {dialer : Target → Except DialError Unit} {ε α β : Type} {c c' c'' : Conn}

theorem pure (a : α) : Gives dialer (pure a : Session ε α) c (.ok a) c := fun _ hs => ⟨rfl, hs⟩

theorem throw (e : ε) : Gives dialer (throw e : Session ε α) c (.error e) c := fun _ hs => ⟨rfl, hs⟩

theorem ofExcept (r : Except ε α) : Gives dialer (ExceptT.mk (Pure.pure r)) c r c :=
  fun _ hs => ⟨rfl, hs⟩

variable {a : α} {f : α → Session ε β} {p : Session ε α} {e : ε} {handler : ε → Session ε α}

theorem bind {r : Except ε β} (hp : Gives dialer p c (.ok a) c')
    (hf : Gives dialer (f a) c' r c'') :
    Gives dialer (p >>= f) c r c'' := by
  intro s hs
  obtain ⟨hok, hconn⟩ := hp s hs
  rw [run_bind_ok dialer (Prod.ext hok rfl)]
  exact hf _ hconn

theorem error (hp : Gives dialer p c (.error e) c') : Gives dialer (p >>= f) c (.error e) c' := by
  intro s hs
  obtain ⟨herror, hconn⟩ := hp s hs
  rw [run_bind_error dialer (Prod.ext herror rfl)]
  exact ⟨rfl, hconn⟩

theorem tryCatch_ok (hp : Gives dialer p c (.ok a) c') :
    Gives dialer (tryCatch p handler) c (.ok a) c' := by
  intro s hs
  obtain ⟨hok, hconn⟩ := hp s hs
  rw [run_tryCatch_ok dialer (Prod.ext hok rfl)]
  exact ⟨rfl, hconn⟩

theorem tryCatch_error {r : Except ε α} (hp : Gives dialer p c (.error e) c')
    (hh : Gives dialer (handler e) c' r c'') :
    Gives dialer (tryCatch p handler) c r c'' := by
  intro s hs
  obtain ⟨herror, hconn⟩ := hp s hs
  rw [run_tryCatch_error dialer (Prod.ext herror rfl)]
  exact hh _ hconn

theorem readExact {wrap : IoError → ε} {n : Nat} (bytes rest : List UInt8)
    (hunread : c.unread = bytes ++ rest) (hn : bytes.length = n) :
    ∃ v : Vector UInt8 n, v.toList = bytes ∧
      Gives dialer (client wrap (.readExact n)) c (.ok v) { c with unread := rest } := by
  subst hn
  refine ⟨⟨bytes.toArray, by simp⟩, rfl, fun s hs => ?_⟩
  have hflat : s.reads.flatten = bytes ++ rest := by
    rw [← hunread, ← hs]
    rfl
  have hle : bytes.length ≤ s.reads.flatten.length := by
    rw [hflat, List.length_append]
    omega
  have htake : s.reads.flatten.take bytes.length = bytes := by
    rw [hflat, List.take_left]
  have hcomplete : s.complete (.readExact bytes.length) =
      (.ok ⟨bytes.toArray, by simp⟩, { s with reads := skip bytes.length s.reads }) := by
    refine (dif_pos hle).trans ?_
    simp only [htake]
  rw [run_client_ok dialer hcomplete]
  refine ⟨rfl, ?_⟩
  rw [← hs]
  unfold Script.conn
  rw [flatten_skip, hflat, List.drop_left]

theorem send (wrap : IoError → ε) (bytes : List UInt8) :
    Gives dialer (send wrap bytes) c (.ok ()) { c with sent := c.sent ++ bytes } := by
  intro s hs
  subst hs
  exact ⟨rfl, rfl⟩

theorem hasCapacity (peer : IpAddr) :
    Gives dialer (hasCapacity peer : Session ε Bool) c (.ok (c.limiter.hasCapacityAt peer c.now))
      { c with events := c.events ++ [.checked peer c.limiter c.now] } := by
  intro s hs
  subst hs
  exact ⟨rfl, rfl⟩

theorem recordFailure (peer : IpAddr) :
    Gives dialer (recordFailure peer : Session ε Unit) c (.ok ())
      { c with limiter := c.limiter.recordFailureAt peer c.now } := by
  intro s hs
  subst hs
  exact ⟨rfl, rfl⟩

end Gives

end ThisConnect.Proxy
