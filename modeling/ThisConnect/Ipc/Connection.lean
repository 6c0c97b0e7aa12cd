/-
  ThisConnect.Ipc.Connection
  **ONE CLIENT CONNECTION, AND THE HANDSHAKE NOBODY CHECKS.**

  Main result:
    • `gated_iff_timely` — a run that reads only timely messages is gated
      throughout, and the first untimely message read breaks the gate under
      some schedule.
-/
import ThisConnect.Base.Codec
import ThisConnect.Base.Text
import ThisConnect.Base.Transition
import ThisConnect.Ipc.Handler

namespace ThisConnect.Ipc

open Interaction Transition

/-! ## §1. Lines. -/

def maxRequestBytes : Nat := maxMessageBytes

def newline : UInt8 := 0x0A

def readUntil : Nat → List UInt8 → List UInt8 × List UInt8
  | 0, bytes => ([], bytes)
  | _ + 1, [] => ([], [])
  | limit + 1, byte :: bytes =>
    if byte = newline then ([byte], bytes)
    else ((byte :: (readUntil limit bytes).1), (readUntil limit bytes).2)

def decodeMessage (fromStr : String → Option ClientMessage) (line : List UInt8) :
    Option ClientMessage :=
  (Codec.fromUtf8 line).bind fun text => fromStr (String.ofList (text.rdropWhile Text.isWhitespace))

def protocolError (message : String) : DaemonMessage := .error "" ⟨.malformedMessage, message⟩

/-! ## §2. The connection. -/

inductive Task where
  | spawned (n : Nat) (message : ClientMessage)
  | running (rest : Handler)

inductive Event where
  | received (n : Nat) (message : ClientMessage)
  | dispatched (n : Nat) (message : ClientMessage)
  | answered (reply : DaemonMessage)
  | closed
  deriving DecidableEq

structure Connection where
  incoming : List UInt8 := []
  eof : Bool := false
  reading : Bool := true
  count : Nat := 0
  tasks : List Task := []
  history : List Event := []

namespace Connection

def log (c : Connection) (events : List Event) : Connection :=
  { c with history := c.history ++ events }

def close (c : Connection) (replies : List DaemonMessage) : Connection :=
  { c.log (replies.map .answered ++ [.closed]) with reading := false }

def nextLine (c : Connection) : Option (List UInt8) :=
  let line := (readUntil maxRequestBytes c.incoming).1
  if line.getLast? = some newline ∨ line.length = maxRequestBytes ∨ c.eof then some line else none

def take (fromStr : String → Option ClientMessage) (c : Connection) (line : List UInt8) :
    Connection :=
  if line.isEmpty then c.close []
  else if line.getLast? ≠ some newline then c.close [protocolError "message too large"]
  else
    match decodeMessage fromStr line with
    | none => c.close [protocolError "malformed message"]
    | some message =>
      { c.log [.received c.count message] with
        incoming := (readUntil maxRequestBytes c.incoming).2
        count := c.count + 1
        tasks := c.tasks ++ [.spawned c.count message] }

end Connection

inductive Action where
  | receive (bytes : List UInt8)
  | hangUp
  | shutdown
  | read
  | start (task : Nat)
  | answer (task : Nat) (call : Call) (answer : call.Answer)
  | finish (task : Nat)

def Task.resume (call : Call) (answer : call.Answer) : Task → Option Task
  | .running (.call c k) => if h : c = call then some (.running (k (h ▸ answer))) else none
  | _ => none

def step (fromStr : String → Option ClientMessage) (c : Connection) : Action → Option Connection
  | .receive bytes => if c.eof then none else some { c with incoming := c.incoming ++ bytes }
  | .hangUp => some { c with eof := true }
  | .shutdown => if c.reading then some (c.close []) else none
  | .read => if c.reading then c.nextLine.map (c.take fromStr) else none
  | .start task =>
    match c.tasks[task]? with
    | some (.spawned n message) =>
      some { c.log [.dispatched n message] with
        tasks := c.tasks.set task (.running (dispatch message)) }
    | _ => none
  | .answer task call answer =>
    (c.tasks[task]?.bind (Task.resume call answer)).map fun resumed =>
      { c with tasks := c.tasks.set task resumed }
  | .finish task =>
    match c.tasks[task]? with
    | some (.running (.ret reply)) =>
      some { c.log [.answered reply] with tasks := c.tasks.eraseIdx task }
    | _ => none

/-! ## §3. The gate. -/

namespace ClientMessage

def needsHello : ClientMessage → Bool
  | .hello _ _ _ => false
  | .request _ _ | .promptReply _ _ _ => true

def isAccepted : ClientMessage → Bool
  | .hello _ version _ => version == protocolVersion
  | _ => false

def isMismatched : ClientMessage → Bool
  | .hello _ version _ => version != protocolVersion
  | _ => false

end ClientMessage

def Accepted (history : List Event) : Prop :=
  ∃ n message, .dispatched n message ∈ history ∧ message.isAccepted = true

/-- **What the protocol document promises of one connection.** -/
structure Gated (c : Connection) : Prop where
  early : ∀ before n message after, c.history = before ++ .dispatched n message :: after →
    message.needsHello = true → Accepted before
  refused : ∀ before n id request after,
    c.history = before ++ .received n (.request id request) :: after → ¬ Accepted before →
      (∀ k message, .received k message ∉ after) ∧
      (c.tasks = [] →
        (∃ text, .answered (.error id ⟨.handshakeRequired, text⟩) ∈ after) ∧ .closed ∈ after)
  mismatched : ∀ before k hello after n message,
    c.history = before ++ .received k hello :: after → hello.isMismatched = true →
      .received n message ∈ after → .dispatched n message ∉ c.history

def Connection.reads (fromStr : String → Option ClientMessage) (c : Connection) :
    Option ClientMessage :=
  if c.reading then
    c.nextLine.bind fun line =>
      if line.getLast? = some newline then decodeMessage fromStr line else none
  else none

/-- A message may be read now: the handshake it needs has been answered, and no `hello` with
    another version was read before it. -/
def TimelyAt (history : List Event) (message : ClientMessage) : Prop :=
  (message.needsHello = true → Accepted history) ∧
    ∀ k hello, .received k hello ∈ history → hello.isMismatched = false

/-- The client lets nothing be read too early. -/
def Timely (fromStr : String → Option ClientMessage) (c : Connection) : Action → Prop
  | .read => ∀ message, c.reads fromStr = some message → TimelyAt c.history message
  | _ => True

def Event.accepts : Event → Bool
  | .dispatched _ message => message.isAccepted
  | _ => false

theorem accepted_iff_any (history : List Event) :
    Accepted history ↔ history.any Event.accepts = true := by
  rw [List.any_eq_true]
  constructor
  · rintro ⟨n, message, hmem, haccepted⟩
    exact ⟨_, hmem, haccepted⟩
  · rintro ⟨e, hmem, haccepts⟩
    cases e with
    | dispatched n message => exact ⟨n, message, hmem, haccepts⟩
    | _ => exact absurd haccepts (by simp [Event.accepts])

instance (history : List Event) : Decidable (Accepted history) :=
  decidable_of_iff _ (accepted_iff_any history).symm

def Event.mismatches : Event → Bool
  | .received _ message => message.isMismatched
  | _ => false

instance (history : List Event) (message : ClientMessage) : Decidable (TimelyAt history message) :=
  decidable_of_iff ((message.needsHello = true → Accepted history) ∧
      ∀ e ∈ history, e.mismatches = false)
    (and_congr_right fun _ =>
      ⟨fun h k hello hmem => h _ hmem, fun h e hmem => by
        cases e with
        | received k hello => exact h k hello hmem
        | _ => rfl⟩)

instance (fromStr : String → Option ClientMessage) (c : Connection) (a : Action) :
    Decidable (Timely fromStr c a) :=
  match a with
  | .read =>
    decidable_of_iff ((c.reads fromStr).all fun m => decide (TimelyAt c.history m))
      (by simp [Timely, Option.all_eq_true])
  | .receive _ | .hangUp | .shutdown | .start _ | .answer _ _ _ | .finish _ => isTrue trivial

/-- The scheduler runs tasks, and the loop reads nothing more. -/
def Scheduled (_ : Connection) : Action → Prop
  | .read => False
  | _ => True

/-! ## §4. Timely runs. -/

variable {history : List Event}

theorem Accepted.append (h : Accepted history) (events : List Event) :
    Accepted (history ++ events) := by
  obtain ⟨n, message, hmem, haccepted⟩ := h
  exact ⟨n, message, List.mem_append_left _ hmem, haccepted⟩

variable {e : Event} {c c' : Connection} {fromStr : String → Option ClientMessage}
  {message : ClientMessage} {n : Nat} {tasks : List Task}

theorem split_push {before after : List Event} {x : Event}
    (h : history ++ [e] = before ++ x :: after) :
    (x = e ∧ before = history) ∨ ∃ after', history = before ++ x :: after' := by
  induction after using List.reverseRecOn with
  | nil =>
    have hlast := List.append_inj' h rfl
    refine .inl ⟨?_, hlast.1.symm⟩
    simpa using hlast.2.symm
  | append_singleton after' y _ =>
    rw [← List.cons_append, ← List.append_assoc] at h
    exact .inr ⟨after', (List.append_inj' h rfl).1⟩

structure Ordered (history : List Event) : Prop where
  timely : ∀ before n message after, history = before ++ .received n message :: after →
    TimelyAt before message
  early : ∀ before n message after, history = before ++ .dispatched n message :: after →
    message.needsHello = true → Accepted before

theorem Ordered.push (h : Ordered history)
    (hreceived : ∀ n message, e = .received n message → TimelyAt history message)
    (hdispatched : ∀ n message, e = .dispatched n message → message.needsHello = true →
      Accepted history) :
    Ordered (history ++ [e]) where
  timely := by
    intro before n message after hsplit
    rcases split_push hsplit with ⟨rfl, rfl⟩ | ⟨after', hold⟩
    · exact hreceived n message rfl
    · exact h.timely before n message after' hold
  early := by
    intro before n message after hsplit
    rcases split_push hsplit with ⟨rfl, rfl⟩ | ⟨after', hold⟩
    · exact hdispatched n message rfl
    · exact h.early before n message after' hold

theorem Ordered.push_closed (h : Ordered history) : Ordered (history ++ [.closed]) :=
  h.push (fun _ _ he => by cases he) (fun _ _ he => by cases he)

theorem Ordered.push_answered (h : Ordered history) (d : DaemonMessage) :
    Ordered (history ++ [.answered d]) :=
  h.push (fun _ _ he => by cases he) (fun _ _ he => by cases he)

/-- The history is in order, and a task that needs the handshake was spawned after it. -/
structure Orderly (c : Connection) : Prop where
  ordered : Ordered c.history
  tasks : ∀ n message, .spawned n message ∈ c.tasks → message.needsHello = true →
    Accepted c.history

theorem Orderly.init : Orderly {} where
  ordered :=
    { timely := fun before _ _ _ h => by simp at h
      early := fun before _ _ _ h => by simp at h }
  tasks := fun _ _ h => by simp at h

theorem Orderly.close (h : Orderly c) (replies : List DaemonMessage) :
    Orderly (c.close replies) where
  ordered := by
    show Ordered (c.history ++ (replies.map Event.answered ++ [.closed]))
    rw [← List.append_assoc]
    apply Ordered.push_closed
    induction replies using List.reverseRecOn with
    | nil => simpa using h.ordered
    | append_singleton rest d ih =>
      rw [List.map_append, ← List.append_assoc]
      exact ih.push_answered d
  tasks := fun n message hmem hneeds => (h.tasks n message hmem hneeds).append _

theorem step_read (h : step fromStr c .read = some c') :
    (c.reads fromStr = none ∧ ∃ replies, c' = c.close replies) ∨
    ∃ message, c.reads fromStr = some message ∧
      c'.history = c.history ++ [.received c.count message] ∧
      c'.tasks = c.tasks ++ [.spawned c.count message] := by
  simp only [step] at h
  obtain ⟨hreading, h⟩ := some_of_guard h
  obtain ⟨line, hline, rfl⟩ := Option.map_eq_some_iff.mp h
  by_cases hempty : line.isEmpty = true
  · have hnil : line = [] := by simpa using hempty
    refine .inl ⟨?_, [], by simp [Connection.take, hempty]⟩
    simp [Connection.reads, hreading, hline, hnil]
  · by_cases hends : line.getLast? = some newline
    · cases hdecoded : decodeMessage fromStr line with
      | none =>
        refine .inl ⟨?_, [protocolError "malformed message"], ?_⟩
        · simp [Connection.reads, hreading, hline, hends, hdecoded]
        · simp [Connection.take, hempty, hends, hdecoded]
      | some message =>
        refine .inr ⟨message, ?_, ?_, ?_⟩
        · simp [Connection.reads, hreading, hline, hends, hdecoded]
        · simp [Connection.take, Connection.log, hempty, hends, hdecoded]
        · simp [Connection.take, Connection.log, hempty, hends, hdecoded]
    · refine .inl ⟨?_, [protocolError "message too large"], ?_⟩
      · simp [Connection.reads, hreading, hline, hends]
      · simp [Connection.take, hempty, hends]

theorem Task.resume_running {call : Call} {answer : call.Answer} {task resumed : Task}
    (h : task.resume call answer = some resumed) : ∃ rest, resumed = .running rest := by
  unfold Task.resume at h
  split at h
  · split at h
    · injection h with h
      exact ⟨_, h.symm⟩
    · exact absurd h (by simp)
  · exact absurd h (by simp)

theorem spawned_mem_of_set {i : Nat} {rest : Handler}
    (h : .spawned n message ∈ tasks.set i (.running rest)) :
    .spawned n message ∈ tasks := by
  rcases List.mem_or_eq_of_mem_set h with h | h
  · exact h
  · cases h

theorem Orderly.of_step {a : Action} (h : Orderly c) (htimely : Timely fromStr c a)
    (hstep : step fromStr c a = some c') :
    Orderly c' := by
  cases a with
  | receive bytes =>
    simp only [step] at hstep
    obtain ⟨_, ⟨⟩⟩ := some_of_unless hstep
    exact ⟨h.ordered, h.tasks⟩
  | hangUp =>
    injection hstep with hstep
    subst hstep
    exact ⟨h.ordered, h.tasks⟩
  | shutdown =>
    simp only [step] at hstep
    obtain ⟨_, ⟨⟩⟩ := some_of_guard hstep
    exact h.close []
  | read =>
    rcases step_read hstep with ⟨_, replies, rfl⟩ | ⟨message, hreads, hhistory, htasks⟩
    · exact h.close replies
    · have hmessage := htimely message hreads
      refine ⟨?_, ?_⟩
      · rw [hhistory]
        refine h.ordered.push ?_ (fun _ _ he => by cases he)
        rintro n m ⟨⟩
        exact hmessage
      · intro n m hmem hneeds
        rw [hhistory]
        rw [htasks, List.mem_append, List.mem_singleton] at hmem
        rcases hmem with hmem | heq
        · exact (h.tasks n m hmem hneeds).append _
        · injection heq with _ heq
          subst heq
          exact (hmessage.1 hneeds).append _
  | start task =>
    simp only [step] at hstep
    split at hstep
    · next n message htask =>
      cases hstep
      refine ⟨h.ordered.push (fun _ _ he => by cases he) ?_, ?_⟩
      · rintro k m ⟨⟩ hneeds
        exact h.tasks n message (List.mem_of_getElem? htask) hneeds
      · intro k m hmem hneeds
        exact (h.tasks k m (spawned_mem_of_set hmem) hneeds).append _
    · exact absurd hstep (by simp)
  | answer task call answer =>
    obtain ⟨resumed, hresumed, rfl⟩ := Option.map_eq_some_iff.mp hstep
    obtain ⟨old, _, hresume⟩ := Option.bind_eq_some_iff.mp hresumed
    obtain ⟨rest, rfl⟩ := Task.resume_running hresume
    exact ⟨h.ordered, fun k m hmem hneeds => h.tasks k m (spawned_mem_of_set hmem) hneeds⟩
  | finish task =>
    simp only [step] at hstep
    split at hstep
    · injection hstep with hstep
      subst hstep
      refine ⟨h.ordered.push_answered _, ?_⟩
      intro k m hmem hneeds
      exact (h.tasks k m (List.mem_of_mem_eraseIdx hmem) hneeds).append _
    · exact absurd hstep (by simp)

theorem Orderly.gated (h : Orderly c) : Gated c where
  early := h.ordered.early
  refused := by
    intro before n id request after hsplit hnone
    exact absurd ((h.ordered.timely before n _ after hsplit).1 rfl) hnone
  mismatched := by
    intro before k hello after n message hsplit hmismatched hlater
    obtain ⟨mid, rest, rfl⟩ := List.append_of_mem hlater
    have htimely := h.ordered.timely (before ++ .received k hello :: mid) n message rest
      (by rw [hsplit, List.append_assoc, List.cons_append])
    have hfalse := htimely.2 k hello (by simp)
    rw [hmismatched] at hfalse
    exact absurd hfalse (by simp)

/-! ## §5. The gate holds exactly as long as the client keeps it. -/

theorem start_last (htasks : c.tasks = tasks ++ [.spawned n message]) :
    ∃ t, step fromStr c (.start tasks.length) = some t ∧
      t.history = c.history ++ [.dispatched n message] := by
  have hget : c.tasks[tasks.length]? = some (.spawned n message) := by simp [htasks]
  refine ⟨{ c.log [.dispatched n message] with
    tasks := c.tasks.set tasks.length (.running (dispatch message)) }, ?_, rfl⟩
  simp [step, hget]

/-- **The handshake gate is kept by the client alone.**  A run in which every message is read in
    time is gated; and a message that is read next keeps it gated, however the tasks are then
    scheduled, exactly when it is read in time. -/
theorem gated_iff_timely (fromStr : String → Option ClientMessage) (c : Connection)
    (hc : Reachable (step fromStr) (Timely fromStr) {} c) :
    Gated c ∧
    ∀ message c', c.reads fromStr = some message → step fromStr c .read = some c' →
      ((∀ t, Reachable (step fromStr) Scheduled c' t → Gated t) ↔
        TimelyAt c.history message) := by
  have horderly : Orderly c :=
    Reachable.invariant Orderly.init (fun _ _ _ h htimely hstep => h.of_step htimely hstep) hc
  refine ⟨horderly.gated, ?_⟩
  intro message c' hreads hstep
  rcases step_read hstep with ⟨hnone, _⟩ | ⟨m, hm, hhistory, htasks⟩
  · rw [hnone] at hreads
    exact absurd hreads (by simp)
  obtain rfl : m = message := by rw [hm] at hreads; exact Option.some.inj hreads
  constructor
  · intro hgated
    obtain ⟨t, ht, hlog⟩ := @start_last _ fromStr _ _ _ htasks
    have hbad := hgated t (.step .init (show Scheduled c' (.start c.tasks.length) from trivial) ht)
    rw [hhistory] at hlog
    refine ⟨?_, ?_⟩
    · intro hneeds
      -- the task that was just started is the last event of the history
      obtain ⟨n, hello, hmem, haccepted⟩ := hbad.early _ c.count m [] hlog hneeds
      refine ⟨n, hello, ?_, haccepted⟩
      simpa using hmem
    · intro k hello hmem
      by_contra hmismatched
      obtain ⟨before, after, hsplit⟩ := List.append_of_mem hmem
      refine hbad.mismatched before k hello
        (after ++ [.received c.count m, .dispatched c.count m]) c.count m ?_
        (by simpa using hmismatched) (by simp) (by simp [hlog])
      simp [hlog, hsplit]
  · intro htimely t ht
    have hafter : Orderly c' := horderly.of_step (a := .read)
      (fun m' hm' => by rw [hm] at hm'; exact Option.some.inj hm' ▸ htimely) hstep
    refine (Reachable.invariant hafter (fun s a s' hs hallowed hstep' => ?_) ht).gated
    refine hs.of_step ?_ hstep'
    cases a with
    | read => exact hallowed.elim
    | _ => trivial

/-! ## §6. A client that says hello, and one that does not. -/

def helloText : String :=
  "\x7b\"type\":\"hello\",\"id\":\"1\",\"protocol_version\":1,\"client_name\":\"gui\"\x7d"

def disconnectText : String :=
  "\x7b\"type\":\"request\",\"id\":\"2\",\"request\":\x7b\"type\":\"disconnect\"\x7d\x7d"

def sampleFromStr (text : String) : Option ClientMessage :=
  if text = helloText then some (.hello "1" 1 "gui")
  else if text = disconnectText then some (.request "2" .disconnect)
  else none

def wire (text : String) : List UInt8 := text.toList.map (fun c => c.toNat.toUInt8) ++ [newline]

def politeRun : List Action :=
  [.receive (wire helloText), .read, .start 0, .finish 0, .receive (wire disconnectText)]

theorem gated_after_hello :
    ∃ c c', Reachable (step sampleFromStr) (Timely sampleFromStr) {} c ∧
      c.reads sampleFromStr = some (.request "2" .disconnect) ∧
      step sampleFromStr c .read = some c' ∧ Gated c ∧
      ∀ t, Reachable (step sampleFromStr) Scheduled c' t → Gated t := by
  obtain ⟨c, hc, hreads, hstep, htimely⟩ :=
    @reachable_of_replay _ _ (step sampleFromStr) (Timely sampleFromStr) {} _
      (fun c => c.reads sampleFromStr = some (.request "2" .disconnect) ∧
        (step sampleFromStr c .read).isSome = true ∧
        TimelyAt c.history (.request "2" .disconnect)) _
      politeRun (by decide +kernel)
  obtain ⟨c', hc'⟩ := Option.isSome_iff_exists.mp hstep
  have hgated := gated_iff_timely sampleFromStr c hc
  exact ⟨c, c', hc, hreads, hc', hgated.1, (hgated.2 _ c' hreads hc').mpr htimely⟩

def eagerRun : List Action :=
  [.receive (wire disconnectText), .read, .start 0, .answer 0 .disconnect (.ok ()), .finish 0]

/-- **No handshake is needed.**  The request is carried out and acknowledged, and the connection
    stays open. -/
theorem disconnects_before_hello :
    ∃ c, Reachable (step sampleFromStr) Anything {} c ∧ c.reading = true ∧
      c.history = [.received 0 (.request "2" .disconnect),
        .dispatched 0 (.request "2" .disconnect), .answered (.response "2" .ack)] ∧ ¬ Gated c := by
  obtain ⟨c, hc, hreading, hhistory⟩ := @reachable_of_replay _ _ (step sampleFromStr) Anything {} _
    (fun c => c.reading = true ∧ c.history = [.received 0 (.request "2" .disconnect),
      .dispatched 0 (.request "2" .disconnect), .answered (.response "2" .ack)]) _
    eagerRun (by decide +kernel)
  refine ⟨c, hc, hreading, hhistory, ?_⟩
  intro hgated
  obtain ⟨n, hello, hmem, haccepted⟩ := hgated.early
    [.received 0 (.request "2" .disconnect)] 0 _ [.answered (.response "2" .ack)] hhistory rfl
  simp at hmem

end ThisConnect.Ipc
