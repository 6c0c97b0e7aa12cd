/-
  ThisConnect.Ipc.Framing
  **DO THE TWO ENDS AGREE ON WHAT A LINE IS?**

  Main result:
    • `framing_agrees_iff` — all messages sent are dispatched, in every run,
      exactly when every line is shorter than the cap; all messages written by
      the daemon are decoded exactly when no line is longer than it.
-/
import ThisConnect.Ipc.Wire

namespace ThisConnect.Ipc

open Transition

variable {m : ClientMessage} {post : List UInt8}

/-! ## §1. What a run was given, and what it did. -/

def Action.bytes : Action → List UInt8
  | .receive bytes => bytes
  | _ => []

def arrived (actions : List Action) : List UInt8 := actions.flatMap Action.bytes

def Event.received? : Event → Option ClientMessage
  | .received _ message => some message
  | _ => none

def Event.dispatched? : Event → Option ClientMessage
  | .dispatched _ message => some message
  | _ => none

def Task.spawned? : Task → Option ClientMessage
  | .spawned _ message => some message
  | .running _ => none

namespace Connection

/-- The messages read, in order. -/
def received (c : Connection) : List ClientMessage := c.history.filterMap Event.received?

def dispatched (c : Connection) : List ClientMessage := c.history.filterMap Event.dispatched?

def waiting (c : Connection) : List ClientMessage := c.tasks.filterMap Task.spawned?

end Connection

/-- The daemon is not told to stop. -/
def KeepsRunning (_ : Connection) : Action → Prop
  | .shutdown => False
  | _ => True

instance (c : Connection) (a : Action) : Decidable (KeepsRunning c a) :=
  match a with
  | .shutdown => isFalse id
  | .receive _ | .hangUp | .read | .start _ | .answer _ _ _ | .finish _ => isTrue trivial

def AtRest (fromStr : String → Option ClientMessage) (c : Connection) : Prop :=
  step fromStr c .read = none ∧ ∀ task, step fromStr c (.start task) = none

/-- **The daemon dispatches exactly what was sent**, however the bytes are cut and the tasks
    scheduled: never anything else, and all of it as soon as it comes to rest, which it can. -/
def DispatchesAll (serde : Serde ClientMessage) (wire : List UInt8)
    (messages : List ClientMessage) : Prop :=
  ∀ actions c, replay (step serde.fromStr) KeepsRunning {} actions = some c →
    arrived actions = wire →
      c.received <+: messages ∧
      (∃ more t, arrived more = [] ∧ replay (step serde.fromStr) KeepsRunning c more = some t ∧
        AtRest serde.fromStr t) ∧
      (AtRest serde.fromStr c → c.received = messages ∧ c.dispatched.Perm messages)

def ReaderAction.bytes : ReaderAction → List UInt8
  | .readMore chunk => chunk
  | .takeLine => []

def chunked (actions : List ReaderAction) : List UInt8 := actions.flatMap ReaderAction.bytes

/-- **The GUI decodes exactly what was written.** -/
def DecodesAll {D : Type} (serde : Serde D) (messages : List D) : Prop :=
  ∀ actions r, replay LineReader.step Anything {} actions = some r →
    chunked actions = writeLines serde messages →
      r.taken.map (decodeLine serde) <+: messages.map .ok ∧
      (∃ more t, chunked more = [] ∧ replay LineReader.step Anything r more = some t ∧
        t.step .takeLine = none) ∧
      (r.step .takeLine = none → r.taken.map (decodeLine serde) = messages.map .ok)

/-! ## §2. What has arrived of the next line. -/

section Arrival

variable {M : Type} (serde : Serde M)

variable {coming incoming : List UInt8}

theorem arrival {m : M} {rest : List M} (h : incoming ++ coming = writeLines serde (m :: rest)) :
    (∃ post, incoming = lineBytes serde m ++ newline :: post ∧
      post ++ coming = writeLines serde rest) ∨
    (newline ∉ incoming ∧ incoming.length ≤ (lineBytes serde m).length ∧ coming ≠ []) := by
  rw [writeLines, List.map_cons, Framing.stream_cons] at h
  rcases List.append_eq_append_iff.mp h with ⟨tail, hline, hcoming⟩ | ⟨post, hincoming, htail⟩
  · refine .inr ⟨fun hmem => ?_, ?_, ?_⟩
    · exact newline_not_mem_lineBytes serde m (hline ▸ List.mem_append_left _ hmem)
    · rw [hline, List.length_append]
      exact Nat.le_add_right _ _
    · rw [hcoming]
      simp
  · cases post with
    | nil =>
      refine .inr ⟨?_, ?_, ?_⟩
      · rw [hincoming, List.append_nil]
        exact newline_not_mem_lineBytes serde m
      · rw [hincoming, List.append_nil]
      · intro hnil
        rw [hnil] at htail
        cases htail
    | cons b post =>
      rw [List.cons_append] at htail
      obtain ⟨rfl, hpost⟩ := List.cons.inj htail
      exact .inl ⟨post, hincoming, hpost.symm⟩

theorem arrival_nil (h : incoming ++ coming = writeLines serde ([] : List M)) :
    incoming = [] ∧ coming = [] :=
  List.append_eq_nil_iff.mp h

end Arrival

/-! ## §3. One iteration of the daemon's loop. -/

section Read

variable {serde : Serde ClientMessage} {c : Connection}

theorem maxRequestBytes_pos : 0 < maxRequestBytes := by decide

def Connection.accept (c : Connection) (m : ClientMessage) (post : List UInt8) : Connection :=
  { c.log [.received c.count m] with
    incoming := post
    count := c.count + 1
    tasks := c.tasks ++ [.spawned c.count m] }

variable {c' : Connection}

theorem reading_of_read (h : step serde.fromStr c .read = some c') :
    c.reading = true := by
  by_contra hclosed
  simp only [step] at h
  rw [if_neg hclosed] at h
  cases h

theorem read_complete (hreading : c.reading = true)
    (hincoming : c.incoming = lineBytes serde m ++ newline :: post)
    (hshort : (lineBytes serde m).length < maxRequestBytes) :
    step serde.fromStr c .read = some (c.accept m post) := by
  have huntil : readUntil maxRequestBytes c.incoming = (lineBytes serde m ++ [newline], post) := by
    rw [hincoming]
    exact readUntil_line (newline_not_mem_lineBytes serde m) post hshort
  have hlast : (lineBytes serde m ++ [newline]).getLast? = some newline := by simp
  have hline : c.nextLine = some (lineBytes serde m ++ [newline]) := by
    unfold Connection.nextLine
    rw [huntil]
    exact if_pos (.inl hlast)
  have htake : c.take serde.fromStr (lineBytes serde m ++ [newline]) = c.accept m post := by
    unfold Connection.take
    rw [if_neg (by simp), if_neg (fun h => h hlast), decodeMessage_line, huntil]
    rfl
  simp only [step]
  rw [if_pos hreading, hline, Option.map_some, htake]

theorem nextLine_open (hnone : newline ∉ c.incoming.take maxRequestBytes) :
    c.nextLine = if maxRequestBytes ≤ c.incoming.length ∨ c.eof = true
      then some (c.incoming.take maxRequestBytes) else none := by
  have hlast : (c.incoming.take maxRequestBytes).getLast? ≠ some newline :=
    fun h => hnone (List.mem_of_getLast? h)
  have hfull : (c.incoming.take maxRequestBytes).length = maxRequestBytes ↔
      maxRequestBytes ≤ c.incoming.length := by
    rw [List.length_take]
    omega
  unfold Connection.nextLine
  rw [readUntil_open hnone]
  simp only [hlast, hfull, false_or]

theorem read_oversize (hreading : c.reading = true)
    (hnone : newline ∉ c.incoming.take maxRequestBytes)
    (hlong : maxRequestBytes ≤ c.incoming.length) :
    step serde.fromStr c .read = some (c.close [protocolError "message too large"]) := by
  have hlast : (c.incoming.take maxRequestBytes).getLast? ≠ some newline :=
    fun h => hnone (List.mem_of_getLast? h)
  have hne : (c.incoming.take maxRequestBytes).isEmpty = false := by
    have hpos := maxRequestBytes_pos
    rw [List.isEmpty_eq_false_iff, ← List.length_pos_iff, List.length_take]
    omega
  simp only [step]
  rw [if_pos hreading, nextLine_open hnone, if_pos (.inl hlong), Option.map_some]
  unfold Connection.take
  rw [hne, if_neg (by decide), if_pos hlast]

theorem read_long (hreading : c.reading = true)
    (hincoming : c.incoming = lineBytes serde m ++ newline :: post)
    (hlong : maxRequestBytes ≤ (lineBytes serde m).length) :
    step serde.fromStr c .read = some (c.close [protocolError "message too large"]) := by
  refine read_oversize hreading ?_ ?_
  · rw [hincoming, List.take_append_of_le_length hlong]
    exact fun hmem => newline_not_mem_lineBytes serde m (List.mem_of_mem_take hmem)
  · rw [hincoming, List.length_append]
    exact Nat.le_trans hlong (Nat.le_add_right _ _)

theorem read_unfinished (hnone : newline ∉ c.incoming) (hopen : c.eof = false)
    (hshort : c.incoming.length < maxRequestBytes) :
    step serde.fromStr c .read = none := by
  have hnone' : newline ∉ c.incoming.take maxRequestBytes :=
    fun h => hnone (List.mem_of_mem_take h)
  simp only [step]
  split
  · rw [nextLine_open hnone', if_neg]
    · rfl
    · simp only [hopen, Bool.false_eq_true, or_false]
      omega
  · rfl

theorem read_end (hreading : c.reading = true) (hempty : c.incoming = []) (hend : c.eof = true) :
    step serde.fromStr c .read = some (c.close []) := by
  have hnone : newline ∉ c.incoming.take maxRequestBytes := by simp [hempty]
  simp only [step]
  rw [if_pos hreading, nextLine_open hnone, if_pos (.inr hend), Option.map_some, hempty]
  unfold Connection.take
  rw [List.take_nil]
  rfl

theorem read_cases {coming : List UInt8} {messages : List ClientMessage}
    (hstream : c.incoming ++ coming = writeLines serde messages) (hend : c.eof = true → coming = [])
    (h : step serde.fromStr c .read = some c') :
    (messages = [] ∧ ∃ replies, c' = c.close replies) ∨
    ∃ m rest, messages = m :: rest ∧
      ((maxRequestBytes ≤ (lineBytes serde m).length ∧ ∃ replies, c' = c.close replies) ∨
        ((lineBytes serde m).length < maxRequestBytes ∧
          ∃ post, c' = c.accept m post ∧ post ++ coming = writeLines serde rest)) := by
  have hreading := reading_of_read h
  cases messages with
  | nil =>
    obtain ⟨hempty, _⟩ := arrival_nil serde hstream
    refine .inl ⟨rfl, ?_⟩
    cases heof : c.eof with
    | true =>
      rw [read_end hreading hempty heof] at h
      injection h with h
      exact ⟨_, h.symm⟩
    | false =>
      rw [read_unfinished (by simp [hempty]) heof
        (by rw [hempty]; exact maxRequestBytes_pos)] at h
      cases h
  | cons m rest =>
    refine .inr ⟨m, rest, rfl, ?_⟩
    rcases arrival serde hstream with ⟨post, hincoming, hpost⟩ | ⟨hnone, hlen, hcoming⟩
    · rcases Nat.lt_or_ge (lineBytes serde m).length maxRequestBytes with hshort | hlong
      · rw [read_complete hreading hincoming hshort] at h
        injection h with h
        exact .inr ⟨hshort, post, h.symm, hpost⟩
      · rw [read_long hreading hincoming hlong] at h
        injection h with h
        exact .inl ⟨hlong, _, h.symm⟩
    · rcases Nat.lt_or_ge c.incoming.length maxRequestBytes with hshort | hlong
      · have hopen : c.eof = false := by
          rw [← Bool.not_eq_true]
          exact fun heof => hcoming (hend heof)
        rw [read_unfinished hnone hopen hshort] at h
        cases h
      · rw [read_oversize hreading (fun hmem => hnone (List.mem_of_mem_take hmem)) hlong] at h
        injection h with h
        exact .inl ⟨Nat.le_trans hlong hlen, _, h.symm⟩

theorem read_enabled (hreading : c.reading = true)
    (hincoming : c.incoming = lineBytes serde m ++ newline :: post) :
    step serde.fromStr c .read ≠ none := by
  rcases Nat.lt_or_ge (lineBytes serde m).length maxRequestBytes with hshort | hlong
  · rw [read_complete hreading hincoming hshort]
    simp
  · rw [read_long hreading hincoming hlong]
    simp

end Read

/-! ## §4. The other actions. -/

section Frame

variable {serde : Serde ClientMessage} {c c' : Connection}

@[simp] theorem received_log (c : Connection) (events : List Event) :
    (c.log events).received = c.received ++ events.filterMap Event.received? :=
  List.filterMap_append

@[simp] theorem dispatched_log (c : Connection) (events : List Event) :
    (c.log events).dispatched = c.dispatched ++ events.filterMap Event.dispatched? :=
  List.filterMap_append

theorem close_quiet (c : Connection) (replies : List DaemonMessage) :
    (c.close replies).received = c.received ∧ (c.close replies).dispatched = c.dispatched := by
  constructor
  · show (c.log _).received = _
    rw [received_log, List.filterMap_append, List.filterMap_map]
    simp [Event.received?, Function.comp_def]
  · show (c.log _).dispatched = _
    rw [dispatched_log, List.filterMap_append, List.filterMap_map]
    simp [Event.dispatched?, Function.comp_def]

@[simp] theorem filterMap_running (rest : Handler) (tasks : List Task) :
    (Task.running rest :: tasks).filterMap Task.spawned? = tasks.filterMap Task.spawned? := rfl

theorem split_at {α : Type} {l : List α} {i : Nat} {a : α} (h : l[i]? = some a) :
    ∃ left right, l = left ++ a :: right ∧ left.length = i := by
  obtain ⟨hi, rfl⟩ := List.getElem?_eq_some_iff.mp h
  refine ⟨l.take i, l.drop (i + 1), ?_, List.length_take_of_le (Nat.le_of_lt hi)⟩
  rw [List.getElem_cons_drop, List.take_append_drop]

theorem other_step {a : Action} (hread : a ≠ .read) (hrunning : KeepsRunning c a)
    (h : step serde.fromStr c a = some c') :
    c'.incoming = c.incoming ++ a.bytes ∧ c'.reading = c.reading ∧ c'.count = c.count ∧
      c'.received = c.received ∧ (c.dispatched ++ c.waiting).Perm (c'.dispatched ++ c'.waiting) ∧
      (c.eof = true → c'.eof = true ∧ a.bytes = []) := by
  cases a with
  | receive bytes =>
    simp only [step] at h
    obtain ⟨hopen, ⟨⟩⟩ := some_of_unless h
    exact ⟨rfl, rfl, rfl, rfl, .refl _, fun heof => absurd heof hopen⟩
  | hangUp =>
    injection h with h
    subst h
    exact ⟨(List.append_nil _).symm, rfl, rfl, rfl, .refl _, fun _ => ⟨rfl, rfl⟩⟩
  | shutdown => exact hrunning.elim
  | read => exact absurd rfl hread
  | start task =>
    simp only [step] at h
    split at h
    · next n message htask =>
      injection h with h
      subst h
      refine ⟨(List.append_nil _).symm, rfl, rfl, ?_, ?_, fun heof => ⟨heof, rfl⟩⟩
      · show (c.log _).received = _
        simp [Event.received?]
      · obtain ⟨left, right, htasks, rfl⟩ := split_at htask
        have hdispatched : (c.log [.dispatched n message]).dispatched =
            c.dispatched ++ [message] := dispatched_log c _
        show List.Perm _ ((c.log [.dispatched n message]).dispatched ++
          List.filterMap Task.spawned? (c.tasks.set left.length _))
        rw [hdispatched, List.append_assoc]
        refine List.Perm.append_left _ ?_
        simp only [Connection.waiting, htasks, List.filterMap_append, List.set_append_right,
          Nat.le_refl, Nat.sub_self, List.set_cons_zero, filterMap_running]
        exact List.perm_middle
    · cases h
  | answer task call answer =>
    obtain ⟨resumed, hresumed, rfl⟩ := Option.map_eq_some_iff.mp h
    obtain ⟨old, hold, hresume⟩ := Option.bind_eq_some_iff.mp hresumed
    refine ⟨(List.append_nil _).symm, rfl, rfl, rfl, ?_, fun heof => ⟨heof, rfl⟩⟩
    obtain ⟨left, right, htasks, rfl⟩ := split_at hold
    have hrest : old.spawned? = resumed.spawned? := by
      obtain ⟨rest, rfl⟩ := Task.resume_running hresume
      cases old with
      | spawned n message => cases hresume
      | running rest => rfl
    refine .of_eq (congrArg (c.dispatched ++ ·) ?_)
    simp [Connection.waiting, htasks, List.filterMap_cons, hrest]
  | finish task =>
    simp only [step] at h
    split at h
    · next reply htask =>
      injection h with h
      subst h
      refine ⟨(List.append_nil _).symm, rfl, rfl, ?_, ?_, fun heof => ⟨heof, rfl⟩⟩
      · show (c.log _).received = _
        simp [Event.received?]
      · obtain ⟨left, right, htasks, rfl⟩ := split_at htask
        refine .of_eq ?_
        have hdispatched : (c.log [.answered reply]).dispatched = c.dispatched := by
          simp [Event.dispatched?]
        show _ = (c.log [.answered reply]).dispatched ++
          List.filterMap Task.spawned? (c.tasks.eraseIdx left.length)
        rw [hdispatched, htasks, List.eraseIdx_append_of_length_le (Nat.le_refl _)]
        simp [Connection.waiting, htasks]
    · cases h

end Frame

/-! ## §5. Runs of the daemon. -/

structure Delivering (serde : Serde ClientMessage) (messages : List ClientMessage)
    (c : Connection) (coming : List UInt8) : Prop where
  count : c.count ≤ messages.length
  received : c.received = messages.take c.count
  tasks : (c.dispatched ++ c.waiting).Perm c.received
  short : ∀ m ∈ messages.take c.count, (lineBytes serde m).length < maxRequestBytes
  stream : c.reading = true → c.incoming ++ coming = writeLines serde (messages.drop c.count)
  stopped : c.reading = false → messages.drop c.count = [] ∨
    ∃ m rest, messages.drop c.count = m :: rest ∧ maxRequestBytes ≤ (lineBytes serde m).length

section Runs

variable {serde : Serde ClientMessage} {messages : List ClientMessage} {c c' : Connection}
  {coming : List UInt8}

theorem Delivering.init : Delivering serde messages {} (writeLines serde messages) where
  count := Nat.zero_le _
  received := rfl
  tasks := .refl _
  short := fun m h => absurd h (by simp)
  stream := fun _ => rfl
  stopped := fun h => by cases h

theorem Delivering.close (h : Delivering serde messages c coming) (replies : List DaemonMessage)
    (hstopped : messages.drop c.count = [] ∨ ∃ m rest, messages.drop c.count = m :: rest ∧
      maxRequestBytes ≤ (lineBytes serde m).length) :
    Delivering serde messages (c.close replies) coming where
  count := h.count
  received := (close_quiet c replies).1.trans h.received
  tasks := by
    rw [(close_quiet c replies).1, (close_quiet c replies).2]
    exact h.tasks
  short := h.short
  stream := fun hreading => by cases hreading
  stopped := fun _ => hstopped

theorem Delivering.accept (h : Delivering serde messages c coming) {rest : List ClientMessage}
    (hreading : c.reading = true) (hnext : messages.drop c.count = m :: rest)
    (hshort : (lineBytes serde m).length < maxRequestBytes)
    (hpost : post ++ coming = writeLines serde rest) :
    Delivering serde messages (c.accept m post) coming := by
  have hlt : c.count < messages.length := by
    by_contra hge
    rw [List.drop_eq_nil_of_le (Nat.le_of_not_lt hge)] at hnext
    cases hnext
  have hcons := List.drop_eq_getElem_cons hlt
  rw [hnext] at hcons
  obtain ⟨hm, hrest⟩ := List.cons.inj hcons
  have htake : messages.take (c.count + 1) = messages.take c.count ++ [m] := by
    rw [List.take_succ_eq_append_getElem hlt, hm]
  have hreceived : (c.accept m post).received = c.received ++ [m] := received_log c _
  have hdispatched : (c.accept m post).dispatched = c.dispatched := by
    show (c.log _).dispatched = _
    simp [Event.dispatched?]
  have hwaiting : (c.accept m post).waiting = c.waiting ++ [m] := List.filterMap_append
  exact
    { count := hlt
      received := by
        rw [hreceived, h.received]
        exact htake.symm
      tasks := by
        rw [hreceived, hdispatched, hwaiting, ← List.append_assoc]
        exact h.tasks.append_right _
      short := by
        intro m' hm'
        change m' ∈ messages.take (c.count + 1) at hm'
        rw [htake, List.mem_append, List.mem_singleton] at hm'
        rcases hm' with hm' | rfl
        · exact h.short m' hm'
        · exact hshort
      stream := fun _ => hpost.trans (congrArg (writeLines serde) hrest)
      stopped := fun hclosed => absurd (hreading.symm.trans hclosed) (by decide) }

variable {a : Action} {task : Nat}

theorem Delivering.step (h : Delivering serde messages c (a.bytes ++ coming))
    (hrunning : KeepsRunning c a) (hend : c.eof = true → coming = [])
    (hstep : step serde.fromStr c a = some c') : Delivering serde messages c' coming := by
  by_cases hread : a = .read
  · subst hread
    have hreading := reading_of_read hstep
    rcases read_cases (h.stream hreading) hend hstep with
      ⟨hnil, replies, rfl⟩ | ⟨m, rest, hnext, ⟨hlong, replies, rfl⟩ | ⟨hshort, post, rfl, hpost⟩⟩
    · exact h.close replies (.inl hnil)
    · exact h.close replies (.inr ⟨m, rest, hnext, hlong⟩)
    · exact h.accept hreading hnext hshort hpost
  · obtain ⟨hincoming, hreading, hcount, hreceived, htasks, _⟩ := other_step hread hrunning hstep
    exact
      { count := hcount ▸ h.count
        received := by rw [hreceived, hcount, h.received]
        tasks := by
          rw [hreceived]
          exact htasks.symm.trans h.tasks
        short := hcount ▸ h.short
        stream := by
          rw [hreading, hincoming, hcount, List.append_assoc]
          exact h.stream
        stopped := by
          rw [hreading, hcount]
          exact h.stopped }

theorem step_eof (hrunning : KeepsRunning c a) (heof : c.eof = true)
    (hstep : step serde.fromStr c a = some c') : c'.eof = true ∧ a.bytes = [] := by
  by_cases hread : a = .read
  · subst hread
    simp only [Ipc.step] at hstep
    obtain ⟨_, hstep⟩ := some_of_guard hstep
    obtain ⟨line, _, rfl⟩ := Option.map_eq_some_iff.mp hstep
    refine ⟨?_, rfl⟩
    unfold Connection.take
    split
    · exact heof
    · split
      · exact heof
      · split
        · exact heof
        · exact heof
  · exact (other_step hread hrunning hstep).2.2.2.2.2 heof

theorem arrived_eof : ∀ (actions : List Action) {c c' : Connection}, c.eof = true →
    replay (step serde.fromStr) KeepsRunning c actions = some c' → arrived actions = [] := by
  intro actions
  induction actions with
  | nil => intro c c' _ _; rfl
  | cons a rest ih =>
    intro c c' heof h
    obtain ⟨hrunning, t, hstep, hrest⟩ := replay_cons h
    obtain ⟨heof', hquiet⟩ := step_eof hrunning heof hstep
    rw [arrived, List.flatMap_cons, hquiet]
    exact ih heof' hrest

theorem Delivering.run : ∀ (actions : List Action) {c c' : Connection},
    Delivering serde messages c (arrived actions) →
    replay (Ipc.step serde.fromStr) KeepsRunning c actions = some c' →
      Delivering serde messages c' [] := by
  intro actions
  induction actions with
  | nil =>
    intro c c' h hrun
    injection hrun with hrun
    exact hrun ▸ h
  | cons a rest ih =>
    intro c c' h hrun
    obtain ⟨hrunning, t, hstep, hrest⟩ := replay_cons hrun
    refine ih (h.step hrunning ?_ hstep) hrest
    intro heof
    exact arrived_eof rest (step_eof hrunning heof hstep).1 hrest

/-! ## §6. Coming to rest. -/

theorem start_dispatched (h : Ipc.step serde.fromStr c (.start task) = some c') :
    c'.dispatched.length = c.dispatched.length + 1 := by
  simp only [Ipc.step] at h
  split at h
  · next n message _ =>
    injection h with h
    subst h
    show (c.log [.dispatched n message]).dispatched.length = _
    rw [dispatched_log, List.length_append]
    rfl
  · cases h

theorem waiting_eq_nil (h : ∀ task, Ipc.step serde.fromStr c (.start task) = none) :
    c.waiting = [] := by
  rw [List.eq_nil_iff_forall_not_mem]
  intro m hm
  obtain ⟨task, htask, hspawned⟩ := List.mem_filterMap.mp hm
  obtain ⟨i, hi⟩ := List.mem_iff_getElem?.mp htask
  cases task with
  | running rest => cases hspawned
  | spawned n message =>
    have hnone := h i
    simp only [Ipc.step] at hnone
    rw [hi] at hnone
    cases hnone

theorem Delivering.dispatched_le (h : Delivering serde messages c coming) :
    c.dispatched.length ≤ messages.length := by
  have hlen := h.tasks.length_eq
  have htake := congrArg List.length h.received
  rw [List.length_append] at hlen
  rw [List.length_take] at htake
  omega

def Connection.pending (messages : List ClientMessage) (c : Connection) : Nat :=
  (if c.reading then 1 + (messages.length - c.count) else 0) +
    (messages.length - c.dispatched.length)

theorem Delivering.pending_read (h : Delivering serde messages c [])
    (hcount : c'.count ≤ messages.length) (hstep : Ipc.step serde.fromStr c .read = some c') :
    c'.pending messages < c.pending messages := by
  have hreading := reading_of_read hstep
  have hclose : ∀ replies, (c.close replies).pending messages < c.pending messages := by
    intro replies
    unfold Connection.pending
    rw [(close_quiet c replies).2, hreading, if_pos rfl,
      show (c.close replies).reading = false from rfl, if_neg (by decide)]
    omega
  rcases read_cases (h.stream hreading) (fun _ => rfl) hstep with
    ⟨_, replies, rfl⟩ | ⟨m, _, _, ⟨_, replies, rfl⟩ | ⟨_, post, rfl, _⟩⟩
  · exact hclose replies
  · exact hclose replies
  · have hdispatched : (c.accept m post).dispatched = c.dispatched := by
      show (c.log _).dispatched = _
      simp [Event.dispatched?]
    change c.count + 1 ≤ messages.length at hcount
    unfold Connection.pending
    rw [hdispatched, hreading, if_pos rfl, show (c.accept m post).reading = true from hreading,
      if_pos rfl, show (c.accept m post).count = c.count + 1 from rfl]
    omega

theorem Delivering.pending_start (h : Delivering serde messages c' [])
    (hstep : Ipc.step serde.fromStr c (.start task) = some c') :
    c'.pending messages < c.pending messages := by
  obtain ⟨_, hreading, hcount, _⟩ := other_step (a := .start task) (by simp) trivial hstep
  have hlen := start_dispatched hstep
  have hle := h.dispatched_le
  unfold Connection.pending
  rw [hreading, hcount]
  omega

theorem Delivering.settles : ∀ {c : Connection}, Delivering serde messages c [] →
    ∃ more t, arrived more = [] ∧
      replay (Ipc.step serde.fromStr) KeepsRunning c more = some t ∧ AtRest serde.fromStr t := by
  intro c
  induction hn : c.pending messages using Nat.strongRecOn generalizing c with
  | ind n ih =>
    intro h
    -- one more step of the loop or of the scheduler, then the rest by induction
    have hmore : ∀ a c', a.bytes = [] → KeepsRunning c a →
        Ipc.step serde.fromStr c a = some c' → c'.pending messages < c.pending messages →
        Delivering serde messages c' [] →
        ∃ more t, arrived more = [] ∧
          replay (Ipc.step serde.fromStr) KeepsRunning c more = some t ∧
            AtRest serde.fromStr t := by
      intro a c' hquiet hrunning hstep hless hc'
      obtain ⟨more, t, harrived, hrun, hrest⟩ := ih _ (hn ▸ hless) rfl hc'
      refine ⟨a :: more, t, ?_, ?_, hrest⟩
      · rw [arrived, List.flatMap_cons, hquiet]
        exact harrived
      · rw [replay_step hrunning hstep]
        exact hrun
    cases hread : Ipc.step serde.fromStr c .read with
    | some c' =>
      have hc' : Delivering serde messages c' [] :=
        h.step (a := .read) trivial (fun _ => rfl) hread
      exact hmore .read c' rfl trivial hread (h.pending_read hc'.count hread) hc'
    | none =>
      by_cases hstart : ∀ task, Ipc.step serde.fromStr c (.start task) = none
      · exact ⟨[], c, rfl, rfl, hread, hstart⟩
      · obtain ⟨task, htask⟩ := not_forall.mp hstart
        obtain ⟨c', hstep⟩ := Option.ne_none_iff_exists'.mp htask
        have hc' : Delivering serde messages c' [] :=
          h.step (a := .start task) trivial (fun _ => rfl) hstep
        exact hmore (.start task) c' rfl trivial hstep (hc'.pending_start hstep) hc'

theorem Delivering.rest (h : Delivering serde messages c [])
    (hshort : ∀ m ∈ messages, (lineBytes serde m).length < maxRequestBytes)
    (hrest : AtRest serde.fromStr c) :
    c.received = messages ∧ c.dispatched.Perm messages := by
  have hall : messages.drop c.count = [] := by
    cases hnext : messages.drop c.count with
    | nil => rfl
    | cons m rest =>
      exfalso
      cases hreading : c.reading with
      | true =>
        have hstream := h.stream hreading
        rw [hnext] at hstream
        rcases arrival serde hstream with ⟨post, hincoming, _⟩ | ⟨_, _, hcoming⟩
        · exact read_enabled hreading hincoming hrest.1
        · exact hcoming rfl
      | false =>
        rcases h.stopped hreading with hnil | ⟨m', rest', hnext', hlong⟩
        · rw [hnext] at hnil
          cases hnil
        · have hmem : m' ∈ messages := List.mem_of_mem_drop (by rw [hnext']; simp)
          exact Nat.not_lt.mpr hlong (hshort m' hmem)
  have hreceived : c.received = messages := by
    rw [h.received, List.take_of_length_le (List.drop_eq_nil_iff.mp hall)]
  refine ⟨hreceived, ?_⟩
  have htasks := h.tasks
  rw [waiting_eq_nil hrest.2, List.append_nil, hreceived] at htasks
  exact htasks

theorem dispatchesAll_iff (serde : Serde ClientMessage) (messages : List ClientMessage) :
    DispatchesAll serde (writeLines serde messages) messages ↔
      ∀ m ∈ messages, (lineBytes serde m).length < maxRequestBytes := by
  constructor
  · intro hall
    have hrun : replay (Ipc.step serde.fromStr) KeepsRunning {}
        [.receive (writeLines serde messages)] =
        some { incoming := writeLines serde messages } := rfl
    have harrived : arrived [.receive (writeLines serde messages)] = writeLines serde messages :=
      List.append_nil _
    obtain ⟨_, ⟨more, t, hquiet, hmore, hrest⟩, _⟩ := hall _ _ hrun harrived
    have hwhole := replay_append _ more hrun hmore
    have harrived' : arrived ([.receive (writeLines serde messages)] ++ more) =
        writeLines serde messages := by
      rw [arrived, List.flatMap_append]
      change arrived _ ++ arrived more = _
      rw [harrived, hquiet, List.append_nil]
    obtain ⟨_, _, hdone⟩ := hall _ _ hwhole harrived'
    have hdelivering : Delivering serde messages t [] :=
      Delivering.run _ (by rw [harrived']; exact Delivering.init) hwhole
    intro m hm
    refine hdelivering.short m ?_
    rw [← hdelivering.received, (hdone hrest).1]
    exact hm
  · intro hshort actions c hrun harrived
    have hdelivering : Delivering serde messages c [] :=
      Delivering.run actions (by rw [harrived]; exact Delivering.init) hrun
    refine ⟨?_, hdelivering.settles, hdelivering.rest hshort⟩
    rw [hdelivering.received]
    exact List.take_prefix _ _

end Runs

/-! ## §7. Runs of the GUI's reader. -/

section Reader

variable {D : Type} {serde : Serde D} {messages : List D} {r r' : LineReader}
  {coming : List UInt8}

def Taking (serde : Serde D) (messages : List D) (r : LineReader) (coming : List UInt8) : Prop :=
  ∃ first rest, messages = first ++ rest ∧ r.taken = first.map serde.toStr ∧
    r.buf ++ coming = writeLines serde rest

theorem take_cases {rest : List D} (h : r.buf ++ coming = writeLines serde rest) :
    (r.step .takeLine = none ∧ (coming = [] → rest = [])) ∨
    ∃ m more post, rest = m :: more ∧ post ++ coming = writeLines serde more ∧
      r.step .takeLine = some { buf := post, taken := r.taken ++ [serde.toStr m] } := by
  cases rest with
  | nil =>
    obtain ⟨hbuf, _⟩ := arrival_nil serde h
    refine .inl ⟨?_, fun _ => rfl⟩
    unfold LineReader.step
    rw [takeLine_eq_none (by simp [hbuf])]
    rfl
  | cons m more =>
    rcases arrival serde h with ⟨post, hbuf, hpost⟩ | ⟨hnone, _, hcoming⟩
    · refine .inr ⟨m, more, post, rfl, hpost, ?_⟩
      unfold LineReader.step
      rw [hbuf, takeLine_line]
      rfl
    · refine .inl ⟨?_, fun hnil => absurd hnil hcoming⟩
      unfold LineReader.step
      rw [takeLine_eq_none hnone]
      rfl

theorem Taking.step {a : ReaderAction} (h : Taking serde messages r (a.bytes ++ coming))
    (hstep : r.step a = some r') : Taking serde messages r' coming := by
  obtain ⟨first, rest, hmessages, htaken, hstream⟩ := h
  cases a with
  | readMore chunk =>
    injection hstep with hstep
    subst hstep
    exact ⟨first, rest, hmessages, htaken, by rw [List.append_assoc]; exact hstream⟩
  | takeLine =>
    rcases take_cases hstream with ⟨hnone, _⟩ | ⟨m, more, post, rfl, hpost, htake⟩
    · rw [hnone] at hstep
      cases hstep
    · rw [htake] at hstep
      injection hstep with hstep
      subst hstep
      refine ⟨first ++ [m], more, ?_, ?_, hpost⟩
      · rw [hmessages, List.append_assoc]
        rfl
      · rw [htaken, List.map_append]
        rfl

theorem Taking.run : ∀ (actions : List ReaderAction) {r r' : LineReader},
    Taking serde messages r (chunked actions) →
    replay LineReader.step Anything r actions = some r' → Taking serde messages r' [] := by
  intro actions
  induction actions with
  | nil =>
    intro r r' h hrun
    injection hrun with hrun
    exact hrun ▸ h
  | cons a rest ih =>
    intro r r' h hrun
    obtain ⟨_, t, hstep, hrest⟩ := replay_cons hrun
    exact ih (h.step hstep) hrest

theorem Taking.init : Taking serde messages {} (writeLines serde messages) :=
  ⟨[], messages, rfl, rfl, rfl⟩

theorem Taking.settles (h : Taking serde messages r []) :
    ∃ more t, chunked more = [] ∧ replay LineReader.step Anything r more = some t ∧
      t.step .takeLine = none := by
  obtain ⟨first, rest, -, -, hstream⟩ := h
  induction rest generalizing r with
  | nil =>
    rcases take_cases hstream with ⟨hnone, _⟩ | ⟨m, more, post, hnext, _⟩
    · exact ⟨[], r, rfl, rfl, hnone⟩
    · cases hnext
  | cons m rest ih =>
    rcases take_cases hstream with ⟨hnone, hnil⟩ | ⟨m', more, post, hnext, hpost, htake⟩
    · exact by cases hnil rfl
    · obtain ⟨_, rfl⟩ := List.cons.inj hnext
      obtain ⟨actions, t, hquiet, hrun, hrest⟩ :=
        ih (r := { buf := post, taken := r.taken ++ [serde.toStr m'] }) hpost
      refine ⟨.takeLine :: actions, t, hquiet, ?_, hrest⟩
      rw [replay_step trivial htake]
      exact hrun

theorem Taking.rest (h : Taking serde messages r []) (hrest : r.step .takeLine = none) :
    r.taken = messages.map serde.toStr := by
  obtain ⟨first, rest, hmessages, htaken, hstream⟩ := h
  rcases take_cases hstream with ⟨_, hnil⟩ | ⟨m, more, post, _, _, htake⟩
  · rw [htaken, hmessages, hnil rfl, List.append_nil]
  · rw [htake] at hrest
    cases hrest

theorem decodesAll_iff (serde : Serde D) (messages : List D) :
    DecodesAll serde messages ↔
      ∀ m ∈ messages, (lineBytes serde m).length ≤ maxMessageBytes := by
  constructor
  · intro hall
    have hrun : replay LineReader.step Anything {} [.readMore (writeLines serde messages)] =
        some { buf := writeLines serde messages } := rfl
    have hchunked : chunked [.readMore (writeLines serde messages)] = writeLines serde messages :=
      List.append_nil _
    obtain ⟨_, ⟨more, t, hquiet, hmore, hrest⟩, _⟩ := hall _ _ hrun hchunked
    have hwhole := replay_append _ more hrun hmore
    have hchunked' : chunked ([.readMore (writeLines serde messages)] ++ more) =
        writeLines serde messages := by
      rw [chunked, List.flatMap_append]
      change chunked _ ++ chunked more = _
      rw [hchunked, hquiet, List.append_nil]
    obtain ⟨_, _, hdone⟩ := hall _ _ hwhole hchunked'
    have htaking : Taking serde messages t [] :=
      Taking.run _ (by rw [hchunked']; exact Taking.init) hwhole
    have hdecoded := hdone hrest
    rw [htaking.rest hrest, List.map_map, List.map_inj_left] at hdecoded
    exact fun m hm => (decodeLine_toStr_iff serde m).mp (hdecoded m hm)
  · intro hshort actions r hrun hchunked
    have htaking : Taking serde messages r [] :=
      Taking.run actions (by rw [hchunked]; exact Taking.init) hrun
    have hdecoded : ∀ first : List D, (∀ m ∈ first, m ∈ messages) →
        (first.map serde.toStr).map (decodeLine serde) = first.map .ok := by
      intro first hfirst
      rw [List.map_map, List.map_inj_left]
      exact fun m hm => (decodeLine_toStr_iff serde m).mpr (hshort m (hfirst m hm))
    refine ⟨?_, htaking.settles, fun hrest => ?_⟩
    · obtain ⟨first, rest, hmessages, htaken, _⟩ := htaking
      rw [htaken, hdecoded first (fun m hm => hmessages ▸ List.mem_append_left _ hm), hmessages,
        List.map_append]
      exact List.prefix_append _ _
    · rw [htaking.rest hrest]
      exact hdecoded messages fun _ hm => hm

end Reader

/-! ## §8. Agreement end to end. -/

/-- **The framing agrees below the cap, and disagrees at it.**  The messages the GUI encodes are
    all dispatched, in every run, exactly when every line is shorter than the cap; the messages the
    daemon writes are all decoded exactly when no line is longer. -/
theorem framing_agrees_iff (serde : Serde ClientMessage) (messages : List ClientMessage)
    (lines : List String) (hencoded : Encoded serde messages lines) :
    (DispatchesAll serde (sendLines lines) messages ↔
      ∀ m ∈ messages, (lineBytes serde m).length < maxMessageBytes) ∧
    ∀ (D : Type) (written : Serde D) (replies : List D),
      DecodesAll written replies ↔
        ∀ m ∈ replies, (lineBytes written m).length ≤ maxMessageBytes := by
  refine ⟨?_, fun _ written replies => decodesAll_iff written replies⟩
  rw [hencoded.sendLines_eq]
  exact dispatchesAll_iff serde messages

/-- A handshake and a request. -/
def opening : List ClientMessage :=
  [.hello "1" protocolVersion "thisconnect-ui", .request "2" .status]

theorem opening_short : ∀ m ∈ opening, (lineBytes jsonSerde m).length < maxMessageBytes := by
  intro m hm
  rw [length_lineBytes]
  change Text.byteLen m.toStr.toList < maxMessageBytes
  revert m
  decide +kernel

theorem opening_encoded : Encoded jsonSerde opening (opening.map jsonSerde.toStr) := by
  rw [Encoded, List.forall₂_map_right_iff, List.forall₂_same]
  exact fun m hm => (encodeLine_ok_iff jsonSerde m _).mpr ⟨rfl, Nat.le_of_lt (opening_short m hm)⟩

theorem framing_agrees_iff_opening :
    Encoded jsonSerde opening (opening.map jsonSerde.toStr) ∧
      DispatchesAll jsonSerde (sendLines (opening.map jsonSerde.toStr)) opening :=
  ⟨opening_encoded, (framing_agrees_iff jsonSerde opening _ opening_encoded).1.mpr opening_short⟩

/-! ## §9. The longest line the GUI sends. -/

def importHead : List Char :=
  "\x7b\"type\":\"request\",\"id\":\"1\",\"request\":\x7b\"type\":\"profile_import\",".toList ++
    "\"name\":\"a\",\"config\":\"".toList

theorem toStr_import (config : List Char) :
    (ClientMessage.request "1" (.profileImport "a" (String.ofList config))).toStr.toList =
      importHead ++ (Json.escape config ++ "\"\x7d\x7d".toList) := by
  rw [ClientMessage.toStr, String.toList_ofList]
  simp only [ClientMessage.toJson, Request.toJson, tagged, object, String.toList_ofList, List.foldr,
    Json.Value.render, Json.Fields.render, Json.quote, List.append_assoc, List.cons_append,
    List.nil_append, List.append_nil]
  rfl

theorem escape_replicate (n : Nat) :
    Json.escape (List.replicate n 'a') = List.replicate n 'a' := by
  induction n with
  | zero => rfl
  | succ n ih =>
    rw [List.replicate_succ, Json.escape_cons, ih]
    rfl

theorem byteLen_replicate (n : Nat) : Text.byteLen (List.replicate n 'a') = n := by
  induction n with
  | zero => rfl
  | succ n ih =>
    rw [List.replicate_succ, Text.byteLen_cons, ih]
    exact Nat.add_comm 1 n

def longestImport : ClientMessage :=
  .request "1" (.profileImport "a" (String.ofList (List.replicate (maxMessageBytes - 86) 'a')))

theorem length_longestImport : (lineBytes jsonSerde longestImport).length = maxMessageBytes := by
  rw [length_lineBytes]
  change Text.byteLen longestImport.toStr.toList = maxMessageBytes
  rw [longestImport, toStr_import, escape_replicate, Text.byteLen_append, Text.byteLen_append,
    byteLen_replicate, show Text.byteLen importHead = 83 from by decide +kernel]
  rfl

theorem refused_of_long {serde : Serde ClientMessage}
    (hlong : maxRequestBytes ≤ (lineBytes serde m).length) :
    replay (step serde.fromStr) KeepsRunning {} [.receive (writeLines serde [m]), .read] =
      some (Connection.close { incoming := writeLines serde [m] }
        [protocolError "message too large"]) := by
  have hwrite : writeLines serde [m] = lineBytes serde m ++ newline :: [] := by
    simp [writeLines]
  have hread := read_long (c := { incoming := writeLines serde [m] }) rfl hwrite hlong
  rw [replay_step (t := { incoming := writeLines serde [m] }) trivial rfl,
    replay_step trivial hread]
  rfl

/-- **The GUI sends it and the daemon hangs up**: the newline is the byte too many. -/
theorem longest_import_refused :
    encodeLine jsonSerde longestImport = .ok longestImport.toStr ∧
    ∃ c, replay (step jsonSerde.fromStr) KeepsRunning {}
        [.receive (sendLines [longestImport.toStr]), .read] = some c ∧
      c.reading = false ∧ c.dispatched = [] ∧ c.waiting = [] ∧
      c.history = [.answered (protocolError "message too large"), .closed] :=
  ⟨(encodeLine_ok_iff jsonSerde longestImport _).mpr ⟨rfl, Nat.le_of_eq length_longestImport⟩,
    _, refused_of_long (Nat.le_of_eq length_longestImport.symm), rfl, rfl, rfl, rfl⟩

end ThisConnect.Ipc
