/-
  ThisConnect.Mgmt.Conversation
  **WHAT IS ON THE WIRE BETWEEN THE CLIENT AND OPENVPN.**
-/
import ThisConnect.Mgmt.Client

namespace ThisConnect.Mgmt

/-! ## §1. Which call a command belongs to. -/

def World.commands (w : World) : List Command :=
  w.answered.map (·.command) ++ w.toPeer ++ w.outbox ++ w.channel

def Command.ticket (c : Command) : Option (Nat × List Char) := c.reply.map (·, c.line)

def World.tickets (w : World) : List (Nat × List Char) := w.commands.filterMap Command.ticket

structure Tickets (w : World) : Prop where
  distinct : (w.tickets.map Prod.fst).Nodup
  asked : ∀ ticket ∈ w.tickets, w.calls[ticket.1]? = some ticket.2

variable {w w' : World} {line : List Char} {peer : Peer} {flight : List (List UInt8)}
variable {raw : List UInt8}

theorem Tickets.of_sublist (h : Tickets w) (hcalls : w'.calls = w.calls)
    (htickets : w'.tickets.Sublist w.tickets) : Tickets w' where
  distinct := h.distinct.sublist (htickets.map _)
  asked ticket hticket := by
    rw [hcalls]
    exact h.asked ticket (htickets.subset hticket)

theorem Tickets.of_eq (h : Tickets w) (hcalls : w'.calls = w.calls)
    (htickets : w'.tickets = w.tickets) : Tickets w' := by
  refine h.of_sublist hcalls ?_
  rw [htickets]

theorem Tickets.of_append (h : Tickets w) {more : List (Nat × List Char)}
    (hcalls : w'.calls = w.calls ++ [line]) (htickets : w'.tickets = w.tickets ++ more)
    (hmore : more = [] ∨ more = [(w.calls.length, line)]) : Tickets w' := by
  have hlt : ∀ ticket ∈ w.tickets, ticket.1 < w.calls.length := fun ticket hticket =>
    (List.getElem?_eq_some_iff.mp (h.asked ticket hticket)).1
  have hold : ∀ ticket ∈ w.tickets, w'.calls[ticket.1]? = some ticket.2 := fun ticket hticket => by
    rw [hcalls, List.getElem?_append_left (hlt ticket hticket)]
    exact h.asked ticket hticket
  rcases hmore with rfl | rfl
  · rw [List.append_nil] at htickets
    exact ⟨by rw [htickets]; exact h.distinct, fun t ht => hold t (htickets ▸ ht)⟩
  · constructor
    · rw [htickets, List.map_append]
      refine List.nodup_append.mpr ⟨h.distinct, by simp, ?_⟩
      intro k hk k' hk' heq
      obtain ⟨ticket, hticket, rfl⟩ := List.mem_map.mp hk
      have hfresh : k' = w.calls.length := by simpa using hk'
      exact absurd (hlt ticket hticket) (by omega)
    · intro ticket hticket
      rw [htickets] at hticket
      rcases List.mem_append.mp hticket with hticket | hticket
      · exact hold ticket hticket
      · rw [List.mem_singleton.mp hticket, hcalls]
        simp

theorem Command.fst_ticket (c : Command) : c.ticket.map Prod.fst = c.reply := by
  cases hreply : c.reply with
  | none => simp [Command.ticket, hreply]
  | some k => simp [Command.ticket, hreply]

theorem eq_of_nodup_filterMap {α β : Type} {f : α → Option β} {l : List α}
    (h : (l.filterMap f).Nodup) {a b : α} (ha : a ∈ l) (hb : b ∈ l) {k : β} (hka : f a = some k)
    (hkb : f b = some k) : a = b := by
  induction l with
  | nil => exact absurd ha (by simp)
  | cons x xs ih =>
    have hmem : ∀ y ∈ xs, f y = some k → k ∈ xs.filterMap f := fun y hy hk =>
      List.mem_filterMap.mpr ⟨y, hy, hk⟩
    rcases List.mem_cons.mp ha with hax | hax <;> rcases List.mem_cons.mp hb with hbx | hbx
    · exact hax.trans hbx.symm
    · rw [List.filterMap_cons_some (hax ▸ hka)] at h
      exact absurd (hmem b hbx hkb) (List.nodup_cons.mp h).1
    · rw [List.filterMap_cons_some (hbx ▸ hkb)] at h
      exact absurd (hmem a hax hka) (List.nodup_cons.mp h).1
    · refine ih (h.sublist ?_) hax hbx
      exact (List.sublist_cons_self x xs).filterMap f

theorem Tickets.answer_unique (h : Tickets w) {a b : Answer} (ha : a ∈ w.answered)
    (hb : b ∈ w.answered) {k : Nat} (hka : a.command.reply = some k)
    (hkb : b.command.reply = some k) : a = b := by
  have hreplies : w.tickets.map Prod.fst = w.commands.filterMap (·.reply) := by
    rw [World.tickets, List.map_filterMap]
    exact List.filterMap_congr fun c _ => c.fst_ticket
  have hdistinct := h.distinct
  rw [hreplies, World.commands, List.append_assoc, List.append_assoc, List.filterMap_append,
    List.filterMap_map] at hdistinct
  exact eq_of_nodup_filterMap (List.nodup_append.mp hdistinct).1 ha hb hka hkb

theorem Tickets.line_of_answer (h : Tickets w) {a : Answer} (ha : a ∈ w.answered) {k : Nat}
    (hk : a.command.reply = some k) : w.calls[k]? = some a.command.line := by
  refine h.asked (k, a.command.line) (List.mem_filterMap.mpr ⟨a.command, ?_, ?_⟩)
  · simp only [World.commands, List.append_assoc, List.mem_append, List.mem_map]
    exact .inl ⟨a, ha, rfl⟩
  · simp [Command.ticket, hk]

/-! ## §2. What is on the wire. -/

def World.asked (peer : Peer) (w : World) : List Command :=
  w.toPeer.filter fun c => peer.answers c.line

def repliesOf (flight : List (List UInt8)) : List (List UInt8) :=
  flight.filter fun raw => !isNotification (decodeLine raw)

def heard (flight : List (List UInt8)) (greeting : Option (Option Nat)) : Option (Option Nat) :=
  (flight.filter fun raw => isNotification (decodeLine raw)).foldl
    (fun greeting raw => World.greet greeting (Event.parse (decodeLine raw))) greeting

theorem greet_some (version : Option Nat) (event : Event) :
    World.greet (some version) event = some version := by
  cases event <;> rfl

theorem heard_some (flight : List (List UInt8)) (version : Option Nat) :
    heard flight (some version) = some version := by
  unfold heard
  induction flight.filter fun raw => isNotification (decodeLine raw) with
  | nil => rfl
  | cons raw rest ih => rw [List.foldl_cons, greet_some, ih]

inductive Phase (peer : Peer) (w : World) (replies : List (List UInt8)) : Prop where
  | quiet (outstanding : w.outstanding = []) (accumulator : w.accumulator = {})
      (answering : w.answering = []) (none : replies = []) (untaken : w.asked peer = [])
  | asked (c : Command) (pending : w.pending = some c.reply) (outstanding : w.outstanding = [c])
      (accumulator : w.accumulator = {}) (answering : w.answering = []) (none : replies = [])
      (untaken : w.asked peer = [c])
  | answered (a : Answer) (seen : List (List UInt8)) (pending : w.pending = some a.command.reply)
      (outstanding : w.outstanding = [a.command]) (known : a ∈ w.answered)
      (lines : seen ++ (replies ++ w.answering) = a.reply.lines)
      (unfinished : replies ++ w.answering ≠ [])
      (accumulator : w.accumulator.lines = seen.map decodeLine) (untaken : w.asked peer = [])

theorem Phase.congr {replies : List (List UInt8)} (h : Phase peer w replies)
    (hpending : w'.pending = w.pending) (houtstanding : w'.outstanding = w.outstanding)
    (haccumulator : w'.accumulator = w.accumulator) (hanswering : w'.answering = w.answering)
    (hanswered : w'.answered = w.answered) (htoPeer : w'.toPeer = w.toPeer) :
    Phase peer w' replies := by
  have hasked : w'.asked peer = w.asked peer := by rw [World.asked, htoPeer, World.asked]
  cases h with
  | quiet outstanding accumulator answering none untaken =>
    exact .quiet (houtstanding.trans outstanding) (haccumulator.trans accumulator)
      (hanswering.trans answering) none (hasked.trans untaken)
  | asked c pending outstanding accumulator answering none untaken =>
    exact .asked c (hpending.trans pending) (houtstanding.trans outstanding)
      (haccumulator.trans accumulator) (hanswering.trans answering) none (hasked.trans untaken)
  | answered a seen pending outstanding known lines unfinished accumulator untaken =>
    rw [← hanswering] at lines unfinished
    exact .answered a seen (hpending.trans pending) (houtstanding.trans outstanding)
      (hanswered ▸ known) lines unfinished (haccumulator ▸ accumulator) (hasked.trans untaken)

structure Talk (peer : Peer) (w : World) (flight : List (List UInt8)) : Prop where
  phase : Phase peer w (repliesOf flight)
  honest : peer.honest w.hello = true
  greeting : heard flight w.greeting = w.hello
  silent : ∀ c ∈ w.outbox ++ w.channel, c.expectsReply = false → peer.answers c.line = false

structure Attributed (w : World) : Prop where
  results : ∀ k reply, (k, .ok reply) ∈ w.results →
    ∃ a ∈ w.answered, a.command.reply = some k ∧ reply = a.reply.decoded
  wellFormed : ∀ a ∈ w.answered, a.reply.wellFormed = true

/-- What handling lines leaves alone. -/
structure Handled (w w' : World) : Prop where
  splitter : w'.splitter = w.splitter
  toClient : w'.toClient = w.toClient
  answered : w'.answered = w.answered
  toPeer : w'.toPeer = w.toPeer
  answering : w'.answering = w.answering
  calls : w'.calls = w.calls
  tickets : w'.tickets.Sublist w.tickets

theorem Handled.trans {w'' : World} (h : Handled w w') (h' : Handled w' w'') : Handled w w'' :=
  ⟨h'.splitter.trans h.splitter, h'.toClient.trans h.toClient, h'.answered.trans h.answered,
    h'.toPeer.trans h.toPeer, h'.answering.trans h.answering, h'.calls.trans h.calls,
    h'.tickets.trans h.tickets⟩

/-! ## §3. Handling a line. -/

theorem World.handled_drop (w : World) : Handled w w.drop := by
  refine ⟨rfl, rfl, rfl, rfl, rfl, rfl, ?_⟩
  simp only [World.tickets, World.commands, World.drop, List.append_nil]
  refine List.Sublist.filterMap _ ?_
  rw [List.append_assoc]
  exact List.sublist_append_left _ _

theorem World.handled_finish (w : World) : Handled w w.finish :=
  ⟨rfl, rfl, rfl, rfl, rfl, rfl, w.handled_drop.tickets⟩

theorem World.results_drop (w : World) (k : Nat) (reply : CommandReply)
    (h : (k, .ok reply) ∈ w.drop.results) : (k, .ok reply) ∈ w.results := by
  simp only [World.drop, List.mem_append, List.mem_map, Prod.mk.injEq] at h
  rcases h with h | ⟨_, _, _, habsurd⟩
  · exact h
  · exact absurd habsurd (by simp)

theorem Attributed.drop (h : Attributed w) : Attributed w.drop :=
  ⟨fun k reply hmem => h.results k reply (w.results_drop k reply hmem), h.wellFormed⟩

theorem Attributed.finish (h : Attributed w) : Attributed w.finish :=
  ⟨h.drop.results, h.wellFormed⟩

theorem World.handled_queueRelease (w : World) : Handled w w.queueRelease := by
  unfold World.queueRelease
  dsimp only
  split
  · refine ⟨rfl, rfl, rfl, rfl, rfl, rfl, ?_⟩
    have hnone : Command.ticket ⟨holdRelease, none, true, w.holds + 1⟩ = none := rfl
    simp [World.tickets, World.commands, List.filterMap_cons_none hnone]
  · exact ⟨rfl, rfl, rfl, rfl, rfl, rfl, .refl _⟩

theorem Talk.queueRelease (h : Talk peer w flight) : Talk peer w.queueRelease flight := by
  unfold World.queueRelease
  dsimp only
  split
  · refine ⟨h.phase.congr rfl rfl rfl rfl rfl rfl, h.honest, h.greeting, ?_⟩
    intro c hc hexpects
    simp only [List.append_assoc, List.mem_append, List.mem_singleton] at hc
    rcases hc with hc | rfl | hc
    · exact h.silent c (List.mem_append_left _ hc) hexpects
    · exact absurd hexpects (by simp)
    · exact h.silent c (List.mem_append_right _ hc) hexpects
  · exact ⟨h.phase.congr rfl rfl rfl rfl rfl rfl, h.honest, h.greeting, h.silent⟩

theorem Talk.version (h : Talk peer w flight) {version : Nat}
    (hgreeting : w.greeting = some (some version)) : version = peer.version := by
  have hhello : w.hello = some (some version) := by
    rw [← h.greeting, hgreeting, heard_some]
  simpa [Peer.honest, hhello] using h.honest

theorem Talk.event (h : Talk peer w (raw :: flight))
    (hnote : isNotification (decodeLine raw) = true)
    (hrun : (w.handleEvent (Event.parse (decodeLine raw))).running = true) :
    Talk peer (w.handleEvent (Event.parse (decodeLine raw))) flight := by
  have hreplies : repliesOf (raw :: flight) = repliesOf flight := by
    simp [repliesOf, hnote]
  have hqueued : Talk peer
      (if World.isHold (Event.parse (decodeLine raw)) then w.queueRelease else w)
      (raw :: flight) := by
    split
    · exact h.queueRelease
    · exact h
  unfold World.handleEvent at hrun ⊢
  dsimp only at hrun ⊢
  generalize (if World.isHold (Event.parse (decodeLine raw)) then w.queueRelease else w) = queued
    at hrun hqueued ⊢
  split at hrun
  · next tracker sink hobserve =>
    have hphase := hqueued.phase
    rw [hreplies] at hphase
    have hheard := hqueued.greeting
    rw [heard, List.filter_cons_of_pos (by exact hnote), List.foldl_cons] at hheard
    exact ⟨hphase.congr rfl rfl rfl rfl rfl rfl, hqueued.honest, hheard, hqueued.silent⟩
  · exact absurd hrun (by simp [World.finish, World.drop])

theorem World.handled_handleEvent (w : World) (event : Event) :
    Handled w (w.handleEvent event) := by
  have hqueued : Handled w (if World.isHold event then w.queueRelease else w) := by
    split
    · exact w.handled_queueRelease
    · exact ⟨rfl, rfl, rfl, rfl, rfl, rfl, .refl _⟩
  unfold World.handleEvent
  dsimp only
  generalize (if World.isHold event then w.queueRelease else w) = queued at hqueued ⊢
  split
  · exact hqueued.trans ⟨rfl, rfl, rfl, rfl, rfl, rfl, .refl _⟩
  · refine hqueued.trans (Handled.trans ?_ (World.handled_finish _))
    exact ⟨rfl, rfl, rfl, rfl, rfl, rfl, .refl _⟩

theorem World.handleEvent_results (w : World) (event : Event) :
    (∀ k reply, (k, .ok reply) ∈ (w.handleEvent event).results → (k, .ok reply) ∈ w.results) ∧
      (w.handleEvent event).outstanding = w.outstanding := by
  have hqueued : ∀ queued, (if World.isHold event then w.queueRelease else w) = queued →
      queued.results = w.results ∧ queued.outstanding = w.outstanding := by
    intro queued hqueued
    subst hqueued
    unfold World.queueRelease
    dsimp only
    split
    · split <;> exact ⟨rfl, rfl⟩
    · exact ⟨rfl, rfl⟩
  unfold World.handleEvent
  dsimp only
  generalize hname : (if World.isHold event then w.queueRelease else w) = queued
  obtain ⟨hresults, houtstanding⟩ := hqueued queued hname
  split
  · exact ⟨fun k reply hmem => hresults ▸ hmem, houtstanding⟩
  · next error sink hobserve =>
    refine ⟨fun k reply hmem => ?_, houtstanding⟩
    rw [← hresults]
    exact World.results_drop { queued with sink } k reply hmem

theorem reply_next {reply : Reply} {seen more : List (List UInt8)} (hwell : reply.wellFormed = true)
    (h : seen ++ (raw :: more) = reply.lines) :
    (more = [] ∧ seen = reply.body ∧ raw = reply.terminal ∧ isTerminal (decodeLine raw) = true) ∨
      (more ≠ [] ∧ isBody (decodeLine raw) = true) := by
  simp only [Reply.wellFormed, Bool.and_eq_true, List.all_eq_true] at hwell
  obtain ⟨⟨_, hbody⟩, hterminal⟩ := hwell
  unfold Reply.lines at h
  rcases List.eq_nil_or_concat more with rfl | ⟨front, last, rfl⟩
  · obtain ⟨hseen, hraw⟩ := List.append_inj' h rfl
    injection hraw with hraw
    exact .inl ⟨rfl, hseen, hraw, hraw ▸ hterminal⟩
  · rw [List.concat_eq_append] at h ⊢
    have hcut : (seen ++ raw :: front) ++ [last] = reply.body ++ [reply.terminal] := by
      rw [← h]
      simp
    obtain ⟨hseen, _⟩ := List.append_inj' hcut rfl
    refine .inr ⟨by simp, hbody raw ?_⟩
    rw [← hseen]
    simp

/-- Handling a line keeps the conversation, and a reply goes to the call it is for. -/
structure Sound (peer : Peer) (w : World) (flight : List (List UInt8)) : Prop where
  attributed : Attributed w
  single : w.outstanding.length ≤ 1
  talk : w.running = true → Talk peer w flight

theorem Attributed.of_handled (h : Attributed w) (hhandled : Handled w w')
    (hresults : ∀ k reply, (k, .ok reply) ∈ w'.results → (k, .ok reply) ∈ w.results) :
    Attributed w' := by
  constructor
  · intro k reply hmem
    rw [hhandled.answered]
    exact h.results k reply (hresults k reply hmem)
  · rw [hhandled.answered]
    exact h.wellFormed

theorem Sound.notification (h : Sound peer w (raw :: flight)) (hrun : w.running = true)
    (hnote : isNotification (decodeLine raw) = true) :
    Handled w (w.handleLine (decodeLine raw)) ∧
      Sound peer (w.handleLine (decodeLine raw)) flight := by
  have hline : w.handleLine (decodeLine raw) = w.handleEvent (Event.parse (decodeLine raw)) := by
    simp only [World.handleLine, classify_notification hnote]
  rw [hline]
  obtain ⟨hresults, houtstanding⟩ := w.handleEvent_results (Event.parse (decodeLine raw))
  refine ⟨w.handled_handleEvent _, ?_, ?_, fun hrun' => (h.talk hrun).event hnote hrun'⟩
  · exact h.attributed.of_handled (w.handled_handleEvent _) hresults
  · rw [houtstanding]
    exact h.single

theorem World.handleLine_of_pending {slot : Option Nat} (hpending : w.pending = some slot)
    (hnot : isNotification line = false) :
    w.handleLine line =
      match w.accumulator.accept (classify line) with
      | (accumulator, none) => { w with accumulator }
      | (accumulator, some reply) =>
        { w with accumulator, outstanding := w.outstanding.tail }.answerPending (.ok reply) := by
  unfold World.handleLine
  split
  · next event hclass => exact absurd hclass (classify_ne_event hnot event)
  · rw [hpending]
    rfl

theorem Reply.decoded_eq (reply : Reply) :
    reply.decoded = ⟨(terminalOf (decodeLine reply.terminal)).1,
      (terminalOf (decodeLine reply.terminal)).2, reply.body.map decodeLine⟩ := rfl

theorem Attributed.answer (h : Attributed w) {a : Answer} (ha : a ∈ w.answered)
    (hpending : w.pending = some a.command.reply) {accumulator : ReplyAccumulator}
    {outstanding : List Command} :
    Attributed ({ w with accumulator, outstanding }.answerPending (.ok a.reply.decoded)) := by
  unfold World.answerPending
  dsimp only
  rw [hpending]
  cases hreply : a.command.reply with
  | none => exact ⟨h.results, h.wellFormed⟩
  | some ticket =>
    refine ⟨fun k reply hmem => ?_, h.wellFormed⟩
    rcases List.mem_append.mp hmem with hmem | hmem
    · exact h.results k reply hmem
    · simp only [List.mem_singleton, Prod.mk.injEq, Except.ok.injEq] at hmem
      exact ⟨a, ha, by rw [hmem.1, hreply], hmem.2⟩

theorem World.handled_answerPending (w : World) (outcome : Except MgmtError CommandReply) :
    Handled w (w.answerPending outcome) := by
  unfold World.answerPending
  split
  · exact ⟨rfl, rfl, rfl, rfl, rfl, rfl, .refl _⟩
  · exact ⟨rfl, rfl, rfl, rfl, rfl, rfl, .refl _⟩

theorem World.answerPending_fields (w : World) (outcome : Except MgmtError CommandReply) :
    (w.answerPending outcome).outstanding = w.outstanding ∧
    (w.answerPending outcome).accumulator = w.accumulator ∧
    (w.answerPending outcome).greeting = w.greeting ∧
    (w.answerPending outcome).hello = w.hello ∧
    (w.answerPending outcome).outbox = w.outbox ∧
    (w.answerPending outcome).channel = w.channel := by
  unfold World.answerPending
  split
  · exact ⟨rfl, rfl, rfl, rfl, rfl, rfl⟩
  · exact ⟨rfl, rfl, rfl, rfl, rfl, rfl⟩

theorem Sound.replyLine (h : Sound peer w (raw :: flight)) (hrun : w.running = true)
    (hnot : isNotification (decodeLine raw) = false) :
    Handled w (w.handleLine (decodeLine raw)) ∧
      Sound peer (w.handleLine (decodeLine raw)) flight := by
  have htalk := h.talk hrun
  have hreplies : repliesOf (raw :: flight) = raw :: repliesOf flight := by
    simp [repliesOf, hnot]
  have hphase := htalk.phase
  rw [hreplies] at hphase
  have hheard : heard flight w.greeting = w.hello := by
    rw [← htalk.greeting, heard, heard, List.filter_cons_of_neg (by simp [hnot])]
  cases hphase with
  | quiet _ _ _ none => exact absurd none (by simp)
  | asked _ _ _ _ _ none => exact absurd none (by simp)
  | answered a seen pending outstanding known lines unfinished accumulator untaken =>
    rw [World.handleLine_of_pending pending hnot]
    obtain ⟨hlast, hseen, hraw, hterminal⟩ | ⟨hmore, hbody⟩ :=
      reply_next (h.attributed.wellFormed a known) lines
    · -- the reply is complete: its call is answered and nobody is owed anything
      rw [accept_terminal hterminal, accumulator, hseen, hraw]
      dsimp only
      rw [← Reply.decoded_eq, outstanding]
      have hfields := World.answerPending_fields
        { w with accumulator := {}, outstanding := [a.command].tail } (.ok a.reply.decoded)
      have hhandled := World.handled_answerPending
        { w with accumulator := {}, outstanding := [a.command].tail } (.ok a.reply.decoded)
      have hstart : Handled w { w with accumulator := {}, outstanding := [a.command].tail } :=
        ⟨rfl, rfl, rfl, rfl, rfl, rfl, .refl _⟩
      refine ⟨hstart.trans hhandled, h.attributed.answer known pending, ?_, fun _ => ?_⟩
      · rw [hfields.1]
        simp
      · obtain ⟨houtstanding, haccumulator, hgreeting, hhello, houtbox, hchannel⟩ := hfields
        obtain ⟨hnone, hdone⟩ := List.append_eq_nil_iff.mp hlast
        refine ⟨?_, ?_, ?_, ?_⟩
        · refine .quiet houtstanding haccumulator (hhandled.answering.trans hdone) hnone ?_
          rw [World.asked, hhandled.toPeer]
          exact untaken
        · rw [hhello]
          exact htalk.honest
        · rw [hgreeting, hhello]
          exact hheard
        · rw [houtbox, hchannel]
          exact htalk.silent
    · -- one more line of the body
      rw [classify_body hbody]
      simp only [ReplyAccumulator.accept]
      refine ⟨⟨rfl, rfl, rfl, rfl, rfl, rfl, .refl _⟩,
        ⟨h.attributed.results, h.attributed.wellFormed⟩, h.single, fun _ => ?_⟩
      refine ⟨?_, htalk.honest, hheard, htalk.silent⟩
      refine .answered a (seen ++ [raw]) pending outstanding known ?_ hmore ?_ untaken
      · show (seen ++ [raw]) ++ (repliesOf flight ++ w.answering) = a.reply.lines
        rw [← lines]
        simp
      · show w.accumulator.lines ++ [decodeLine raw] = (seen ++ [raw]).map decodeLine
        rw [accumulator]
        simp

end ThisConnect.Mgmt
