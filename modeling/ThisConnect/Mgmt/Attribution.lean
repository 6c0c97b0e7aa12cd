/-
  ThisConnect.Mgmt.Attribution
  **REPLIES REACH THE CALL THEY BELONG TO.**

  Main result:
    • `replies_attributed` — in every run at most one answered command is
      outstanding, and a call that returns a reply returns that of its own
      command, with its body and nothing else.
-/
import ThisConnect.Mgmt.Conversation

namespace ThisConnect.Mgmt

open Transition

/-! ## §1. Steps. -/

structure InFlight (w : World) (flight : List (List UInt8)) : Prop where
  bytes : w.splitter.buffered ++ w.toClient = Framing.stream lineFeed flight
  free : ∀ raw ∈ flight, lineFeed ∉ raw

structure Inv (peer : Peer) (w : World) : Prop where
  tickets : Tickets w
  attributed : Attributed w
  single : w.outstanding.length ≤ 1
  talk : w.running = true → ∃ flight, InFlight w flight ∧ Talk peer w flight

theorem inv_start (peer : Peer) : Inv peer {} where
  tickets := ⟨by simp [World.tickets, World.commands], by simp [World.tickets, World.commands]⟩
  attributed := ⟨by simp, by simp⟩
  single := by simp
  talk _ := ⟨[], ⟨rfl, by simp⟩, .quiet rfl rfl rfl rfl rfl, rfl, rfl, by simp⟩

variable {peer : Peer} {w w' : World} {raw : List UInt8}

theorem Sound.handleLines {cut rest : List (List UInt8)} :
    ∀ {w : World}, Sound peer w (cut ++ rest) →
      Handled w (World.handleLines (cut.map decodeLine) w) ∧
        Sound peer (World.handleLines (cut.map decodeLine) w) rest := by
  induction cut with
  | nil => intro w h; exact ⟨⟨rfl, rfl, rfl, rfl, rfl, rfl, .refl _⟩, h⟩
  | cons raw cut ih =>
    intro w h
    simp only [List.map_cons, World.handleLines]
    split
    · next hrun =>
      have hline : Handled w (w.handleLine (decodeLine raw)) ∧
          Sound peer (w.handleLine (decodeLine raw)) (cut ++ rest) := by
        cases hnote : isNotification (decodeLine raw) with
        | true => exact h.notification hrun hnote
        | false => exact h.replyLine hrun hnote
      obtain ⟨hhandled, hsound⟩ := ih hline.2
      exact ⟨hline.1.trans hhandled, hsound⟩
    · next hstopped =>
      exact ⟨⟨rfl, rfl, rfl, rfl, rfl, rfl, .refl _⟩, h.attributed, h.single,
        fun hrun => absurd hrun hstopped⟩

theorem Inv.drop (h : Inv peer w) : Inv peer w.drop where
  tickets := h.tickets.of_sublist rfl w.handled_drop.tickets
  attributed := h.attributed.drop
  single := h.single
  talk hrun := absurd hrun (by simp [World.drop])

theorem Inv.finish (h : Inv peer w) : Inv peer w.finish where
  tickets := h.drop.tickets.of_sublist rfl (.refl _)
  attributed := h.attributed.finish
  single := h.single
  talk hrun := absurd hrun (by simp [World.finish, World.drop])

theorem Inv.read {count : Nat} (h : Inv peer w) (hstep : w.read count = some w') : Inv peer w' := by
  unfold World.read at hstep
  obtain ⟨hguard, hstep⟩ := some_of_guard hstep
  have hrun : w.running = true := by
    have hselecting := hguard.1
    simp only [World.selecting, Bool.and_eq_true] at hselecting
    exact hselecting.1
  split at hstep
  · cases hstep
    exact h.finish
  · next splitter lines hpush =>
    injection hstep with hstep
    obtain ⟨flight, hflight, htalk⟩ := h.talk hrun
    unfold LineSplitter.push at hpush
    dsimp only at hpush
    split at hpush
    · cases hpush
    simp only [Except.ok.injEq, Prod.mk.injEq] at hpush
    obtain ⟨hsplitter, hlines⟩ := hpush
    have hbytes : (w.splitter.buffered ++ w.toClient.take count) ++ w.toClient.drop count =
        Framing.stream lineFeed flight := by
      rw [List.append_assoc, List.take_append_drop, hflight.bytes]
    obtain ⟨rest, hrest, hkept⟩ := Framing.frames_of_stream lineFeed hflight.free hbytes
    have hstart : Sound peer { w with splitter, toClient := w.toClient.drop count }
        ((Framing.frames lineFeed (w.splitter.buffered ++ w.toClient.take count)).1 ++
          rest) := by
      refine ⟨⟨h.attributed.results, h.attributed.wellFormed⟩, h.single, fun _ => ?_⟩
      rw [← hrest]
      exact ⟨htalk.phase.congr rfl rfl rfl rfl rfl rfl, htalk.honest, htalk.greeting,
        htalk.silent⟩
    obtain ⟨hhandled, hsound⟩ := hstart.handleLines
    rw [hlines, hstep] at hhandled hsound
    refine ⟨?_, hsound.attributed, hsound.single, fun hrun' => ⟨rest, ⟨?_, ?_⟩, ?_⟩⟩
    · exact h.tickets.of_sublist hhandled.calls hhandled.tickets
    · rw [hhandled.splitter, hhandled.toClient, ← hsplitter]
      exact hkept
    · intro raw hraw
      exact hflight.free raw (hrest ▸ List.mem_append_right _ hraw)
    · exact hsound.talk hrun'

theorem Attributed.error (h : Attributed w) (hanswered : w'.answered = w.answered)
    {more : List (Nat × Except MgmtError CommandReply)} (hresults : w'.results = w.results ++ more)
    (hmore : ∀ k reply, (k, .ok reply) ∉ more) : Attributed w' := by
  constructor
  · intro k reply hmem
    rw [hresults] at hmem
    rw [hanswered]
    rcases List.mem_append.mp hmem with hmem | hmem
    · exact h.results k reply hmem
    · exact absurd hmem (hmore k reply)
  · rw [hanswered]
    exact h.wellFormed

theorem Inv.submit {line : List Char} {acknowledged : Bool} (h : Inv peer w)
    (hsilent : acknowledged = false → peer.answers line = false)
    (hstep : w.submit line acknowledged = some w') : Inv peer w' := by
  -- neither the wire nor the conversation is touched
  have htalk : ∀ {results : List (Nat × Except MgmtError CommandReply)} {channel : List Command},
      (∀ c ∈ channel, c ∈ w.channel ∨ (c.expectsReply = false → peer.answers c.line = false)) →
      w.running = true → ∃ flight, InFlight { w with calls := w.calls ++ [line], results, channel }
        flight ∧ Talk peer { w with calls := w.calls ++ [line], results, channel } flight := by
    intro results channel hchannel hrun
    obtain ⟨flight, hflight, htalk⟩ := h.talk hrun
    refine ⟨flight, ⟨hflight.bytes, hflight.free⟩, htalk.phase.congr rfl rfl rfl rfl rfl rfl,
      htalk.honest, htalk.greeting, ?_⟩
    intro c hc hexpects
    rcases List.mem_append.mp hc with hc | hc
    · exact htalk.silent c (List.mem_append_left _ hc) hexpects
    · rcases hchannel c hc with hold | hnew
      · exact htalk.silent c (List.mem_append_right _ hold) hexpects
      · exact hnew hexpects
  unfold World.submit at hstep
  dsimp only at hstep
  split at hstep
  · injection hstep with hstep
    subst hstep
    exact ⟨h.tickets.of_append rfl (List.append_nil _).symm (.inl rfl),
      h.attributed.error rfl rfl (by simp), h.single, htalk fun c hc => .inl hc⟩
  split at hstep
  · injection hstep with hstep
    subst hstep
    exact ⟨h.tickets.of_append rfl (List.append_nil _).symm (.inl rfl),
      h.attributed.error rfl rfl (by simp), h.single, htalk fun c hc => .inl hc⟩
  obtain ⟨_, ⟨⟩⟩ := some_of_guard hstep
  refine ⟨?_, ⟨h.attributed.results, h.attributed.wellFormed⟩, h.single, htalk fun c hc => ?_⟩
  · cases acknowledged with
    | true =>
      refine h.tickets.of_append rfl ?_ (.inr rfl)
      simp [World.tickets, World.commands, Command.ticket]
    | false =>
      refine h.tickets.of_append rfl ?_ (.inl rfl)
      simp [World.tickets, World.commands, Command.ticket]
  · rcases List.mem_append.mp hc with hc | hc
    · exact .inl hc
    · rw [List.mem_singleton.mp hc]
      exact .inr hsilent

theorem Inv.announce {peer : Peer} {w w' : World} (h : Inv peer w)
    (hstep : w.announce = some w') : Inv peer w' := by
  unfold World.announce at hstep
  split at hstep
  · next greeted hgreeting =>
    obtain ⟨hguard, hstep⟩ := some_of_guard hstep
    obtain ⟨flight, _, htalk⟩ := h.talk hguard.1
    have hversion : greeted = peer.version := htalk.version hgreeting
    have hannounced : Inv peer { w with announced := true } := by
      refine ⟨⟨h.tickets.distinct, h.tickets.asked⟩,
        ⟨h.attributed.results, h.attributed.wellFormed⟩, h.single, fun hrun => ?_⟩
      obtain ⟨flight, hflight, htalk⟩ := h.talk hrun
      exact ⟨flight, ⟨hflight.bytes, hflight.free⟩,
        htalk.phase.congr rfl rfl rfl rfl rfl rfl, htalk.honest, htalk.greeting,
        htalk.silent⟩
    refine hannounced.submit (fun hlow => peer.silent ?_ _) hstep
    simp only [decide_eq_false_iff_not, Nat.not_le] at hlow
    exact hversion ▸ hlow
  · cases hstep

theorem Inv.enqueue (h : Inv peer w) (hstep : w.enqueue = some w') : Inv peer w' := by
  unfold World.enqueue at hstep
  obtain ⟨_, hstep⟩ := some_of_guard hstep
  split at hstep
  · cases hstep
  · next command rest hchannel =>
    cases hstep
    refine ⟨?_, ⟨h.attributed.results, h.attributed.wellFormed⟩, h.single, fun hrun => ?_⟩
    · refine h.tickets.of_eq rfl ?_
      simp [World.tickets, World.commands, Command.ticket, hchannel, List.filterMap_cons]
    · obtain ⟨flight, hflight, htalk⟩ := h.talk hrun
      refine ⟨flight, ⟨hflight.bytes, hflight.free⟩,
        htalk.phase.congr rfl rfl rfl rfl rfl rfl, htalk.honest, htalk.greeting, ?_⟩
      intro c hc hexpects
      have hsilent := htalk.silent
      rw [hchannel] at hsilent
      simp only [List.append_assoc, List.mem_append, List.mem_singleton] at hc
      rcases hc with hc | rfl | hc
      · exact hsilent c (by simp [hc]) hexpects
      · exact hsilent command (by simp) hexpects
      · exact hsilent c (by simp [hc]) hexpects

theorem Phase.quiet_of_idle {replies : List (List UInt8)} (h : Phase peer w replies)
    (hidle : w.pending = none) :
    w.outstanding = [] ∧ w.accumulator = {} ∧ w.answering = [] ∧ replies = [] ∧
      w.asked peer = [] := by
  cases h with
  | quiet outstanding accumulator answering none untaken =>
    exact ⟨outstanding, accumulator, answering, none, untaken⟩
  | asked c pending => exact absurd (hidle.symm.trans pending) (by simp)
  | answered a _ pending => exact absurd (hidle.symm.trans pending) (by simp)

theorem Inv.write (h : Inv peer w) (hstep : w.write peer = some w') : Inv peer w' := by
  unfold World.write at hstep
  split at hstep
  · next command rest hidle houtbox =>
    obtain ⟨hrun, hstep⟩ := some_of_unless hstep
    have hrun : w.running = true := by simpa using hrun
    obtain ⟨flight, hflight, htalk⟩ := h.talk hrun
    have hsilent := htalk.silent
    rw [houtbox] at hsilent
    obtain ⟨houtstanding, haccumulator, hanswering, hnone, huntaken⟩ :=
      htalk.phase.quiet_of_idle hidle
    have hrest : ∀ c ∈ rest ++ w.channel, c.expectsReply = false →
        peer.answers c.line = false := fun c hc => hsilent c (List.mem_cons_of_mem _ hc)
    split at hstep
    · cases hstep
      refine Inv.finish ⟨?_, ⟨h.attributed.results, h.attributed.wellFormed⟩, h.single,
        fun _ => ⟨flight, ⟨hflight.bytes, hflight.free⟩,
          htalk.phase.congr rfl rfl rfl rfl rfl rfl, htalk.honest, htalk.greeting, hrest⟩⟩
      refine h.tickets.of_sublist rfl ?_
      simp only [World.tickets, World.commands, houtbox, List.append_assoc,
        List.cons_append]
      refine List.Sublist.filterMap _ ?_
      exact .append_left (.append_left (List.sublist_cons_self _ _) _) _
    · cases hstep
      have htickets : (w.answered.map (·.command) ++ (w.toPeer ++ [command]) ++ rest ++
          w.channel) = w.commands := by
        simp [World.commands, houtbox]
      refine ⟨?_, ⟨h.attributed.results, h.attributed.wellFormed⟩, ?_, fun _ =>
        ⟨flight, ⟨hflight.bytes, hflight.free⟩, ?_, htalk.honest, htalk.greeting, hrest⟩⟩
      · exact h.tickets.of_eq rfl (congrArg (List.filterMap Command.ticket) htickets)
      · show (if peer.answers command.line then w.outstanding ++ [command]
          else w.outstanding).length ≤ 1
        rw [houtstanding]
        split <;> simp
      · by_cases hanswers : peer.answers command.line = true
        · -- the slot is taken: a command that is answered is one that is waited for
          have hexpects : command.expectsReply = true := by
            by_contra hnot
            have hquiet := hsilent command (by simp) (by simpa using hnot)
            rw [hanswers] at hquiet
            cases hquiet
          refine .asked command ?_ ?_ haccumulator hanswering hnone ?_
          · simp [hexpects]
          · simp [hanswers, houtstanding]
          · show (w.toPeer ++ [command]).filter (fun c => peer.answers c.line) = [command]
            rw [List.filter_append]
            show w.asked peer ++ _ = _
            rw [huntaken]
            simp [hanswers]
        · refine .quiet ?_ haccumulator hanswering hnone ?_
          · simp [hanswers, houtstanding]
          · show (w.toPeer ++ [command]).filter (fun c => peer.answers c.line) = []
            rw [List.filter_append]
            show w.asked peer ++ _ = _
            rw [huntaken]
            simp [hanswers]
  · cases hstep

theorem Inv.take {peer : Peer} {w w' : World} {reply : Reply} (h : Inv peer w)
    (hstep : w.take peer reply = some w') : Inv peer w' := by
  unfold World.take at hstep
  split at hstep
  · next command rest hanswering htoPeer =>
    split at hstep
    · next hanswers =>
      obtain ⟨hwell, ⟨⟩⟩ := some_of_guard hstep
      refine ⟨?_, ⟨fun k r hmem => ?_, fun a ha => ?_⟩, h.single, fun hrun => ?_⟩
      · refine h.tickets.of_eq rfl (congrArg (List.filterMap Command.ticket) ?_)
        simp [World.commands, htoPeer]
      · obtain ⟨a, ha, hfor⟩ := h.attributed.results k r hmem
        exact ⟨a, List.mem_append_left _ ha, hfor⟩
      · rcases List.mem_append.mp ha with ha | ha
        · exact h.attributed.wellFormed a ha
        · rw [List.mem_singleton.mp ha]
          exact hwell
      · obtain ⟨flight, hflight, htalk⟩ := h.talk hrun
        refine ⟨flight, ⟨hflight.bytes, hflight.free⟩, ?_, htalk.honest, htalk.greeting,
          htalk.silent⟩
        have huntaken : w.asked peer = command :: rest.filter (peer.answers ·.line) := by
          simp [World.asked, htoPeer, hanswers]
        cases htalk.phase with
        | quiet _ _ _ _ untaken => exact absurd (huntaken.symm.trans untaken) (by simp)
        | answered a seen _ _ _ _ _ _ untaken =>
          exact absurd (huntaken.symm.trans untaken) (by simp)
        | asked c pending outstanding accumulator _ none untaken =>
          have hcommand := huntaken.symm.trans untaken
          injection hcommand with hcommand hrest
          subst hcommand
          refine .answered ⟨command, reply⟩ [] pending outstanding (by simp) ?_ ?_ ?_ hrest
          · rw [none]
            rfl
          · simp [Reply.lines]
          · show w.accumulator.lines = _
            rw [accumulator]
            rfl
    · next hanswers =>
      injection hstep with hstep
      subst hstep
      refine ⟨?_, ⟨h.attributed.results, h.attributed.wellFormed⟩, h.single, fun hrun => ?_⟩
      · refine h.tickets.of_sublist rfl (List.Sublist.filterMap _ ?_)
        simp only [World.commands, htoPeer, List.append_assoc, List.cons_append]
        exact .append_left (List.sublist_cons_self _ _) _
      · obtain ⟨flight, hflight, htalk⟩ := h.talk hrun
        refine ⟨flight, ⟨hflight.bytes, hflight.free⟩, ?_, htalk.honest, htalk.greeting,
          htalk.silent⟩
        have hsame : (rest.filter fun c => peer.answers c.line) = w.asked peer := by
          simp [World.asked, htoPeer, hanswers]
        cases htalk.phase with
        | quiet outstanding accumulator answering none untaken =>
          exact .quiet outstanding accumulator answering none (hsame.trans untaken)
        | asked c pending outstanding accumulator answering none untaken =>
          exact .asked c pending outstanding accumulator answering none
            (hsame.trans untaken)
        | answered a seen pending outstanding known lines unfinished accumulator untaken =>
          exact .answered a seen pending outstanding known lines unfinished accumulator
            (hsame.trans untaken)
  · exact absurd hstep (by simp)

theorem InFlight.append {flight : List (List UInt8)} (h : InFlight w flight) (hraw : lineFeed ∉ raw)
    (hsplitter : w'.splitter = w.splitter)
    (htoClient : w'.toClient = w.toClient ++ (raw ++ [lineFeed])) :
    InFlight w' (flight ++ [raw]) where
  bytes := by
    rw [hsplitter, htoClient, ← List.append_assoc, h.bytes]
    simp
  free line hline := by
    rcases List.mem_append.mp hline with hline | hline
    · exact h.free line hline
    · rw [List.mem_singleton.mp hline]
      exact hraw

theorem Reply.of_mem_lines {reply : Reply} (hwell : reply.wellFormed = true)
    (hraw : raw ∈ reply.lines) : lineFeed ∉ raw ∧ isNotification (decodeLine raw) = false := by
  simp only [Reply.wellFormed, Bool.and_eq_true, List.all_eq_true] at hwell
  obtain ⟨⟨hfree, hbody⟩, hterminal⟩ := hwell
  refine ⟨by simpa using hfree raw hraw, ?_⟩
  rcases List.mem_append.mp hraw with hmem | hmem
  · have hisBody := hbody raw hmem
    simp only [isBody, Bool.and_eq_true, Bool.not_eq_true'] at hisBody
    exact hisBody.1
  · rw [List.mem_singleton.mp hmem]
    simp only [isTerminal, Bool.and_eq_true, Bool.not_eq_true'] at hterminal
    exact hterminal.1

theorem Inv.reply {rest : List (List UInt8)} (h : Inv peer w)
    (hanswering : w.answering = raw :: rest) :
    Inv peer { w with answering := rest, toClient := w.toClient ++ (raw ++ [lineFeed]) } := by
  refine ⟨⟨h.tickets.distinct, h.tickets.asked⟩, ⟨h.attributed.results, h.attributed.wellFormed⟩,
    h.single, fun hrun => ?_⟩
  obtain ⟨flight, hflight, htalk⟩ := h.talk hrun
  cases htalk.phase with
  | quiet _ _ answering => exact absurd (hanswering.symm.trans answering) (by simp)
  | asked _ _ _ _ answering => exact absurd (hanswering.symm.trans answering) (by simp)
  | answered a seen pending outstanding known lines unfinished accumulator untaken =>
    rw [hanswering] at lines
    have hline : raw ∈ a.reply.lines := by
      rw [← lines]
      simp
    obtain ⟨hfree, hnot⟩ := Reply.of_mem_lines (h.attributed.wellFormed a known) hline
    have hreplies : repliesOf (flight ++ [raw]) = repliesOf flight ++ [raw] := by
      simp [repliesOf, hnot]
    refine ⟨flight ++ [raw], hflight.append hfree rfl rfl, ?_, htalk.honest, ?_, htalk.silent⟩
    · rw [hreplies]
      refine .answered a seen pending outstanding known ?_ (by simp) accumulator untaken
      rw [← lines]
      simp
    · rw [heard, List.filter_append, List.filter_cons_of_neg (by simp [hnot]), List.filter_nil,
        List.append_nil]
      exact htalk.greeting

theorem Inv.notify (h : Inv peer w) (hfree : lineFeed ∉ raw)
    (hnote : isNotification (decodeLine raw) = true) {hello : Option (Option Nat)}
    (hhello : hello = World.greet w.hello (Event.parse (decodeLine raw)))
    (hhonest : peer.honest hello = true) :
    Inv peer { w with toClient := w.toClient ++ (raw ++ [lineFeed]), hello } := by
  refine ⟨⟨h.tickets.distinct, h.tickets.asked⟩, ⟨h.attributed.results, h.attributed.wellFormed⟩,
    h.single, fun hrun => ?_⟩
  obtain ⟨flight, hflight, htalk⟩ := h.talk hrun
  have hreplies : repliesOf (flight ++ [raw]) = repliesOf flight := by
    simp [repliesOf, hnote]
  refine ⟨flight ++ [raw], hflight.append hfree rfl rfl, ?_, hhonest, ?_, htalk.silent⟩
  · rw [hreplies]
    exact htalk.phase.congr rfl rfl rfl rfl rfl rfl
  · rw [heard, List.filter_append, List.filter_cons_of_pos (by exact hnote), List.filter_nil,
      List.foldl_append]
    show World.greet (heard flight w.greeting) _ = hello
    rw [htalk.greeting, hhello]

theorem Inv.answerError (h : Inv peer w) (error : MgmtError) :
    Inv peer (w.answerPending (.error error)).finish := by
  refine ⟨?_, ?_, ?_, fun hrun => absurd hrun (by simp [World.finish, World.drop])⟩
  · have hanswered := w.handled_answerPending (.error error)
    have hfinished := (w.answerPending (.error error)).handled_finish
    exact h.tickets.of_sublist (hfinished.calls.trans hanswered.calls)
      (hfinished.tickets.trans hanswered.tickets)
  · refine Attributed.finish ?_
    unfold World.answerPending
    split
    · exact h.attributed.error rfl rfl (by simp)
    · exact ⟨h.attributed.results, h.attributed.wellFormed⟩
  · show (w.answerPending (.error error)).outstanding.length ≤ 1
    rw [(w.answerPending_fields _).1]
    exact h.single

theorem Inv.step {peer : Peer} {w w' : World} {action : Action} (h : Inv peer w)
    (hstep : step peer w action = some w') : Inv peer w' := by
  cases action with
  | send line => exact h.submit (fun habsurd => absurd habsurd (by simp)) hstep
  | announce => exact h.announce hstep
  | enqueue => exact h.enqueue hstep
  | write => exact h.write hstep
  | read count => exact h.read hstep
  | take reply => exact h.take hstep
  | expire =>
    simp only [Mgmt.step] at hstep
    split at hstep
    · injection hstep with hstep
      exact hstep ▸ h.answerError _
    · exact absurd hstep (by simp)
  | eof =>
    simp only [Mgmt.step] at hstep
    split at hstep
    · injection hstep with hstep
      exact hstep ▸ h.answerError _
    · exact absurd hstep (by simp)
  | fail =>
    simp only [Mgmt.step] at hstep
    obtain ⟨_, ⟨⟩⟩ := some_of_guard hstep
    exact h.finish
  | close =>
    simp only [Mgmt.step] at hstep
    obtain ⟨_, ⟨⟩⟩ := some_of_guard hstep
    exact h.finish
  | abort =>
    simp only [Mgmt.step] at hstep
    obtain ⟨_, ⟨⟩⟩ := some_of_guard hstep
    have hdrop := h.drop
    exact ⟨⟨hdrop.tickets.distinct, hdrop.tickets.asked⟩,
      ⟨hdrop.attributed.results, hdrop.attributed.wellFormed⟩, hdrop.single,
      fun hrun => absurd hrun (by simp [World.drop])⟩
  | reply =>
    simp only [Mgmt.step] at hstep
    split at hstep
    · exact absurd hstep (by simp)
    · next raw rest hanswering =>
      injection hstep with hstep
      exact hstep ▸ h.reply hanswering
  | notify raw =>
    simp only [Mgmt.step] at hstep
    obtain ⟨hguard, hstep⟩ := some_of_guard hstep
    injection hstep with hstep
    simp only [Bool.and_eq_true] at hguard
    exact hstep ▸ h.notify (by simpa using hguard.1.1) hguard.1.2 rfl hguard.2

theorem inv_of_reachable (h : Reachable (step peer) Anything {} w) : Inv peer w :=
  h.invariant (inv_start peer) fun _ _ _ hinv _ hstep => hinv.step hstep

/-! ## §2. Attribution. -/

theorem Reply.decoded_lines {reply : Reply} (hwell : reply.wellFormed = true) :
    ∀ line ∈ reply.decoded.lines, isNotification line = false := by
  intro line hline
  rw [Reply.decoded_eq] at hline
  obtain ⟨raw, hraw, rfl⟩ := List.mem_map.mp hline
  exact (Reply.of_mem_lines hwell (List.mem_append_left _ hraw)).2

/-- **Replies reach the call they belong to.**  In every run at most one answered command is
    outstanding; and a call that returns a reply returns that of the one answer to its own
    command: the terminal line, the body openvpn wrote for it, and no notification. -/
theorem replies_attributed (peer : Peer) {w : World}
    (h : Reachable (step peer) Anything {} w) :
    w.outstanding.length ≤ 1 ∧
      ∀ k reply, (k, .ok reply) ∈ w.results →
        ∃ a, (a ∈ w.answered ∧ a.command.reply = some k ∧
            ∀ b ∈ w.answered, b.command.reply = some k → b = a) ∧
          w.calls[k]? = some a.command.line ∧ reply = a.reply.decoded ∧
          ∀ line ∈ reply.lines, isNotification line = false := by
  have hinv := inv_of_reachable h
  refine ⟨hinv.single, fun k reply hmem => ?_⟩
  obtain ⟨a, ha, hk, rfl⟩ := hinv.attributed.results k reply hmem
  refine ⟨a, ⟨ha, hk, fun b hb hkb => ?_⟩, hinv.tickets.line_of_answer ha hk, rfl, ?_⟩
  · exact hinv.tickets.answer_unique hb ha hkb hk
  · exact Reply.decoded_lines (hinv.attributed.wellFormed a ha)

def sampleReply : Reply := ⟨[wire "TITLE,x\r", wire "TIME,0\r"], wire "END\r"⟩

def sampleRun : List Action :=
  [.send "status".toList, .send "pid".toList, .enqueue, .write, .enqueue, .take sampleReply, .reply,
    .notify (wire ">BYTECOUNT:1,2\r"), .reply, .read 20, .reply, .read 18, .write,
    .take ⟨[], wire "SUCCESS: pid=7\r"⟩, .reply, .read 16]

def sampleAnswer : CommandReply := ⟨.ending, [], ["TITLE,x".toList, "TIME,0".toList]⟩

theorem replies_attributed_sample : ∃ w : World, Reachable (step samplePeer) Anything {} w ∧
    (0, .ok sampleAnswer) ∈ w.results ∧ w.outstanding.length ≤ 1 ∧
      ∃ a ∈ w.answered, w.calls[0]? = some a.command.line ∧ sampleAnswer = a.reply.decoded := by
  have hreplay : ∃ w, Reachable (step samplePeer) Anything {} w ∧
      (w.results.any fun (k, outcome) => k == 0 &&
        match outcome with
        | .ok reply => reply == sampleAnswer
        | .error _ => false) = true := by
    exact reachable_of_replay sampleRun (by decide +kernel)
  obtain ⟨w, hreach, hresult⟩ := hreplay
  have hmem : (0, .ok sampleAnswer) ∈ w.results := by
    obtain ⟨⟨k, outcome⟩, hmem, hmatch⟩ := List.any_eq_true.mp hresult
    cases outcome with
    | error error => simp at hmatch
    | ok reply =>
      simp only [Bool.and_eq_true, beq_iff_eq] at hmatch
      rw [← hmatch.1, ← hmatch.2]
      exact hmem
  obtain ⟨hsingle, hattributed⟩ := replies_attributed samplePeer hreach
  obtain ⟨a, ⟨ha, _, _⟩, hline, hreply, _⟩ := hattributed 0 sampleAnswer hmem
  exact ⟨w, hreach, hmem, hsingle, a, ha, hline, hreply⟩

end ThisConnect.Mgmt
