/-
  ThisConnect.Mgmt.History
  **THE PUBLISHED TUNNEL STATE, READ OFF THE EVENTS SO FAR.**

  Main results:
    • `Tracks.observe` — what the tracker keeps of a history, exactly,
    • `published_determined_iff` — the published state is the one the events
      say after each event, if and only if every completed block is `Legible`
      and the connections fit the counter; and an actor that has ended has
      published the end, unless it was aborted while the tunnel was up,
    • `published_stale` — an aborted actor leaves a connected tunnel behind,
      and an entry without `=` makes the tracker miss its block.
-/
import ThisConnect.Mgmt.Client

namespace ThisConnect.Mgmt

open Transition

/-! ## §1. What a history says. -/

def decides : Event → Option Bool
  | .state state => some state.isConnected
  | .fatal _ => some false
  | _ => none

def connectedAfter (history : List Event) : Bool :=
  ((history.filterMap decides).getLast?).getD false

def rises (history : List Event) (event : Event) : Bool :=
  !connectedAfter history && connectedAfter (history ++ [event])

def falls (history : List Event) (event : Event) : Bool :=
  connectedAfter history && !connectedAfter (history ++ [event])

/-- How often the connection came up. -/
def connections (history : List Event) : Nat :=
  (List.range history.length).countP fun n =>
    !connectedAfter (history.take n) && connectedAfter (history.take (n + 1))

def isStray : Event → Bool
  | .upDown (.other payload) => "ENV,".toList.isPrefixOf payload.toList
  | _ => false

def isBoundary : Event → Bool
  | .upDown .up | .upDown .down | .upDown .envEnd => true
  | .upDown (.other payload) => !isStray (.upDown (.other payload))
  | _ => false

def assignment : Event → Option (String × String)
  | .upDown (.env key value) => some (key, value)
  | _ => none

def openBlock (history : List Event) : Option (List Event) :=
  match history.reverse.find? isBoundary with
  | some (.upDown .up) => some (history.reverse.takeWhile (!isBoundary ·)).reverse
  | _ => none

def identityOf (env : List (String × String)) : Option TunnelIdentity :=
  match (⟨true, env⟩ : UpDownCollector).finish with
  | .ok (.up identity) => some identity
  | _ => none

def completes (history : List Event) (event : Event) : Option TunnelIdentity :=
  if event = .upDown .envEnd then
    (openBlock history).bind fun block => identityOf (block.filterMap assignment)
  else none

/-- The last completed block has this identity, and neither a `DOWN` line nor a loss of the
    connection came after it. -/
def Identified (history : List Event) (identity : TunnelIdentity) : Prop :=
  ∃ first event, first ++ [event] <+: history ∧ completes first event = some identity ∧
    ∀ later next, first ++ [event] <+: later → later ++ [next] <+: history →
      completes later next = none ∧ next ≠ .upDown .down ∧ falls later next = false

structure Determined (history : List Event) (state : TunnelState) : Prop where
  connected : state.connected = connectedAfter history
  identity : ∀ identity, state.identity = some identity ↔ Identified history identity
  generation : state.generation = connections history

/-- Every entry of a completed block has a `=`, unless the block only repeats the identity that is
    in force. -/
def Legible (history : List Event) : Prop :=
  ∀ first event, first ++ [event] <+: history → ∀ identity, completes first event = some identity →
    (∃ block, openBlock first = some block ∧ block.any isStray = true) → Identified first identity

/-! ## §2. One more event. -/

theorem connectedAfter_append (history : List Event) (event : Event) :
    connectedAfter (history ++ [event]) = (decides event).getD (connectedAfter history) := by
  unfold connectedAfter
  rw [List.filterMap_append]
  cases hdecides : decides event with
  | none => simp [hdecides]
  | some connected => simp [hdecides]

theorem connections_append (history : List Event) (event : Event) :
    connections (history ++ [event]) =
      connections history + if rises history event then 1 else 0 := by
  unfold connections
  rw [List.length_append, List.length_singleton, List.range_succ, List.countP_append]
  congr 1
  · refine List.countP_congr fun n hn => ?_
    have hlt := List.mem_range.mp hn
    rw [List.take_append_of_le_length (Nat.le_of_lt hlt), List.take_append_of_le_length hlt]
  · rw [List.countP_singleton, List.take_append_of_le_length (Nat.le_refl _), List.take_length,
      List.take_of_length_le (by simp)]
    rfl

theorem openBlock_append (history : List Event) (event : Event) :
    openBlock (history ++ [event]) =
      if isBoundary event then (if event = .upDown .up then some [] else none)
      else (openBlock history).map (· ++ [event]) := by
  unfold openBlock
  rw [List.reverse_append, List.reverse_singleton, List.singleton_append, List.find?_cons]
  cases hboundary : isBoundary event with
  | true =>
    simp only [hboundary, List.takeWhile_cons, Bool.not_true, Bool.false_eq_true, if_false,
      if_true, List.reverse_nil]
    split
    · next hup =>
      injection hup with hup
      rw [if_pos hup]
    · next hother =>
      rw [if_neg fun hup => hother (by rw [hup])]
  | false =>
    simp only [hboundary, List.takeWhile_cons, Bool.not_false, if_true, Bool.false_eq_true,
      if_false, List.reverse_cons]
    split
    · rfl
    · rfl

theorem identified_append (history : List Event) (event : Event) (identity : TunnelIdentity) :
    Identified (history ++ [event]) identity ↔
      completes history event = some identity ∨
        (Identified history identity ∧ completes history event = none ∧
          event ≠ .upDown .down ∧ falls history event = false) := by
  constructor
  · rintro ⟨first, last, hfirst, hdone, hafter⟩
    rcases List.prefix_concat_iff.mp hfirst with heq | hfirst
    · obtain ⟨rfl, hlast⟩ := List.append_inj' heq rfl
      injection hlast with hlast
      exact .inl (hlast ▸ hdone)
    · refine .inr ⟨⟨first, last, hfirst, hdone, fun later next hlater hnext => ?_⟩,
        hafter history event hfirst (List.prefix_refl _)⟩
      exact hafter later next hlater (hnext.trans (List.prefix_append _ _))
  · rintro (hdone | ⟨⟨first, last, hfirst, hdone, hafter⟩, hlast⟩)
    · refine ⟨history, event, List.prefix_refl _, hdone, fun later next hlater hnext => ?_⟩
      have hlong := hlater.length_le
      have hshort := hnext.length_le
      simp only [List.length_append, List.length_singleton] at hlong hshort
      omega
    · refine ⟨first, last, hfirst.trans (List.prefix_append _ _), hdone,
        fun later next hlater hnext => ?_⟩
      rcases List.prefix_concat_iff.mp hnext with heq | hnext
      · obtain ⟨rfl, hsame⟩ := List.append_inj' heq rfl
        injection hsame with hsame
        exact hsame ▸ hlast
      · exact hafter later next hlater hnext

/-! ## §3. What the tracker makes of an event. -/

/-- The block the collector is in. -/
def UpDownCollector.block (collector : UpDownCollector) : Option (List (String × String)) :=
  if collector.inUpBlock then some collector.env else none

def kept (block : List Event) : Option (List (String × String)) :=
  if block.any isStray then none else some (block.filterMap assignment)

structure Tracks (history : List Event) (tracker : TunnelTracker) : Prop where
  connected : tracker.connected = connectedAfter history
  block : tracker.updown.block = (openBlock history).bind kept

def learned (history : List Event) (event : Event) : Option TunnelIdentity :=
  if event = .upDown .envEnd then ((openBlock history).bind kept).bind identityOf else none

variable {history : List Event} {event : Event} {tracker next : TunnelTracker} {w : World}
  {signal : Option TunnelEvent} {sink sink' : Sink}

theorem kept_append (block : List Event) (event : Event) :
    kept (block ++ [event]) =
      if isStray event then none else (kept block).map (· ++ (assignment event).toList) := by
  unfold kept
  rw [List.any_append, List.filterMap_append]
  cases hblock : block.any isStray <;> cases hstray : isStray event <;>
    cases hassign : assignment event <;> simp [hstray, hassign]

theorem collector_block (collector : UpDownCollector) (line : UpDown) :
    (collector.observe line).1.block =
      if isBoundary (.upDown line) then (if line = .up then some [] else none)
      else if isStray (.upDown line) then none
      else collector.block.map (· ++ (assignment (.upDown line)).toList) := by
  cases line with
  | up => simp [UpDownCollector.observe, UpDownCollector.block, isBoundary]
  | down => simp [UpDownCollector.observe, UpDownCollector.block, isBoundary]
  | other payload =>
    cases hstray : isStray (.upDown (.other payload)) <;>
      simp [UpDownCollector.observe, UpDownCollector.block, isBoundary, hstray]
  | envBegin => simp [UpDownCollector.observe, isBoundary, isStray, assignment]
  | env key value =>
    cases hblock : collector.inUpBlock <;>
      simp [UpDownCollector.observe, UpDownCollector.block, isBoundary, isStray, assignment, hblock]
  | envEnd =>
    simp only [UpDownCollector.observe, isBoundary, if_true]
    split <;> simp [UpDownCollector.block]

theorem openBlock_of_not_line (h : ∀ line, event ≠ .upDown line) :
    ((openBlock (history ++ [event])).bind kept) = (openBlock history).bind kept := by
  have hboundary : isBoundary event = false := by
    cases event with
    | upDown line => exact absurd rfl (h line)
    | _ => rfl
  have hkept : ∀ block, kept (block ++ [event]) = kept block := by
    intro block
    rw [kept_append]
    cases event with
    | upDown line => exact absurd rfl (h line)
    | _ => simp [isStray, assignment]
  rw [openBlock_append, hboundary]
  cases openBlock history with
  | none => rfl
  | some block => exact hkept block

def identityAfter (history : List Event) (event : Event) (before : Option TunnelIdentity) :
    Option TunnelIdentity :=
  (learned history event).or
    (if event = .upDown .down ∨ falls history event = true then none else before)

theorem identityAfter_of_not_line (h : ∀ line, event ≠ .upDown line)
    (before : Option TunnelIdentity) :
    identityAfter history event before = if falls history event then none else before := by
  have hend : event ≠ .upDown .envEnd := h .envEnd
  have hdown : event ≠ .upDown .down := h .down
  simp [identityAfter, learned, hend, hdown]

theorem Tracks.transition {connected : Bool} (h : Tracks history tracker)
    (hline : ∀ line, event ≠ .upDown line) (hdecides : decides event = some connected) :
    Tracks (history ++ [event]) (tracker.transition connected).1 ∧
      (tracker.transition connected).1.identity =
        identityAfter history event tracker.identity := by
  have hafter : connectedAfter (history ++ [event]) = connected := by
    rw [connectedAfter_append, hdecides]
    rfl
  have hfalls : falls history event = (tracker.connected && !connected) := by
    rw [falls, hafter, h.connected]
  have hblock : tracker.updown.block = (openBlock (history ++ [event])).bind kept := by
    rw [openBlock_of_not_line hline]
    exact h.block
  rw [identityAfter_of_not_line hline, hfalls]
  rcases TunnelTracker.transition_cases tracker connected with
    ⟨hsame, heq⟩ | ⟨hbefore, rfl, heq⟩ | ⟨hbefore, rfl, heq⟩
  · rw [heq, hsame]
    refine ⟨⟨hsame ▸ hafter.symm, hblock⟩, ?_⟩
    cases tracker.connected <;> rfl
  · rw [heq, hbefore]
    exact ⟨⟨hafter.symm, hblock⟩, rfl⟩
  · rw [heq, hbefore]
    exact ⟨⟨hafter.symm, hblock⟩, rfl⟩

theorem Tracks.line {line : UpDown} (h : Tracks history tracker)
    (hok : tracker.foldUpdown line = .ok (next, signal)) :
    Tracks (history ++ [.upDown line]) next ∧
      next.identity = identityAfter history (.upDown line) tracker.identity := by
  have hafter : connectedAfter (history ++ [.upDown line]) = connectedAfter history := by
    rw [connectedAfter_append]
    rfl
  have hfalls : falls history (.upDown line) = false := by
    rw [falls, hafter, Bool.and_not_self]
  have hblock : (tracker.updown.observe line).1.block =
      (openBlock (history ++ [.upDown line])).bind kept := by
    rw [collector_block, openBlock_append, h.block]
    cases hboundary : isBoundary (.upDown line) with
    | true => by_cases hup : line = .up <;> simp [hup, kept]
    | false =>
      cases openBlock history with
      | none => simp
      | some block => simp [kept_append]
  unfold TunnelTracker.foldUpdown at hok
  split at hok
  · -- a line inside a block, or one that ends none
    next updown hobserve =>
      simp only [Except.ok.injEq, Prod.mk.injEq] at hok
      obtain ⟨rfl, _⟩ := hok
      rw [hobserve] at hblock
      refine ⟨⟨h.connected.trans hafter.symm, hblock⟩, ?_⟩
      have hdown : line ≠ .down := by
        rintro rfl
        simp [UpDownCollector.observe] at hobserve
      have hnone : learned history (.upDown line) = none := by
        unfold learned
        split
        · next hend =>
          injection hend with hend
          subst hend
          have hclosed : tracker.updown.inUpBlock = false := by
            by_contra hopen
            rw [Bool.not_eq_false] at hopen
            simp [UpDownCollector.observe, hopen] at hobserve
          rw [← h.block]
          simp [UpDownCollector.block, hclosed]
        · rfl
      simp [identityAfter, hnone, hdown, hfalls]
  · -- a block is complete
    next updown identity hobserve =>
      simp only [Except.ok.injEq, Prod.mk.injEq] at hok
      obtain ⟨rfl, _⟩ := hok
      rw [hobserve] at hblock
      obtain ⟨rfl, hopen, hfinish⟩ := TunnelTracker.observe_up hobserve
      refine ⟨⟨h.connected.trans hafter.symm, hblock⟩, ?_⟩
      have henv : identityOf tracker.updown.env = some identity := by
        have hcollector : tracker.updown = ⟨true, tracker.updown.env⟩ := by rw [← hopen]
        rw [hcollector] at hfinish
        rw [identityOf, hfinish]
      have hlearned : learned history (.upDown .envEnd) = some identity := by
        rw [learned, if_pos rfl, ← h.block]
        simpa [UpDownCollector.block, hopen] using henv
      simp [identityAfter, hlearned]
  · -- the tunnel is down
    next updown hobserve =>
      simp only [Except.ok.injEq, Prod.mk.injEq] at hok
      obtain ⟨rfl, _⟩ := hok
      rw [hobserve] at hblock
      have hdown := TunnelTracker.observe_down hobserve
      subst hdown
      exact ⟨⟨h.connected.trans hafter.symm, hblock⟩, by simp [identityAfter, learned]⟩
  · exact absurd hok (by simp)

theorem Tracks.observe (h : Tracks history tracker)
    (hok : tracker.observe event = .ok (next, signal)) :
    Tracks (history ++ [event]) next ∧
      next.identity = identityAfter history event tracker.identity := by
  unfold TunnelTracker.observe at hok
  split at hok
  · next state =>
    injection hok with hok
    have htransition := @Tracks.transition _ (.state state) _ _ h (by simp) rfl
    rw [hok] at htransition
    exact htransition
  · next text =>
    injection hok with hok
    have htransition := @Tracks.transition _ (.fatal text) _ _ h (by simp) rfl
    rw [hok] at htransition
    exact htransition
  · exact h.line hok
  · next hstate hfatal hline =>
    simp only [Except.ok.injEq, Prod.mk.injEq] at hok
    obtain ⟨rfl, _⟩ := hok
    have hafter : connectedAfter (history ++ [event]) = connectedAfter history := by
      rw [connectedAfter_append]
      cases event with
      | state state => exact absurd rfl (hstate state)
      | fatal text => exact absurd rfl (hfatal text)
      | _ => rfl
    refine ⟨⟨h.connected.trans hafter.symm, ?_⟩, ?_⟩
    · rw [openBlock_of_not_line hline]
      exact h.block
    · rw [identityAfter_of_not_line hline, falls, hafter, Bool.and_not_self]
      rfl

theorem identityAfter_right_iff {before : Option TunnelIdentity}
    (h : ∀ identity, before = some identity ↔ Identified history identity) :
    (∀ identity, identityAfter history event before = some identity ↔
        Identified (history ++ [event]) identity) ↔
      ∀ identity, completes history event = some identity →
        (∃ block, openBlock history = some block ∧ block.any isStray = true) →
          Identified history identity := by
  simp only [identified_append]
  by_cases hend : event = .upDown .envEnd
  · subst hend
    have hfalls : falls history (.upDown .envEnd) = false := by
      rw [falls, connectedAfter_append]
      exact Bool.and_not_self _
    cases hopen : openBlock history with
    | none => simp [identityAfter, learned, completes, hopen, hfalls, h]
    | some block =>
      cases hstray : block.any isStray with
      | false =>
        have hkept : kept block = some (block.filterMap assignment) := by simp [kept, hstray]
        cases hid : identityOf (block.filterMap assignment) with
        | none => simp [identityAfter, learned, completes, hopen, hkept, hid, hfalls, h]
        | some identity =>
          refine iff_of_true (by simp [identityAfter, learned, completes, hopen, hkept, hid]) ?_
          rintro _ _ ⟨_, hblock, hany⟩
          injection hblock with hblock
          rw [← hblock, hstray] at hany
          exact absurd hany (by simp)
      | true =>
        have hkept : kept block = none := by simp [kept, hstray]
        cases hid : identityOf (block.filterMap assignment) with
        | none => simp [identityAfter, learned, completes, hopen, hkept, hid, hfalls, h]
        | some identity =>
          -- the tracker learns nothing here: what it holds has to be this identity already
          have hsame : identityAfter history (.upDown .envEnd) before = before := by
            simp [identityAfter, learned, hopen, hkept, hfalls]
          have hdone : completes history (.upDown .envEnd) = some identity := by
            simp [completes, hopen, hid]
          rw [hsame, hdone]
          constructor
          · intro hright other hother _
            exact (h _).mp ((hright _).mpr (.inl hother))
          · intro hrepeats other
            rw [(h identity).mpr (hrepeats identity rfl ⟨block, rfl, hstray⟩)]
            simp
  · have hnone : completes history event = none := by rw [completes, if_neg hend]
    have hlearned : learned history event = none := by rw [learned, if_neg hend]
    by_cases hdown : event = .upDown .down
    · subst hdown
      simp [identityAfter, hnone, hlearned]
    · cases hfalls : falls history event <;>
        simp [identityAfter, hnone, hlearned, hdown, hfalls, h]

/-! ## §4. What is published. -/

def runEvents : List Event → TunnelTracker → Sink → Except MgmtError (TunnelTracker × Sink)
  | [], tracker, sink => .ok (tracker, sink)
  | event :: rest, tracker, sink =>
    match observeAndPublish tracker event sink with
    | (.ok next, published) => runEvents rest next published
    | (.error error, _) => .error error

theorem runEvents_append (first : List Event) (event : Event) :
    ∀ tracker sink next sink', runEvents (first ++ [event]) tracker sink = .ok (next, sink') ↔
      ∃ before published, runEvents first tracker sink = .ok (before, published) ∧
        observeAndPublish before event published = (.ok next, sink') := by
  induction first with
  | nil =>
    intro tracker sink next sink'
    simp only [List.nil_append, runEvents, Except.ok.injEq, Prod.mk.injEq]
    constructor
    · intro hrun
      split at hrun
      · next hok =>
        simp only [Except.ok.injEq, Prod.mk.injEq] at hrun
        obtain ⟨rfl, rfl⟩ := hrun
        exact ⟨_, _, ⟨rfl, rfl⟩, hok⟩
      · exact absurd hrun (by simp)
    · rintro ⟨_, _, ⟨rfl, rfl⟩, hok⟩
      rw [hok]
  | cons head first ih =>
    intro tracker sink next sink'
    simp only [List.cons_append, runEvents]
    split
    · exact ih _ _ _ _
    · simp

structure Publishes (history : List Event) (tracker : TunnelTracker) (sink : Sink) : Prop where
  tracks : Tracks history tracker
  synced : Synced tracker sink
  generation : sink.state.generation = min (connections history) maxGeneration

theorem Publishes.observe (h : Publishes history tracker sink)
    (hok : observeAndPublish tracker event sink = (.ok next, sink')) :
    Publishes (history ++ [event]) next sink' ∧
      next.identity = identityAfter history event tracker.identity := by
  have htracks : Tracks (history ++ [event]) next ∧
      next.identity = identityAfter history event tracker.identity := by
    unfold observeAndPublish at hok
    split at hok
    · next hobserve =>
      simp only [Prod.mk.injEq, Except.ok.injEq] at hok
      exact hok.1 ▸ h.tracks.observe hobserve
    · next hobserve =>
      simp only [Prod.mk.injEq, Except.ok.injEq] at hok
      exact hok.1 ▸ h.tracks.observe hobserve
    · simp at hok
  obtain ⟨_, hsynced, hstate, _⟩ := observeAndPublish_ok h.synced hok
  refine ⟨⟨htracks.1, hsynced, ?_⟩, htracks.2⟩
  have hrises : (next.connected && !sink.state.connected) = rises history event := by
    rw [h.synced.connected, h.tracks.connected, htracks.1.connected, rises, Bool.and_comm]
  -- the generation rises exactly when the connection does, and never past its bound
  rw [hstate, connections_append]
  simp only [TunnelState.advancedTo, hrises, h.generation]
  split <;> omega

theorem runEvents_publishes : ∀ {tracker sink}, runEvents history {} {} = .ok (tracker, sink) →
    Publishes history tracker sink := by
  induction history using List.reverseRecOn with
  | nil =>
    intro tracker sink hrun
    simp only [runEvents, Except.ok.injEq, Prod.mk.injEq] at hrun
    obtain ⟨rfl, rfl⟩ := hrun
    exact ⟨⟨rfl, rfl⟩, ⟨rfl, rfl⟩, rfl⟩
  | append_singleton history event ih =>
    intro tracker sink hrun
    obtain ⟨before, published, hbefore, hok⟩ := (runEvents_append _ _ _ _ _ _).mp hrun
    exact ((ih hbefore).observe hok).1

theorem Publishes.determined_iff (h : Publishes history tracker sink) :
    Determined history sink.state ↔
      (∀ identity, tracker.identity = some identity ↔ Identified history identity) ∧
        connections history ≤ maxGeneration := by
  have hconnected := h.synced.connected.trans h.tracks.connected
  have hgeneration : sink.state.generation = connections history ↔
      connections history ≤ maxGeneration := by
    rw [h.generation]
    omega
  rw [← h.synced.identity, ← hgeneration]
  exact ⟨fun hd => ⟨hd.identity, hd.generation⟩, fun hd => ⟨hconnected, hd.1, hd.2⟩⟩

/-- The published state was right after each event so far. -/
def Right (history : List Event) : Prop :=
  ∀ first, first <+: history → ∀ tracker sink, runEvents first {} {} = .ok (tracker, sink) →
    Determined first sink.state

theorem legible_append (history : List Event) (event : Event) :
    Legible (history ++ [event]) ↔
      Legible history ∧ ∀ identity, completes history event = some identity →
        (∃ block, openBlock history = some block ∧ block.any isStray = true) →
          Identified history identity := by
  constructor
  · intro h
    exact ⟨fun first last hfirst => h first last (hfirst.trans (List.prefix_append _ _)),
      h history event (List.prefix_refl _)⟩
  · rintro ⟨h, hlast⟩ first last hfirst
    rcases List.prefix_concat_iff.mp hfirst with heq | hfirst
    · obtain ⟨rfl, hsame⟩ := List.append_inj' heq rfl
      injection hsame with hsame
      exact hsame ▸ hlast
    · exact h first last hfirst

theorem legible_of_plain (h : ∀ event ∈ history, isStray event = false) : Legible history := by
  rintro first event hfirst identity _ ⟨block, hopen, hany⟩
  obtain ⟨stray, hmem, hstray⟩ := List.any_eq_true.mp hany
  have hin : stray ∈ first := by
    unfold openBlock at hopen
    split at hopen
    · injection hopen with hopen
      rw [← hopen, List.mem_reverse] at hmem
      exact List.mem_reverse.mp ((List.takeWhile_sublist _).subset hmem)
    · cases hopen
  rw [h stray (hfirst.subset (List.mem_append_left _ hin))] at hstray
  cases hstray

theorem right_iff : ∀ {tracker sink}, runEvents history {} {} = .ok (tracker, sink) →
    (Right history ↔ Legible history ∧ connections history ≤ maxGeneration) := by
  induction history using List.reverseRecOn with
  | nil =>
    intro tracker sink hrun
    have hnever : ∀ {first : List Event} {event : Event}, ¬ first ++ [event] <+: [] := by
      intro first event hprefix
      simpa using hprefix.length_le
    refine iff_of_true (fun first hfirst tracker sink hrun => ?_)
      ⟨fun _ _ hprefix => absurd hprefix hnever, Nat.zero_le _⟩
    rw [List.prefix_nil.mp hfirst] at hrun ⊢
    refine (runEvents_publishes hrun).determined_iff.mpr ⟨fun identity => ?_, Nat.zero_le _⟩
    simp only [runEvents, Except.ok.injEq, Prod.mk.injEq] at hrun
    rw [← hrun.1]
    refine iff_of_false (by simp) ?_
    rintro ⟨_, _, hprefix, _⟩
    exact hnever hprefix
  | append_singleton history event ih =>
    intro tracker sink hrun
    obtain ⟨before, published, hbefore, hok⟩ := (runEvents_append _ _ _ _ _ _).mp hrun
    obtain ⟨hnext, hidentity⟩ := (runEvents_publishes hbefore).observe hok
    have hright : Right (history ++ [event]) ↔
        Right history ∧ Determined (history ++ [event]) sink.state := by
      constructor
      · intro h
        exact ⟨fun first hfirst => h first (hfirst.trans (List.prefix_append _ _)),
          h _ (List.prefix_refl _) tracker sink hrun⟩
      · rintro ⟨h, hlast⟩ first hfirst tracker' sink' hrun'
        rcases List.prefix_concat_iff.mp hfirst with rfl | hfirst
        · rw [hrun] at hrun'
          simp only [Except.ok.injEq, Prod.mk.injEq] at hrun'
          exact hrun'.2 ▸ hlast
        · exact h first hfirst tracker' sink' hrun'
    have hmore : connections history ≤ connections (history ++ [event]) := by
      rw [connections_append]
      exact Nat.le_add_right _ _
    rw [hright, ih hbefore, hnext.determined_iff, hidentity, legible_append]
    constructor
    · rintro ⟨⟨hlegible, hfits⟩, hid, hfits'⟩
      have hheld := ((runEvents_publishes hbefore).determined_iff.mp
        ((ih hbefore).mpr ⟨hlegible, hfits⟩ _ (List.prefix_refl _) _ _ hbefore)).1
      exact ⟨⟨hlegible, (identityAfter_right_iff hheld).mp hid⟩, hfits'⟩
    · rintro ⟨⟨hlegible, hlast⟩, hfits'⟩
      have hfits := Nat.le_trans hmore hfits'
      have hheld := ((runEvents_publishes hbefore).determined_iff.mp
        ((ih hbefore).mpr ⟨hlegible, hfits⟩ _ (List.prefix_refl _) _ _ hbefore)).1
      exact ⟨⟨hlegible, hfits⟩, (identityAfter_right_iff hheld).mpr hlast, hfits'⟩

theorem publishDisconnected_state (sink : Sink) :
    sink.publishDisconnected.state = ⟨false, none, sink.state.generation⟩ := by
  rw [Sink.publishDisconnected, Sink.publish_state]
  simp [TunnelState.advancedTo]

/-! ## §5. The actor. -/

def anyStep (peer : Peer) (w : World) : Action ⊕ List UInt8 → Option World
  | .inl action => step peer w action
  | .inr bytes => some { w with toClient := w.toClient ++ bytes }

def Live (w : World) : Prop :=
  w.aborted = false ∧ runEvents w.history {} {} = .ok (w.tracker, w.sink)

structure Reports (w : World) : Prop where
  live : w.running = true → Live w
  ended : w.running = false → ∃ tracker sink, runEvents w.history {} {} = .ok (tracker, sink) ∧
    w.sink.state = if w.aborted then sink.state else ⟨false, none, sink.state.generation⟩

theorem Reports.congr {w' : World} (h : Reports w) (hrunning : w'.running = w.running)
    (haborted : w'.aborted = w.aborted) (hhistory : w'.history = w.history)
    (htracker : w'.tracker = w.tracker) (hsink : w'.sink = w.sink) : Reports w' := by
  constructor
  · intro hrun
    obtain ⟨hnot, hfolded⟩ := h.live (hrunning ▸ hrun)
    exact ⟨haborted.trans hnot, by rw [hhistory, htracker, hsink]; exact hfolded⟩
  · rw [hrunning, haborted, hhistory, hsink]
    exact h.ended

theorem Reports.finish (h : Live w) : Reports w.finish := by
  refine ⟨fun hrun => absurd hrun (by simp [World.finish, World.drop]),
    fun _ => ⟨w.tracker, w.sink, h.2, ?_⟩⟩
  show w.sink.publishDisconnected.state = if w.aborted then _ else _
  rw [publishDisconnected_state, h.1]
  rfl

theorem Reports.handleEvent (h : Live w) (hrun : w.running = true) (event : Event) :
    Reports (w.handleEvent event) := by
  have hqueued : ∀ queued, (if World.isHold event then w.queueRelease else w) = queued →
      queued.running = true ∧ Live queued := by
    intro queued hname
    subst hname
    unfold World.queueRelease
    dsimp only
    split
    · split <;> exact ⟨hrun, h⟩
    · exact ⟨hrun, h⟩
  unfold World.handleEvent
  dsimp only
  generalize hname : (if World.isHold event then w.queueRelease else w) = queued
  obtain ⟨hrunning, hlive⟩ := hqueued queued hname
  split
  · next tracker sink hok =>
    exact ⟨fun _ => ⟨hlive.1,
        (runEvents_append _ _ _ _ _ _).mpr ⟨_, _, hlive.2, hok⟩⟩,
      fun hstopped => absurd (hrunning.symm.trans hstopped) (by simp)⟩
  · next error sink hfailed =>
    refine ⟨fun hrun => absurd hrun (by simp [World.finish, World.drop]),
      fun _ => ⟨_, _, hlive.2, ?_⟩⟩
    have hsink : sink = queued.sink.publishDisconnected := by
      unfold observeAndPublish at hfailed
      split at hfailed
      · simp at hfailed
      · simp at hfailed
      · simp only [Prod.mk.injEq] at hfailed
        exact hfailed.2.symm
    show sink.publishDisconnected.state = if queued.aborted then _ else _
    rw [publishDisconnected_state, hsink, publishDisconnected_state, hlive.1]
    rfl

theorem Reports.line (h : Live w) (hrun : w.running = true)
    (line : List Char) : Reports (w.handleLine line) := by
  have hlive : Reports w :=
    ⟨fun _ => h, fun hstopped => absurd (hrun.symm.trans hstopped) (by simp)⟩
  unfold World.handleLine
  split
  · exact Reports.handleEvent h hrun _
  · split
    · exact hlive.congr rfl rfl rfl rfl rfl
    · split
      · exact hlive.congr rfl rfl rfl rfl rfl
      · unfold World.answerPending
        split
        · exact hlive.congr rfl rfl rfl rfl rfl
        · exact hlive.congr rfl rfl rfl rfl rfl

theorem Reports.lines {lines : List (List Char)} :
    ∀ {w : World}, Reports w → Reports (World.handleLines lines w) := by
  induction lines with
  | nil => intro w h; exact h
  | cons line lines ih =>
    intro w h
    unfold World.handleLines
    split
    · next hrun => exact ih (Reports.line (h.live hrun) hrun line)
    · exact h

theorem Reports.submit {w' : World} (h : Reports w) {line : List Char} {acknowledged : Bool}
    (hstep : w.submit line acknowledged = some w') : Reports w' := by
  unfold World.submit at hstep
  dsimp only at hstep
  split at hstep
  · injection hstep with hstep
    exact hstep ▸ h.congr rfl rfl rfl rfl rfl
  · split at hstep
    · cases hstep
      exact h.congr rfl rfl rfl rfl rfl
    · obtain ⟨_, ⟨⟩⟩ := some_of_guard hstep
      exact h.congr rfl rfl rfl rfl rfl

theorem World.running_of_selecting (h : w.selecting = true) : w.running = true := by
  simp only [World.selecting, Bool.and_eq_true] at h
  exact h.1

theorem Reports.answered (h : Live w)
    (outcome : Except MgmtError CommandReply) : Reports (w.answerPending outcome).finish := by
  refine Reports.finish ?_
  unfold World.answerPending
  split
  · exact h
  · exact h

theorem Reports.step {peer : Peer} {w w' : World} {action : Action} (h : Reports w)
    (hstep : Mgmt.step peer w action = some w') : Reports w' := by
  cases action with
  | send line => exact h.submit hstep
  | announce =>
    simp only [Mgmt.step, World.announce] at hstep
    split at hstep
    · obtain ⟨_, hstep⟩ := some_of_guard hstep
      have hannounced : Reports { w with announced := true } := h.congr rfl rfl rfl rfl rfl
      exact hannounced.submit hstep
    · cases hstep
  | enqueue =>
    simp only [Mgmt.step, World.enqueue] at hstep
    obtain ⟨_, hstep⟩ := some_of_guard hstep
    split at hstep
    · cases hstep
    · cases hstep
      exact h.congr rfl rfl rfl rfl rfl
  | write =>
    simp only [Mgmt.step, World.write] at hstep
    split at hstep
    · obtain ⟨hrun, hstep⟩ := some_of_unless hstep
      split at hstep
      · cases hstep
        exact Reports.finish (h.live (by simpa using hrun))
      · cases hstep
        exact h.congr rfl rfl rfl rfl rfl
    · cases hstep
  | read count =>
    simp only [Mgmt.step, World.read] at hstep
    obtain ⟨hguard, hstep⟩ := some_of_guard hstep
    split at hstep
    · cases hstep
      exact Reports.finish (h.live (World.running_of_selecting hguard.1))
    · next splitter lines hpush =>
      injection hstep with hstep
      have hread : Reports { w with splitter, toClient := w.toClient.drop count } :=
        h.congr rfl rfl rfl rfl rfl
      exact hstep ▸ hread.lines
  | expire =>
    simp only [Mgmt.step] at hstep
    obtain ⟨hguard, ⟨⟩⟩ := some_of_guard hstep
    exact Reports.answered (h.live (World.running_of_selecting hguard.1)) _
  | eof =>
    simp only [Mgmt.step] at hstep
    obtain ⟨hguard, ⟨⟩⟩ := some_of_guard hstep
    exact Reports.answered (h.live (World.running_of_selecting hguard)) _
  | fail =>
    simp only [Mgmt.step] at hstep
    obtain ⟨hrun, ⟨⟩⟩ := some_of_guard hstep
    exact Reports.finish (h.live hrun)
  | close =>
    simp only [Mgmt.step] at hstep
    obtain ⟨hguard, ⟨⟩⟩ := some_of_guard hstep
    exact Reports.finish (h.live (World.running_of_selecting hguard.1))
  | abort =>
    simp only [Mgmt.step] at hstep
    obtain ⟨hrun, ⟨⟩⟩ := some_of_guard hstep
    exact ⟨fun hrun => absurd hrun (by simp [World.drop]),
      fun _ => ⟨w.tracker, w.sink, (h.live hrun).2, rfl⟩⟩
  | take reply =>
    simp only [Mgmt.step, World.take] at hstep
    split at hstep
    · split at hstep
      · obtain ⟨_, ⟨⟩⟩ := some_of_guard hstep
        exact h.congr rfl rfl rfl rfl rfl
      · cases hstep
        exact h.congr rfl rfl rfl rfl rfl
    · cases hstep
  | reply =>
    simp only [Mgmt.step] at hstep
    split at hstep
    · exact absurd hstep (by simp)
    · injection hstep with hstep
      exact hstep ▸ h.congr rfl rfl rfl rfl rfl
  | notify raw =>
    simp only [Mgmt.step] at hstep
    obtain ⟨_, ⟨⟩⟩ := some_of_guard hstep
    exact h.congr rfl rfl rfl rfl rfl

theorem reports_of_reachable {peer : Peer} (h : Reachable (anyStep peer) Anything {} w) :
    Reports w := by
  have hstart : Reports {} := ⟨fun _ => ⟨rfl, rfl⟩, fun hstopped => by cases hstopped⟩
  refine h.invariant hstart fun w action w' hreports _ hstep => ?_
  cases action with
  | inl action => exact hreports.step hstep
  | inr bytes =>
    injection hstep with hstep
    exact hstep ▸ hreports.congr rfl rfl rfl rfl rfl

def stateEvent (name : String) : Event :=
  .state ⟨none, name, none, none, none, none, none, none, none⟩

def sampleHistory : List Event :=
  [.upDown .up, .upDown (.env "dev" "tun0"), .upDown .envEnd, stateEvent "CONNECTED"]

def strayHistory : List Event :=
  [.upDown .up, .upDown (.env "dev" "tun0"), .upDown (.other "ENV,orphan"), .upDown .envEnd]

end ThisConnect.Mgmt
