/-
  ThisConnect.Mgmt.Tunnel
  **THE TUNNEL STATE MACHINE AND ITS PUBLICATION.**
-/
import ThisConnect.Mgmt.Event

namespace ThisConnect.Mgmt

/-! ## §1. The tracker. -/

structure TunnelTracker where
  connected : Bool := false
  updown : UpDownCollector := {}
  identity : Option TunnelIdentity := none
  deriving DecidableEq, Repr

inductive TunnelEvent where
  | connected
  | disconnected
  | identityLearned (identity : TunnelIdentity)
  | identityLost
  deriving DecidableEq, Repr

namespace TunnelTracker

def transition (tracker : TunnelTracker) (connected : Bool) : TunnelTracker × Option TunnelEvent :=
  if connected = tracker.connected then (tracker, none)
  else
    ({ tracker with
        connected
        -- a stale identity is a leak vector
        identity := if connected then tracker.identity else none },
      some (if connected then .connected else .disconnected))

def foldUpdown (tracker : TunnelTracker) (line : UpDown) :
    Except MgmtError (TunnelTracker × Option TunnelEvent) :=
  match tracker.updown.observe line with
  | (updown, none) => .ok ({ tracker with updown }, none)
  | (updown, some (.ok (.up identity))) =>
    .ok ({ tracker with updown, identity := some identity }, some (.identityLearned identity))
  | (updown, some (.ok .down)) =>
    .ok ({ tracker with updown, identity := none }, some .identityLost)
  | (_, some (.error error)) => .error error

def observe (tracker : TunnelTracker) :
    Event → Except MgmtError (TunnelTracker × Option TunnelEvent)
  | .state state => .ok (tracker.transition state.isConnected)
  | .fatal _ => .ok (tracker.transition false)
  | .upDown line => tracker.foldUpdown line
  | _ => .ok (tracker, none)

end TunnelTracker

/-! ## §2. Publication. -/

def maxGeneration : Nat := 2 ^ 64 - 1

structure TunnelState where
  connected : Bool := false
  identity : Option TunnelIdentity := none
  generation : Nat := 0
  deriving DecidableEq, Repr

def TunnelState.advancedTo (state : TunnelState) (tracker : TunnelTracker) : TunnelState where
  connected := tracker.connected
  identity := tracker.identity
  generation :=
    if tracker.connected && !state.connected then min (state.generation + 1) maxGeneration
    else state.generation

structure Sink where
  state : TunnelState := {}
  version : Nat := 0
  deriving DecidableEq, Repr

/-- `send_if_modified`. -/
def Sink.publish (sink : Sink) (tracker : TunnelTracker) : Sink :=
  if sink.state.advancedTo tracker = sink.state then sink
  else ⟨sink.state.advancedTo tracker, sink.version + 1⟩

/-- Nothing is reachable any more. -/
def Sink.publishDisconnected (sink : Sink) : Sink := sink.publish {}

def observeAndPublish (tracker : TunnelTracker) (event : Event) (sink : Sink) :
    Except MgmtError TunnelTracker × Sink :=
  match tracker.observe event with
  | .ok (next, none) => (.ok next, sink)
  | .ok (next, some _) => (.ok next, sink.publish next)
  | .error error => (.error error, sink.publishDisconnected)

/-! ## §3. What an event can do. -/

inductive Observed (tracker : TunnelTracker) (event : Event) (next : TunnelTracker) : Prop where
  | same (connected : next.connected = tracker.connected)
      (identity : next.identity = tracker.identity)
  | lost (line : event = .upDown .down) (connected : next.connected = tracker.connected)
      (identity : next.identity = none)
  | learned (other : TunnelIdentity) (line : event = .upDown .envEnd)
      (block : tracker.updown.inUpBlock = true)
      (finish : tracker.updown.finish = .ok (.up other))
      (connected : next.connected = tracker.connected) (identity : next.identity = some other)
  | left (before : tracker.connected = true) (connected : next.connected = false)
      (identity : next.identity = none)
  | entered (before : tracker.connected = false) (connected : next.connected = true)
      (state : StateEvent) (line : event = .state state) (isConnected : state.isConnected = true)
      (identity : next.identity = tracker.identity)

namespace TunnelTracker

theorem transition_cases (tracker : TunnelTracker) (connected : Bool) :
    (connected = tracker.connected ∧ tracker.transition connected = (tracker, none)) ∨
    (tracker.connected = true ∧ connected = false ∧
      tracker.transition connected =
        ({ tracker with connected := false, identity := none }, some .disconnected)) ∨
    (tracker.connected = false ∧ connected = true ∧
      tracker.transition connected = ({ tracker with connected := true }, some .connected)) := by
  by_cases hsame : connected = tracker.connected
  · exact .inl ⟨hsame, by simp [transition, hsame]⟩
  · cases connected with
    | false =>
      have hbefore : tracker.connected = true := by simpa using Ne.symm hsame
      exact .inr (.inl ⟨hbefore, rfl, by simp [transition, hbefore]⟩)
    | true =>
      have hbefore : tracker.connected = false := by simpa using Ne.symm hsame
      exact .inr (.inr ⟨hbefore, rfl, by simp [transition, hbefore]⟩)

variable {collector next : UpDownCollector} {line : UpDown}

theorem observe_up {other : TunnelIdentity}
    (h : collector.observe line = (next, some (.ok (.up other)))) :
    line = .envEnd ∧ collector.inUpBlock = true ∧ collector.finish = .ok (.up other) := by
  cases line with
  | envEnd =>
    simp only [UpDownCollector.observe] at h
    split at h
    · next hblock =>
      simp only [Prod.mk.injEq, Option.some.injEq] at h
      exact ⟨rfl, hblock, h.2⟩
    · simp at h
  | _ => simp [UpDownCollector.observe] at h

theorem observe_down (h : collector.observe line = (next, some (.ok .down))) : line = .down := by
  cases line with
  | envEnd =>
    simp only [UpDownCollector.observe, UpDownCollector.finish] at h
    split at h
    · split at h <;> simp at h
    · simp at h
  | down => rfl
  | _ => simp [UpDownCollector.observe] at h

theorem observe_cases {tracker next : TunnelTracker} {event : Event} {signal : Option TunnelEvent}
    (h : tracker.observe event = .ok (next, signal)) :
    Observed tracker event next ∧
      (signal = none → next.connected = tracker.connected ∧ next.identity = tracker.identity) := by
  have hfixed : ∀ connected, tracker.transition connected = (next, signal) →
      (connected = true → ∃ state, event = .state state ∧ state.isConnected = true) →
      Observed tracker event next ∧
        (signal = none → next.connected = tracker.connected ∧
          next.identity = tracker.identity) := by
    intro connected htransition hevent
    rcases transition_cases tracker connected with
      ⟨_, heq⟩ | ⟨hbefore, _, heq⟩ | ⟨hbefore, htrue, heq⟩ <;>
      rw [heq, Prod.mk.injEq] at htransition <;> obtain ⟨rfl, rfl⟩ := htransition
    · exact ⟨.same rfl rfl, fun _ => ⟨rfl, rfl⟩⟩
    · exact ⟨.left hbefore rfl rfl, fun hnone => by cases hnone⟩
    · obtain ⟨state, hline, hconnected⟩ := hevent htrue
      exact ⟨.entered hbefore rfl state hline hconnected rfl, fun hnone => by cases hnone⟩
  unfold observe at h
  split at h
  · next state =>
    injection h with h
    exact hfixed state.isConnected h fun htrue => ⟨state, rfl, htrue⟩
  · injection h with h
    exact hfixed false h fun hfalse => by cases hfalse
  · next line =>
    unfold foldUpdown at h
    split at h
    · injection h with h
      rw [Prod.mk.injEq] at h
      obtain ⟨rfl, rfl⟩ := h
      exact ⟨.same rfl rfl, fun _ => ⟨rfl, rfl⟩⟩
    · next other hobserve =>
      injection h with h
      rw [Prod.mk.injEq] at h
      obtain ⟨rfl, rfl⟩ := h
      obtain ⟨hline, hblock, hfinish⟩ := observe_up hobserve
      exact ⟨.learned other (by rw [hline]) hblock hfinish rfl rfl, fun hnone => by cases hnone⟩
    · next hobserve =>
      injection h with h
      rw [Prod.mk.injEq] at h
      obtain ⟨rfl, rfl⟩ := h
      exact ⟨.lost (by rw [observe_down hobserve]) rfl rfl, fun hnone => by cases hnone⟩
    · cases h
  · injection h with h
    rw [Prod.mk.injEq] at h
    obtain ⟨rfl, rfl⟩ := h
    exact ⟨.same rfl rfl, fun _ => ⟨rfl, rfl⟩⟩

end TunnelTracker

/-! ## §4. What is published. -/

structure Synced (tracker : TunnelTracker) (sink : Sink) : Prop where
  connected : sink.state.connected = tracker.connected
  identity : sink.state.identity = tracker.identity

theorem Sink.publish_state (sink : Sink) (tracker : TunnelTracker) :
    (sink.publish tracker).state = sink.state.advancedTo tracker := by
  unfold Sink.publish
  split
  · next hsame => exact hsame.symm
  · rfl

theorem Sink.publish_version (sink : Sink) (tracker : TunnelTracker) :
    (sink.publish tracker = sink) ∨ (sink.publish tracker).version = sink.version + 1 := by
  unfold Sink.publish
  split
  · exact .inl rfl
  · exact .inr rfl

variable {sink : Sink} {tracker : TunnelTracker}

theorem advancedTo_synced (h : Synced tracker sink) :
    sink.state.advancedTo tracker = sink.state := by
  have hnot : (sink.state.connected && !sink.state.connected) = false := by
    cases sink.state.connected <;> rfl
  simp only [TunnelState.advancedTo, ← h.connected, ← h.identity, hnot]
  rfl

theorem observeAndPublish_ok {next : TunnelTracker} {event : Event} {sink' : Sink}
    (hsynced : Synced tracker sink) (h : observeAndPublish tracker event sink = (.ok next, sink')) :
    Observed tracker event next ∧ Synced next sink' ∧
      sink'.state = sink.state.advancedTo next ∧
      (sink' = sink ∨ sink'.version = sink.version + 1) := by
  unfold observeAndPublish at h
  split at h
  · next next' hobserve =>
    simp only [Prod.mk.injEq, Except.ok.injEq] at h
    obtain ⟨rfl, rfl⟩ := h
    obtain ⟨hobserved, hsame⟩ := TunnelTracker.observe_cases hobserve
    obtain ⟨hconnected, hidentity⟩ := hsame rfl
    have hnext : Synced next' sink :=
      ⟨hsynced.connected.trans hconnected.symm, hsynced.identity.trans hidentity.symm⟩
    exact ⟨hobserved, hnext, (advancedTo_synced hnext).symm, .inl rfl⟩
  · next next' signal hobserve =>
    simp only [Prod.mk.injEq, Except.ok.injEq] at h
    obtain ⟨rfl, rfl⟩ := h
    refine ⟨(TunnelTracker.observe_cases hobserve).1, ?_, Sink.publish_state sink next',
      Sink.publish_version sink next'⟩
    constructor <;> rw [Sink.publish_state] <;> rfl
  · simp at h

end ThisConnect.Mgmt
