/-
  ThisConnect.Ui.Client
  **THE GUI'S REQUESTS.**

  Main results:
    • `kept_of_reachable` — a call's sender is in at most one place, and a call
      that got a response got it for an id written for it on that connection.
    • `step_moves` — the steps, with what each needs.
-/
import ThisConnect.Base.Places
import ThisConnect.Base.Transition
import ThisConnect.Ipc.Wire

namespace ThisConnect.Ui

open Transition Places
open Ipc (ClientMessage DaemonMessage IpcError PromptReply Request Response Serde encodeLine)

/-! ## §1. Calls, commands and the actor. -/

inductive ClientError where
  | daemon (error : IpcError)
  | timeout
  | actorGone
  deriving DecidableEq

inductive Slot where
  | empty
  | sent (connection : Nat) (id : String) (reply : Except IpcError Response)
  | dropped

structure Call where
  request : Request
  calledAt : Nat
  slot : Slot := .empty
  result : Option (Except ClientError Response) := none

/-- A call that finds the actor gone. -/
def Call.gone (request : Request) (now : Nat) : Call :=
  { request, calledAt := now, slot := .dropped, result := some (.error .actorGone) }

inductive Command where
  | request (call : Nat) (request : Request)
  | promptReply (promptId : String) (reply : PromptReply)

def Command.call : Command → Option Nat
  | .request k _ => some k
  | .promptReply _ _ => none

def Command.message (id : String) : Command → ClientMessage
  | .request _ req => .request id req
  | .promptReply promptId reply => .promptReply id promptId reply

inductive Phase where
  | away
  | greeting
  | serving
  | writing (id : String) (command : Command)
  | finished

structure Written where
  connection : Nat
  id : String
  command : Command

structure State where
  now : Nat := 0
  calls : List Call := []
  queue : List Command := []
  phase : Phase := .away
  connection : Nat := 0
  pending : List (String × Nat) := []
  handles : Bool := true
  written : List Written := []

/-- Seconds. -/
def requestTimeout : Nat := 10

def isHexDigit (c : Char) : Bool := c.isDigit || ('a' ≤ c && c ≤ 'f')

/-- The texts `Uuid::new_v4` may draw. -/
def isUuid (id : String) : Bool :=
  id.toList.length = 36 && id.toList.zipIdx.all fun (c, i) =>
    if i = 8 ∨ i = 13 ∨ i = 18 ∨ i = 23 then c == '-'
    else if i = 14 then c == '4'
    else if i = 19 then c ∈ ['8', '9', 'a', 'b']
    else isHexDigit c

inductive Action where
  | call (request : Request)
  | promptReply (promptId : String) (reply : PromptReply)
  | dropHandles
  | receive (call : Nat)
  | timeOut (call : Nat)
  | connect
  | greet (version : UInt32)
  | lose
  | take (id : String)
  | wrote
  | incoming (message : Option DaemonMessage)
  | finish
  | tick

/-- Drop the senders of some calls. -/
def dropSenders (dropped : List Nat) (calls : List Call) : List Call :=
  calls.mapIdx fun k c => if k ∈ dropped then { c with slot := .dropped } else c

namespace State

def leave (s : State) (phase : Phase) : State :=
  { s with phase, pending := [], calls := dropSenders (s.pending.map Prod.snd) s.calls }

/-- The calls filed under an id. -/
def filed (s : State) (id : String) : List Nat :=
  (s.pending.filter fun p => p.1 = id).map Prod.snd

def register (s : State) (id : String) : Command → State
  | .request k _ => { s with
      pending := (id, k) :: s.pending.filter fun p => p.1 ≠ id
      calls := dropSenders (s.filed id) s.calls }
  | .promptReply _ _ => s

def answer (s : State) (id : String) (reply : Except IpcError Response) : State :=
  match s.filed id with
  | [] => s
  | k :: _ => { s with
      pending := s.pending.filter fun p => p.1 ≠ id
      calls := s.calls.modify k fun c => { c with slot := .sent s.connection id reply } }

def handleIncoming (s : State) : Option DaemonMessage → State
  | some (.response id response) => s.answer id (.ok response)
  | some (.error id error) => s.answer id (.error error)
  | some (.hello _ _ _) | none => s

def settle (s : State) (k : Nat) (c : Call) (result : Except ClientError Response) : State :=
  { s with calls := s.calls.set k { c with result := some result } }

end State

def Phase.connected : Phase → Bool
  | .greeting | .serving | .writing _ _ => true
  | .away | .finished => false

def Phase.alive : Phase → Bool
  | .finished => false
  | _ => true

def step (serde : Serde ClientMessage) (s : State) : Action → Option State
  | .call request =>
    if s.handles then
      if s.phase.alive then some { s with
        calls := s.calls ++ [{ request, calledAt := s.now }]
        queue := s.queue ++ [.request s.calls.length request] }
      else some { s with calls := s.calls ++ [.gone request s.now] }
    else none
  | .promptReply promptId reply =>
    if s.handles ∧ s.phase.alive then
      some { s with queue := s.queue ++ [.promptReply promptId reply] }
    else none
  -- a call borrows the handle it was made on
  | .dropHandles =>
    if s.calls.all fun c => c.result.isSome then some { s with handles := false } else none
  | .receive k => s.calls[k]?.bind fun c =>
    match c.result, c.slot with
    | none, .sent _ _ (.ok response) => some (s.settle k c (.ok response))
    | none, .sent _ _ (.error error) => some (s.settle k c (.error (.daemon error)))
    | none, .dropped => some (s.settle k c (.error .actorGone))
    | _, _ => none
  | .timeOut k => s.calls[k]?.bind fun c =>
    if c.result.isNone ∧ c.calledAt + requestTimeout ≤ s.now then
      some (s.settle k c (.error .timeout))
    else none
  | .connect =>
    match s.phase with
    | .away => some { s with phase := .greeting, connection := s.connection + 1 }
    | _ => none
  | .greet version =>
    match s.phase with
    | .greeting =>
      if (Ipc.checkProtocolVersion version).isOk then
        some { s with phase := .serving, pending := [] }
      else some (s.leave .away)
    | _ => none
  | .lose => if s.phase.connected then some (s.leave .away) else none
  | .take id =>
    match s.phase, s.queue with
    | .serving, command :: rest =>
      if isUuid id then
        let s := { s with queue := rest }.register id command
        match encodeLine serde (command.message id) with
        | .ok _ => some { s with phase := .writing id command }
        | .error _ => some (s.leave .away)
      else none
    | _, _ => none
  | .wrote =>
    match s.phase with
    | .writing id command => some { s with
        phase := .serving
        written := s.written ++ [⟨s.connection, id, command⟩] }
    | _ => none
  | .incoming message =>
    match s.phase with
    | .serving => some (s.handleIncoming message)
    | _ => none
  | .finish =>
    match s.phase, s.queue with
    | .serving, [] => if s.handles then none else some (s.leave .finished)
    | _, _ => none
  | .tick => some { s with now := s.now + 1 }

/-- The steps, with what each needs. -/
inductive Moves (serde : Serde ClientMessage) (s : State) : Action → State → Prop where
  | call {request} (halive : s.phase.alive = true) : Moves serde s (.call request) { s with
      calls := s.calls ++ [{ request, calledAt := s.now }]
      queue := s.queue ++ [.request s.calls.length request] }
  | callGone {request} (hphase : s.phase = .finished) :
      Moves serde s (.call request) { s with calls := s.calls ++ [.gone request s.now] }
  | promptReply {promptId reply} (halive : s.phase.alive = true) :
      Moves serde s (.promptReply promptId reply)
        { s with queue := s.queue ++ [.promptReply promptId reply] }
  | dropHandles : Moves serde s .dropHandles { s with handles := false }
  | response {k : Nat} {c : Call} {connection id response} (hc : s.calls[k]? = some c)
      (hslot : c.slot = .sent connection id (.ok response)) :
      Moves serde s (.receive k) (s.settle k c (.ok response))
  | error {k : Nat} {c : Call} {error} (hc : s.calls[k]? = some c) (hslot : c.slot ≠ .empty) :
      Moves serde s (.receive k) (s.settle k c (.error error))
  | timeOut {k : Nat} {c : Call} (hc : s.calls[k]? = some c) :
      Moves serde s (.timeOut k) (s.settle k c (.error .timeout))
  | connect (hphase : s.phase = .away) : Moves serde s .connect
      { s with phase := .greeting, connection := s.connection + 1 }
  | greet {version} (hphase : s.phase = .greeting) :
      Moves serde s (.greet version) { s with phase := .serving, pending := [] }
  | refuse {version} : Moves serde s (.greet version) (s.leave .away)
  | lose : Moves serde s .lose (s.leave .away)
  | take {id command rest} (hphase : s.phase = .serving) (hqueue : s.queue = command :: rest)
      (hid : isUuid id = true) (hencode : (encodeLine serde (command.message id)).isOk = true) :
      Moves serde s (.take id)
        { ({ s with queue := rest } : State).register id command with phase := .writing id command }
  | oversize {id command rest} (hphase : s.phase = .serving) (hqueue : s.queue = command :: rest) :
      Moves serde s (.take id)
        ((({ s with queue := rest } : State).register id command).leave .away)
  | wrote {id command} (hphase : s.phase = .writing id command) : Moves serde s .wrote { s with
      phase := .serving
      written := s.written ++ [⟨s.connection, id, command⟩] }
  | incoming {message} (hphase : s.phase = .serving) :
      Moves serde s (.incoming message) (s.handleIncoming message)
  | finish (hqueue : s.queue = []) : Moves serde s .finish (s.leave .finished)
  | tick : Moves serde s .tick { s with now := s.now + 1 }

variable {p : Phase} {s : State} {serde : Serde ClientMessage}

theorem Phase.eq_finished (h : ¬ p.alive = true) : p = .finished := by
  cases p <;> first | rfl | exact absurd rfl h

theorem Phase.ne_finished (h : p.alive = true) : p ≠ .finished := by
  rintro rfl
  cases h

theorem step_moves {s' : State} {a : Action} (h : step serde s a = some s') :
    Moves serde s a s' := by
  cases a with
  | call request =>
    simp only [step] at h
    obtain ⟨_, h⟩ := some_of_guard h
    split at h
    · next halive =>
      cases h
      exact .call halive
    · next hphase =>
      cases h
      exact .callGone (Phase.eq_finished hphase)
  | promptReply promptId reply =>
    simp only [step] at h
    obtain ⟨halive, ⟨⟩⟩ := some_of_guard h
    exact .promptReply halive.2
  | dropHandles =>
    simp only [step] at h
    obtain ⟨_, ⟨⟩⟩ := some_of_guard h
    exact .dropHandles
  | receive k =>
    obtain ⟨c, hc, h⟩ := Option.bind_eq_some_iff.mp h
    split at h
    · next hslot =>
      injection h with h
      exact h ▸ .response hc hslot
    · next hslot =>
      injection h with h
      exact h ▸ .error hc (by rw [hslot]; exact nofun)
    · next hslot =>
      cases h
      exact .error hc (by rw [hslot]; exact nofun)
    · cases h
  | timeOut k =>
    obtain ⟨c, hc, h⟩ := Option.bind_eq_some_iff.mp h
    obtain ⟨_, ⟨⟩⟩ := some_of_guard h
    exact .timeOut hc
  | connect =>
    simp only [step] at h
    split at h
    · next hphase =>
      cases h
      exact .connect hphase
    · cases h
  | greet version =>
    simp only [step] at h
    split at h
    · next hphase =>
      split at h
      · cases h
        exact .greet hphase
      · cases h
        exact .refuse
    · cases h
  | lose =>
    simp only [step] at h
    obtain ⟨_, ⟨⟩⟩ := some_of_guard h
    exact .lose
  | take id =>
    simp only [step] at h
    split at h
    · next command rest hphase hqueue =>
      obtain ⟨hid, h⟩ := some_of_guard h
      split at h
      · next hencode =>
        cases h
        exact .take hphase hqueue hid (by rw [hencode]; rfl)
      · cases h
        exact .oversize hphase hqueue
    · cases h
  | wrote =>
    simp only [step] at h
    split at h
    · next hphase =>
      cases h
      exact .wrote hphase
    · cases h
  | incoming message =>
    simp only [step] at h
    split at h
    · next hphase =>
      cases h
      exact .incoming hphase
    · cases h
  | finish =>
    simp only [step] at h
    split at h
    · next hqueue =>
      obtain ⟨_, ⟨⟩⟩ := some_of_unless h
      exact .finish hqueue
    · cases h
  | tick =>
    injection h with h
    exact h ▸ .tick

/-! ## §2. Where a call's sender is. -/

def State.owned (s : State) : List Nat :=
  s.pending.map Prod.snd ++ s.queue.filterMap Command.call

structure CallKept (owned : List Nat) (written : List Written) (k : Nat) (c : Call) : Prop where
  owned : k ∈ owned → c.slot = .empty
  sent : ∀ {connection id reply}, c.slot = .sent connection id reply →
    ∃ req, ⟨connection, id, .request k req⟩ ∈ written
  answered : ∀ {response}, c.result = some (.ok response) →
    ∃ connection id, c.slot = .sent connection id (.ok response)
  returned : ∀ {result}, c.result = some result → result = .error .timeout ∨ c.slot ≠ .empty

structure Kept (s : State) : Prop where
  nodup : s.owned.Nodup
  bound : ∀ k ∈ s.owned, k < s.calls.length
  calls : ∀ {k : Nat} {c : Call}, s.calls[k]? = some c → CallKept s.owned s.written k c
  filed : ∀ {id k}, (id, k) ∈ s.pending → (∃ req, s.phase = .writing id (.request k req)) ∨
    ∃ req, ⟨s.connection, id, .request k req⟩ ∈ s.written
  writing : ∀ {id k req}, s.phase = .writing id (.request k req) → (id, k) ∈ s.pending
  idle : s.phase = .away ∨ s.phase = .greeting → s.pending = []

variable {id : String} {k : Nat} {c : Call}

section Calls

variable {owned owned' : List Nat} {written written' : List Written}

theorem CallKept.mono (h : CallKept owned written k c) (howned : k ∈ owned' → k ∈ owned)
    (hwritten : written ⊆ written') : CallKept owned' written' k c where
  owned hk := h.owned (howned hk)
  sent hslot := by
    obtain ⟨req, hmem⟩ := h.sent hslot
    exact ⟨req, hwritten hmem⟩
  answered := h.answered
  returned := h.returned

theorem CallKept.drop (h : CallKept owned written k c) (hk : k ∈ owned) (hk' : k ∉ owned') :
    CallKept owned' written k { c with slot := .dropped } where
  owned hmem := absurd hmem hk'
  sent hslot := by cases hslot
  returned _ := .inr Slot.noConfusion
  answered hresult := by
    obtain ⟨connection, id, hslot⟩ := h.answered hresult
    cases (h.owned hk).symm.trans hslot

theorem CallKept.answer (h : CallKept owned written k c) (hk : k ∈ owned) (hk' : k ∉ owned')
    {connection : Nat} (reply : Except IpcError Response)
    (hwritten : ∃ req, ⟨connection, id, .request k req⟩ ∈ written) :
    CallKept owned' written k { c with slot := .sent connection id reply } where
  owned hmem := absurd hmem hk'
  sent hslot := by
    injection hslot with hconnection hid
    exact hconnection ▸ hid ▸ hwritten
  returned _ := .inr Slot.noConfusion
  answered hresult := by
    obtain ⟨connection, id, hslot⟩ := h.answered hresult
    cases (h.owned hk).symm.trans hslot

theorem getElem?_dropSenders (dropped : List Nat) (calls : List Call) (k : Nat) :
    (dropSenders dropped calls)[k]? =
      calls[k]?.map fun c => if k ∈ dropped then { c with slot := .dropped } else c :=
  List.getElem?_mapIdx

theorem callKept_dropSenders {calls : List Call} {dropped : List Nat}
    (h : ∀ {k : Nat} {c : Call}, calls[k]? = some c → CallKept owned written k c)
    (hdropped : ∀ k ∈ dropped, k ∈ owned ∧ k ∉ owned') (howned : owned' ⊆ owned)
    (hc : (dropSenders dropped calls)[k]? = some c) : CallKept owned' written k c := by
  rw [getElem?_dropSenders] at hc
  obtain ⟨old, hold, rfl⟩ := Option.map_eq_some_iff.mp hc
  split
  · next hk => exact (h hold).drop (hdropped k hk).1 (hdropped k hk).2
  · exact (h hold).mono (fun hk => howned hk) (List.Subset.refl _)

end Calls

section Filed

variable {pending : List (String × Nat)}

theorem disjoint_filed (h : (pending.map Prod.snd).Nodup)
    (hk : k ∈ (pending.filter fun p => p.1 = id).map Prod.snd) :
    k ∉ (pending.filter fun p => p.1 ≠ id).map Prod.snd := by
  intro hk'
  obtain ⟨p, hp, rfl⟩ := List.mem_map.mp hk
  obtain ⟨q, hq, hqp⟩ := List.mem_map.mp hk'
  rw [List.mem_filter] at hp hq
  have hpq : q = p := List.inj_on_of_nodup_map h hq.1 hp.1 hqp
  subst hpq
  simp at hp hq
  exact hq.2 hp.2

theorem mem_of_filed {p : String × Nat → Bool} (hk : k ∈ (pending.filter p).map Prod.snd) :
    k ∈ pending.map Prod.snd :=
  List.map_subset _ (List.filter_subset_self _) hk

end Filed

theorem length_dropSenders (dropped : List Nat) (calls : List Call) :
    (dropSenders dropped calls).length = calls.length := List.length_mapIdx

section Steps

variable {s : State}

variable {s' : State} {rest : List Command} {command : Command}

theorem Kept.frame (h : Kept s) (howned : s'.owned = s.owned) (hcalls : s'.calls = s.calls)
    (hwritten : s'.written = s.written)
    (hfiled : ∀ {id k}, (id, k) ∈ s'.pending → (∃ req, s'.phase = .writing id (.request k req)) ∨
      ∃ req, ⟨s'.connection, id, .request k req⟩ ∈ s.written)
    (hwriting : ∀ {id k req}, s'.phase = .writing id (.request k req) → (id, k) ∈ s'.pending)
    (hidle : s'.phase = .away ∨ s'.phase = .greeting → s'.pending = []) : Kept s' := by
  refine ⟨howned ▸ h.nodup, ?_, ?_, hwritten ▸ hfiled, hwriting, hidle⟩
  · rw [howned, hcalls]
    exact h.bound
  · rw [howned, hcalls, hwritten]
    exact h.calls

theorem Kept.append (h : Kept s) {queue : List Command}
    (hqueue : queue.filterMap Command.call = [] ∨ queue.filterMap Command.call = [s.calls.length])
    (hnew : CallKept (s.owned ++ queue.filterMap Command.call) s.written s.calls.length c) :
    Kept { s with calls := s.calls ++ [c], queue := s.queue ++ queue } := by
  have howned : State.owned { s with calls := s.calls ++ [c], queue := s.queue ++ queue } =
      s.owned ++ queue.filterMap Command.call := by
    simp only [State.owned, List.filterMap_append, List.append_assoc]
  have hfresh : ∀ k ∈ queue.filterMap Command.call, k = s.calls.length := by
    intro k hk
    rcases hqueue with hnone | hone
    · rw [hnone] at hk
      cases hk
    · rw [hone] at hk
      exact List.mem_singleton.mp hk
  have hnodup : (queue.filterMap Command.call).Nodup := by
    rcases hqueue with hnone | hone
    · rw [hnone]
      exact List.nodup_nil
    · rw [hone]
      exact List.nodup_singleton _
  refine ⟨?_, ?_, ?_, h.filed, h.writing, h.idle⟩
  · rw [howned]
    refine List.nodup_append.mpr ⟨h.nodup, hnodup, fun k hk l hl hkl => ?_⟩
    exact absurd (h.bound k hk) (by rw [hkl, hfresh l hl]; exact Nat.lt_irrefl _)
  · rw [howned]
    intro k hk
    rw [List.length_append, List.length_singleton]
    rcases List.mem_append.mp hk with hk | hk
    · exact Nat.lt_succ_of_lt (h.bound k hk)
    · exact hfresh k hk ▸ Nat.lt_succ_self _
  · rw [howned]
    intro k old hold
    rcases append_cases hold with hold | ⟨rfl, rfl⟩
    · refine (h.calls hold).mono (fun hk => ?_) (List.Subset.refl _)
      rcases List.mem_append.mp hk with hk | hk
      · exact hk
      · exact absurd (List.getElem?_eq_some_iff.mp hold).1
          (by rw [hfresh k hk]; exact Nat.lt_irrefl _)
    · exact hnew

theorem Kept.settle (h : Kept s) (hc : s.calls[k]? = some c) {result : Except ClientError Response}
    (hanswered : ∀ {response}, result = .ok response →
      ∃ connection id, c.slot = .sent connection id (.ok response))
    (hreturned : result = .error .timeout ∨ c.slot ≠ .empty) : Kept (s.settle k c result) := by
  refine ⟨h.nodup, ?_, ?_, h.filed, h.writing, h.idle⟩
  · intro l hl
    show l < (s.calls.set k _).length
    rw [List.length_set]
    exact h.bound l hl
  · intro l d hd
    rcases set_cases hd with ⟨rfl, rfl⟩ | ⟨_, hd⟩
    · exact ⟨(h.calls hc).owned, (h.calls hc).sent, fun hok => hanswered (Option.some.inj hok),
        fun hresult => Option.some.inj hresult ▸ hreturned⟩
    · exact h.calls hd

theorem Kept.leave (h : Kept s) {phase : Phase}
    (hphase : ∀ {id command}, phase ≠ .writing id command) :
    Kept (s.leave phase) := by
  have hdisjoint := (List.nodup_append.mp h.nodup).2.2
  have howned : (s.leave phase).owned = s.queue.filterMap Command.call := rfl
  refine ⟨?_, ?_, ?_, (fun hmem => by cases hmem), fun hw => absurd hw hphase, fun _ => rfl⟩
  · rw [howned]
    exact (List.nodup_append.mp h.nodup).2.1
  · intro k hk
    show k < (dropSenders _ _).length
    rw [length_dropSenders]
    exact h.bound k (List.mem_append_right _ hk)
  · refine callKept_dropSenders h.calls (fun k hk => ⟨List.mem_append_left _ hk, ?_⟩)
      (List.subset_append_right _ _)
    exact fun hk' => hdisjoint k hk k hk' rfl

theorem Kept.filed_serving (h : Kept s) (hphase : s.phase = .serving) (hmem : (id, k) ∈ s.pending) :
    ∃ req, ⟨s.connection, id, .request k req⟩ ∈ s.written := by
  rcases h.filed hmem with ⟨req, hwriting⟩ | hwritten
  · exact by cases hphase.symm.trans hwriting
  · exact hwritten

theorem Kept.register (h : Kept s) (hphase : s.phase = .serving) {req : Request}
    (hqueue : s.queue = .request k req :: rest) (id : String) :
    Kept { ({ s with queue := rest } : State).register id (.request k req) with
      phase := .writing id (.request k req) } := by
  have howned : s.owned = s.pending.map Prod.snd ++ k :: rest.filterMap Command.call := by
    rw [State.owned, hqueue]
    rfl
  have hnodup := h.nodup
  rw [howned] at hnodup
  obtain ⟨hpending, hrest, hdisjoint⟩ := List.nodup_append.mp hnodup
  -- the senders held are fewer than before, and in another order
  have hperm : ((s.pending.filter fun p => p.1 ≠ id).map Prod.snd ++
      k :: rest.filterMap Command.call).Perm
      ((k :: (s.pending.filter fun p => p.1 ≠ id).map Prod.snd) ++ rest.filterMap Command.call) :=
    List.perm_middle
  have hsublist : ((s.pending.filter fun p => p.1 ≠ id).map Prod.snd ++
      k :: rest.filterMap Command.call).Sublist s.owned := by
    rw [howned]
    exact (List.filter_sublist.map Prod.snd).append (List.Sublist.refl _)
  have hfewer : ((k :: (s.pending.filter fun p => p.1 ≠ id).map Prod.snd) ++
      rest.filterMap Command.call) ⊆ s.owned :=
    fun l hl => hsublist.subset (hperm.mem_iff.mpr hl)
  refine ⟨?_, ?_, ?_, ?_, ?_, ?_⟩
  · exact hperm.nodup_iff.mp (hsublist.nodup h.nodup)
  · intro l hl
    show l < (dropSenders _ _).length
    rw [length_dropSenders]
    exact h.bound l (hfewer hl)
  · refine callKept_dropSenders h.calls (fun l hl => ?_) hfewer
    have hl' := mem_of_filed hl
    refine ⟨by rw [howned]; exact List.mem_append_left _ hl', fun hmem => ?_⟩
    rcases List.mem_append.mp hmem with hmem | hmem
    · rcases List.mem_cons.mp hmem with rfl | hmem
      · exact hdisjoint l hl' l List.mem_cons_self rfl
      · exact disjoint_filed hpending hl hmem
    · exact hdisjoint l hl' l (List.mem_cons_of_mem _ hmem) rfl
  · intro id' l hmem
    rcases List.mem_cons.mp hmem with heq | hmem
    · injection heq with hid hl
      exact .inl ⟨req, by rw [hid, hl]⟩
    · exact .inr (h.filed_serving hphase (List.mem_of_mem_filter hmem))
  · intro id' l req' hwriting
    injection hwriting with hid hcommand
    injection hcommand with hl
    exact hid ▸ hl ▸ List.mem_cons_self
  · rintro (haway | hgreeting)
    · cases haway
    · cases hgreeting

theorem Kept.take (h : Kept s) (hphase : s.phase = .serving) (hqueue : s.queue = command :: rest)
    (id : String) :
    Kept { ({ s with queue := rest } : State).register id command with
      phase := .writing id command } := by
  cases command with
  | request k req => exact h.register hphase hqueue id
  | promptReply promptId reply =>
    refine h.frame ?_ rfl rfl (fun hmem => .inr (h.filed_serving hphase hmem))
      (fun hwriting => by cases hwriting) ?_
    · show _ = s.pending.map Prod.snd ++ s.queue.filterMap Command.call
      rw [hqueue]
      rfl
    · rintro (haway | hgreeting)
      · cases haway
      · cases hgreeting

theorem Kept.wrote (h : Kept s) (hphase : s.phase = .writing id command) :
    Kept { s with phase := .serving, written := s.written ++ [⟨s.connection, id, command⟩] } := by
  have hsubset : s.written ⊆ s.written ++ [⟨s.connection, id, command⟩] :=
    List.subset_append_left _ _
  refine ⟨h.nodup, h.bound, fun hc => (h.calls hc).mono (fun hk => hk) hsubset, ?_,
    (fun hwriting => by cases hwriting), ?_⟩
  · intro id' k hmem
    right
    rcases h.filed hmem with ⟨req, hwriting⟩ | ⟨req, hwritten⟩
    · injection hphase.symm.trans hwriting with hid hcommand
      exact ⟨req, List.mem_append_right _ (by rw [hid, hcommand]; exact List.mem_cons_self)⟩
    · exact ⟨req, hsubset hwritten⟩
  · rintro (haway | hgreeting)
    · cases haway
    · cases hgreeting

theorem Kept.answer (h : Kept s) (hphase : s.phase = .serving) (id : String)
    (reply : Except IpcError Response) : Kept (s.answer id reply) := by
  unfold State.answer
  cases hfiled : s.filed id with
  | nil => exact h
  | cons k others =>
    have hk : k ∈ s.filed id := hfiled ▸ List.mem_cons_self
    have hpending : (s.pending.map Prod.snd).Nodup := (List.nodup_append.mp h.nodup).1
    have hdisjoint := (List.nodup_append.mp h.nodup).2.2
    have hfewer : ((s.pending.filter fun p => p.1 ≠ id).map Prod.snd ++
        s.queue.filterMap Command.call).Sublist s.owned :=
      (List.filter_sublist.map Prod.snd).append (List.Sublist.refl _)
    have hgone : k ∉ (s.pending.filter fun p => p.1 ≠ id).map Prod.snd ++
        s.queue.filterMap Command.call := by
      intro hmem
      rcases List.mem_append.mp hmem with hmem | hmem
      · exact disjoint_filed hpending hk hmem
      · exact hdisjoint k (mem_of_filed hk) k hmem rfl
    have hwritten : ∃ req, ⟨s.connection, id, .request k req⟩ ∈ s.written := by
      obtain ⟨p, hp, rfl⟩ := List.mem_map.mp hk
      obtain ⟨hmem, hid⟩ := List.mem_filter.mp hp
      obtain rfl : p.1 = id := of_decide_eq_true hid
      exact h.filed_serving hphase hmem
    refine ⟨hfewer.nodup h.nodup, ?_, ?_, ?_, ?_, ?_⟩
    · intro l hl
      show l < (s.calls.modify k _).length
      rw [List.length_modify]
      exact h.bound l (hfewer.subset hl)
    · intro l c hc
      rw [List.getElem?_modify] at hc
      obtain ⟨old, hold, rfl⟩ := Option.map_eq_some_iff.mp hc
      dsimp only
      split
      · next hkl =>
        subst hkl
        exact (h.calls hold).answer (List.mem_append_left _ (mem_of_filed hk)) hgone reply hwritten
      · exact (h.calls hold).mono (fun hl => hfewer.subset hl) (List.Subset.refl _)
    · exact fun hmem => h.filed (List.mem_of_mem_filter hmem)
    · exact fun hwriting => by cases hphase.symm.trans hwriting
    · rintro (haway | hgreeting)
      · exact by cases hphase.symm.trans haway
      · exact by cases hphase.symm.trans hgreeting

theorem Kept.handleIncoming (h : Kept s) (hphase : s.phase = .serving)
    (message : Option DaemonMessage) : Kept (s.handleIncoming message) := by
  cases message with
  | none => exact h
  | some message =>
    cases message with
    | hello => exact h
    | response id response => exact h.answer hphase id (.ok response)
    | error id error => exact h.answer hphase id (.error error)

theorem Kept.step {serde : Serde ClientMessage} {a : Action} (h : Kept s)
    (hstep : step serde s a = some s') : Kept s' := by
  cases step_moves hstep with
  | call =>
    exact h.append (.inr rfl) ⟨fun _ => rfl, (fun hslot => by cases hslot),
      (fun hresult => by cases hresult), fun hresult => by cases hresult⟩
  | @callGone request _ =>
    have hnew : CallKept (s.owned ++ [].filterMap Command.call) s.written s.calls.length
        (.gone request s.now) := by
      refine ⟨?_, (fun hslot => by cases hslot), (fun hresult => by cases hresult),
        fun _ => .inr Slot.noConfusion⟩
      rw [List.filterMap_nil, List.append_nil]
      exact fun hmem => absurd (h.bound _ hmem) (Nat.lt_irrefl _)
    have hkept := h.append (.inl rfl) hnew
    rw [List.append_nil] at hkept
    exact hkept
  | promptReply =>
    refine h.frame ?_ rfl rfl h.filed h.writing h.idle
    show s.pending.map Prod.snd ++ (s.queue ++ [_]).filterMap Command.call = _
    rw [List.filterMap_append]
    exact congrArg _ (List.append_nil _)
  | dropHandles => exact h.frame rfl rfl rfl h.filed h.writing h.idle
  | response hc hslot =>
    refine h.settle hc (fun hok => ?_) (.inr (by rw [hslot]; exact nofun))
    injection hok with hok
    exact ⟨_, _, hok ▸ hslot⟩
  | error hc hslot => exact h.settle hc (fun hok => by cases hok) (.inr hslot)
  | timeOut hc => exact h.settle hc (fun hok => by cases hok) (.inl rfl)
  | connect hphase =>
    have hpending := h.idle (.inl hphase)
    refine h.frame rfl rfl rfl (fun hmem => ?_) (fun hw => by cases hw) fun _ => hpending
    rw [hpending] at hmem
    cases hmem
  | greet hphase =>
    refine h.frame ?_ rfl rfl (fun hmem => by cases hmem) (fun hw => by cases hw) fun _ => rfl
    rw [State.owned, State.owned, h.idle (.inr hphase)]
  | refuse => exact h.leave Phase.noConfusion
  | lose => exact h.leave Phase.noConfusion
  | take hphase hqueue => exact h.take hphase hqueue _
  | oversize hphase hqueue => exact (h.take hphase hqueue _).leave Phase.noConfusion
  | wrote hphase => exact h.wrote hphase
  | incoming hphase => exact h.handleIncoming hphase _
  | finish => exact h.leave Phase.noConfusion
  | tick => exact h.frame rfl rfl rfl h.filed h.writing h.idle

end Steps

theorem kept_of_reachable (h : Reachable (step serde) Anything {} s) : Kept s := by
  refine Reachable.invariant (I := Kept) ?_ (fun _ _ _ ih _ hstep => ih.step hstep) h
  exact ⟨List.nodup_nil, (fun _ hk => by cases hk), (fun hc => by cases hc),
    (fun hmem => by cases hmem),
    (fun hw => by cases hw), fun _ => rfl⟩

end ThisConnect.Ui
