/-
  ThisConnect.Auth.Broker
  **QUESTIONS, ANSWERS, AND WHO GETS WHICH.**

  Main result:
    • `step_effect` — everything a step can do to the broker's books.
-/
import ThisConnect.Auth.Flow
import ThisConnect.Base.Numeral
import ThisConnect.Base.Places
import ThisConnect.Base.Transition

namespace ThisConnect.Auth.Broker

open Transition Places
open Ipc (PromptError PromptReply)

/-! ## §1. Ids and answers. -/

/-- `format!("prompt-{}", …)`. -/
def promptId (n : UInt64) : String := String.ofList ("prompt-".toList ++ Nat.toDigits 10 n.toNat)

def CredentialPrompt.wantsUsername : CredentialPrompt → Bool
  | .usernamePassword _ _ => true
  | .staticChallenge _ _ _ | .dynamicChallenge _ _ _ _ => false

def intoAnswer (reply : PromptReply) (wantsUsername : Bool) : Except PromptError PromptAnswer :=
  match reply, wantsUsername with
  | .cancel, _ => .error .cancelled
  | .usernamePassword username password, true => .ok (.usernamePassword username password)
  | .challengeResponse response, false => .ok (.challenge response)
  | _, _ => .error .mismatchedReply

inductive Answers : CredentialPrompt → PromptReply → PromptAnswer → Prop where
  | account {profileId hint username password} :
      Answers (.usernamePassword profileId hint) (.usernamePassword username password)
        (.usernamePassword username password)
  | static {profileId text echo response} :
      Answers (.staticChallenge profileId text echo) (.challengeResponse response)
        (.challenge response)
  | dynamic {profileId stateId text echo response} :
      Answers (.dynamicChallenge profileId stateId text echo) (.challengeResponse response)
        (.challenge response)

theorem answers_of_intoAnswer {prompt : CredentialPrompt} {reply : PromptReply}
    {answer : PromptAnswer}
    (h : intoAnswer reply (CredentialPrompt.wantsUsername prompt) = .ok answer) :
    Answers prompt reply answer := by
  cases prompt <;> cases reply <;> cases h <;> constructor

/-! ## §2. The broker. -/

inductive Sender where
  | unmade
  | tabled
  | taken (call : Nat)
  | used (call : Nat)
  | dropped
  deriving DecidableEq, Repr

/-- Where an `ask` stands. -/
inductive Phase where
  | called
  | drawn
  | sending
  | refused
  | waiting (since : Nat)
  | expired
  | announcing
  | returned (result : Except PromptError PromptAnswer)
  | dropped

/-- The receiving half is alive. -/
def Phase.listening : Phase → Bool
  | .called | .drawn | .sending | .refused | .waiting _ => true
  | .expired | .announcing | .returned _ | .dropped => false

def Phase.ended : Phase → Bool
  | .returned _ | .dropped => true
  | _ => false

def Phase.droppable : Phase → Bool
  | .called | .sending | .waiting _ | .announcing => true
  | .drawn | .refused | .expired | .returned _ | .dropped => false

theorem Phase.not_listening_of_ended {p : Phase} (h : p.ended = true) : p.listening = false := by
  cases p <;> first | rfl | cases h

structure Ask where
  prompt : CredentialPrompt
  calledAt : Nat
  id : Option String := none
  phase : Phase := .called
  sender : Sender := .unmade
  slot : Option PromptReply := none
  got : List PromptReply := []

inductive DeliverPhase where
  | holding (ask : Nat)
  | done (result : Except PromptError Unit)

structure Deliver where
  id : String
  reply : PromptReply
  phase : DeliverPhase

/-- What is on its way to the client. -/
inductive Outgoing where
  | prompt (id : String) (prompt : CredentialPrompt)
  | promptCancelled (id : String)
  | event
  deriving DecidableEq

structure Config where
  timeout : Nat
  capacity : Nat

structure Book where
  sequence : UInt64 := 1
  asks : List Ask := []
  delivers : List Deliver := []
  issued : List String := []
  withdrawn : List String := []

structure State extends Book where
  now : Nat := 0
  notices : List String := []
  queue : List Outgoing := []
  closed : Bool := false

/-- The steps of `ask` itself. -/
inductive Move where
  | draw
  | insert
  | send
  | refuse
  | withdraw
  | receive
  | abandon
  | expire
  | announce

inductive Action where
  | call (prompt : CredentialPrompt)
  | move (ask : Nat) (move : Move)
  | drop (ask : Nat)
  | deliver (id : String) (reply : PromptReply)
  | post (call : Nat)
  | withdrawAll
  | notice
  | emit
  | drain
  | close
  | tick

namespace State

def hasRoom (config : Config) (s : State) : Bool := s.queue.length < config.capacity

def push (s : State) (message : Outgoing) : State := { s with queue := s.queue ++ [message] }

/-- Drop the entry under an id. -/
def forget (id : String) (a : Ask) : Ask :=
  if a.id = some id ∧ a.sender = .tabled then { a with sender := .dropped } else a

def remove (s : State) (id : String) : State :=
  { s with asks := s.asks.map (forget id), withdrawn := s.withdrawn ++ [id] }

def setAsk (s : State) (i : Nat) (a : Ask) : State := { s with asks := s.asks.set i a }

def move (config : Config) (s : State) (i : Nat) (a : Ask) : Move → Option State
  | .draw =>
    match a.phase with
    | .called => some
        { s.setAsk i { a with id := some (promptId s.sequence), phase := .drawn } with
          sequence := s.sequence + 1
          issued := s.issued ++ [promptId s.sequence] }
    | _ => none
  | .insert =>
    match a.phase, a.id with
    -- an entry already there would be replaced, and its sender dropped
    | .drawn, some id => some
        ({ s with asks := s.asks.map (forget id) }.setAsk i
          { a with phase := .sending, sender := .tabled })
    | _, _ => none
  | .send =>
    match a.phase, a.id with
    | .sending, some id =>
      if s.closed = false ∧ s.hasRoom config then
        some ((s.push (.prompt id a.prompt)).setAsk i { a with phase := .waiting s.now })
      else none
    | _, _ => none
  | .refuse =>
    match a.phase with
    | .sending => if s.closed then some (s.setAsk i { a with phase := .refused }) else none
    | _ => none
  | .withdraw =>
    match a.phase, a.id with
    | .refused, some id => some
        ((s.setAsk i { a with phase := .returned (.error .noClient) }).remove id)
    | .expired, some id => some ((s.setAsk i { a with phase := .announcing }).remove id)
    | _, _ => none
  | .receive =>
    match a.phase, a.slot with
    | .waiting _, some reply => some (s.setAsk i { a with
        phase := .returned (intoAnswer reply (CredentialPrompt.wantsUsername a.prompt))
        slot := none
        got := a.got ++ [reply] })
    | _, _ => none
  | .abandon =>
    match a.phase, a.slot, a.sender with
    | .waiting _, none, .dropped =>
      some (s.setAsk i { a with phase := .returned (.error .noClient) })
    | _, _, _ => none
  | .expire =>
    match a.phase with
    -- a reply that is there already may be missed: a poll that ran out of budget sees nothing
    | .waiting since =>
      if since + config.timeout ≤ s.now then some (s.setAsk i { a with phase := .expired })
      else none
    | _ => none
  | .announce =>
    match a.phase, a.id with
    | .announcing, some id =>
      let done := s.setAsk i { a with phase := .returned (.error .timedOut) }
      if s.closed then some done
      else if s.hasRoom config then some (done.push (.promptCancelled id)) else none
    | _, _ => none

/-- `pending.remove(id)` by `deliver`. -/
def lookup (s : State) (id : String) : Option Nat :=
  s.asks.findIdx? fun a => a.id = some id && a.sender = .tabled

def tabledIds (asks : List Ask) : List String :=
  asks.filterMap fun a => if a.sender = .tabled then a.id else none

end State

open State in

def step (config : Config) (s : State) : Action → Option State
  | .call prompt => some { s with asks := s.asks ++ [{ prompt, calledAt := s.now }] }
  | .move i m => s.asks[i]?.bind fun a => s.move config i a m
  | .drop i => s.asks[i]?.bind fun a =>
    if a.phase.droppable then some (s.setAsk i { a with phase := .dropped }) else none
  | .deliver id reply =>
    match s.lookup id with
    | some i => some { s with
        asks := s.asks.modify i fun a => { a with sender := .taken s.delivers.length }
        delivers := s.delivers ++ [⟨id, reply, .holding i⟩] }
    | none => some { s with
        delivers := s.delivers ++ [⟨id, reply, .done (.error .unknownPrompt)⟩] }
  | .post k => s.delivers[k]?.bind fun d =>
    match d.phase with
    | .holding i => s.asks[i]?.map fun a =>
      if a.phase.listening then
        { s.setAsk i { a with sender := .used k, slot := some d.reply } with
          delivers := s.delivers.set k { d with phase := .done (.ok ()) } }
      else
        { s.setAsk i { a with sender := .dropped } with
          delivers := s.delivers.set k { d with phase := .done (.error .unknownPrompt) } }
    | .done _ => none
  | .withdrawAll => some { s with
      asks := s.asks.map fun a => if a.sender = .tabled then { a with sender := .dropped } else a
      notices := s.notices ++ tabledIds s.asks
      withdrawn := s.withdrawn ++ tabledIds s.asks }
  | .notice =>
    match s.notices with
    | [] => none
    | id :: rest =>
      if s.closed then some { s with notices := rest }
      else if s.hasRoom config then
        some (({ s with notices := rest } : State).push (.promptCancelled id))
      else none
  | .emit => if s.closed = false ∧ s.hasRoom config then some (s.push .event) else some s
  | .drain =>
    match s.queue with
    | [] => none
    | _ :: rest => some { s with queue := rest }
  | .close => some { s with closed := true }
  | .tick => some { s with now := s.now + 1 }

/-! ## §3. What a step can do to the books. -/

/-- A phase moves on without an answer. -/
structure Shift (p q : Phase) : Prop where
  active : p.ended = false
  tabled : p ≠ .drawn
  unpolled : p = .called → q = .dropped
  started : q ≠ .called ∧ q ≠ .drawn
  silent : ∀ answer, q ≠ .returned (.ok answer)
  deaf : p.listening = false → q.listening = false

theorem Shift.of_tabled {p q : Phase} (hactive : p.ended = false) (htabled : p ≠ .drawn)
    (hcalled : p ≠ .called) (hstarted : q ≠ .called ∧ q ≠ .drawn)
    (hsilent : ∀ answer, q ≠ .returned (.ok answer))
    (hdeaf : p.listening = false → q.listening = false) : Shift p q :=
  ⟨hactive, htabled, fun h => absurd h hcalled, hstarted, hsilent, hdeaf⟩

theorem Shift.dropped {p : Phase} (h : p.droppable = true) : Shift p .dropped where
  active := by cases p <;> first | rfl | cases h
  tabled := by rintro rfl; cases h
  unpolled := fun _ => rfl
  started := ⟨by simp, by simp⟩
  silent := by simp
  deaf := fun _ => rfl

inductive Effect (b : Book) : Book → Prop where
  | same : Effect b b
  | called (prompt : CredentialPrompt) (now : Nat) :
      Effect b { b with asks := b.asks ++ [{ prompt, calledAt := now }] }
  | drawn {i : Nat} {a : Ask} (ha : b.asks[i]? = some a) (hphase : a.phase = .called) :
      Effect b { b with
        asks := b.asks.set i { a with id := some (promptId b.sequence), phase := .drawn }
        sequence := b.sequence + 1
        issued := b.issued ++ [promptId b.sequence] }
  | inserted {i : Nat} {a : Ask} {id : String} (ha : b.asks[i]? = some a) (hid : a.id = some id)
      (hphase : a.phase = .drawn) :
      Effect b { b with
        asks := (b.asks.map (State.forget id)).set i
          { a with phase := .sending, sender := .tabled } }
  | received {i since : Nat} {a : Ask} {reply : PromptReply} (ha : b.asks[i]? = some a)
      (hphase : a.phase = .waiting since) (hslot : a.slot = some reply) :
      Effect b { b with
        asks := b.asks.set i { a with
          phase := .returned (intoAnswer reply (CredentialPrompt.wantsUsername a.prompt))
          slot := none
          got := a.got ++ [reply] } }
  | shifted {i : Nat} {a : Ask} {p : Phase} (ha : b.asks[i]? = some a) (hshift : Shift a.phase p) :
      Effect b { b with asks := b.asks.set i { a with phase := p } }
  | withdrew {i : Nat} {a : Ask} {id : String} {p : Phase} (ha : b.asks[i]? = some a)
      (hid : a.id = some id) (hshift : Shift a.phase p) :
      Effect b { b with
        asks := (b.asks.set i { a with phase := p }).map (State.forget id)
        withdrawn := b.withdrawn ++ [id] }
  | emptied :
      Effect b { b with
        asks := b.asks.map fun a => if a.sender = .tabled then { a with sender := .dropped } else a
        withdrawn := b.withdrawn ++ State.tabledIds b.asks }
  | took {i : Nat} {a : Ask} {id : String} (reply : PromptReply) (ha : b.asks[i]? = some a)
      (hid : a.id = some id) (htabled : a.sender = .tabled) :
      Effect b { b with
        asks := b.asks.set i { a with sender := .taken b.delivers.length }
        delivers := b.delivers ++ [⟨id, reply, .holding i⟩] }
  | missed (id : String) (reply : PromptReply) :
      Effect b { b with
        delivers := b.delivers ++ [⟨id, reply, .done (.error .unknownPrompt)⟩] }
  | posted {k i : Nat} {d : Deliver} {a a' : Ask} {result : Except PromptError Unit}
      (hd : b.delivers[k]? = some d) (hholding : d.phase = .holding i)
      (ha : b.asks[i]? = some a)
      (hresult : (result = .ok () ∧ a.phase.listening = true ∧
          a' = { a with sender := .used k, slot := some d.reply }) ∨
        (result = .error .unknownPrompt ∧ a' = { a with sender := .dropped })) :
      Effect b { b with
        asks := b.asks.set i a'
        delivers := b.delivers.set k { d with phase := .done result } }

theorem lookup_some {s : State} {id : String} {i : Nat} (h : s.lookup id = some i) :
    ∃ a : Ask, s.asks[i]? = some a ∧ a.id = some id ∧ a.sender = .tabled := by
  unfold State.lookup at h
  obtain ⟨hi, hentry, _⟩ := List.findIdx?_eq_some_iff_getElem.mp h
  simp only [Bool.and_eq_true, decide_eq_true_eq] at hentry
  exact ⟨s.asks[i], List.getElem?_eq_getElem hi, hentry.1, hentry.2⟩

theorem move_effect {config : Config} {s s' : State} {i : Nat} {a : Ask} {m : Move}
    (ha : s.asks[i]? = some a) (h : s.move config i a m = some s') :
    Effect s.toBook s'.toBook := by
  cases m with
  | draw =>
    simp only [State.move] at h
    split at h
    · next hphase =>
      injection h with h
      subst h
      exact .drawn ha hphase
    · cases h
  | insert =>
    simp only [State.move] at h
    split at h
    · next id hphase hid =>
      injection h with h
      subst h
      exact .inserted ha hid hphase
    · cases h
  | send =>
    simp only [State.move] at h
    split at h
    · next id hphase _ =>
      obtain ⟨_, ⟨⟩⟩ := some_of_guard h
      refine .shifted ha ?_
      rw [hphase]
      exact .of_tabled rfl (by simp) (by simp) ⟨by simp, by simp⟩ (by simp) (fun h => by cases h)
    · cases h
  | refuse =>
    simp only [State.move] at h
    split at h
    · next hphase =>
      obtain ⟨_, ⟨⟩⟩ := some_of_guard h
      refine .shifted ha ?_
      rw [hphase]
      exact .of_tabled rfl (by simp) (by simp) ⟨by simp, by simp⟩ (by simp) (fun h => by cases h)
    · cases h
  | withdraw =>
    simp only [State.move] at h
    split at h
    · next id hphase hid =>
      injection h with h
      subst h
      refine .withdrew ha hid ?_
      rw [hphase]
      exact .of_tabled rfl (by simp) (by simp) ⟨by simp, by simp⟩ (by simp) (fun _ => rfl)
    · next id hphase hid =>
      injection h with h
      subst h
      refine .withdrew ha hid ?_
      rw [hphase]
      exact .of_tabled rfl (by simp) (by simp) ⟨by simp, by simp⟩ (by simp) (fun _ => rfl)
    · cases h
  | receive =>
    simp only [State.move] at h
    split at h
    · next since reply hphase hslot =>
      injection h with h
      subst h
      exact .received ha hphase hslot
    · cases h
  | abandon =>
    simp only [State.move] at h
    split at h
    · next since hphase _ _ =>
      injection h with h
      subst h
      refine .shifted ha ?_
      rw [hphase]
      exact .of_tabled rfl (by simp) (by simp) ⟨by simp, by simp⟩ (by simp) (fun _ => rfl)
    · cases h
  | expire =>
    simp only [State.move] at h
    split at h
    · next since hphase =>
      obtain ⟨_, ⟨⟩⟩ := some_of_guard h
      refine .shifted ha ?_
      rw [hphase]
      exact .of_tabled rfl (by simp) (by simp) ⟨by simp, by simp⟩ (by simp) (fun _ => rfl)
    · cases h
  | announce =>
    simp only [State.move] at h
    split at h
    · next id hphase _ =>
      have htimed : Shift a.phase (.returned (.error .timedOut)) := by
        rw [hphase]
        exact .of_tabled rfl (by simp) (by simp) ⟨by simp, by simp⟩ (by simp) (fun _ => rfl)
      split at h
      · injection h with h
        subst h
        exact .shifted ha htimed
      · obtain ⟨_, ⟨⟩⟩ := some_of_guard h
        exact .shifted ha htimed
    · cases h

theorem step_effect {config : Config} {s s' : State} {act : Action}
    (h : step config s act = some s') : Effect s.toBook s'.toBook := by
  cases act with
  | call prompt =>
    injection h with h
    subst h
    exact .called prompt s.now
  | move i m =>
    obtain ⟨a, ha, hmove⟩ := Option.bind_eq_some_iff.mp h
    exact move_effect ha hmove
  | drop i =>
    obtain ⟨a, ha, hdrop⟩ := Option.bind_eq_some_iff.mp h
    obtain ⟨hdroppable, ⟨⟩⟩ := some_of_guard hdrop
    exact .shifted ha (.dropped hdroppable)
  | deliver id reply =>
    simp only [step] at h
    split at h
    · next i hlookup =>
      obtain ⟨a, ha, hid, htabled⟩ := lookup_some hlookup
      injection h with h
      subst h
      rw [modify_eq_set ha]
      exact .took reply ha hid htabled
    · injection h with h
      subst h
      exact .missed id reply
  | post k =>
    obtain ⟨d, hd, hpost⟩ := Option.bind_eq_some_iff.mp h
    split at hpost
    · next i hholding =>
      obtain ⟨a, ha, rfl⟩ := Option.map_eq_some_iff.mp hpost
      split
      · next hlistening => exact .posted hd hholding ha (.inl ⟨rfl, hlistening, rfl⟩)
      · exact .posted hd hholding ha (.inr ⟨rfl, rfl⟩)
    · cases hpost
  | withdrawAll =>
    injection h with h
    subst h
    exact .emptied
  | notice =>
    simp only [step] at h
    split at h
    · cases h
    · split at h
      · cases h
        exact .same
      · obtain ⟨_, ⟨⟩⟩ := some_of_guard h
        exact .same
  | emit =>
    simp only [step] at h
    split at h
    · injection h with h
      exact h ▸ .same
    · injection h with h
      exact h ▸ .same
  | drain =>
    simp only [step] at h
    split at h
    · cases h
    · cases h
      exact .same
  | close | tick =>
    injection h with h
    exact h ▸ .same

end ThisConnect.Auth.Broker
