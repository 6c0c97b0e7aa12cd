/-
  ThisConnect.Ipc.Outbound
  **FROM THE DAEMON'S CHANNEL TO ONE CONNECTION'S WRITE QUEUE.**

  Main results:
    • `step_flow` — each step carries every message on, in order, except the two
      that end a pump with a message in its hands.
    • `delivered_once_iff` — once the channel is drained, every message sent was
      put on exactly one write queue, in order, exactly if no pump ended so.
    • `prompt_lost_on_abort` — a client that stops reading and then disconnects
      takes a message with it.
-/
import ThisConnect.Base.Transition

namespace ThisConnect.Ipc.Outbound

open Transition

variable {M : Type}

/-! ## §1. Connections. -/

inductive Writer where
  | idle
  | writing
  | ended
  deriving DecidableEq, Repr

inductive Queued (M : Type) where
  | pumped (message : M)
  | reply

def Queued.message : Queued M → Option M
  | .pumped message => some message
  | .reply => none

structure Conn (M : Type) where
  serving : Bool := true
  pumping : Bool := true
  writer : Writer := .idle
  tasks : Nat := 0
  put : List (Queued M) := []
  taken : Nat := 0

structure Config where
  eventChannel : Nat
  writeQueue : Nat

def Conn.hasRoom (config : Config) (c : Conn M) : Bool := c.put.length - c.taken < config.writeQueue

def Conn.pushed (c : Conn M) : List M := c.put.filterMap Queued.message

inductive Local where
  | dispatch
  | reply
  | dropReply
  | refuse
  | close
  | take
  | wrote
  | writeFails
  | finish

def Conn.act (config : Config) (c : Conn M) : Local → Option (Conn M)
  | .dispatch => if c.serving then some { c with tasks := c.tasks + 1 } else none
  | .reply =>
    if 0 < c.tasks ∧ c.writer ≠ .ended ∧ c.hasRoom config then
      some { c with tasks := c.tasks - 1, put := c.put ++ [.reply] }
    else none
  | .dropReply =>
    if 0 < c.tasks ∧ c.writer = .ended then some { c with tasks := c.tasks - 1 } else none
  | .refuse =>
    if c.serving then
      if c.writer = .ended then some { c with serving := false }
      else if c.hasRoom config then
        some { c with serving := false, put := c.put ++ [.reply] }
      else none
    else none
  | .close => if c.serving then some { c with serving := false } else none
  | .take =>
    if c.writer = .idle ∧ c.taken < c.put.length then
      some { c with writer := .writing, taken := c.taken + 1 }
    else none
  | .wrote => if c.writer = .writing then some { c with writer := .idle } else none
  | .writeFails => if c.writer = .writing then some { c with writer := .ended } else none
  | .finish =>
    if c.writer = .idle ∧ c.taken = c.put.length ∧ c.serving = false ∧ c.pumping = false ∧
        c.tasks = 0 then
      some { c with writer := .ended }
    else none

variable {c c' : Conn M} {config : Config}

theorem Conn.pushed_act {a : Local} (h : c.act config a = some c') : c'.pushed = c.pushed := by
  cases a with
  | refuse =>
    simp only [Conn.act] at h
    obtain ⟨_, h⟩ := some_of_guard h
    split at h
    · cases h
      exact rfl
    · obtain ⟨_, ⟨⟩⟩ := some_of_guard h
      simp [Conn.pushed, Queued.message]
  | reply =>
    simp only [Conn.act] at h
    obtain ⟨_, ⟨⟩⟩ := some_of_guard h
    simp [Conn.pushed, Queued.message]
  | _ =>
    simp only [Conn.act] at h
    obtain ⟨_, ⟨⟩⟩ := some_of_guard h
    exact rfl

/-! ## §2. The lease. -/

inductive Lease (M : Type) where
  | free
  | receiving (holder : Nat)
  | sending (holder : Nat) (message : M)

def Lease.holder : Lease M → Option Nat
  | .free => none
  | .receiving i | .sending i _ => some i

def Lease.held : Lease M → List M
  | .sending _ message => [message]
  | .free | .receiving _ => []

structure State (M : Type) where
  sent : List M := []
  outbound : List M := []
  sendersGone : Bool := false
  lease : Lease M := .free
  conns : List (Conn M) := []
  puts : List (Nat × M) := []

inductive Action (M : Type) where
  | send (message : M)
  | hangUp
  | connect
  | lock (conn : Nat)
  | recv
  | finish
  | push
  | fail
  | cancel (conn : Nat)
  | conn (conn : Nat) (act : Local)

def State.endPump (s : State M) (i : Nat) (c : Conn M) : State M :=
  { s with
    conns := s.conns.set i { c with pumping := false }
    lease := if s.lease.holder = some i then .free else s.lease }

def step (config : Config) (s : State M) : Action M → Option (State M)
  | .send message =>
    if s.sendersGone = false ∧ s.outbound.length < config.eventChannel then
      some { s with sent := s.sent ++ [message], outbound := s.outbound ++ [message] }
    else none
  | .hangUp => some { s with sendersGone := true }
  | .connect => some { s with conns := s.conns ++ [{}] }
  | .lock i => s.conns[i]?.bind fun c =>
    match s.lease with
    -- the lock is fair; which of the waiting pumps asked first is left open here
    | .free => if c.pumping then some { s with lease := .receiving i } else none
    | .receiving _ | .sending _ _ => none
  | .recv =>
    match s.lease, s.outbound with
    | .receiving i, message :: rest =>
      some { s with outbound := rest, lease := .sending i message }
    | _, _ => none
  | .finish =>
    match s.lease, s.outbound with
    | .receiving i, [] => s.conns[i]?.bind fun c =>
      if s.sendersGone then some (s.endPump i c) else none
    | _, _ => none
  | .push =>
    match s.lease with
    | .sending i message => s.conns[i]?.bind fun c =>
      if c.writer ≠ .ended ∧ c.hasRoom config then some { s with
        lease := .receiving i
        conns := s.conns.set i { c with put := c.put ++ [.pumped message] }
        puts := s.puts ++ [(i, message)] }
      else none
    | .free | .receiving _ => none
  | .fail =>
    match s.lease with
    | .sending i _ => s.conns[i]?.bind fun c =>
      if c.writer = .ended then some (s.endPump i c) else none
    | .free | .receiving _ => none
  | .cancel i => s.conns[i]?.bind fun c =>
    if c.serving = false ∧ c.pumping then some (s.endPump i c) else none
  | .conn i a => s.conns[i]?.bind fun c =>
    (c.act config a).map fun c' => { s with conns := s.conns.set i c' }

/-- The steps, with what each needs. -/
inductive Moves (config : Config) (s : State M) : Action M → State M → Prop where
  | send {message} : Moves config s (.send message)
      { s with sent := s.sent ++ [message], outbound := s.outbound ++ [message] }
  | hangUp : Moves config s .hangUp { s with sendersGone := true }
  | connect : Moves config s .connect { s with conns := s.conns ++ [{}] }
  | lock {i : Nat} (hlease : s.lease = .free) :
      Moves config s (.lock i) { s with lease := .receiving i }
  | recv {i : Nat} {message rest} (hlease : s.lease = .receiving i)
      (houtbound : s.outbound = message :: rest) :
      Moves config s .recv { s with outbound := rest, lease := .sending i message }
  | finish {i : Nat} {c : Conn M} (hc : s.conns[i]? = some c) (hlease : s.lease = .receiving i) :
      Moves config s .finish (s.endPump i c)
  | push {i : Nat} {c : Conn M} {message} (hc : s.conns[i]? = some c)
      (hlease : s.lease = .sending i message) : Moves config s .push { s with
        lease := .receiving i
        conns := s.conns.set i { c with put := c.put ++ [.pumped message] }
        puts := s.puts ++ [(i, message)] }
  | fail {i : Nat} {c : Conn M} {message} (hc : s.conns[i]? = some c)
      (hlease : s.lease = .sending i message) : Moves config s .fail (s.endPump i c)
  | cancel {i : Nat} {c : Conn M} (hc : s.conns[i]? = some c) :
      Moves config s (.cancel i) (s.endPump i c)
  | conn {i : Nat} {c c' : Conn M} {act} (hc : s.conns[i]? = some c)
      (hact : c.act config act = some c') :
      Moves config s (.conn i act) { s with conns := s.conns.set i c' }

variable {a : Action M} {s s' : State M} {i : Nat} {message : M}

theorem step_moves (h : step config s a = some s') : Moves config s a s' := by
  cases a with
  | send message =>
    simp only [step] at h
    obtain ⟨_, ⟨⟩⟩ := some_of_guard h
    exact .send
  | hangUp =>
    injection h with h
    exact h ▸ .hangUp
  | connect =>
    injection h with h
    exact h ▸ .connect
  | lock i =>
    obtain ⟨c, hc, h⟩ := Option.bind_eq_some_iff.mp h
    split at h
    · next hlease =>
      obtain ⟨_, ⟨⟩⟩ := some_of_guard h
      exact .lock hlease
    · cases h
    · cases h
  | recv =>
    simp only [step] at h
    split at h
    · next i message rest hlease houtbound =>
      cases h
      exact .recv hlease houtbound
    · cases h
  | finish =>
    simp only [step] at h
    split at h
    · next i hlease houtbound =>
      obtain ⟨c, hc, h⟩ := Option.bind_eq_some_iff.mp h
      obtain ⟨_, ⟨⟩⟩ := some_of_guard h
      exact .finish hc hlease
    · cases h
  | push =>
    simp only [step] at h
    split at h
    · next i message hlease =>
      obtain ⟨c, hc, h⟩ := Option.bind_eq_some_iff.mp h
      obtain ⟨_, ⟨⟩⟩ := some_of_guard h
      exact .push hc hlease
    · cases h
    · cases h
  | fail =>
    simp only [step] at h
    split at h
    · next i message hlease =>
      obtain ⟨c, hc, h⟩ := Option.bind_eq_some_iff.mp h
      obtain ⟨_, ⟨⟩⟩ := some_of_guard h
      exact .fail hc hlease
    · cases h
    · cases h
  | cancel i =>
    obtain ⟨c, hc, h⟩ := Option.bind_eq_some_iff.mp h
    obtain ⟨_, ⟨⟩⟩ := some_of_guard h
    exact .cancel hc
  | conn i act =>
    obtain ⟨c, hc, h⟩ := Option.bind_eq_some_iff.mp h
    obtain ⟨c', hact, h⟩ := Option.map_eq_some_iff.mp h
    exact h ▸ .conn hc hact

/-! ## §3. Where a message is. -/

def State.flow (s : State M) : List M := s.puts.map Prod.snd ++ s.lease.held ++ s.outbound

def State.putOn (s : State M) (i : Nat) : List M :=
  (s.puts.filter fun p => p.1 = i).map Prod.snd

/-- No pump ends with a message in its hands. -/
def Keeps (s : State M) : Action M → Prop
  | .fail => False
  | .cancel i => ∀ message, s.lease ≠ .sending i message
  | _ => True

/-- What a step does to the messages. -/
inductive Carries (s s' : State M) : Action M → Prop where
  | send (message : M) (hsent : s'.sent = s.sent ++ [message])
      (hflow : s'.flow = s.flow ++ [message]) : Carries s s' (.send message)
  | keep {a : Action M} (hkeeps : Keeps s a) (hsent : s'.sent = s.sent)
      (hflow : s'.flow = s.flow) : Carries s s' a
  | lose {a : Action M} (hloses : ¬ Keeps s a) (before : List M) (message : M) (after : List M)
      (hsent : s'.sent = s.sent) (hbefore : s.flow = before ++ message :: after)
      (hafter : s'.flow = before ++ after) : Carries s s' a

theorem endPump_flow (c : Conn M) (h : s.lease.held = []) :
    (s.endPump i c).flow = s.flow := by
  have hheld : (s.endPump i c).lease.held = [] := by
    unfold State.endPump
    dsimp only
    split
    · rfl
    · exact h
  show s.puts.map Prod.snd ++ (s.endPump i c).lease.held ++ s.outbound = _
  rw [hheld, State.flow, h]

theorem endPump_other_flow (c : Conn M) (h : s.lease.holder ≠ some i) :
    (s.endPump i c).flow = s.flow := by
  show s.puts.map Prod.snd ++ Lease.held (if _ then _ else _) ++ s.outbound = _
  rw [if_neg h]
  rfl

theorem endPump_loses (c : Conn M) (h : s.lease = .sending i message) :
    s.flow = s.puts.map Prod.snd ++ message :: s.outbound ∧
      (s.endPump i c).flow = s.puts.map Prod.snd ++ s.outbound := by
  constructor
  · rw [State.flow, h, List.append_assoc]
    rfl
  · show s.puts.map Prod.snd ++ Lease.held (if _ then _ else _) ++ s.outbound = _
    rw [if_pos (by rw [h]; rfl)]
    simp [Lease.held]

theorem step_flow (h : step config s a = some s') : Carries s s' a := by
  cases step_moves h with
  | send => exact .send _ rfl (List.append_assoc _ _ _).symm
  | hangUp => exact .keep trivial rfl rfl
  | connect => exact .keep trivial rfl rfl
  | lock hlease => exact .keep trivial rfl (by simp [State.flow, hlease, Lease.held])
  | recv hlease houtbound =>
    exact .keep trivial rfl (by simp [State.flow, hlease, houtbound, Lease.held])
  | finish _ hlease => exact .keep trivial rfl (endPump_flow _ (by rw [hlease]; rfl))
  | push _ hlease => exact .keep trivial rfl (by simp [State.flow, hlease, Lease.held])
  | fail _ hlease =>
    obtain ⟨hbefore, hafter⟩ := endPump_loses _ hlease
    exact .lose id _ _ _ rfl hbefore hafter
  | @cancel i c _ =>
    cases hlease : s.lease with
    | free =>
      exact .keep (fun _ hs => by cases hlease.symm.trans hs) rfl
        (endPump_flow c (by rw [hlease]; rfl))
    | receiving j =>
      exact .keep (fun _ hs => by cases hlease.symm.trans hs) rfl
        (endPump_flow c (by rw [hlease]; rfl))
    | sending j message =>
      by_cases hij : j = i
      · subst hij
        obtain ⟨hbefore, hafter⟩ := endPump_loses c hlease
        exact .lose (fun hkeeps => hkeeps message hlease) _ message _ rfl hbefore hafter
      · have hholder : s.lease.holder ≠ some i := by
          rw [hlease]
          exact fun h => hij (Option.some.inj h)
        refine .keep (fun _ hsending => ?_) rfl (endPump_other_flow c hholder)
        rw [hsending] at hholder
        exact hholder rfl
  | conn => exact .keep trivial rfl rfl

/-! ## §4. Runs. -/

theorem flow_sublist (h : Reachable (step config) Anything {} s) : s.flow.Sublist s.sent := by
  refine Reachable.invariant (I := fun s => s.flow.Sublist s.sent) (List.Sublist.refl _) ?_ h
  intro s a s' ih _ hstep
  cases step_flow hstep with
  | send message hsent hflow =>
    rw [hsent, hflow]
    exact ih.append (List.Sublist.refl _)
  | keep _ hsent hflow =>
    rw [hsent, hflow]
    exact ih
  | lose _ before message after hsent hbefore hafter =>
    rw [hsent, hafter]
    rw [hbefore] at ih
    exact (((List.Sublist.refl before).append (List.sublist_cons_self message after))).trans ih

theorem step_lossy (h : step config s a = some s') (hlossy : s.flow.length < s.sent.length) :
    s'.flow.length < s'.sent.length := by
  cases step_flow h with
  | send message hsent hflow =>
    rw [hsent, hflow, List.length_append, List.length_append]
    exact Nat.add_lt_add_right hlossy _
  | keep _ hsent hflow =>
    rw [hsent, hflow]
    exact hlossy
  | lose _ before message after hsent hbefore hafter =>
    rw [hbefore] at hlossy
    rw [hsent, hafter]
    simp only [List.length_append, List.length_cons] at hlossy ⊢
    omega

theorem replay_lossy (actions : List (Action M)) :
    ∀ {s t : State M}, replay (step config) Anything s actions = some t →
      s.flow.length < s.sent.length → t.flow.length < t.sent.length := by
  induction actions with
  | nil =>
    intro s t h hlossy
    injection h with h
    exact h ▸ hlossy
  | cons a rest ih =>
    intro s t h hlossy
    obtain ⟨_, u, hstep, hrest⟩ := replay_cons h
    exact ih hrest (step_lossy hstep hlossy)

theorem replay_flow_iff (actions : List (Action M)) :
    ∀ {s t : State M}, replay (step config) Anything s actions = some t → s.flow = s.sent →
      (t.flow = t.sent ↔ Throughout (step config) Keeps s actions) := by
  induction actions with
  | nil =>
    intro s t h hs
    injection h with h
    subst h
    exact ⟨fun _ => trivial, fun _ => hs⟩
  | cons a rest ih =>
    intro s t h hs
    obtain ⟨_, u, hstep, hrest⟩ := replay_cons h
    rw [throughout_cons hstep]
    cases step_flow hstep with
    | send message hsent hflow =>
      rw [ih hrest (by rw [hflow, hsent, hs])]
      exact (and_iff_right trivial).symm
    | keep hkeeps hsent hflow =>
      rw [ih hrest (by rw [hflow, hsent, hs])]
      exact (and_iff_right hkeeps).symm
    | lose hloses before message after hsent hbefore hafter =>
      have hlossy : u.flow.length < u.sent.length := by
        rw [hsent, ← hs, hbefore, hafter]
        simp
      have hend := replay_lossy rest hrest hlossy
      constructor
      · intro heq
        rw [heq] at hend
        exact absurd hend (Nat.lt_irrefl _)
      · exact fun hkeeps => absurd hkeeps.1 hloses

/-! ## §5. The write queues. -/

/-- The log of puts is what was put on the write queues. -/
def Logged (s : State M) : Prop := ∀ i : Nat, s.conns[i]?.elim [] Conn.pushed = s.putOn i

theorem Logged.set (h : Logged s) (hc : s.conns[i]? = some c) (hpushed : c'.pushed = c.pushed)
    (j : Nat) :
    (s.conns.set i c')[j]?.elim [] Conn.pushed = s.putOn j := by
  rw [← h j, List.getElem?_set]
  split
  · next hij =>
    subst hij
    rw [if_pos (List.getElem?_eq_some_iff.mp hc).1, hc]
    exact hpushed
  · rfl

theorem Logged.push (h : Logged s) (hc : s.conns[i]? = some c) (j : Nat) :
    (s.conns.set i { c with put := c.put ++ [.pumped message] })[j]?.elim [] Conn.pushed =
      ((s.puts ++ [(i, message)]).filter fun p => p.1 = j).map Prod.snd := by
  rw [List.filter_append, List.map_append, List.getElem?_set]
  split
  · next hij =>
    subst hij
    have hi := h i
    rw [hc] at hi
    rw [if_pos (List.getElem?_eq_some_iff.mp hc).1]
    show Conn.pushed _ = s.putOn i ++ _
    rw [← hi]
    simp [Conn.pushed, Queued.message]
  · next hij =>
    rw [h j]
    simp [State.putOn, hij]

theorem Logged.step (h : Logged s) (hstep : Outbound.step config s a = some s') : Logged s' := by
  cases step_moves hstep with
  | send => exact h
  | hangUp => exact h
  | connect =>
    intro i
    show (s.conns ++ [({} : Conn M)])[i]?.elim [] Conn.pushed = s.putOn i
    rw [← h i, List.getElem?_append]
    split
    · rfl
    · next hi =>
      rw [List.getElem?_eq_none (Nat.le_of_not_lt hi)]
      cases i - s.conns.length with
      | zero => rfl
      | succ k => rfl
  | lock => exact h
  | recv => exact h
  | finish hc => exact h.set hc rfl
  | push hc => exact h.push hc
  | fail hc => exact h.set hc rfl
  | cancel hc => exact h.set hc rfl
  | conn hc hact => exact h.set hc (Conn.pushed_act hact)

theorem logged_of_reachable (h : Reachable (step config) Anything {} s) : Logged s :=
  Reachable.invariant (I := Logged) (fun _ => rfl) (fun _ _ _ ih _ hstep => ih.step hstep) h

/-! ## §6. A connection that stays open. -/

/-- The steps of the `i`-th connection's pump and writer. -/
def Drains (i : Nat) (_ : State M) : Action M → Prop
  | .lock j | .conn j .take | .conn j .wrote => j = i
  | .recv | .push => True
  | _ => False

/-- Every message is on a write queue. -/
def Drained (s : State M) : Prop := s.outbound = [] ∧ s.lease.held = []

def State.setConn (s : State M) (i : Nat) (c : Conn M) : State M :=
  { s with conns := s.conns.set i c }

section Draining

variable {config : Config} {s : State M} {i : Nat} {c : Conn M}

theorem setConn_self (hc : s.conns[i]? = some c) : s.setConn i c = s := by
  obtain ⟨hi, rfl⟩ := List.getElem?_eq_some_iff.mp hc
  show { s with conns := s.conns.set i s.conns[i] } = s
  rw [List.set_getElem_self]

theorem setConn_get (hc : s.conns[i]? = some c) (c' : Conn M) :
    (s.setConn i c').conns[i]? = some c' :=
  List.getElem?_set_self (List.getElem?_eq_some_iff.mp hc).1

theorem setConn_setConn (c' : Conn M) : (s.setConn i c).setConn i c' = s.setConn i c' := by
  show { s with conns := (s.conns.set i c).set i c' } = _
  rw [List.set_set]
  rfl

theorem reachable_act (hc : s.conns[i]? = some c) {a : Local} {c' : Conn M}
    (hact : c.act config a = some c') (hdrains : Drains i s (.conn i a)) :
    Reachable (step config) (Drains i) s (s.setConn i c') := by
  refine .step .init hdrains ?_
  simp only [step, hc, Option.bind_some, hact, Option.map_some]
  rfl

theorem makes_room (hqueue : 0 < config.writeQueue) (n : Nat) : ∀ {s : State M} {c : Conn M},
    s.conns[i]? = some c → c.writer ≠ .ended → c.put.length - c.taken = n →
      ∃ c', Reachable (step config) (Drains i) s (s.setConn i c') ∧ c'.writer ≠ .ended ∧
        c'.hasRoom config = true := by
  induction n with
  | zero =>
    intro s c hc hwriter hlength
    refine ⟨c, ?_, hwriter, ?_⟩
    · rw [setConn_self hc]
      exact .init
    · simpa [Conn.hasRoom, hlength] using hqueue
  | succ n ih =>
    -- an idle writer takes the next message
    have htake : ∀ {s : State M} {c : Conn M}, s.conns[i]? = some c → c.writer = .idle →
        c.put.length - c.taken = n + 1 →
          ∃ c', Reachable (step config) (Drains i) s (s.setConn i c') ∧ c'.writer ≠ .ended ∧
            c'.hasRoom config = true := by
      intro s c hc hidle hlength
      have hact : c.act config .take =
          some { c with writer := .writing, taken := c.taken + 1 } :=
        if_pos ⟨hidle, by omega⟩
      obtain ⟨c', hreach, hwriter, hroom⟩ :=
        ih (setConn_get hc { c with writer := .writing, taken := c.taken + 1 }) Writer.noConfusion
          (show c.put.length - (c.taken + 1) = n by omega)
      rw [setConn_setConn] at hreach
      exact ⟨c', (reachable_act hc hact rfl).trans hreach, hwriter, hroom⟩
    intro s c hc hwriter hlength
    cases hstate : c.writer with
    | idle => exact htake hc hstate hlength
    | writing =>
      have hact : c.act config .wrote = some { c with writer := .idle } := if_pos hstate
      obtain ⟨c', hreach, hwriter, hroom⟩ :=
        htake (setConn_get hc { c with writer := .idle }) rfl hlength
      rw [setConn_setConn] at hreach
      exact ⟨c', (reachable_act hc hact rfl).trans hreach, hwriter, hroom⟩
    | ended => exact absurd hstate hwriter

theorem pushes (hqueue : 0 < config.writeQueue) (hc : s.conns[i]? = some c)
    (hwriter : c.writer ≠ .ended) {message : M} (hlease : s.lease = .sending i message) :
    ∃ (t : State M) (c' : Conn M), Reachable (step config) (Drains i) s t ∧
      t.lease = .receiving i ∧ t.outbound = s.outbound ∧ t.conns[i]? = some c' ∧
      c'.writer ≠ .ended := by
  obtain ⟨c', hreach, hwriter', hroom⟩ := makes_room hqueue _ hc hwriter rfl
  have hstep : step config (s.setConn i c') .push = some
      { (s.setConn i c').setConn i { c' with put := c'.put ++ [.pumped message] } with
        lease := .receiving i
        puts := s.puts ++ [(i, message)] } := by
    have hlease' : (s.setConn i c').lease = .sending i message := hlease
    simp only [step, hlease', setConn_get hc, Option.bind_some]
    rw [if_pos ⟨hwriter', hroom⟩]
    rfl
  exact ⟨_, _, .step hreach (a := .push) trivial hstep, rfl, rfl,
    setConn_get (setConn_get hc c') _, hwriter'⟩

theorem drains_receiving (hqueue : 0 < config.writeQueue) (messages : List M) :
    ∀ {s : State M} {c : Conn M}, s.outbound = messages → s.lease = .receiving i →
      s.conns[i]? = some c → c.writer ≠ .ended →
        ∃ t, Reachable (step config) (Drains i) s t ∧ Drained t := by
  induction messages with
  | nil =>
    intro s c houtbound hlease _ _
    exact ⟨s, .init, houtbound, by rw [hlease]; rfl⟩
  | cons message rest ih =>
    intro s c houtbound hlease hc hwriter
    have hstep : step config s .recv =
        some { s with outbound := rest, lease := .sending i message } := by
      simp only [step, hlease, houtbound]
    obtain ⟨t, c', hreach, hlease', houtbound', hc', hwriter'⟩ :=
      pushes (s := { s with outbound := rest, lease := .sending i message }) hqueue hc hwriter rfl
    obtain ⟨u, hdrain, hu⟩ := ih houtbound' hlease' hc' hwriter'
    exact ⟨u, ((Reachable.step .init (a := .recv) trivial hstep).trans hreach).trans hdrain, hu⟩

theorem drains (hqueue : 0 < config.writeQueue) (hc : s.conns[i]? = some c)
    (hpumping : c.pumping = true) (hwriter : c.writer ≠ .ended)
    (hlease : s.lease.holder = none ∨ s.lease.holder = some i) :
    ∃ t, Reachable (step config) (Drains i) s t ∧ Drained t := by
  cases hs : s.lease with
  | free =>
    have hstep : step config s (.lock i) = some { s with lease := .receiving i } := by
      simp only [step, hc, Option.bind_some, hs, hpumping, if_true]
    obtain ⟨t, hreach, ht⟩ :=
      drains_receiving (s := { s with lease := .receiving i }) hqueue _ rfl rfl hc hwriter
    have hlock : Drains i s (.lock i) := rfl
    exact ⟨t, (Reachable.step .init hlock hstep).trans hreach, ht⟩
  | receiving j =>
    rw [hs] at hlease
    obtain rfl : j = i := by simpa [Lease.holder] using hlease
    exact drains_receiving hqueue _ rfl hs hc hwriter
  | sending j message =>
    rw [hs] at hlease
    obtain rfl : j = i := by simpa [Lease.holder] using hlease
    obtain ⟨t, c', hreach, hlease', _, hc', hwriter'⟩ := pushes hqueue hc hwriter hs
    obtain ⟨u, hdrain, hu⟩ := drains_receiving hqueue _ rfl hlease' hc' hwriter'
    exact ⟨u, hreach.trans hdrain, hu⟩

end Draining

/-! ## §7. Exactly once. -/

/-- **Every message sent was put on the write queue of exactly one connection, in order**: the
    log of puts holds the messages sent, one by one, and each queue what the log says. -/
def ExactlyOnce (s : State M) : Prop := s.puts.map Prod.snd = s.sent ∧ Logged s

theorem Drained.flow (h : Drained s) : s.flow = s.puts.map Prod.snd := by
  rw [State.flow, h.1, h.2, List.append_nil, List.append_nil]

/-- **Delivery is exactly once, exactly while no pump ends with a message in its hands.**  In
    every run the messages put on write queues were sent, in this order and no more often; when
    the channel is drained, none is missing exactly if no pump was aborted, and none gave up on
    its queue, between taking a message and putting it; and a connection that has the lease, or
    finds it free, drains the channel by its own steps while its writer writes. -/
theorem delivered_once_iff (config : Config) (actions : List (Action M)) (s : State M)
    (h : replay (step config) Anything {} actions = some s) :
    (s.puts.map Prod.snd).Sublist s.sent ∧ Logged s ∧
    (Drained s → (ExactlyOnce s ↔ Throughout (step config) Keeps {} actions)) ∧
    ∀ {i : Nat} {c : Conn M}, 0 < config.writeQueue → s.conns[i]? = some c → c.pumping = true →
      c.writer ≠ .ended → s.lease.holder = none ∨ s.lease.holder = some i →
        ∃ t, Reachable (step config) (Drains i) s t ∧ Drained t := by
  have hreach : Reachable (step config) Anything {} s := replay_reachable actions .init h
  have hlogged := logged_of_reachable hreach
  refine ⟨?_, hlogged, ?_, ?_⟩
  · have hflow := flow_sublist hreach
    rw [State.flow, List.append_assoc] at hflow
    exact (List.sublist_append_left _ _).trans hflow
  · intro hdrained
    rw [← replay_flow_iff actions h rfl, hdrained.flow]
    exact ⟨fun honce => honce.1, fun hall => ⟨hall, hlogged⟩⟩
  · intro i c hqueue hc hpumping hwriter hlease
    exact drains hqueue hc hpumping hwriter hlease

def handedOver : List (Action Nat) :=
  [.connect, .lock 0, .send 7, .recv, .push, .conn 0 .close, .cancel 0, .send 8, .connect,
    .lock 1, .recv, .push]

theorem delivered_once_iff_handedOver :
    ∃ s, replay (step ⟨256, 256⟩) Anything {} handedOver = some s ∧ Drained s ∧
      s.puts = [(0, 7), (1, 8)] ∧
      (ExactlyOnce s ↔ Throughout (step ⟨256, 256⟩) Keeps {} handedOver) ∧
      ∃ t, Reachable (step ⟨256, 256⟩) (Drains 1) s t ∧ Drained t := by
  obtain ⟨_, _, hiff, hdrains⟩ := delivered_once_iff ⟨256, 256⟩ handedOver _ rfl
  exact ⟨_, rfl, ⟨rfl, rfl⟩, rfl, hiff ⟨rfl, rfl⟩,
    hdrains (i := 1) (by decide) rfl rfl (by decide) (.inr rfl)⟩

/-! ## §8. A client that stops reading and goes. -/

def unread (n : Nat) : List (Action Nat) :=
  [.connect, .lock 0] ++ (List.range n).flatMap fun m => [.send m, .recv, .push]

def stalled (n : Nat) : State Nat :=
  { sent := List.range n, lease := .receiving 0,
    conns := [{ put := (List.range n).map .pumped }], puts := (List.range n).map (0, ·) }

def holding (n : Nat) : State Nat :=
  { stalled n with sent := List.range n ++ [n], lease := .sending 0 n }

section Stalled

variable {config : Config} (n : Nat)

theorem replay_holding (hchannel : 0 < config.eventChannel) :
    replay (step config) Anything (stalled n) [.send n, .recv] = some (holding n) := by
  have hsend : step config (stalled n) (.send n) =
      some { stalled n with sent := List.range n ++ [n], outbound := [n] } :=
    if_pos ⟨rfl, hchannel⟩
  exact replay_step trivial hsend _

theorem holding_hasRoom :
    Conn.hasRoom config ({ put := (List.range n).map .pumped } : Conn Nat) =
      decide (n < config.writeQueue) := by
  simp [Conn.hasRoom]

theorem push_holding (h : n < config.writeQueue) :
    step config (holding n) .push = some (stalled (n + 1)) := by
  have hroom := (holding_hasRoom n).trans (decide_eq_true h)
  have hdone : { holding n with
      lease := .receiving 0
      conns := [{ put := (List.range n).map .pumped ++ [.pumped n] }]
      puts := (List.range n).map (0, ·) ++ [(0, n)] } = stalled (n + 1) := by
    simp [holding, stalled, List.range_succ]
  rw [← hdone]
  exact if_pos ⟨Writer.noConfusion, hroom⟩

theorem push_full (h : config.writeQueue ≤ n) : step config (holding n) .push = none := by
  have hfull := (holding_hasRoom n).trans (decide_eq_false (Nat.not_lt.mpr h))
  exact if_neg fun hpush => Bool.false_ne_true (hfull.symm.trans hpush.2)

theorem replay_unread (hchannel : 0 < config.eventChannel) (h : n ≤ config.writeQueue) :
    replay (step config) Anything {} (unread n) = some (stalled n) := by
  induction n with
  | zero => rfl
  | succ n ih =>
    have hrun : unread (n + 1) = unread n ++ ([.send n, .recv] ++ [.push]) := by
      simp [unread, List.range_succ]
    rw [hrun]
    refine replay_append _ _ (ih (Nat.le_of_succ_le h)) ?_
    refine replay_append _ _ (replay_holding n hchannel) ?_
    exact replay_step trivial (push_holding n h) []

end Stalled

/-- **A client reads none of 257 messages and disconnects; the message its pump was waiting to
    put is lost, though the next client stays.** -/
theorem prompt_lost_on_abort :
    ∃ s t, replay (step ⟨256, 256⟩) Anything {} (unread 256 ++ [.send 256, .recv]) = some s ∧
      step ⟨256, 256⟩ s .push = none ∧
      replay (step ⟨256, 256⟩) Anything s [.conn 0 .close, .cancel 0, .connect, .lock 1] = some t ∧
      t.lease.holder = some 1 ∧ Drained t ∧ 256 ∈ t.sent ∧ ¬ ExactlyOnce t := by
  have hstalled : replay (step ⟨256, 256⟩) Anything {} (unread 256) = some (stalled 256) :=
    replay_unread 256 (by decide) (Nat.le_refl _)
  refine ⟨holding 256, _, replay_append _ _ hstalled (replay_holding 256 (by decide)),
    push_full 256 (Nat.le_refl _), rfl, rfl, ⟨rfl, rfl⟩,
    List.mem_append_right _ List.mem_cons_self, fun honce => ?_⟩
  have hlength : ((List.range 256).map fun m => (0, m)).length =
      (List.range 256 ++ [256]).length := by
    rw [← List.length_map (f := Prod.snd)]
    exact congrArg List.length honce.1
  simp at hlength

end ThisConnect.Ipc.Outbound
