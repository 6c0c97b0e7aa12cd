/-
  ThisConnect.Ui.GivenUp
  **A REQUEST THE CALLER HAS GIVEN UP ON.**

  Main results:
    • `never_later_iff` — a call not carried out yet never will be exactly if
      its command does not wait in the queue and is not under way.
    • `given_up_iff` — that, for the step in which a call times out; the other
      errors leave nothing behind; and a response is one to the id written for
      the call, on the connection the response came on.
    • `connect_after_timeout` — a connect the user was told had failed.
-/
import ThisConnect.Ui.Client

namespace ThisConnect.Ui

open Transition Places
open Ipc (ClientMessage DaemonMessage IpcError PromptReply Request Response Serde encodeLine)

/-! ## §1. What still waits. -/

/-- The call's line was written to a daemon. -/
def CarriedOut (k : Nat) (s : State) : Prop := ∃ w ∈ s.written, w.command.call = some k

def Queued (serde : Serde ClientMessage) (k : Nat) (s : State) : Prop :=
  ∃ req id, .request k req ∈ s.queue ∧ isUuid id = true ∧
    (encodeLine serde (.request id req)).isOk = true

/-- The call's line is being written. -/
def Writing (k : Nat) (s : State) : Prop := ∃ id req, s.phase = .writing id (.request k req)

/-- The call's command can still reach the daemon. -/
def Waits (serde : Serde ClientMessage) (k : Nat) (s : State) : Prop :=
  Queued serde k s ∨ Writing k s

section Waiting

variable {serde : Serde ClientMessage} {k : Nat} {s s' : State}

theorem Waits.frame (h : Waits serde k s') (hqueue : ∀ command ∈ s'.queue, command ∈ s.queue)
    (hphase : s'.phase = s.phase ∨ ∀ {id command}, s'.phase ≠ .writing id command) :
    Waits serde k s := by
  rcases h with ⟨req, id, hmem, hid, hencode⟩ | ⟨id, req, hwriting⟩
  · exact .inl ⟨req, id, hqueue _ hmem, hid, hencode⟩
  · rcases hphase with hsame | hnot
    · exact .inr ⟨id, req, hsame ▸ hwriting⟩
    · exact absurd hwriting hnot

theorem register_queue (s : State) (id : String) (command : Command) :
    (s.register id command).queue = s.queue := by
  cases command <;> rfl

theorem register_connection (s : State) (id : String) (command : Command) :
    (s.register id command).connection = s.connection := by
  cases command <;> rfl

theorem answer_frame (s : State) (id : String) (reply : Except IpcError Response) :
    (s.answer id reply).queue = s.queue ∧ (s.answer id reply).phase = s.phase ∧
      (s.answer id reply).written = s.written ∧
      (s.answer id reply).calls.length = s.calls.length := by
  unfold State.answer
  split
  · exact ⟨rfl, rfl, rfl, rfl⟩
  · exact ⟨rfl, rfl, rfl, List.length_modify ..⟩

theorem handleIncoming_frame (s : State) (message : Option DaemonMessage) :
    (s.handleIncoming message).queue = s.queue ∧ (s.handleIncoming message).phase = s.phase ∧
      (s.handleIncoming message).written = s.written ∧
      (s.handleIncoming message).calls.length = s.calls.length := by
  cases message with
  | none => exact ⟨rfl, rfl, rfl, rfl⟩
  | some message =>
    cases message with
    | hello => exact ⟨rfl, rfl, rfl, rfl⟩
    | response id response => exact answer_frame s id (.ok response)
    | error id error => exact answer_frame s id (.error error)

variable {a : Action}

theorem waits_of_step (hk : k < s.calls.length) (hstep : step serde s a = some s')
    (h : Waits serde k s') : Waits serde k s := by
  cases step_moves hstep with
  | @call request =>
    rcases h with ⟨req, id, hmem, hid, hencode⟩ | hwriting
    · rcases List.mem_append.mp hmem with hmem | hmem
      · exact .inl ⟨req, id, hmem, hid, hencode⟩
      · injection List.mem_singleton.mp hmem with hlast
        exact absurd hk (by rw [hlast]; exact Nat.lt_irrefl _)
    · exact .inr hwriting
  | callGone => exact h.frame (fun _ hmem => hmem) (.inl rfl)
  | promptReply =>
    rcases h with ⟨req, id, hmem, hid, hencode⟩ | hwriting
    · rcases List.mem_append.mp hmem with hmem | hmem
      · exact .inl ⟨req, id, hmem, hid, hencode⟩
      · exact by cases List.mem_singleton.mp hmem
    · exact .inr hwriting
  | dropHandles => exact h.frame (fun _ hmem => hmem) (.inl rfl)
  | response => exact h.frame (fun _ hmem => hmem) (.inl rfl)
  | error => exact h.frame (fun _ hmem => hmem) (.inl rfl)
  | timeOut => exact h.frame (fun _ hmem => hmem) (.inl rfl)
  | connect => exact h.frame (fun _ hmem => hmem) (.inr Phase.noConfusion)
  | greet => exact h.frame (fun _ hmem => hmem) (.inr Phase.noConfusion)
  | refuse => exact h.frame (fun _ hmem => hmem) (.inr Phase.noConfusion)
  | lose => exact h.frame (fun _ hmem => hmem) (.inr Phase.noConfusion)
  | @take id command rest hphase hqueue hid hencode =>
    rcases h with ⟨req, id, hmem, hrest⟩ | ⟨id', req, hwriting⟩
    · refine .inl ⟨req, id, ?_, hrest⟩
      rw [hqueue]
      rw [register_queue] at hmem
      exact List.mem_cons_of_mem _ hmem
    · -- what is being written was the head of the queue
      injection hwriting with hid' hcommand
      subst hcommand
      exact .inl ⟨req, id, by rw [hqueue]; exact List.mem_cons_self, hid, hencode⟩
  | @oversize id command rest hphase hqueue =>
    refine h.frame (fun c hmem => ?_) (.inr Phase.noConfusion)
    rw [hqueue]
    have hmem' : c ∈ (({ s with queue := rest } : State).register id command).queue := hmem
    rw [register_queue] at hmem'
    exact List.mem_cons_of_mem _ hmem'
  | wrote => exact h.frame (fun _ hmem => hmem) (.inr Phase.noConfusion)
  | incoming =>
    obtain ⟨hqueue, hphase, _⟩ := handleIncoming_frame s _
    exact h.frame (fun _ hmem => hqueue ▸ hmem) (.inl hphase)
  | finish => exact h.frame (fun _ hmem => hmem) (.inr Phase.noConfusion)
  | tick => exact h.frame (fun _ hmem => hmem) (.inl rfl)

theorem register_frame (s : State) (id : String) (command : Command) :
    (s.register id command).written = s.written ∧
      (s.register id command).calls.length = s.calls.length := by
  cases command with
  | request k req => exact ⟨rfl, length_dropSenders _ _⟩
  | promptReply promptId reply => exact ⟨rfl, rfl⟩

theorem leave_length (s : State) (phase : Phase) :
    (s.leave phase).calls.length = s.calls.length := length_dropSenders _ _

theorem step_grows (hstep : step serde s a = some s') :
    s.calls.length ≤ s'.calls.length ∧ (s'.written = s.written ∨ ∃ id command,
      s.phase = .writing id command ∧ s'.written = s.written ++ [⟨s.connection, id, command⟩]) := by
  cases step_moves hstep with
  | call => exact ⟨by simp, .inl rfl⟩
  | callGone => exact ⟨by simp, .inl rfl⟩
  | promptReply => exact ⟨Nat.le_refl _, .inl rfl⟩
  | dropHandles => exact ⟨Nat.le_refl _, .inl rfl⟩
  | response => exact ⟨by simp [State.settle], .inl rfl⟩
  | error => exact ⟨by simp [State.settle], .inl rfl⟩
  | timeOut => exact ⟨by simp [State.settle], .inl rfl⟩
  | connect => exact ⟨Nat.le_refl _, .inl rfl⟩
  | greet => exact ⟨Nat.le_refl _, .inl rfl⟩
  | refuse => exact ⟨Nat.le_of_eq (leave_length s _).symm, .inl rfl⟩
  | lose => exact ⟨Nat.le_of_eq (leave_length s _).symm, .inl rfl⟩
  | @take id command rest _ _ _ _ =>
    obtain ⟨hwritten, hlength⟩ := register_frame { s with queue := rest } id command
    exact ⟨Nat.le_of_eq hlength.symm, .inl hwritten⟩
  | @oversize id command rest _ _ =>
    obtain ⟨hwritten, hlength⟩ := register_frame { s with queue := rest } id command
    exact ⟨Nat.le_of_eq ((leave_length _ _).trans hlength).symm, .inl hwritten⟩
  | wrote hphase => exact ⟨Nat.le_refl _, .inr ⟨_, _, hphase, rfl⟩⟩
  | incoming =>
    obtain ⟨_, _, hwritten, hlength⟩ := handleIncoming_frame s _
    exact ⟨Nat.le_of_eq hlength.symm, .inl hwritten⟩
  | finish => exact ⟨Nat.le_of_eq (leave_length s _).symm, .inl rfl⟩
  | tick => exact ⟨Nat.le_refl _, .inl rfl⟩

theorem carriedOut_of_step (hstep : step serde s a = some s') (h : CarriedOut k s') :
    CarriedOut k s ∨ Writing k s := by
  obtain ⟨w, hmem, hcall⟩ := h
  rcases (step_grows hstep).2 with hsame | ⟨id, command, hphase, hwritten⟩
  · exact .inl ⟨w, hsame ▸ hmem, hcall⟩
  · rw [hwritten] at hmem
    rcases List.mem_append.mp hmem with hmem | hmem
    · exact .inl ⟨w, hmem, hcall⟩
    · rw [List.mem_singleton.mp hmem] at hcall
      cases command with
      | request l req =>
        injection hcall with hcall
        exact .inr ⟨id, req, hcall ▸ hphase⟩
      | promptReply promptId reply => cases hcall

theorem not_carriedOut (hk : k < s.calls.length) (hwaits : ¬ Waits serde k s)
    (hnot : ¬ CarriedOut k s) {t : State} (ht : Reachable (step serde) Anything s t) :
    ¬ CarriedOut k t := by
  have hend : k < t.calls.length ∧ ¬ Waits serde k t ∧ ¬ CarriedOut k t := by
    refine Reachable.invariant (I := fun t => k < t.calls.length ∧ ¬ Waits serde k t ∧
      ¬ CarriedOut k t) ⟨hk, hwaits, hnot⟩ ?_ ht
    intro t a u ⟨hk, hwaits, hnot⟩ _ hstep
    refine ⟨Nat.lt_of_lt_of_le hk (step_grows hstep).1, fun h => hwaits (waits_of_step hk hstep h),
      fun h => ?_⟩
    rcases carriedOut_of_step hstep h with hbefore | hwriting
    · exact hnot hbefore
    · exact hwaits (.inr hwriting)
  exact hend.2.2

end Waiting

/-! ## §2. What waits may be carried out. -/

/-- An id the actor may draw. -/
def anId : String := "00000000-0000-4000-8000-000000000000"

theorem isUuid_anId : isUuid anId = true := by decide +kernel

section Progress

variable {serde : Serde ClientMessage} {s : State}

theorem reaches_serving (halive : s.phase.alive = true) :
    ∃ t, Reachable (step serde) Anything s t ∧ t.phase = .serving ∧ t.queue = s.queue := by
  have hgreet : ∀ {s : State}, s.phase = .greeting →
      step serde s (.greet Ipc.protocolVersion) =
        some { s with phase := .serving, pending := [] } := by
    intro s hphase
    simp only [step, hphase]
    rfl
  cases hphase : s.phase with
  | away =>
    have hconnect : step serde s .connect =
        some { s with phase := .greeting, connection := s.connection + 1 } := by
      simp only [step, hphase]
    exact ⟨_, .step (.step .init trivial hconnect) trivial (hgreet rfl), rfl, rfl⟩
  | greeting => exact ⟨_, .step .init trivial (hgreet hphase), rfl, rfl⟩
  | serving => exact ⟨s, .init, hphase, rfl⟩
  | writing id command =>
    have hwrote : step serde s .wrote = some { s with
        phase := .serving
        written := s.written ++ [⟨s.connection, id, command⟩] } := by
      simp only [step, hphase]
    exact ⟨_, .step .init trivial hwrote, rfl, rfl⟩
  | finished => rw [hphase] at halive; cases halive

variable {command : Command} {rest : List Command}

variable {id : String} {k : Nat}

theorem writes_head (hphase : s.phase = .serving) (hqueue : s.queue = command :: rest)
    (hid : isUuid id = true) (hencode : (encodeLine serde (command.message id)).isOk = true) :
    ∃ t, Reachable (step serde) Anything s t ∧ t.phase = .serving ∧ t.queue = rest ∧
      ⟨s.connection, id, command⟩ ∈ t.written := by
  have htake : step serde s (.take id) = some
      { ({ s with queue := rest } : State).register id command with
        phase := .writing id command } := by
    simp only [step, hphase, hqueue, if_pos hid]
    cases hline : encodeLine serde (command.message id) with
    | ok line => rfl
    | error error => rw [hline] at hencode; cases hencode
  refine ⟨_, .step (.step .init trivial htake) trivial (a := .wrote) rfl, rfl, ?_, ?_⟩
  · exact register_queue _ id command
  · refine List.mem_append_right _ (List.mem_singleton.mpr ?_)
    rw [register_connection]

theorem passes_head (hphase : s.phase = .serving) (hqueue : s.queue = command :: rest) :
    ∃ t, Reachable (step serde) Anything s t ∧ t.phase = .serving ∧ t.queue = rest := by
  cases hline : encodeLine serde (command.message anId) with
  | ok line =>
    obtain ⟨t, ht, hserving, hrest, _⟩ :=
      writes_head hphase hqueue isUuid_anId (by rw [hline]; rfl)
    exact ⟨t, ht, hserving, hrest⟩
  | error error =>
    have htake : step serde s (.take anId) =
        some ((({ s with queue := rest } : State).register anId command).leave .away) := by
      simp only [step, hphase, hqueue, if_pos isUuid_anId, hline]
    obtain ⟨t, ht, hserving, hrest⟩ := reaches_serving
      (s := (({ s with queue := rest } : State).register anId command).leave .away) rfl
    exact ⟨t, (Reachable.step .init trivial htake).trans ht, hserving,
      hrest.trans (register_queue _ anId command)⟩

theorem writes_queued (hid : isUuid id = true)
    (hencode : (encodeLine serde (command.message id)).isOk = true) (queue : List Command) :
    ∀ {s : State}, s.phase = .serving → s.queue = queue → command ∈ queue →
      ∃ t, Reachable (step serde) Anything s t ∧ ∃ w ∈ t.written, w.command = command := by
  induction queue with
  | nil => exact fun _ _ hmem => by cases hmem
  | cons head rest ih =>
    intro s hphase hqueue hmem
    rcases List.mem_cons.mp hmem with rfl | hmem
    · obtain ⟨t, ht, _, _, hwritten⟩ := writes_head hphase hqueue hid hencode
      exact ⟨t, ht, _, hwritten, rfl⟩
    · obtain ⟨t, ht, hserving, hrest⟩ := passes_head hphase hqueue
      obtain ⟨u, hu, hwritten⟩ := ih hserving hrest hmem
      exact ⟨u, ht.trans hu, hwritten⟩

theorem queue_nil_of_finished (hs : Reachable (step serde) Anything {} s)
    (hphase : s.phase = .finished) : s.queue = [] := by
  refine Reachable.invariant (I := fun s => s.phase = .finished → s.queue = []) (fun _ => rfl) ?_
    hs hphase
  intro s a s' ih _ hstep
  cases step_moves hstep with
  | call halive => exact fun hphase => absurd hphase (Phase.ne_finished halive)
  | promptReply halive => exact fun hphase => absurd hphase (Phase.ne_finished halive)
  | callGone => exact ih
  | dropHandles => exact ih
  | response => exact ih
  | error => exact ih
  | timeOut => exact ih
  | connect => exact fun hphase => by cases hphase
  | greet => exact fun hphase => by cases hphase
  | refuse => exact fun hphase => by cases hphase
  | lose => exact fun hphase => by cases hphase
  | take => exact fun hphase => by cases hphase
  | oversize => exact fun hphase => by cases hphase
  | wrote => exact fun hphase => by cases hphase
  | @incoming message _ =>
    obtain ⟨hqueue, hphase, _⟩ := handleIncoming_frame s message
    rw [hqueue, hphase]
    exact ih
  | finish hqueue => exact fun _ => hqueue
  | tick => exact ih

theorem carriedOut_of_waits (hs : Reachable (step serde) Anything {} s) (h : Waits serde k s) :
    ∃ t, Reachable (step serde) Anything s t ∧ CarriedOut k t := by
  rcases h with ⟨req, id, hmem, hid, hencode⟩ | ⟨id, req, hwriting⟩
  · have halive : s.phase.alive = true := by
      by_contra hdead
      rw [queue_nil_of_finished hs (Phase.eq_finished hdead)] at hmem
      cases hmem
    obtain ⟨t, ht, hserving, hqueue⟩ := @reaches_serving serde s halive
    have hline : (encodeLine serde ((Command.request k req).message id)).isOk = true := hencode
    obtain ⟨u, hu, w, hwritten, hcommand⟩ := writes_queued hid hline _ hserving hqueue hmem
    exact ⟨u, ht.trans hu, w, hwritten, by rw [hcommand]; rfl⟩
  · have hwrote : step serde s .wrote = some { s with
        phase := .serving
        written := s.written ++ [⟨s.connection, id, .request k req⟩] } := by
      simp only [step, hwriting]
    exact ⟨_, .step .init trivial hwrote, _, List.mem_append_right _ List.mem_cons_self, rfl⟩

theorem never_later_iff (hs : Reachable (step serde) Anything {} s) (hk : k < s.calls.length)
    (hnot : ¬ CarriedOut k s) :
    (∀ t, Reachable (step serde) Anything s t → ¬ CarriedOut k t) ↔ ¬ Waits serde k s := by
  constructor
  · intro hnever hwaits
    obtain ⟨t, ht, hcarried⟩ := carriedOut_of_waits hs hwaits
    exact hnever t ht hcarried
  · exact fun hwaits t ht => not_carriedOut hk hwaits hnot ht

end Progress

/-! ## §3. Callers that give up. -/

variable {k : Nat} {s : State}

theorem Kept.not_waits {serde : Serde ClientMessage} (h : Kept s) {c : Call}
    (hc : s.calls[k]? = some c) (hslot : c.slot ≠ .empty) : ¬ Waits serde k s := by
  rintro (⟨req, _, hmem, _⟩ | ⟨id, req, hwriting⟩)
  · refine hslot ((h.calls hc).owned (List.mem_append_right _ ?_))
    exact List.mem_filterMap.mpr ⟨_, hmem, rfl⟩
  · refine hslot ((h.calls hc).owned (List.mem_append_left _ ?_))
    exact List.mem_map.mpr ⟨_, h.writing hwriting, rfl⟩

/-- **A request that was given up is never carried out, exactly while no call times out with its
    command queued or under way.**  A call that ended in any other error is never carried out; one
    that times out never is exactly if it does not wait; and a call that returned a response
    returned one for the id that was written for it on the connection the response came on. -/
theorem given_up_iff (serde : Serde ClientMessage) (s : State)
    (hs : Reachable (step serde) Anything {} s) :
    (∀ {k : Nat} {c : Call} {error}, s.calls[k]? = some c → c.result = some (.error error) →
      error ≠ .timeout → ¬ CarriedOut k s →
        ∀ t, Reachable (step serde) Anything s t → ¬ CarriedOut k t) ∧
    (∀ {k s'}, step serde s (.timeOut k) = some s' → ¬ CarriedOut k s →
      ((∀ t, Reachable (step serde) Anything s' t → ¬ CarriedOut k t) ↔ ¬ Waits serde k s)) ∧
    ∀ {k : Nat} {c : Call} {response}, s.calls[k]? = some c → c.result = some (.ok response) →
      ∃ connection id req, c.slot = .sent connection id (.ok response) ∧
        ⟨connection, id, .request k req⟩ ∈ s.written := by
  have hkept := kept_of_reachable hs
  refine ⟨?_, ?_, ?_⟩
  · intro k c error hc hresult herror hnot t ht
    have hslot : c.slot ≠ .empty := by
      rcases (hkept.calls hc).returned hresult with htimeout | hslot
      · injection htimeout with htimeout
        exact absurd htimeout herror
      · exact hslot
    have hk := (List.getElem?_eq_some_iff.mp hc).1
    exact not_carriedOut hk (hkept.not_waits hc hslot) hnot ht
  · intro k s' hstep hnot
    have hs' : Reachable (step serde) Anything {} s' := .step hs trivial hstep
    cases step_moves hstep with
    | @timeOut _ c hc =>
      have hk : k < (s.settle k c (.error .timeout)).calls.length := by
        rw [State.settle, List.length_set]
        exact (List.getElem?_eq_some_iff.mp hc).1
      exact never_later_iff hs' hk hnot
  · intro k c response hc hresult
    obtain ⟨connection, id, hslot⟩ := (hkept.calls hc).answered hresult
    obtain ⟨req, hwritten⟩ := (hkept.calls hc).sent hslot
    exact ⟨connection, id, req, hslot, hwritten⟩

theorem not_carriedOut_of_nil (h : s.written = []) : ¬ CarriedOut k s := by
  rintro ⟨w, hmem, _⟩
  rw [h] at hmem
  cases hmem

def lostRun : List Action :=
  [.connect, .greet Ipc.protocolVersion, .call .status, .take anId, .lose, .receive 0]

/-- A status request is answered. -/
def answeredRun : List Action :=
  [.connect, .greet Ipc.protocolVersion, .call .status, .take anId, .wrote,
    .incoming (some (.response anId .ack)), .receive 0]

def waitingRun : List Action := .call (.connect "p1") :: List.replicate 10 .tick

theorem encodes_connect :
    (encodeLine Ipc.jsonSerde (.request anId (.connect "p1"))).isOk = true := by decide +kernel

theorem reachable_waiting : ∃ s s', Reachable (step Ipc.jsonSerde) Anything {} s ∧
    step Ipc.jsonSerde s (.timeOut 0) = some s' ∧ s'.written = [] ∧ s.written = [] ∧
    s'.calls[0]?.bind Call.result = some (.error .timeout) ∧
    Waits Ipc.jsonSerde 0 s ∧ Waits Ipc.jsonSerde 0 s' := by
  have hwaits : ∀ {s : State}, s.queue = [.request 0 (.connect "p1")] →
      Waits Ipc.jsonSerde 0 s := by
    intro s hqueue
    exact .inl ⟨_, anId, by rw [hqueue]; exact List.mem_cons_self, isUuid_anId, encodes_connect⟩
  refine ⟨_, _, replay_reachable waitingRun .init rfl, rfl, rfl, rfl, rfl, hwaits rfl, hwaits rfl⟩

theorem given_up_iff_runs :
    (∃ s, Reachable (step Ipc.jsonSerde) Anything {} s ∧
      s.calls[0]?.bind Call.result = some (.error .actorGone) ∧
      ∀ t, Reachable (step Ipc.jsonSerde) Anything s t → ¬ CarriedOut 0 t) ∧
    (∃ s s', Reachable (step Ipc.jsonSerde) Anything {} s ∧
      step Ipc.jsonSerde s (.timeOut 0) = some s' ∧
      ((∀ t, Reachable (step Ipc.jsonSerde) Anything s' t → ¬ CarriedOut 0 t) ↔
        ¬ Waits Ipc.jsonSerde 0 s)) ∧
    ∃ s connection id req, Reachable (step Ipc.jsonSerde) Anything {} s ∧
      s.calls[0]?.bind Call.result = some (.ok .ack) ∧
      ⟨connection, id, .request 0 req⟩ ∈ s.written := by
  refine ⟨?_, ?_, ?_⟩
  · have hrun : (replay (step Ipc.jsonSerde) Anything {} lostRun).any (fun s =>
        decide (s.calls[0]?.bind Call.result = some (.error .actorGone) ∧
          s.written.length = 0)) = true := by
      decide +kernel
    obtain ⟨s, hs, hresult, hwritten⟩ := reachable_of_replay lostRun hrun
    obtain ⟨c, hc, hresult'⟩ := Option.bind_eq_some_iff.mp hresult
    exact ⟨s, hs, hresult, (given_up_iff _ s hs).1 hc hresult' ClientError.noConfusion
      (not_carriedOut_of_nil (List.length_eq_zero_iff.mp hwritten))⟩
  · obtain ⟨s, s', hs, hstep, _, hwritten, _⟩ := reachable_waiting
    exact ⟨s, s', hs, hstep, (given_up_iff _ s hs).2.1 hstep (not_carriedOut_of_nil hwritten)⟩
  · have hrun : (replay (step Ipc.jsonSerde) Anything {} answeredRun).any (fun s =>
        decide (s.calls[0]?.bind Call.result = some (.ok .ack))) = true := by
      decide +kernel
    obtain ⟨s, hs, hresult⟩ := reachable_of_replay answeredRun hrun
    obtain ⟨c, hc, hresult'⟩ := Option.bind_eq_some_iff.mp hresult
    obtain ⟨connection, id, req, _, hwritten⟩ := (given_up_iff _ s hs).2.2 hc hresult'
    exact ⟨s, connection, id, req, hs, hresult, hwritten⟩

/-- **The user is told that the connect timed out; when the daemon runs again it is asked to
    connect.** -/
theorem connect_after_timeout :
    ∃ s t, Reachable (step Ipc.jsonSerde) Anything {} s ∧
      s.calls[0]?.bind Call.result = some (.error .timeout) ∧ ¬ CarriedOut 0 s ∧
      Reachable (step Ipc.jsonSerde) Anything s t ∧ CarriedOut 0 t := by
  obtain ⟨s, s', hs, hstep, hwritten, _, hresult, _, hwaits⟩ := reachable_waiting
  have hs' : Reachable (step Ipc.jsonSerde) Anything {} s' := .step hs trivial hstep
  obtain ⟨t, ht, hcarried⟩ := carriedOut_of_waits hs' hwaits
  exact ⟨s', t, hs', hresult, not_carriedOut_of_nil hwritten, ht, hcarried⟩

end ThisConnect.Ui
