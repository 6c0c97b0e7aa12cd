/-
  ThisConnect.Auth.Expiry
  **THE TIMER STARTS TOO LATE.**

  Main result:
    • `prompts_end_in_time_iff` — while no ask has to wait for room in the
      channel, every ask has ended by its deadline; the first moment that
      passes while one waits makes it late under some behaviour of the clients,
      and no other moment does.
    • `ask_outlasts_timeout` — 256 events that no client reads hang the next ask
      for good.
-/
import ThisConnect.Auth.Broker

namespace ThisConnect.Auth.Broker

open Transition Places
open Ipc (PromptError PromptReply)

variable {config : Config} {now i : Nat} {a : Ask} {s : State}

/-! ## §1. Schedules. -/

/-- No ask has a step to take. -/
def Settled (config : Config) (s : State) : Prop := ∀ i m, step config s (.move i m) = none

def Phase.posting : Phase → Bool
  | .sending | .announcing => true
  | _ => false

/-- No ask waits for room in the outbound channel. -/
def Unblocked (config : Config) (s : State) : Prop :=
  s.closed = true ∨ s.hasRoom config = true ∨
    ∀ {i : Nat} {a : Ask}, s.asks[i]? = some a → a.phase.posting = false

/-- Every step is taken at once. -/
def Prompt (config : Config) (s : State) : Action → Prop
  | .tick => Settled config s
  | _ => True

/-- Moreover no time passes while an ask waits for room. -/
def Timely (config : Config) (s : State) : Action → Prop
  | .tick => Settled config s ∧ Unblocked config s
  | _ => True

/-- Nothing happens but that time passes and attempts are given up. -/
def Quiet (config : Config) (s : State) : Action → Prop
  | .tick => Settled config s
  | .drop _ => True
  | _ => False

/-- **Every ask has ended by its deadline.** -/
def InTime (config : Config) (s : State) : Prop :=
  ∀ {i : Nat} {a : Ask}, s.asks[i]? = some a → a.phase.ended = false →
    s.now ≤ a.calledAt + config.timeout

/-! ## §2. When each phase may last. -/

def OnTime (config : Config) (now : Nat) (a : Ask) : Prop :=
  match a.phase with
  | .called => now = a.calledAt
  | .drawn | .sending | .refused => now = a.calledAt ∧ a.id ≠ none
  | .waiting since => since = a.calledAt ∧ now ≤ since + config.timeout ∧ a.id ≠ none
  | .expired | .announcing => now = a.calledAt + config.timeout ∧ a.id ≠ none
  | .returned _ | .dropped => True

def Punctual (config : Config) (now : Nat) (asks : List Ask) : Prop :=
  ∀ a ∈ asks, OnTime config now a

theorem OnTime.le (h : OnTime config now a) (hactive : a.phase.ended = false) :
    now ≤ a.calledAt + config.timeout := by
  unfold OnTime at h
  split at h
  · omega
  · omega
  · omega
  · omega
  · omega
  · omega
  · omega
  · next hphase => exact absurd hactive (by simp [hphase, Phase.ended])
  · next hphase => exact absurd hactive (by simp [hphase, Phase.ended])

theorem OnTime.of_ended (h : a.phase.ended = true) : OnTime config now a := by
  unfold OnTime
  cases hphase : a.phase with
  | returned result => trivial
  | dropped => trivial
  | _ => rw [hphase] at h; cases h

theorem OnTime.congr {c : Ask} (h : OnTime config now a) (hphase : c.phase = a.phase)
    (hid : c.id = a.id) (hcalled : c.calledAt = a.calledAt) : OnTime config now c := by
  unfold OnTime at h ⊢
  rw [hphase, hid, hcalled]
  exact h

theorem OnTime.forget (id : String) (h : OnTime config now a) :
    OnTime config now (State.forget id a) := by
  unfold State.forget
  split
  · exact h.congr rfl rfl rfl
  · exact h

section Places

variable {asks : List Ask}

theorem Punctual.set (h : Punctual config now asks) (i : Nat) (ha : OnTime config now a) :
    Punctual config now (asks.set i a) := by
  intro c hc
  rcases List.mem_or_eq_of_mem_set hc with hc | rfl
  · exact h c hc
  · exact ha

theorem Punctual.map (h : Punctual config now asks) {f : Ask → Ask}
    (hf : ∀ c, OnTime config now c → OnTime config now (f c)) :
    Punctual config now (asks.map f) := by
  intro c hc
  obtain ⟨a, ha, rfl⟩ := List.mem_map.mp hc
  exact hf a (h a ha)

theorem Punctual.forget (h : Punctual config now asks) (id : String) :
    Punctual config now (asks.map (State.forget id)) :=
  h.map fun _ => OnTime.forget id

end Places

theorem Punctual.move {s' : State} {m : Move} (h : Punctual config s.now s.asks)
    (ha : OnTime config s.now a) (hmove : s.move config i a m = some s') :
    Punctual config s'.now s'.asks := by
  unfold OnTime at ha
  cases m with
  | draw =>
    simp only [State.move] at hmove
    split at hmove
    · next hphase =>
      injection hmove with hmove
      subst hmove
      rw [hphase] at ha
      have hdrawn : OnTime config s.now
          { a with id := some (promptId s.sequence), phase := .drawn } := ⟨ha, by simp⟩
      exact h.set i hdrawn
    · cases hmove
  | insert =>
    simp only [State.move] at hmove
    split at hmove
    · next id hphase hid =>
      injection hmove with hmove
      subst hmove
      rw [hphase] at ha
      have hsending : OnTime config s.now { a with phase := .sending, sender := .tabled } := ha
      exact (h.forget id).set i hsending
    · cases hmove
  | send =>
    simp only [State.move] at hmove
    split at hmove
    · next id hphase hid =>
      obtain ⟨_, ⟨⟩⟩ := some_of_guard hmove
      rw [hphase] at ha
      have hwaiting : OnTime config s.now { a with phase := .waiting s.now } :=
        ⟨ha.1, Nat.le_add_right _ _, ha.2⟩
      exact h.set i hwaiting
    · cases hmove
  | refuse =>
    simp only [State.move] at hmove
    split at hmove
    · next hphase =>
      obtain ⟨_, ⟨⟩⟩ := some_of_guard hmove
      rw [hphase] at ha
      have hrefused : OnTime config s.now { a with phase := .refused } := ha
      exact h.set i hrefused
    · cases hmove
  | withdraw =>
    simp only [State.move] at hmove
    split at hmove
    · next id hphase hid =>
      injection hmove with hmove
      subst hmove
      exact (h.set i (.of_ended rfl)).forget id
    · next id hphase hid =>
      injection hmove with hmove
      subst hmove
      rw [hphase] at ha
      have hannouncing : OnTime config s.now { a with phase := .announcing } := ha
      exact (h.set i hannouncing).forget id
    · cases hmove
  | receive | abandon =>
    simp only [State.move] at hmove
    split at hmove
    · injection hmove with hmove
      subst hmove
      exact h.set i (.of_ended rfl)
    · cases hmove
  | expire =>
    simp only [State.move] at hmove
    split at hmove
    · next since hphase =>
      obtain ⟨hdue, ⟨⟩⟩ := some_of_guard hmove
      rw [hphase] at ha
      obtain ⟨rfl, hle, hid⟩ := ha
      have hexpired : OnTime config s.now { a with phase := .expired } :=
        ⟨Nat.le_antisymm hle hdue, hid⟩
      exact h.set i hexpired
    · cases hmove
  | announce =>
    simp only [State.move] at hmove
    split at hmove
    · split at hmove
      · injection hmove with hmove
        subst hmove
        exact h.set i (.of_ended rfl)
      · obtain ⟨_, ⟨⟩⟩ := some_of_guard hmove
        exact h.set i (.of_ended rfl)
    · cases hmove

/-! ## §3. What a settled state looks like. -/

theorem settled_move (h : Settled config s) (ha : s.asks[i]? = some a) (m : Move) :
    s.move config i a m = none := by
  have hnone := h i m
  simp only [step, ha, Option.bind_some] at hnone
  exact hnone

theorem Settled.phase (h : Settled config s) (ha : s.asks[i]? = some a)
    (htime : OnTime config s.now a) : a.phase.ended = true ∨
    (∃ since, a.phase = .waiting since ∧ s.now < since + config.timeout) ∨
    (a.phase.posting = true ∧ s.closed = false ∧ s.hasRoom config = false) := by
  have hnone := settled_move h ha
  unfold OnTime at htime
  cases hphase : a.phase with
  | called =>
    have hdraw := hnone .draw
    simp [State.move, hphase] at hdraw
  | drawn =>
    rw [hphase] at htime
    obtain ⟨id, hid⟩ := Option.ne_none_iff_exists'.mp htime.2
    have hinsert := hnone .insert
    simp [State.move, hphase, hid] at hinsert
  | sending =>
    rw [hphase] at htime
    obtain ⟨id, hid⟩ := Option.ne_none_iff_exists'.mp htime.2
    have hsend := hnone .send
    have hrefuse := hnone .refuse
    simp only [State.move, hphase, hid] at hsend hrefuse
    refine .inr (.inr ⟨rfl, ?_⟩)
    cases hclosed : s.closed with
    | true => simp [hclosed] at hrefuse
    | false =>
      refine ⟨rfl, ?_⟩
      cases hroom : s.hasRoom config with
      | true => simp [hclosed, hroom] at hsend
      | false => rfl
  | refused =>
    rw [hphase] at htime
    obtain ⟨id, hid⟩ := Option.ne_none_iff_exists'.mp htime.2
    have hwithdraw := hnone .withdraw
    simp [State.move, hphase, hid] at hwithdraw
  | waiting since =>
    refine .inr (.inl ⟨since, rfl, ?_⟩)
    have hexpire := hnone .expire
    simp only [State.move, hphase] at hexpire
    split at hexpire
    · cases hexpire
    · next hdue => exact Nat.lt_of_not_le hdue
  | expired =>
    rw [hphase] at htime
    obtain ⟨id, hid⟩ := Option.ne_none_iff_exists'.mp htime.2
    have hwithdraw := hnone .withdraw
    simp [State.move, hphase, hid] at hwithdraw
  | announcing =>
    rw [hphase] at htime
    obtain ⟨id, hid⟩ := Option.ne_none_iff_exists'.mp htime.2
    have hannounce := hnone .announce
    simp only [State.move, hphase, hid] at hannounce
    refine .inr (.inr ⟨rfl, ?_⟩)
    cases hclosed : s.closed with
    | true => simp [hclosed] at hannounce
    | false =>
      refine ⟨rfl, ?_⟩
      cases hroom : s.hasRoom config with
      | true => simp [hclosed, hroom] at hannounce
      | false => rfl
  | returned result => exact .inl rfl
  | dropped => exact .inl rfl

theorem Settled.waiting (h : Settled config s) (hunblocked : Unblocked config s)
    (ha : s.asks[i]? = some a) (htime : OnTime config s.now a) :
    a.phase.ended = true ∨ ∃ since, a.phase = .waiting since ∧ s.now < since + config.timeout := by
  rcases h.phase ha htime with hended | hwaiting | ⟨hposting, hopen, hfull⟩
  · exact .inl hended
  · exact .inr hwaiting
  · rcases hunblocked with hclosed | hroom | hnone
    · exact absurd (hopen.symm.trans hclosed) (by decide)
    · exact absurd (hfull.symm.trans hroom) (by decide)
    · exact absurd (hposting.symm.trans (hnone ha)) (by decide)

/-! ## §4. Timely runs. -/

theorem OnTime.tick {since : Nat} (h : OnTime config now a) (hphase : a.phase = .waiting since)
    (hlt : now < since + config.timeout) : OnTime config (now + 1) a := by
  unfold OnTime at h ⊢
  rw [hphase] at h ⊢
  exact ⟨h.1, hlt, h.2.2⟩

theorem Punctual.tick (h : Punctual config s.now s.asks) (hsettled : Settled config s)
    (hunblocked : Unblocked config s) : Punctual config (s.now + 1) s.asks := by
  intro a hmem
  obtain ⟨i, ha⟩ := List.mem_iff_getElem?.mp hmem
  rcases hsettled.waiting hunblocked ha (h a hmem) with hended | ⟨since, hphase, hlt⟩
  · exact .of_ended hended
  · exact (h a hmem).tick hphase hlt

theorem Punctual.step {config : Config} {s s' : State} {act : Action}
    (h : Punctual config s.now s.asks) (htimely : Timely config s act)
    (hstep : step config s act = some s') : Punctual config s'.now s'.asks := by
  cases act with
  | call prompt =>
    injection hstep with hstep
    subst hstep
    intro a ha
    rcases List.mem_append.mp ha with ha | ha
    · exact h a ha
    · rw [List.mem_singleton] at ha
      subst ha
      rfl
  | move i m =>
    obtain ⟨a, ha, hmove⟩ := Option.bind_eq_some_iff.mp hstep
    exact h.move (h a (List.mem_of_getElem? ha)) hmove
  | drop i =>
    obtain ⟨a, ha, hdrop⟩ := Option.bind_eq_some_iff.mp hstep
    obtain ⟨_, ⟨⟩⟩ := some_of_guard hdrop
    exact h.set i (.of_ended rfl)
  | deliver id reply =>
    simp only [Broker.step] at hstep
    split at hstep
    · next i hlookup =>
      obtain ⟨a, ha, _, _⟩ := lookup_some hlookup
      injection hstep with hstep
      subst hstep
      dsimp only
      rw [modify_eq_set ha]
      exact h.set i ((h a (List.mem_of_getElem? ha)).congr rfl rfl rfl)
    · injection hstep with hstep
      subst hstep
      exact h
  | post k =>
    obtain ⟨d, hd, hpost⟩ := Option.bind_eq_some_iff.mp hstep
    split at hpost
    · next i hholding =>
      obtain ⟨a, ha, rfl⟩ := Option.map_eq_some_iff.mp hpost
      have hon := h a (List.mem_of_getElem? ha)
      split
      · exact h.set i (hon.congr rfl rfl rfl)
      · exact h.set i (hon.congr rfl rfl rfl)
    · cases hpost
  | withdrawAll =>
    injection hstep with hstep
    subst hstep
    refine h.map fun c hc => ?_
    split
    · exact hc.congr rfl rfl rfl
    · exact hc
  | notice =>
    simp only [Broker.step] at hstep
    split at hstep
    · cases hstep
    · split at hstep
      · cases hstep
        exact h
      · obtain ⟨_, ⟨⟩⟩ := some_of_guard hstep
        exact h
  | emit =>
    simp only [Broker.step] at hstep
    split at hstep
    · injection hstep with hstep
      exact hstep ▸ h
    · injection hstep with hstep
      exact hstep ▸ h
  | drain =>
    simp only [Broker.step] at hstep
    split at hstep
    · cases hstep
    · cases hstep
      exact h
  | close =>
    injection hstep with hstep
    exact hstep ▸ h
  | tick =>
    injection hstep with hstep
    subst hstep
    exact h.tick htimely.1 htimely.2

theorem punctual_of_timely (h : Reachable (step config) (Timely config) {} s) :
    Punctual config s.now s.asks :=
  Reachable.invariant (I := fun s => Punctual config s.now s.asks)
    (fun _ h => absurd h List.not_mem_nil)
    (fun _ _ _ ih htimely hstep => ih.step htimely hstep) h

theorem Punctual.inTime (h : Punctual config s.now s.asks) : InTime config s :=
  fun ha hactive => (h _ (List.mem_of_getElem? ha)).le hactive

/-! ## §5. At the deadline. -/

/-- The ask can be run to its end without time passing. -/
def EndsNow (config : Config) (i : Nat) (s : State) : Prop :=
  ∃ (moves : List Move) (t : State) (c : Ask),
    replay (step config) Anything s (moves.map (.move i)) = some t ∧ t.now = s.now ∧
      t.asks[i]? = some c ∧ c.phase.ended = true

theorem EndsNow.step {config : Config} {i : Nat} {s t : State} (m : Move)
    (hstep : step config s (.move i m) = some t) (hnow : t.now = s.now)
    (h : EndsNow config i t) : EndsNow config i s := by
  obtain ⟨moves, u, c, hrun, hu, hc, hended⟩ := h
  refine ⟨m :: moves, u, c, ?_, hu.trans hnow, hc, hended⟩
  rw [List.map_cons, replay_step trivial hstep]
  exact hrun

theorem endsNow_announcing (ha : s.asks[i]? = some a) (hphase : a.phase = .announcing)
    (hid : a.id ≠ none) (hroom : s.closed = true ∨ s.hasRoom config = true) :
    EndsNow config i s := by
  obtain ⟨id, hid⟩ := Option.ne_none_iff_exists'.mp hid
  have hset : (s.asks.set i { a with phase := .returned (.error .timedOut) })[i]? =
      some { a with phase := .returned (.error .timedOut) } := set_self ha
  cases hclosed : s.closed with
  | true =>
    refine .step .announce (t := s.setAsk i { a with phase := .returned (.error .timedOut) })
      ?_ rfl ⟨[], _, _, rfl, rfl, hset, rfl⟩
    simp [Broker.step, ha, State.move, hphase, hid, hclosed]
  | false =>
    have hroom' : s.hasRoom config = true := by simpa [hclosed] using hroom
    refine .step .announce
      (t := (s.setAsk i { a with phase := .returned (.error .timedOut) }).push
        (.promptCancelled id)) ?_ rfl ⟨[], _, _, rfl, rfl, hset, rfl⟩
    simp [Broker.step, ha, State.move, hphase, hid, hclosed, hroom']

theorem endsNow_expired (ha : s.asks[i]? = some a) (hphase : a.phase = .expired) (hid : a.id ≠ none)
    (hroom : s.closed = true ∨ s.hasRoom config = true) : EndsNow config i s := by
  obtain ⟨id, hsome⟩ := Option.ne_none_iff_exists'.mp hid
  refine .step .withdraw (t := (s.setAsk i { a with phase := .announcing }).remove id) ?_ rfl ?_
  · simp [Broker.step, ha, State.move, hphase, hsome]
  · have hget : ((s.asks.set i { a with phase := .announcing }).map (State.forget id))[i]? =
        some (State.forget id { a with phase := .announcing }) := by
      rw [List.getElem?_map, set_self ha]
      rfl
    refine endsNow_announcing hget ?_ ?_ hroom
    · unfold State.forget
      split <;> rfl
    · unfold State.forget
      split <;> exact hid

theorem endsNow_due {since : Nat} (ha : s.asks[i]? = some a) (hphase : a.phase = .waiting since)
    (hid : a.id ≠ none) (hdue : since + config.timeout ≤ s.now)
    (hroom : s.closed = true ∨ s.hasRoom config = true) : EndsNow config i s := by
  refine .step .expire (t := s.setAsk i { a with phase := .expired }) ?_ rfl ?_
  · simp [Broker.step, ha, State.move, hphase, hdue]
  · exact endsNow_expired (set_self ha) rfl hid hroom

theorem OnTime.endsNow (h : OnTime config s.now a) (ha : s.asks[i]? = some a)
    (hactive : a.phase.ended = false) (htimeout : 0 < config.timeout)
    (hnow : a.calledAt + config.timeout ≤ s.now)
    (hroom : s.closed = true ∨ s.hasRoom config = true) :
    EndsNow config i s := by
  unfold OnTime at h
  cases hphase : a.phase with
  | waiting since =>
    rw [hphase] at h
    obtain ⟨rfl, _, hid⟩ := h
    exact endsNow_due ha hphase hid hnow hroom
  | expired =>
    rw [hphase] at h
    exact endsNow_expired ha hphase h.2 hroom
  | announcing =>
    rw [hphase] at h
    exact endsNow_announcing ha hphase h.2 hroom
  | returned result => exact absurd hactive (by simp [hphase, Phase.ended])
  | dropped => exact absurd hactive (by simp [hphase, Phase.ended])
  | called =>
    rw [hphase] at h
    omega
  | drawn | sending | refused =>
    rw [hphase] at h
    obtain ⟨h, _⟩ := h
    omega

/-! ## §6. Waiting for room. -/

theorem move_ended (h : a.phase.ended = true) (m : Move) : s.move config i a m = none := by
  cases hphase : a.phase with
  | returned result => cases m <;> simp [State.move, hphase]
  | dropped => cases m <;> simp [State.move, hphase]
  | _ => rw [hphase] at h; cases h

theorem move_blocked (h : a.phase.posting = true) (hopen : s.closed = false)
    (hfull : s.hasRoom config = false) (m : Move) : s.move config i a m = none := by
  cases hphase : a.phase with
  | sending =>
    cases hid : a.id <;> cases m <;> simp [State.move, hphase, hid, hopen, hfull]
  | announcing =>
    cases hid : a.id <;> cases m <;> simp [State.move, hphase, hid, hopen, hfull]
  | _ => rw [hphase] at h; cases h

structure Stuck (config : Config) (i : Nat) (a : Ask) (s : State) : Prop where
  ask : s.asks[i]? = some a
  posting : a.phase.posting = true
  opened : s.closed = false
  full : s.hasRoom config = false
  others : ∀ {j : Nat} {c : Ask}, s.asks[j]? = some c → j ≠ i → c.phase.ended = true

theorem Stuck.settled (h : Stuck config i a s) : Settled config s := by
  intro j m
  simp only [step]
  cases hc : s.asks[j]? with
  | none => rfl
  | some c =>
    rw [Option.bind_some]
    by_cases hji : j = i
    · subst hji
      rw [h.ask] at hc
      injection hc with hc
      subst hc
      exact move_blocked h.posting h.opened h.full m
    · exact move_ended (h.others hc hji) m

theorem Stuck.ticks (h : Stuck config i a s) {allowed : State → Action → Prop}
    (hallowed : ∀ s, Settled config s → allowed s .tick) (n : Nat) :
    ∃ t, Reachable (step config) allowed s t ∧ Stuck config i a t ∧ t.now = s.now + n := by
  induction n with
  | zero => exact ⟨s, .init, h, rfl⟩
  | succ n ih =>
    obtain ⟨t, ht, hstuck, hnow⟩ := ih
    refine ⟨{ t with now := t.now + 1 }, .step ht (hallowed t hstuck.settled) rfl, ?_, ?_⟩
    · exact ⟨hstuck.ask, hstuck.posting, hstuck.opened, hstuck.full, hstuck.others⟩
    · show t.now + 1 = _
      rw [hnow]
      rfl

theorem drop_others (config : Config) (i : Nat) (s : State)
    (hawaiting : ∀ {j : Nat} {c : Ask}, s.asks[j]? = some c → j ≠ i →
      c.phase.ended = true ∨ c.phase.droppable = true) (n : Nat) :
    ∃ t, Reachable (step config) (Quiet config) s t ∧ t.now = s.now ∧ t.queue = s.queue ∧
      t.closed = s.closed ∧ t.asks.length = s.asks.length ∧ t.asks[i]? = s.asks[i]? ∧
      ∀ {j : Nat} {c : Ask}, t.asks[j]? = some c → j ≠ i →
        c.phase.ended = true ∨ (n ≤ j ∧ c.phase.droppable = true) := by
  induction n with
  | zero =>
    refine ⟨s, .init, rfl, rfl, rfl, rfl, rfl, fun hc hj => ?_⟩
    rcases hawaiting hc hj with hended | hdroppable
    · exact .inl hended
    · exact .inr ⟨Nat.zero_le _, hdroppable⟩
  | succ n ih =>
    obtain ⟨t, ht, hnow, hqueue, hclosed, hlength, hask, hothers⟩ := ih
    -- unless the n-th ask is to be given up, nothing has to be done
    by_cases hdrop : n ≠ i ∧ ∃ c : Ask, t.asks[n]? = some c ∧ c.phase.droppable = true
    · obtain ⟨hni, c, hc, hdroppable⟩ := hdrop
      have hstep : step config t (.drop n) = some (t.setAsk n { c with phase := .dropped }) := by
        simp [step, hc, hdroppable]
      have hquiet : Quiet config t (.drop n) := trivial
      refine ⟨_, .step ht hquiet hstep, hnow, hqueue, hclosed, ?_, ?_, fun {j e} he hj => ?_⟩
      · show (t.asks.set n _).length = _
        rw [List.length_set, hlength]
      · show (t.asks.set n _)[i]? = _
        rw [List.getElem?_set_ne hni, hask]
      · rcases set_cases he with ⟨_, rfl⟩ | ⟨hjn, he⟩
        · exact .inl rfl
        · rcases hothers he hj with hended | ⟨hle, hdroppable⟩
          · exact .inl hended
          · exact .inr ⟨Nat.lt_of_le_of_ne hle (Ne.symm hjn), hdroppable⟩
    · refine ⟨t, ht, hnow, hqueue, hclosed, hlength, hask, fun {j e} he hj => ?_⟩
      rcases hothers he hj with hended | ⟨hle, hdroppable⟩
      · exact .inl hended
      · refine .inr ⟨Nat.lt_of_le_of_ne hle ?_, hdroppable⟩
        rintro rfl
        exact hdrop ⟨hj, e, he, hdroppable⟩

theorem Settled.droppable (h : Settled config s) (hpunctual : Punctual config s.now s.asks)
    (ha : s.asks[i]? = some a) : a.phase.ended = true ∨ a.phase.droppable = true := by
  rcases h.phase ha (hpunctual a (List.mem_of_getElem? ha)) with hended | ⟨since, hphase, _⟩ |
    ⟨hposting, _⟩
  · exact .inl hended
  · exact .inr (by simp [hphase, Phase.droppable])
  · right
    cases hphase : a.phase with
    | sending => rfl
    | announcing => rfl
    | _ => rw [hphase] at hposting; cases hposting

theorem late_of_blocked (hsettled : Settled config s) (hpunctual : Punctual config s.now s.asks)
    (hblocked : ¬ Unblocked config s) :
    ∃ t, Reachable (step config) (Quiet config) { s with now := s.now + 1 } t ∧
      ¬ InTime config t := by
  simp only [Unblocked, not_or, Bool.not_eq_true, not_forall] at hblocked
  obtain ⟨hopen, hfull, i, a, ha, hposting⟩ := hblocked
  rw [Bool.not_eq_false] at hposting
  obtain ⟨t, ht, hnow, hqueue, hclosed, hlength, hask, hothers⟩ :=
    drop_others config i { s with now := s.now + 1 }
      (fun hc _ => hsettled.droppable hpunctual hc) s.asks.length
  have hstuck : Stuck config i a t := by
    refine ⟨hask.trans ha, hposting, hclosed.trans hopen, ?_, fun {j c} hc hj => ?_⟩
    · rw [State.hasRoom, hqueue]
      exact hfull
    · rcases hothers hc hj with hended | ⟨hle, _⟩
      · exact hended
      · have hlt := (List.getElem?_eq_some_iff.mp hc).1
        rw [hlength] at hlt
        exact absurd hlt (Nat.not_lt.mpr hle)
  have hquiet : ∀ s, Settled config s → Quiet config s .tick := fun _ h => h
  obtain ⟨u, hu, hstuck', hnow'⟩ := hstuck.ticks hquiet (a.calledAt + config.timeout)
  refine ⟨u, ht.trans hu, fun hintime => ?_⟩
  have hactive : a.phase.ended = false := by
    cases hphase : a.phase with
    | returned result => rw [hphase] at hposting; cases hposting
    | dropped => rw [hphase] at hposting; cases hposting
    | _ => rfl
  have hle := hintime hstuck'.ask hactive
  rw [hnow', hnow] at hle
  change s.now + 1 + (a.calledAt + config.timeout) ≤ _ at hle
  omega

/-! ## §7. The deadline and the channel. -/

def Waiting (config : Config) (s : State) : Prop :=
  Punctual config s.now s.asks ∧
    ∀ a ∈ s.asks, a.phase.ended = true ∨ ∃ since, a.phase = .waiting since

theorem Waiting.unblocked (h : Waiting config s) : Unblocked config s := by
  refine .inr (.inr fun ha => ?_)
  rcases h.2 _ (List.mem_of_getElem? ha) with hended | ⟨since, hphase⟩
  · cases hphase : (_ : Ask).phase with
    | returned result => rfl
    | dropped => rfl
    | _ => rw [hphase] at hended; cases hended
  · rw [hphase]
    rfl

theorem Waiting.step {config : Config} {s s' : State} {act : Action} (h : Waiting config s)
    (hquiet : Quiet config s act) (hstep : step config s act = some s') : Waiting config s' := by
  cases act with
  | tick =>
    have htimely : Timely config s .tick := ⟨hquiet, h.unblocked⟩
    refine ⟨h.1.step htimely hstep, ?_⟩
    injection hstep with hstep
    subst hstep
    exact h.2
  | drop i =>
    have htimely : Timely config s (.drop i) := trivial
    refine ⟨h.1.step htimely hstep, ?_⟩
    obtain ⟨a, ha, hdrop⟩ := Option.bind_eq_some_iff.mp hstep
    obtain ⟨_, ⟨⟩⟩ := some_of_guard hdrop
    intro c hc
    rcases List.mem_or_eq_of_mem_set hc with hc | rfl
    · exact h.2 c hc
    · exact .inl rfl
  | _ => exact hquiet.elim

/-- **Asks end in time exactly while none has to wait for room in the channel.**  In a timely run
    every ask has ended by its deadline, or ends there at once if there is room; and the next
    moment to pass leaves it so, whatever attempts are given up, exactly when no ask waits for
    room. -/
theorem prompts_end_in_time_iff (config : Config) (s : State)
    (hs : Reachable (step config) (Timely config) {} s) :
    InTime config s ∧
    (∀ {i : Nat} {a : Ask}, s.asks[i]? = some a → a.phase.ended = false → 0 < config.timeout →
      a.calledAt + config.timeout ≤ s.now → s.closed = true ∨ s.hasRoom config = true →
        EndsNow config i s) ∧
    ∀ s', Settled config s → step config s .tick = some s' →
      ((∀ t, Reachable (step config) (Quiet config) s' t → InTime config t) ↔
        Unblocked config s) := by
  have hpunctual := punctual_of_timely hs
  refine ⟨hpunctual.inTime, ?_, ?_⟩
  · intro i a ha hactive htimeout hnow hroom
    exact (hpunctual a (List.mem_of_getElem? ha)).endsNow ha hactive htimeout hnow hroom
  · intro s' hsettled hstep
    injection hstep with hstep
    subst hstep
    constructor
    · intro hall
      by_contra hblocked
      obtain ⟨t, ht, hlate⟩ := late_of_blocked hsettled hpunctual hblocked
      exact hlate (hall t ht)
    · intro hunblocked t ht
      have hwaiting : Waiting config { s with now := s.now + 1 } := by
        refine ⟨hpunctual.tick hsettled hunblocked, fun a hmem => ?_⟩
        obtain ⟨i, ha⟩ := List.mem_iff_getElem?.mp hmem
        rcases hsettled.waiting hunblocked ha (hpunctual a hmem) with hended | ⟨since, hphase, _⟩
        · exact .inl hended
        · exact .inr ⟨since, hphase⟩
      have hend : Waiting config t := Reachable.invariant (I := Waiting config) hwaiting
        (fun _ _ _ ih hquiet hstep => ih.step hquiet hstep) ht
      intro i a ha hactive
      exact hend.1.inTime ha hactive

def promptedAsk : Ask :=
  { prompt := .usernamePassword "p1" none, calledAt := 0, id := some (promptId 1),
    phase := .waiting 0, sender := .tabled }

def prompted : State :=
  { sequence := 2, asks := [promptedAsk], issued := [promptId 1],
    queue := [.prompt (promptId 1) promptedAsk.prompt] }

theorem reachable_prompted (config : Config) (hcapacity : 0 < config.capacity) :
    Reachable (step config) (Timely config) {} prompted := by
  have hroom : State.hasRoom config {} = true := by simpa [State.hasRoom] using hcapacity
  refine .step (.step (.step (.step .init trivial (a := .call promptedAsk.prompt) rfl)
    trivial (a := .move 0 .draw) rfl) trivial (a := .move 0 .insert) rfl)
    trivial (a := .move 0 .send) ?_
  exact if_pos ⟨rfl, hroom⟩

/-- It is answered by no one, and the timer ends it. -/
theorem prompts_end_in_time_iff_unanswered :
    Settled ⟨1, 256⟩ prompted ∧
    (∀ t, Reachable (step ⟨1, 256⟩) (Quiet ⟨1, 256⟩) { prompted with now := 1 } t →
      InTime ⟨1, 256⟩ t) ∧
    InTime ⟨1, 256⟩ { prompted with now := 1 } ∧
    EndsNow ⟨1, 256⟩ 0 { prompted with now := 1 } := by
  have hsettled : Settled ⟨1, 256⟩ prompted := by
    intro i m
    cases i with
    | zero => cases m <;> rfl
    | succ i => rfl
  have hunblocked : Unblocked ⟨1, 256⟩ prompted := .inr (.inl rfl)
  have hs := reachable_prompted ⟨1, 256⟩ (by decide)
  have hnext : Reachable (step ⟨1, 256⟩) (Timely ⟨1, 256⟩) {} { prompted with now := 1 } :=
    .step hs (a := .tick) ⟨hsettled, hunblocked⟩ rfl
  obtain ⟨_, _, hmoment⟩ := prompts_end_in_time_iff ⟨1, 256⟩ prompted hs
  obtain ⟨hinTime, hends, _⟩ := prompts_end_in_time_iff ⟨1, 256⟩ _ hnext
  exact ⟨hsettled, (hmoment _ hsettled rfl).mpr hunblocked, hinTime,
    hends (i := 0) (a := promptedAsk) rfl rfl (by decide) (by decide) (.inr rfl)⟩

/-! ## §8. A GUI that went away. -/

/-- Events that no client reads. -/
def flooded (n : Nat) : State := { queue := List.replicate n .event }

theorem reachable_flooded (config : Config) (n : Nat) (h : n ≤ config.capacity) :
    Reachable (step config) (Prompt config) {} (flooded n) := by
  induction n with
  | zero => exact .init
  | succ n ih =>
    refine .step (ih (Nat.le_of_succ_le h)) trivial (a := .emit) ?_
    have hroom : (flooded n).hasRoom config = true := by
      simpa [State.hasRoom, flooded] using h
    show (if _ then _ else _) = _
    rw [if_pos ⟨rfl, hroom⟩, State.push, flooded, flooded, List.replicate_succ']

def hangingAsk : Ask :=
  { prompt := .usernamePassword "p1" none, calledAt := 0, id := some (promptId 1),
    phase := .sending, sender := .tabled }

def hanging (n : Nat) : State :=
  { flooded n with sequence := 2, asks := [hangingAsk], issued := [promptId 1] }

theorem hanging_full (timeout n : Nat) : (hanging n).hasRoom ⟨timeout, n⟩ = false := by
  simp [State.hasRoom, hanging, flooded]

/-- **With no client to drain the channel, 256 events and a prompt hang the ask for good.** -/
theorem ask_outlasts_timeout : ∃ a : Ask, a.calledAt = 0 ∧ a.phase = .sending ∧
    ∀ n : Nat, ∃ s : State, Reachable (step ⟨120, 256⟩) (Prompt ⟨120, 256⟩) {} s ∧ s.now = n ∧
      s.asks[0]? = some a := by
  refine ⟨hangingAsk, rfl, rfl, fun n => ?_⟩
  have hs : Reachable (step ⟨120, 256⟩) (Prompt ⟨120, 256⟩) {} (hanging 256) :=
    .step (.step (.step (reachable_flooded ⟨120, 256⟩ 256 (Nat.le_refl _))
      trivial (a := .call hangingAsk.prompt) rfl) trivial (a := .move 0 .draw) rfl)
      trivial (a := .move 0 .insert) rfl
  have hstuck : Stuck ⟨120, 256⟩ 0 hangingAsk (hanging 256) := by
    refine ⟨rfl, rfl, rfl, hanging_full 120 256, fun {j c} hc hj => ?_⟩
    cases j with
    | zero => exact absurd rfl hj
    | succ j => cases hc
  have hprompt : ∀ s, Settled ⟨120, 256⟩ s → Prompt ⟨120, 256⟩ s .tick := fun _ h => h
  obtain ⟨t, ht, hstuck, hnow⟩ := hstuck.ticks hprompt n
  exact ⟨t, hs.trans ht, hnow.trans (Nat.zero_add n), hstuck.ask⟩

end ThisConnect.Auth.Broker
