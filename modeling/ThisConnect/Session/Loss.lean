/-
  ThisConnect.Session.Loss
  **NOTICING THAT THE TUNNEL IS NOT THE ONE THAT WAS SET UP.**

  Main result:
    • `loss_noticed` — in every fair execution without those two, a tunnel
      that is no longer the one that was set up is torn down.
-/
import ThisConnect.Base.Fairness
import ThisConnect.Mgmt.Tunnel

namespace ThisConnect.Session.Loss

open Transition Mgmt

/-! ## §1. The session and the management feed. -/

inductive Stage where
  | authenticating
  | installing (identity : TunnelIdentity) (generation : Nat)
  | starting (identity : TunnelIdentity) (generation : Nat)
  | watching (identity : TunnelIdentity) (generation : Nat) (baseline seen : Nat)
  | losing (identity : TunnelIdentity) (generation : Nat)
  | down
  deriving DecidableEq, Repr

structure System where
  tracker : TunnelTracker := {}
  sink : Sink := {}
  closed : Bool := false
  stage : Stage := .authenticating
  deriving DecidableEq, Repr

inductive Move where
  | ready
  | abandon
  | start
  | baseline
  | check
  | tearDown
  | disconnect
  deriving DecidableEq, Repr

def Stage.move (sink : Sink) (closed : Bool) : Stage → Move → Option Stage
  | .authenticating, .ready =>
    if sink.state.connected then
      sink.state.identity.map (.installing · sink.state.generation)
    else none
  | .authenticating, .abandon | .installing _ _, .abandon => some .down
  | .installing identity generation, .start => some (.starting identity generation)
  | .starting identity generation, .baseline =>
    some (.watching identity generation sink.state.generation 0)
  | .watching identity generation baseline seen, .check =>
    if seen ≠ sink.version then
      if !sink.state.connected || sink.state.generation != baseline then
        some (.losing identity generation)
      else some (.watching identity generation baseline sink.version)
    else if closed then some (.losing identity generation)
    else none
  | .losing _ _, .tearDown => some .down
  | .starting _ _, .disconnect | .watching _ _ _ _, .disconnect | .losing _ _, .disconnect =>
    some .down
  | _, _ => none

inductive Action where
  | observe (event : Event)
  | exit
  | move (move : Move)
  deriving DecidableEq, Repr

def System.exit (s : System) (sink : Sink) : System :=
  { s with sink := sink.publishDisconnected, closed := true }

def step (s : System) : Action → Option System
  | .observe event =>
    if s.closed then none
    else
      match observeAndPublish s.tracker event s.sink with
      | (.ok tracker, sink) => some { s with tracker, sink }
      | (.error _, sink) => some (s.exit sink)
  | .exit => if s.closed then none else some (s.exit s.sink)
  | .move move => (s.stage.move s.sink s.closed move).map fun stage => { s with stage }

/-! ## §2. The claim and its condition. -/

def Stage.promised : Stage → Option (TunnelIdentity × Nat)
  | .installing identity generation | .starting identity generation
  | .watching identity generation _ _ | .losing identity generation => some (identity, generation)
  | .authenticating | .down => none

def Stage.unwatched : Stage → Bool
  | .installing _ _ | .starting _ _ => true
  | _ => false

/-- The published tunnel is not the connected one that was set up. -/
def Disturbed (s : System) : Prop :=
  ∃ identity generation, s.stage.promised = some (identity, generation) ∧
    s.sink.state ≠ ⟨true, some identity, generation⟩

/-- While the tunnel that was set up is connected its identity is neither lost nor replaced; until
    the supervisor has started no new connection is announced; and the generation can still grow. -/
structure Plain (s : System) (event : Event) (identity : TunnelIdentity) (generation : Nat) :
    Prop where
  identity_kept : s.tracker.connected = true → s.sink.state.generation = generation →
    event ≠ .upDown .down ∧
    (event = .upDown .envEnd → s.tracker.updown.inUpBlock = true →
      ∀ other, s.tracker.updown.finish = .ok (.up other) → other = identity)
  not_reentered : s.stage.unwatched = true → s.tracker.connected = false →
    ∀ state, event = .state state → state.isConnected = false
  grows : generation < maxGeneration

def names (collector : UpDownCollector) (identity : TunnelIdentity) : Bool :=
  match collector.finish with
  | .ok (.up other) => other != identity
  | _ => false

/-- The event announces a connection. -/
def announces : Event → Bool
  | .state state => state.isConnected
  | _ => false

instance (s : System) (event : Event) (identity : TunnelIdentity) (generation : Nat) :
    Decidable (Plain s event identity generation) :=
  decidable_of_iff
    ((s.tracker.connected = true → s.sink.state.generation = generation →
        event ≠ .upDown .down ∧
        (event = .upDown .envEnd → s.tracker.updown.inUpBlock = true →
          names s.tracker.updown identity = false)) ∧
      (s.stage.unwatched = true → s.tracker.connected = false → announces event = false) ∧
      generation < maxGeneration)
    ⟨fun ⟨hkept, hnot, hgrows⟩ =>
        { identity_kept := fun hc hg => ⟨(hkept hc hg).1, fun he hb other hf => by
            have := (hkept hc hg).2 he hb
            simpa [names, hf] using this⟩
          not_reentered := fun hu hc state he => by
            have := hnot hu hc
            rwa [he] at this
          grows := hgrows },
      fun h => ⟨fun hc hg => ⟨(h.identity_kept hc hg).1, fun he hb => by
          unfold names
          split
          · next other hf => simpa using (h.identity_kept hc hg).2 he hb other hf
          · rfl⟩,
        fun hu hc => by
          unfold announces
          split
          · next state => exact h.not_reentered hu hc state rfl
          · rfl, h.grows⟩⟩

/-- Every event that comes after `authenticate` returned is a plain one. -/
def Steady (s : System) : Action → Prop
  | .observe event => ∀ identity generation,
      s.stage.promised = some (identity, generation) → Plain s event identity generation
  | _ => True

instance (s : System) (a : Action) : Decidable (Steady s a) :=
  match a with
  | .observe event =>
    decidable_of_iff
      ((s.stage.promised.all fun (identity, generation) =>
        decide (Plain s event identity generation)) = true)
      ⟨fun h identity generation hp => by simpa [hp] using h,
        fun h => by
          cases hp : s.stage.promised with
          | none => rfl
          | some promise => simpa using h promise.1 promise.2 hp⟩
  | .exit | .move _ => isTrue trivial

/-- Scheduling is fair to the connect path, the supervisor and the teardown. -/
def Fairly (σ : Execution System Action) : Prop :=
  ∀ move ∈ [Move.start, .baseline, .check, .tearDown], σ.Fair step (.move move)

/-! ## §3. What holds along a steady run. -/

structure Feed (s : System) : Prop where
  live : s.closed = false → Synced s.tracker s.sink
  ended : s.closed = true → s.sink.state.connected = false

structure Kept (s : System) (identity : TunnelIdentity) (generation : Nat) : Prop where
  version_pos : 0 < s.sink.version
  generation_le : generation ≤ s.sink.state.generation
  identity_eq : s.sink.state.connected = true → s.sink.state.generation = generation →
    s.sink.state.identity = some identity

/-- What the supervisor, or what comes before it, relies on. -/
def Stage.Sound (sink : Sink) : Stage → Prop
  | .installing _ generation | .starting _ generation => sink.state.generation = generation
  | .watching _ generation baseline seen =>
    baseline = generation ∧ seen ≤ sink.version ∧
      (seen = sink.version → sink.state.connected = true ∧ sink.state.generation = generation)
  | .authenticating | .losing _ _ | .down => True

structure Inv (s : System) : Prop where
  feed : Feed s
  connected_pos : s.sink.state.connected = true → 0 < s.sink.version
  kept : ∀ identity generation, s.stage.promised = some (identity, generation) →
    Kept s identity generation
  sound : s.stage.Sound s.sink

theorem Inv.init : Inv {} where
  feed := ⟨fun _ => ⟨rfl, rfl⟩, fun h => by cases h⟩
  connected_pos := fun h => by cases h
  kept := fun _ _ h => by cases h
  sound := trivial

structure Evolves (sink sink' : Sink) : Prop where
  version : sink' = sink ∨ sink'.version = sink.version + 1
  generation : (sink'.state.generation = sink.state.generation ∧
      (sink'.state.connected = true → sink.state.connected = true)) ∨
    (sink.state.connected = false ∧ sink'.state.connected = true ∧
      sink'.state.generation = min (sink.state.generation + 1) maxGeneration)

variable {sink sink' : Sink} {s s' : System} {stage : Stage}

theorem evolves_of_advanced {tracker : TunnelTracker}
    (hstate : sink'.state = sink.state.advancedTo tracker)
    (hversion : sink' = sink ∨ sink'.version = sink.version + 1) : Evolves sink sink' := by
  refine ⟨hversion, ?_⟩
  rw [hstate]
  simp only [TunnelState.advancedTo]
  cases htracker : tracker.connected with
  | false => exact .inl ⟨by simp, fun h => by cases h⟩
  | true =>
    cases hbefore : sink.state.connected with
    | false => exact .inr ⟨rfl, rfl, by simp⟩
    | true => exact .inl ⟨by simp, fun _ => rfl⟩

theorem evolves_publish (sink : Sink) (tracker : TunnelTracker) :
    Evolves sink (sink.publish tracker) :=
  evolves_of_advanced (sink.publish_state tracker) (sink.publish_version tracker)

theorem observe_effect {event : Event} (hfeed : Feed s) (h : step s (.observe event) = some s') :
    Feed s' ∧ s'.stage = s.stage ∧ Evolves s.sink s'.sink ∧
    ∀ identity generation, Plain s event identity generation →
      (s.sink.state.connected = true → s.sink.state.generation = generation →
        s.sink.state.identity = some identity → s'.sink.state.connected = true →
        s'.sink.state.identity = some identity) ∧
      (s.stage.unwatched = true → s.sink.state.connected = false →
        s'.sink.state.connected = false) := by
  simp only [step] at h
  split at h
  · exact absurd h (by simp)
  next hopen =>
  have hclosed : s.closed = false := by simpa using hopen
  have hsynced := hfeed.live hclosed
  split at h
  · next tracker sink hobserve =>
    injection h with h
    subst h
    obtain ⟨hobserved, hsynced', hstate, hversion⟩ := observeAndPublish_ok hsynced hobserve
    refine ⟨⟨fun _ => hsynced', fun hc => ?_⟩, rfl, evolves_of_advanced hstate hversion, ?_⟩
    · exact absurd hc (by simp [hclosed])
    intro identity generation hplain
    constructor
    · intro hconnected hgeneration hidentity hconnected'
      have hbefore : s.tracker.connected = true := hsynced.connected ▸ hconnected
      have hnext : tracker.connected = true := hsynced'.connected ▸ hconnected'
      obtain ⟨hnotdown, hblock⟩ := hplain.identity_kept hbefore hgeneration
      rw [hsynced'.identity]
      cases hobserved with
      | same _ hsame => rw [hsame, ← hsynced.identity]; exact hidentity
      | lost hline => exact absurd hline hnotdown
      | learned other hline hup hfinish _ hother =>
        rw [hother, hblock hline hup other hfinish]
      | left _ hdown => exact absurd hdown (by simp [hnext])
      | entered hnot => exact absurd hbefore (by simp [hnot])
    · intro hunwatched hdown
      have hbefore : s.tracker.connected = false := hsynced.connected ▸ hdown
      have hline := hplain.not_reentered hunwatched hbefore
      show sink.state.connected = false
      rw [hsynced'.connected]
      cases hobserved with
      | same hsame => exact hsame.trans hbefore
      | lost _ hsame => exact hsame.trans hbefore
      | learned _ _ _ _ hsame => exact hsame.trans hbefore
      | left _ hleft => exact hleft
      | entered _ _ state hstateline hin =>
        exact absurd hin (by simp [hline state hstateline])
  · next sink hobserve =>
    injection h with h
    subst h
    have hsink : sink = s.sink.publishDisconnected := by
      unfold observeAndPublish at hobserve
      split at hobserve
      · simp at hobserve
      · simp at hobserve
      · exact (congrArg Prod.snd hobserve).symm
    have hdown : ∀ k : Sink, k.publishDisconnected.state.connected = false := fun k => by
      rw [Sink.publishDisconnected, Sink.publish_state]; rfl
    have htwice : sink.publishDisconnected = s.sink.publishDisconnected := by
      rw [hsink]
      have hsynced' : Synced {} s.sink.publishDisconnected := by
        constructor <;> rw [Sink.publishDisconnected, Sink.publish_state] <;> rfl
      conv_lhs => rw [Sink.publishDisconnected, Sink.publish]
      rw [if_pos (advancedTo_synced hsynced')]
    refine ⟨⟨fun hc => (by cases hc), fun _ => hdown sink⟩, rfl, ?_, ?_⟩
    · show Evolves s.sink sink.publishDisconnected
      rw [htwice]
      exact evolves_publish s.sink {}
    · intro identity generation _
      refine ⟨fun _ _ _ hconnected' => ?_, fun _ _ => hdown sink⟩
      exact absurd hconnected' (by simp [System.exit, hdown])

theorem exit_effect (h : step s .exit = some s') :
    Feed s' ∧ s'.stage = s.stage ∧ Evolves s.sink s'.sink ∧ s'.sink.state.connected = false := by
  simp only [step] at h
  obtain ⟨_, ⟨⟩⟩ := some_of_unless h
  have hdown : (s.exit s.sink).sink.state.connected = false := by
    show (s.sink.publish {}).state.connected = false
    rw [Sink.publish_state]; rfl
  exact ⟨⟨fun hc => (by cases hc), fun _ => hdown⟩, rfl, evolves_publish s.sink {}, hdown⟩

theorem Evolves.version_le (h : Evolves sink sink') : sink.version ≤ sink'.version := by
  rcases h.version with rfl | hversion
  · exact Nat.le_refl _
  · omega

theorem Evolves.generation_cases (h : Evolves sink sink') {generation : Nat}
    (hle : generation ≤ sink.state.generation) (hgrows : generation < maxGeneration) :
    (sink'.state.generation = sink.state.generation ∧
      (sink'.state.connected = true → sink.state.connected = true)) ∨
    (sink.state.connected = false ∧ generation < sink'.state.generation) := by
  rcases h.generation with hsame | ⟨hbefore, _, hgeneration⟩
  · exact .inl hsame
  · exact .inr ⟨hbefore, by omega⟩

theorem Inv.of_evolves (h : Inv s) (hfeed : Feed s') (hstage : s'.stage = s.stage)
    (hevolves : Evolves s.sink s'.sink)
    (hplain : ∀ identity generation, s.stage.promised = some (identity, generation) →
      (s'.sink.state.connected = true → generation < maxGeneration) ∧
      (s.sink.state.connected = true → s.sink.state.generation = generation →
        s.sink.state.identity = some identity → s'.sink.state.connected = true →
        s'.sink.state.identity = some identity) ∧
      (s.stage.unwatched = true → s.sink.state.connected = false →
        s'.sink.state.connected = false)) :
    Inv s' where
  feed := hfeed
  connected_pos := by
    intro hconnected
    rcases hevolves.version with hsame | hversion
    · rw [hsame] at hconnected ⊢
      exact h.connected_pos hconnected
    · omega
  kept := by
    intro identity generation hpromised
    rw [hstage] at hpromised
    have hkept := h.kept identity generation hpromised
    obtain ⟨hgrows, hidentity, _⟩ := hplain identity generation hpromised
    refine ⟨Nat.lt_of_lt_of_le hkept.version_pos hevolves.version_le, ?_, ?_⟩
    · rcases hevolves.generation with ⟨hsame, _⟩ | ⟨_, hconnected, hgeneration⟩
      · rw [hsame]; exact hkept.generation_le
      · have := hgrows hconnected
        have := hkept.generation_le
        omega
    · intro hconnected hgeneration
      rcases hevolves.generation_cases hkept.generation_le (hgrows hconnected) with
        ⟨hsame, hbefore⟩ | ⟨_, hlt⟩
      · rw [hsame] at hgeneration
        exact hidentity (hbefore hconnected) hgeneration
          (hkept.identity_eq (hbefore hconnected) hgeneration) hconnected
      · omega
  sound := by
    have hsound := h.sound
    rw [hstage]
    have hunwatched : ∀ identity generation,
        s.stage.promised = some (identity, generation) → s.stage.unwatched = true →
        s.sink.state.generation = generation → s'.sink.state.generation = generation := by
      intro identity generation hpromised hstill hgeneration
      obtain ⟨_, _, hnot⟩ := hplain identity generation hpromised
      rcases hevolves.generation with ⟨hsame, _⟩ | ⟨hbefore, hafter, _⟩
      · rw [hsame]; exact hgeneration
      · rw [hnot hstill hbefore] at hafter
        exact absurd hafter (by simp)
    cases hs : s.stage with
    | authenticating => trivial
    | losing identity generation => trivial
    | down => trivial
    | installing identity generation =>
      rw [hs] at hsound hunwatched
      exact hunwatched identity generation rfl rfl hsound
    | starting identity generation =>
      rw [hs] at hsound hunwatched
      exact hunwatched identity generation rfl rfl hsound
    | watching identity generation baseline seen =>
      rw [hs] at hsound
      obtain ⟨hbaseline, hseen, hchecked⟩ := hsound
      refine ⟨hbaseline, Nat.le_trans hseen hevolves.version_le, fun heq => ?_⟩
      rcases hevolves.version with hsame | hversion
      · rw [hsame] at heq ⊢
        exact hchecked heq
      · omega

/-- What a session's move can be. -/
inductive Moved (sink : Sink) : Stage → Stage → Prop where
  | ended (stage : Stage) : Moved sink stage .down
  | returned (identity : TunnelIdentity) (connected : sink.state.connected = true)
      (published : sink.state.identity = some identity) :
      Moved sink .authenticating (.installing identity sink.state.generation)
  | committed (identity : TunnelIdentity) (generation : Nat) :
      Moved sink (.installing identity generation) (.starting identity generation)
  | began (identity : TunnelIdentity) (generation : Nat) :
      Moved sink (.starting identity generation)
        (.watching identity generation sink.state.generation 0)
  | noticed (identity : TunnelIdentity) (generation baseline seen : Nat) :
      Moved sink (.watching identity generation baseline seen) (.losing identity generation)
  | satisfied (identity : TunnelIdentity) (generation baseline seen : Nat)
      (connected : sink.state.connected = true) (same : sink.state.generation = baseline) :
      Moved sink (.watching identity generation baseline seen)
        (.watching identity generation baseline sink.version)

theorem moved_of_move {closed : Bool} {stage' : Stage} {m : Move}
    (h : stage.move sink closed m = some stage') : Moved sink stage stage' := by
  unfold Stage.move at h
  split at h
  · obtain ⟨hconnected, h⟩ := some_of_guard h
    obtain ⟨identity, hidentity, rfl⟩ := Option.map_eq_some_iff.mp h
    exact .returned identity hconnected hidentity
  · injection h with h; subst h; exact .ended _
  · injection h with h; subst h; exact .ended _
  · injection h with h; subst h; exact .committed _ _
  · injection h with h; subst h; exact .began _ _
  · split at h
    · split at h
      · injection h with h; subst h; exact .noticed _ _ _ _
      · next hfine =>
        injection h with h
        subst h
        simp only [Bool.or_eq_true, Bool.not_eq_true', bne_iff_ne, not_or, Bool.not_eq_false,
          not_not] at hfine
        exact .satisfied _ _ _ _ hfine.1 hfine.2
    · obtain ⟨_, h⟩ := some_of_guard h
      injection h with h; subst h; exact .noticed _ _ _ _
  · injection h with h; subst h; exact .ended _
  · injection h with h; subst h; exact .ended _
  · injection h with h; subst h; exact .ended _
  · injection h with h; subst h; exact .ended _
  · exact absurd h (by simp)

theorem Inv.of_move (h : Inv s) (hmoved : Moved s.sink s.stage stage) : Inv { s with stage } := by
  have hfeed : Feed { s with stage } := ⟨h.feed.live, h.feed.ended⟩
  have hkept : ∀ identity generation, s.stage.promised = some (identity, generation) →
      Kept { s with stage } identity generation := fun identity generation hp =>
    have hold := h.kept identity generation hp
    ⟨hold.version_pos, hold.generation_le, hold.identity_eq⟩
  have hsound := h.sound
  generalize s.stage = old at hmoved hkept hsound
  cases hmoved with
  | ended => exact ⟨hfeed, h.connected_pos, fun _ _ hp => (by cases hp), trivial⟩
  | returned identity hconnected hidentity =>
    refine ⟨hfeed, h.connected_pos, ?_, rfl⟩
    rintro i g ⟨⟩
    exact ⟨h.connected_pos hconnected, Nat.le_refl _, fun _ _ => hidentity⟩
  | committed identity generation => exact ⟨hfeed, h.connected_pos, hkept, hsound⟩
  | began identity generation =>
    refine ⟨hfeed, h.connected_pos, hkept, hsound, Nat.zero_le _, ?_⟩
    intro hzero
    have hpos := (hkept identity generation rfl).version_pos
    exact absurd hzero (Nat.ne_of_lt hpos)
  | noticed identity generation baseline seen =>
    exact ⟨hfeed, h.connected_pos, hkept, trivial⟩
  | satisfied identity generation baseline seen hconnected hsame =>
    obtain ⟨hbaseline, _, _⟩ := hsound
    exact ⟨hfeed, h.connected_pos, hkept, hbaseline, Nat.le_refl _,
      fun _ => ⟨hconnected, hsame.trans hbaseline⟩⟩

variable {a : Action} {σ : Execution System Action}

theorem Inv.of_step (h : Inv s) (hsteady : Steady s a) (hstep : step s a = some s') :
    Inv s' := by
  cases a with
  | observe event =>
    obtain ⟨hfeed, hstage, hevolves, hplain⟩ := observe_effect h.feed hstep
    refine h.of_evolves hfeed hstage hevolves fun identity generation hpromised => ?_
    have hevent := hsteady identity generation hpromised
    exact ⟨fun _ => hevent.grows, hplain identity generation hevent⟩
  | exit =>
    obtain ⟨hfeed, hstage, hevolves, hdown⟩ := exit_effect hstep
    refine h.of_evolves hfeed hstage hevolves fun identity generation _ => ?_
    have hnot : ¬ s'.sink.state.connected = true := by simp [hdown]
    exact ⟨fun hc => absurd hc hnot, fun _ _ _ hc => absurd hc hnot, fun _ _ => hdown⟩
  | move m =>
    obtain ⟨stage, hmove, rfl⟩ := Option.map_eq_some_iff.mp hstep
    exact h.of_move (moved_of_move hmove)

/-! ## §4. What is lost is noticed. -/

def Lost (s : System) : Prop :=
  ∃ identity generation, s.stage.promised = some (identity, generation) ∧
    (s.sink.state.connected = false ∨ s.sink.state.generation ≠ generation)

theorem Inv.lost_of_disturbed (h : Inv s) (hdisturbed : Disturbed s) : Lost s := by
  obtain ⟨identity, generation, hpromised, hother⟩ := hdisturbed
  refine ⟨identity, generation, hpromised, ?_⟩
  by_contra hnot
  simp only [not_or, Bool.not_eq_false, not_not] at hnot
  obtain ⟨hconnected, hgeneration⟩ := hnot
  apply hother
  have hidentity := (h.kept identity generation hpromised).identity_eq hconnected hgeneration
  revert hconnected hgeneration hidentity
  cases s.sink.state
  rintro rfl rfl rfl
  rfl

def Stage.rank : Stage → Nat
  | .authenticating => 0
  | .installing _ _ => 1
  | .starting _ _ => 2
  | .watching _ _ _ _ => 3
  | .losing _ _ => 4
  | .down => 5

def due : Nat → Move
  | 1 => .start
  | 2 => .baseline
  | 3 => .check
  | _ => .tearDown

theorem Moved.lost (h : Moved s.sink s.stage stage) (hlost : Lost s) :
    (stage = .down ∨ Lost { s with stage }) ∧ s.stage.rank ≤ stage.rank := by
  obtain ⟨identity, generation, hpromised, hgone⟩ := hlost
  generalize s.stage = old at h hpromised
  cases h with
  | ended => exact ⟨.inl rfl, by cases old <;> simp [Stage.rank]⟩
  | returned => cases hpromised
  | committed => exact ⟨.inr ⟨identity, generation, hpromised, hgone⟩, by simp [Stage.rank]⟩
  | began => exact ⟨.inr ⟨identity, generation, hpromised, hgone⟩, by simp [Stage.rank]⟩
  | noticed => exact ⟨.inr ⟨identity, generation, hpromised, hgone⟩, by simp [Stage.rank]⟩
  | satisfied => exact ⟨.inr ⟨identity, generation, hpromised, hgone⟩, Nat.le_refl _⟩

theorem Lost.of_step (h : Inv s) (hlost : Lost s) (hsteady : Steady s a)
    (hstep : step s a = some s') : (s'.stage = .down ∨ Lost s') ∧ s.stage.rank ≤ s'.stage.rank := by
  cases a with
  | observe event =>
    obtain ⟨_, hstage, hevolves, _⟩ := observe_effect h.feed hstep
    obtain ⟨identity, generation, hpromised, hgone⟩ := hlost
    refine ⟨.inr ⟨identity, generation, hstage ▸ hpromised, ?_⟩, Nat.le_of_eq (by rw [hstage])⟩
    have hle := (h.kept identity generation hpromised).generation_le
    rcases hevolves.generation_cases hle (hsteady identity generation hpromised).grows with
      ⟨hsame, hbefore⟩ | ⟨_, hlt⟩
    · rw [hsame]
      refine hgone.imp_left fun hdown => ?_
      by_contra hup
      exact absurd (hbefore (by simpa using hup)) (by simp [hdown])
    · exact .inr (by omega)
  | exit =>
    obtain ⟨_, hstage, _, hdown⟩ := exit_effect hstep
    obtain ⟨identity, generation, hpromised, _⟩ := hlost
    exact ⟨.inr ⟨identity, generation, hstage ▸ hpromised, .inl hdown⟩,
      Nat.le_of_eq (by rw [hstage])⟩
  | move m =>
    obtain ⟨stage, hmove, rfl⟩ := Option.map_eq_some_iff.mp hstep
    exact (moved_of_move hmove).lost hlost

theorem Inv.due_move (h : Inv s) (hlost : Lost s) :
    ∃ stage, s.stage.move s.sink s.closed (due s.stage.rank) = some stage ∧
      s.stage.rank < stage.rank := by
  obtain ⟨identity, generation, hpromised, hgone⟩ := hlost
  have hsound := h.sound
  generalize hstage : s.stage = old at hpromised hsound
  cases old with
  | authenticating => cases hpromised
  | down => cases hpromised
  | installing i g => exact ⟨.starting i g, rfl, by simp [Stage.rank]⟩
  | starting i g => exact ⟨.watching i g s.sink.state.generation 0, rfl, by simp [Stage.rank]⟩
  | losing i g => exact ⟨.down, rfl, by simp [Stage.rank]⟩
  | watching i g baseline seen =>
    obtain ⟨rfl, rfl⟩ : i = identity ∧ g = generation := by simpa [Stage.promised] using hpromised
    obtain ⟨rfl, _, hchecked⟩ := hsound
    have hunseen : seen ≠ s.sink.version := by
      intro heq
      obtain ⟨hconnected, hgeneration⟩ := hchecked heq
      rcases hgone with hdown | hother
      · rw [hdown] at hconnected; exact absurd hconnected (by simp)
      · exact hother hgeneration
    have hnotice : (!s.sink.state.connected || s.sink.state.generation != baseline) = true := by
      rcases hgone with hdown | hother
      · simp [hdown]
      · simp [hother]
    refine ⟨.losing i baseline, ?_, by simp [Stage.rank]⟩
    show (if seen ≠ s.sink.version then _ else _) = _
    rw [if_pos hunseen, if_pos hnotice]

theorem Stage.rank_of_promised {promise : TunnelIdentity × Nat}
    (h : stage.promised = some promise) :
    1 ≤ stage.rank ∧ stage.rank ≤ 4 := by
  cases stage with
  | authenticating => cases h
  | down => cases h
  | _ => exact ⟨by simp [Stage.rank], by simp [Stage.rank]⟩

theorem due_mem {r : Nat} (hlow : 1 ≤ r) (hhigh : r ≤ 4) :
    due r ∈ [Move.start, .baseline, .check, .tearDown] := by
  interval_cases r <;> decide

theorem inv_of_execution (hσ : σ.Of step Steady {}) (k : Nat) :
    Inv (σ.state k) :=
  (hσ.reachable k).invariant Inv.init fun _ _ _ h hsteady hstep => h.of_step hsteady hstep

theorem climb (hσ : σ.Of step Steady {}) (hfair : Fairly σ) {k : Nat} (hlost : Lost (σ.state k)) :
    ∃ j, k ≤ j ∧ ((σ.state j).stage = .down ∨
      Lost (σ.state j) ∧ (σ.state k).stage.rank < (σ.state j).stage.rank) := by
  obtain ⟨_, _, hpromised, _⟩ := id hlost
  obtain ⟨hlow, hhigh⟩ := Stage.rank_of_promised hpromised
  have hdue := hfair _ (due_mem hlow hhigh)
  generalize hk : (σ.state k).stage.rank = r at hdue ⊢
  refine hσ.wf1 (P := fun s => Inv s ∧ Lost s ∧ s.stage.rank = r)
    (Q := fun s => s.stage = .down ∨ Lost s ∧ r < s.stage.rank) hdue ?_ ?_ ?_
    ⟨inv_of_execution hσ k, hlost, hk⟩
  · rintro s ⟨hs, hslost, hsr⟩
    obtain ⟨stage, hmove, _⟩ := hs.due_move hslost
    rw [hsr] at hmove
    simp [step, hmove]
  · rintro s a s' ⟨hs, hslost, hsr⟩ hsteady hstep
    obtain ⟨hkeeps, hle⟩ := hslost.of_step hs hsteady hstep
    rcases hkeeps with hdown | hstill
    · exact .inr (.inl hdown)
    · rcases Nat.eq_or_lt_of_le hle with heq | hlt
      · exact .inl ⟨hs.of_step hsteady hstep, hstill, heq.symm.trans hsr⟩
      · exact .inr (.inr ⟨hstill, hsr ▸ hlt⟩)
  · rintro s s' ⟨hs, hslost, hsr⟩ hstep
    obtain ⟨stage, hmove, hlt⟩ := hs.due_move hslost
    obtain ⟨hkeeps, _⟩ := hslost.of_step hs (a := .move (due r)) trivial hstep
    have hs' : s'.stage = stage := by
      simp only [step, ← hsr, hmove, Option.map_some, Option.some.injEq] at hstep
      rw [← hstep]
    rcases hkeeps with hdown | hstill
    · exact .inl hdown
    · exact .inr ⟨hstill, by rw [hs', ← hsr]; exact hlt⟩

/-- **Loss is noticed.**  In every execution that is fair to the connect path and the supervisor,
    and in which every event after `authenticate` returned is plain, a session whose published
    tunnel is not the one that was set up is torn down. -/
theorem loss_noticed {σ : Execution System Action} (hσ : σ.Of step Steady {}) (hfair : Fairly σ)
    {k : Nat} (hdisturbed : Disturbed (σ.state k)) :
    ∃ j, k ≤ j ∧ (σ.state j).stage = .down := by
  -- by induction on the ranks left to climb
  have hclimb : ∀ n k, 5 - (σ.state k).stage.rank ≤ n → Lost (σ.state k) →
      ∃ j, k ≤ j ∧ (σ.state j).stage = .down := by
    intro n
    induction n with
    | zero =>
      intro k hrank hlost
      obtain ⟨_, _, hpromised, _⟩ := hlost
      have := (Stage.rank_of_promised hpromised).2
      omega
    | succ n ih =>
      intro k hrank hlost
      obtain ⟨j, hj, hdown | ⟨hstill, hlt⟩⟩ := climb hσ hfair hlost
      · exact ⟨j, hj, hdown⟩
      · obtain ⟨i, hi, hdown⟩ := ih j (by omega) hstill
        exact ⟨i, Nat.le_trans hj hi, hdown⟩
  exact hclimb _ k (Nat.le_refl _) ((inv_of_execution hσ k).lost_of_disturbed hdisturbed)

/-! ## §5. A short outage. -/

/-- openvpn says a line. -/
def told (line : String) : Action := .observe (Event.parse line.toList)

def comesUp : List Action :=
  [told ">UPDOWN:UP", told ">UPDOWN:ENV,dev=tun0", told ">UPDOWN:ENV,ifconfig_local=10.8.0.2",
    told ">UPDOWN:ENV,END", told ">STATE:1741000000,CONNECTED,SUCCESS,10.8.0.2,203.0.113.7",
    .move .ready]

def noticedRun : List Action :=
  comesUp ++ [.move .start, .move .baseline, .move .check,
    told ">STATE:1741000060,RECONNECTING,ping-restart", .move .check, .move .tearDown]

def flapRun : List Action :=
  comesUp ++ [told ">STATE:1741000001,RECONNECTING,ping-restart", told ">UPDOWN:UP",
    told ">UPDOWN:ENV,dev=tun1", told ">UPDOWN:ENV,ifconfig_local=10.9.0.2", told ">UPDOWN:ENV,END",
    told ">STATE:1741000002,CONNECTED,SUCCESS,10.9.0.2,203.0.113.7", .move .start, .move .baseline,
    .move .check]

def Idle (s : System) : Prop :=
  ∀ move ∈ [Move.start, .baseline, .check, .tearDown], step s (.move move) = none

instance (s : System) : Decidable (Idle s) :=
  inferInstanceAs (Decidable (∀ move ∈ [Move.start, .baseline, .check, .tearDown], _))

theorem loss_noticed_down :
    ∃ σ : Execution System Action, σ.Of step Steady {} ∧ Fairly σ ∧ ∃ k, Disturbed (σ.state k) ∧
      ∃ j, k ≤ j ∧ (σ.state j).stage = .down := by
  have hrun : (replay step Steady {} noticedRun).any (fun s => decide (Idle s)) = true := by
    decide +kernel
  cases hreplay : replay step Steady {} noticedRun with
  | none => rw [hreplay] at hrun; exact absurd hrun (by simp)
  | some s =>
    rw [hreplay] at hrun
    have hidle : Idle s := by simpa using hrun
    have hσ := Execution.ofList_of noticedRun {} s hreplay
    have hfair : Fairly (Execution.ofList step {} noticedRun) := fun move hmove =>
      Execution.ofList_fair hreplay (hidle move hmove)
    have hdown : Disturbed ((Execution.ofList step {} noticedRun).state 10) := by
      refine ⟨⟨"tun0", none, some "10.8.0.2", none⟩, 1, ?_, ?_⟩ <;> decide +kernel
    exact ⟨_, hσ, hfair, 10, hdown, loss_noticed hσ hfair hdown⟩

/-- **A short outage goes unnoticed.**  The supervisor takes the generation of the second
    connection for the one to compare with, and the session lives on with the policy of the
    first. -/
theorem flap_unnoticed :
    ∃ σ : Execution System Action, σ.Of step Anything {} ∧ Fairly σ ∧ ∃ k, Disturbed (σ.state k) ∧
      ∀ j, k ≤ j → (σ.state j).stage ≠ .down := by
  have hrun : (replay step Anything {} flapRun).any (fun s => decide (Idle s ∧
      s.stage.promised = some (⟨"tun0", none, some "10.8.0.2", none⟩, 1) ∧
      s.sink.state = ⟨true, some ⟨"tun1", none, some "10.9.0.2", none⟩, 2⟩)) = true := by
    decide +kernel
  cases hreplay : replay step Anything {} flapRun with
  | none => rw [hreplay] at hrun; exact absurd hrun (by simp)
  | some s =>
    rw [hreplay] at hrun
    obtain ⟨hidle, hpromised, hstate⟩ : Idle s ∧
        s.stage.promised = some (⟨"tun0", none, some "10.8.0.2", none⟩, 1) ∧
        s.sink.state = ⟨true, some ⟨"tun1", none, some "10.9.0.2", none⟩, 2⟩ := by
      simpa using hrun
    have hrest : ∀ n, (Execution.ofList step {} flapRun).state (flapRun.length + n) = s :=
      fun n => Execution.ofList_rests flapRun {} s n hreplay
    refine ⟨_, Execution.ofList_of flapRun {} s hreplay, fun move hmove =>
      Execution.ofList_fair hreplay (hidle move hmove), flapRun.length + 0, ?_, ?_⟩
    · rw [hrest]
      refine ⟨_, _, hpromised, ?_⟩
      rw [hstate]
      decide
    · intro j hj
      obtain ⟨n, rfl⟩ := Nat.exists_eq_add_of_le hj
      rw [Nat.add_zero, hrest]
      intro hdown
      rw [hdown] at hpromised
      cases hpromised

end ThisConnect.Session.Loss
