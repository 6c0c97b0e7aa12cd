/-
  ThisConnect.Session.Cancellation
  **HOW A CANCELLED ATTEMPT ENDS.**

  Main results, for every orderly run:
    • `cancelled_iff` — an attempt in which nothing else fails ends
      `Disconnected` exactly when the disconnect landed while it authenticated
      and the tunnel did not come up before the signal was seen;
    • `cancelled_early_fails`, `cancelled_late_fails` — it ends `Failed` when
      the disconnect lands before openvpn is spawned, or while the policy is
      being installed.
-/
import ThisConnect.Session.Endings
import ThisConnect.Session.Seen

namespace ThisConnect.Session

open Function (update)
open Transition (Reachable replay)

/-! ## §1. What is asked. -/

def Pc.heeds : Pc → Bool
  | .authenticating | .asking => true
  | .unwinding error | .reporting error | .announcing error => error = .cancelled
  | _ => false

/-- A collaborator of the attempt fails. -/
def Move.fails : Move → Bool
  | .load fail | .bind fail | .spawn fail | .attach fail | .install fail | .publish fail =>
    fail.isSome
  | .reject _ => true
  | _ => false

def Act.failsIn (k : Nat) : Act → Bool
  | .attempt j move => j == k && move.fails
  | _ => false

/-- An orderly step while the connect call of `k` runs, which is no failure of its own. -/
def During (k : Nat) (w : World) (a : Act) : Prop :=
  Orderly w a ∧ (w.attempts k).pc.inCall = true ∧ a.failsIn k = false

instance (k : Nat) (w : World) (a : Act) : Decidable (During k w a) :=
  inferInstanceAs (Decidable (_ ∧ _ ∧ _))

/-! ## §2. The attempt after the disconnect. -/

structure Cancelling (k : Nat) (heeds : Bool) (w : World) : Prop where
  rel : Rel w (.trying k)
  cell : w.cell = .disconnecting
  pc : (w.attempts k).pc.isTrying = true
  heeds : (w.attempts k).pc.heeds = heeds

def outcome (heeds : Bool) : SessionState := if heeds then .disconnected else .failed

section

variable {w w' : World} {k : Nat} {heeds : Bool}

theorem cancelling_attempt {move : Move} (h : Cancelling k heeds w) (hfails : move.fails = false)
    (hstep : attemptStep w k move = some w') :
    ((w'.attempts k).pc = .failed ∧ w'.cell = outcome (heeds && move != .ready)) ∨
      (w'.cell = .disconnecting ∧ (w'.attempts k).pc.isTrying = true ∧
        (w'.attempts k).pc.heeds = (heeds && move != .ready)) := by
  obtain ⟨_, hcell, htrying, rfl⟩ := h
  -- the attempt goes on from `pc`, and nobody has touched the state
  have hon : ∀ {v : World} {a : Attempt}, w' = v.setAttempt k a → v.cell = w.cell →
      a.pc.isTrying = true → a.pc.heeds = ((w.attempts k).pc.heeds && move != .ready) →
      w'.cell = .disconnecting ∧ (w'.attempts k).pc.isTrying = true ∧
        (w'.attempts k).pc.heeds = ((w.attempts k).pc.heeds && move != .ready) := by
    intro v a hw' hv ha hheeds
    subst hw'
    refine ⟨hv.trans hcell, ?_, ?_⟩
    · simpa [World.setAttempt] using ha
    · simpa [World.setAttempt] using hheeds
  unfold attemptStep at hstep
  dsimp only at hstep
  split at hstep
  · next hpc => -- arm
    cases hstep
    exact .inr (hon rfl rfl rfl (by rw [hpc]; rfl))
  · next hpc => -- load
    cases hstep
    exact .inr (hon rfl rfl rfl (by rw [hpc]; rfl))
  · exact by cases hfails -- load, refused
  · next hpc => -- bind
    cases hstep
    exact .inr (hon rfl rfl rfl (by rw [hpc]; rfl))
  · exact by cases hfails -- bind, refused
  · next hpc => -- spawn
    cases hstep
    exact .inr (hon rfl rfl rfl (by rw [hpc]; rfl))
  · exact by cases hfails -- spawn, refused
  · next hpc => -- attach
    cases hstep
    exact .inr (hon rfl rfl rfl (by rw [hpc]; rfl))
  · exact by cases hfails -- attach, refused
  · next hpc => -- enter: refused by the state machine
    rw [hcell] at hstep
    cases hstep
    exact .inr (hon rfl rfl rfl (by rw [hpc]; rfl))
  · next hpc => -- ask
    cases hstep
    exact .inr (hon rfl rfl rfl (by rw [hpc]; rfl))
  · next hpc => -- answer
    obtain ⟨_, ⟨⟩⟩ := some_of_guard hstep
    exact .inr (hon rfl rfl rfl (by rw [hpc]; rfl))
  · next hpc => -- abort
    obtain ⟨_, ⟨⟩⟩ := some_of_guard hstep
    exact .inr (hon rfl rfl rfl (by rw [hpc]; rfl))
  · next hpc => -- abort while asking
    obtain ⟨_, ⟨⟩⟩ := some_of_guard hstep
    exact .inr (hon rfl rfl rfl (by rw [hpc]; rfl))
  · exact by cases hfails -- reject
  · exact by cases hfails -- reject while asking
  · next hpc => -- ready
    cases hstep
    exact .inr (hon rfl rfl rfl (by rw [hpc]; rfl))
  · next hpc => -- install
    cases hstep
    exact .inr (hon rfl rfl rfl (by rw [hpc]; rfl))
  · exact by cases hfails -- install, refused
  · next hpc => -- clear
    cases hstep
    exact .inr (hon rfl rfl rfl (by rw [hpc]; rfl))
  · next hpc => -- publish
    cases hstep
    exact .inr (hon rfl rfl rfl (by rw [hpc]; rfl))
  · exact by cases hfails -- publish, refused
  · next hpc => -- commit: refused by the state machine
    rw [hcell] at hstep
    cases hstep
    exact .inr (hon rfl rfl rfl (by rw [hpc]; rfl))
  · next hpc => -- note
    exact absurd htrying (by rw [hpc]; decide)
  · next hpc => -- store
    exact absurd htrying (by rw [hpc]; decide)
  · next hpc => -- supervise
    exact absurd htrying (by rw [hpc]; decide)
  · next hpc => -- unwound
    obtain ⟨_, ⟨⟩⟩ := some_of_guard hstep
    exact .inr (hon rfl rfl rfl (by rw [hpc]; exact (Bool.and_true _).symm))
  · next hpc => -- report
    cases hstep
    exact .inr (hon rfl rfl rfl (by rw [hpc]; exact (Bool.and_true _).symm))
  · next error hpc => -- announce
    cases hstep
    refine .inl ⟨by simp [World.setAttempt], ?_⟩
    have hannounced : ((w.attempts k).pc.heeds && Move.announce != .ready) =
        decide (error = .cancelled) := by
      rw [hpc]
      exact Bool.and_true _
    rw [hannounced]
    by_cases herror : error = .cancelled
    · simp [World.setAttempt, outcome, herror]
    · simp [World.setAttempt, outcome, herror]
  · cases hstep

theorem no_ender (hrel : Rel w (.trying k)) (c : Claim) : w.ender c = none := by
  cases hender : w.ender c with
  | none => rfl
  | some ender =>
    have hclaim := hrel.claims c
    rw [hender] at hclaim
    exact absurd hclaim.1 (by simp [Slot.claim])

theorem others_still {a : Act} (hrel : Rel w (.trying k)) (hcell : w.cell = .disconnecting)
    (hother : ∀ move, a ≠ .attempt k move) (hstep : step w a = some w') :
    w'.cell = w.cell ∧ (w'.attempts k).pc = (w.attempts k).pc := by
  -- whoever is on the way to a session is attempt `k` itself
  have hown {j : Nat} {p p' : Pc} (hadvances : Advances w w' j p p') (hp : p.isTrying = true)
      (hact : ∃ move, a = .attempt j move) : False := by
    obtain ⟨move, rfl⟩ := hact
    obtain ⟨hslot, _⟩ := hrel.slot_of_trying (hadvances.before ▸ hp)
    cases hslot
    exact hother move rfl
  cases step_seen hrel hstep with
  | quiet hsame _ hpc => exact ⟨hsame.elim id fun h => h.trans hcell.symm, hpc k⟩
  | claim hfree =>
    rw [hcell] at hfree
    cases hfree
  | attempt hp _ _ _ hadvances hact => exact (hown hadvances hp hact).elim
  | commit _ _ _ hadvances hact => exact (hown hadvances rfl hact).elim
  | note _ _ hadvances =>
    obtain ⟨c, hslot, _⟩ := hrel.slot_of_committed (.inl hadvances.before)
    cases hslot
  | @keep j p p' _ _ hsame _ hadvances hact =>
    refine ⟨hsame, hadvances.others k fun hkj => ?_⟩
    obtain ⟨move, rfl⟩ := hact
    exact hother move (by rw [hkj])
  | announce hp _ _ hadvances hact => exact (hown hadvances hp hact).elim
  | clear claim hender =>
    rw [no_ender hrel claim] at hender
    cases hender
  | finish claim _ hender =>
    rw [no_ender hrel claim] at hender
    cases hender

theorem Cancelling.step {a : Act} (h : Cancelling k heeds w) (hduring : During k w a)
    (hstep : Session.step w a = some w') :
    ((w'.attempts k).pc = .failed ∧ w'.cell = outcome (heeds && a != .attempt k .ready)) ∨
      Cancelling k (heeds && a != .attempt k .ready) w' := by
  obtain ⟨horderly, _, hfails⟩ := hduring
  obtain ⟨slot, hrel⟩ := rel_step h.rel horderly hstep
  by_cases hown : ∃ move, a = .attempt k move
  · obtain ⟨move, rfl⟩ := hown
    have hfails' : move.fails = false := by simpa [Act.failsIn] using hfails
    have hready : (Act.attempt k move != .attempt k .ready) = (move != .ready) := by
      by_cases hmove : move = .ready
      · simp [hmove]
      · have hact : Act.attempt k move ≠ .attempt k .ready := fun heq => hmove (by injection heq)
        rw [bne_iff_ne.mpr hmove, bne_iff_ne.mpr hact]
    rw [hready]
    rcases cancelling_attempt h hfails' hstep with hended | ⟨hcell, htrying, hheeds⟩
    · exact .inl hended
    · obtain ⟨rfl, _, _⟩ := hrel.slot_of_trying htrying
      exact .inr ⟨hrel, hcell, htrying, hheeds⟩
  · obtain ⟨hcell, hpc⟩ := others_still h.rel h.cell
      (fun move hmove => hown ⟨move, hmove⟩) hstep
    have hready : a ≠ .attempt k .ready := fun heq => hown ⟨_, heq⟩
    obtain ⟨rfl, _, _⟩ := hrel.slot_of_trying (k := k) (by rw [hpc]; exact h.pc)
    refine .inr ⟨hrel, hcell.trans h.cell, by rw [hpc]; exact h.pc, ?_⟩
    rw [hpc, h.heeds]
    simp [hready]

theorem Cancelling.run {acts : List Act} : ∀ {w w' : World} {heeds : Bool},
    Cancelling k heeds w → replay Session.step (During k) w acts = some w' →
      (w'.attempts k).pc.inCall = false →
      w'.cell = outcome (heeds && !acts.contains (.attempt k .ready)) := by
  induction acts with
  | nil =>
    intro w w' heeds h hrun hended
    injection hrun with hrun
    subst hrun
    have hpc := h.pc
    cases hp : (w.attempts k).pc <;> simp [hp, Pc.isTrying, Pc.inCall] at hpc hended
  | cons a rest ih =>
    intro w w' heeds h hrun hended
    have hcontains : (heeds && !(a :: rest).contains (.attempt k .ready)) =
        ((heeds && a != .attempt k .ready) && !rest.contains (.attempt k .ready)) := by
      rw [List.contains_cons, Bool.not_or, Bool.and_assoc, BEq.comm]
      rfl
    unfold replay at hrun
    obtain ⟨hduring, hrun⟩ := some_of_guard hrun
    obtain ⟨v, hstep, hrun⟩ := Option.bind_eq_some_iff.mp hrun
    rcases h.step hduring hstep with ⟨hfailed, hcell⟩ | hcancelling
    · -- the call is over, so this was the last step
      cases rest with
      | nil =>
        injection hrun with hrun
        rw [← hrun, hcell, hcontains]
        exact congrArg outcome (Bool.and_true _).symm
      | cons b rest =>
        unfold replay at hrun
        rw [if_neg (fun hd : During k v b => by simp [During, hfailed, Pc.inCall] at hd)]
          at hrun
        cases hrun
    · rw [ih hcancelling hrun hended, hcontains]

theorem slot_of_inFlight {slot : Slot} (hrel : Rel w slot) (hflight : w.cell.inFlight = true)
    (hk : k + 1 = w.next) : slot = .trying k := by
  have hcell := hrel.cell
  cases hslot : slot with
  | trying j =>
    have := hrel.occupant j (by rw [hslot]; rfl)
    rw [show j = k by omega]
  | free =>
    rw [hslot] at hcell
    rcases hcell with hc | hc <;> simp [hc, SessionState.inFlight] at hflight
  | committed j disconnect =>
    rw [hslot] at hcell
    cases disconnect <;> simp [show w.cell = _ from hcell, SessionState.inFlight] at hflight
  | serving j claim =>
    rw [hslot] at hcell
    cases claim <;> simp [show w.cell = _ from hcell, SessionState.inFlight] at hflight
  | clearing claim =>
    rw [hslot] at hcell
    simp [show w.cell = _ from hcell, SessionState.inFlight] at hflight
  | closing claim session =>
    rw [hslot] at hcell
    simp [show w.cell = _ from hcell, SessionState.inFlight] at hflight

theorem isTrying_of_trying {a : Attempt} (h : a.Trying) : a.pc.isTrying = true := by
  unfold Attempt.Trying at h
  cases hp : a.pc <;> simp [hp] at h <;> rfl

theorem cancelling_of_disconnect {slot : Slot} (hrel : Rel w slot)
    (hflight : w.cell.inFlight = true) (hk : k + 1 = w.next)
    (hland : step w .disconnect = some w') :
    Cancelling k (w.attempts k).pc.heeds w' := by
  obtain rfl := slot_of_inFlight hrel hflight hk
  obtain ⟨slot', hrel'⟩ := rel_disconnect hrel hland
  have htrying : (w.attempts k).pc.isTrying = true := by
    have hrole := hrel.role k (by omega)
    rw [Slot.role, if_pos rfl] at hrole
    exact isTrying_of_trying hrole
  have hbegin : w.cell.beginDisconnect = .ok .disconnecting := by
    cases hc : w.cell <;> simp [hc, SessionState.inFlight] at hflight <;> rfl
  simp only [step, hbegin] at hland
  injection hland with hland
  have hattempts : w'.attempts = w.attempts := by
    rw [← hland]
    exact publish_attempts _ _ _
  have hcell : w'.cell = .disconnecting := by
    rw [← hland]
    exact publish_cell _ _ _
  have htrying' : (w'.attempts k).pc.isTrying = true := by rw [hattempts]; exact htrying
  obtain ⟨rfl, _, _⟩ := hrel'.slot_of_trying htrying'
  exact ⟨hrel', hcell, htrying', by rw [hattempts]⟩

end

/-! ## §3. Where the disconnect lands. -/

/-- **A cancelled attempt ends `Disconnected` exactly when it hears of it.**  In every orderly run:
    a disconnect is accepted while attempt `k` is in flight, `acts` is the rest of that attempt, and
    nothing else fails in it.  Then the state it leaves is `Disconnected` exactly when the attempt
    was authenticating, or already on its way out for a cancellation, and the tunnel does not come
    up in the rest. -/
theorem cancelled_iff {w landed w' : World} {k : Nat} {acts : List Act}
    (hreach : Reachable step Orderly World.start w) (hflight : w.cell.inFlight = true)
    (hk : k + 1 = w.next) (hland : step w .disconnect = some landed)
    (hrun : replay step (During k) landed acts = some w')
    (hended : (w'.attempts k).pc.inCall = false) :
    w'.cell = .disconnected ↔
      (w.attempts k).pc.heeds = true ∧ .attempt k .ready ∉ acts := by
  obtain ⟨slot, hrel⟩ := rel_of_reachable hreach
  have hcell := (cancelling_of_disconnect hrel hflight hk hland).run hrun hended
  rw [hcell]
  unfold outcome
  by_cases hheeds : (w.attempts k).pc.heeds = true
  · by_cases hready : .attempt k .ready ∈ acts
    · simp [hheeds, hready]
    · simp [hheeds, hready]
  · simp [hheeds]

/-! ## §4. Schedules. -/

def cancelledRun (k : Nat) (before rest : List Act) : Option (World × World) :=
  (replay step Orderly World.start before).bind fun w =>
    (step w .disconnect).bind fun landed =>
      (replay step (During k) landed rest).map fun w' => (w, w')

theorem landing_of_run {k : Nat} {before rest : List Act} {p : World × World → Bool}
    (h : (cancelledRun k before rest).any p = true) :
    ∃ w landed w', Reachable step Orderly World.start w ∧ step w .disconnect = some landed ∧
      replay step (During k) landed rest = some w' ∧ p (w, w') = true := by
  obtain ⟨⟨w, w'⟩, hrun, hp⟩ := (Option.any_eq_true _ _).mp h
  obtain ⟨v, hbefore, hrun⟩ := Option.bind_eq_some_iff.mp hrun
  obtain ⟨landed, hland, hrun⟩ := Option.bind_eq_some_iff.mp hrun
  obtain ⟨v', hrest, hpair⟩ := Option.map_eq_some_iff.mp hrun
  injection hpair with hv hv'
  subst hv hv'
  exact ⟨v, landed, v', Transition.replay_reachable before .init hbefore, hland, hrest, hp⟩

def toManaged : List Move := [.arm, .load none, .bind none, .spawn none, .attach none]

def moves (list : List Move) : List Act := list.map (.attempt 0)

def unwindRun : List Act :=
  [.tear 0, .tear 0, .tear 0, .tear 0, .tear 0, .tear 0] ++ moves [.unwound, .report, .announce]

/-- The disconnect lands while a prompt is out. -/
theorem cancelled_iff_asking : ∃ w landed w', Reachable step Orderly World.start w ∧
    w.cell = .authenticating ∧ step w .disconnect = some landed ∧
    replay step (During 0) landed (.signal 0 :: .attempt 0 .abort :: unwindRun) = some w' ∧
    w'.cell = .disconnected := by
  have hrun : (cancelledRun 0 (.connect :: moves (toManaged ++ [.enter, .ask]))
      (.signal 0 :: .attempt 0 .abort :: unwindRun)).any (fun ends =>
        decide (ends.1.cell = .authenticating ∧ 0 + 1 = ends.1.next ∧
          (ends.1.attempts 0).pc.heeds = true ∧ (ends.2.attempts 0).pc.inCall = false)) = true := by
    decide +kernel
  obtain ⟨w, landed, w', hreach, hland, hrest, hw⟩ := landing_of_run hrun
  obtain ⟨hcell, hnext, hheeds, hended⟩ := of_decide_eq_true hw
  refine ⟨w, landed, w', hreach, hcell, hland, hrest, ?_⟩
  refine (cancelled_iff hreach (by rw [hcell]; rfl) hnext hland hrest hended).mpr ⟨hheeds, ?_⟩
  decide

/-- **A disconnect before openvpn is spawned ends the attempt as `Failed`.**  The attempt starts
    openvpn all the same, and its move to `Authenticating` is refused. -/
theorem cancelled_early_fails : ∃ w landed w' acts, Reachable step Orderly World.start w ∧
    w.cell.inFlight = true ∧ 0 + 1 = w.next ∧ (w.attempts 0).spawned = false ∧
    step w .disconnect = some landed ∧ replay step (During 0) landed acts = some w' ∧
    (w'.attempts 0).pc.inCall = false ∧ w'.cell = .failed := by
  have hrun : (cancelledRun 0 (.connect :: moves [.arm])
      (.signal 0 :: moves (toManaged.tail ++ [.enter]) ++ unwindRun)).any (fun ends =>
        decide (ends.1.cell.inFlight = true ∧ 0 + 1 = ends.1.next ∧
          (ends.1.attempts 0).spawned = false ∧ (ends.2.attempts 0).pc.inCall = false ∧
          ends.2.cell = .failed)) = true := by decide +kernel
  obtain ⟨w, landed, w', hreach, hland, hrest, hw⟩ := landing_of_run hrun
  obtain ⟨hflight, hnext, hspawned, hended, hfailed⟩ := of_decide_eq_true hw
  exact ⟨w, landed, w', _, hreach, hflight, hnext, hspawned, hland, hrest, hended, hfailed⟩

theorem cancelled_late_fails : ∃ w landed w' acts, Reachable step Orderly World.start w ∧
    (w.attempts 0).pc = .authenticated ∧ step w .disconnect = some landed ∧
    replay step (During 0) landed acts = some w' ∧ (w'.attempts 0).pc.inCall = false ∧
    w'.cell = .failed := by
  have hrun : (cancelledRun 0 (.connect :: moves (toManaged ++ [.enter, .ready]))
      (.signal 0 :: moves [.install none, .clear, .publish none, .commit] ++
        [.tear 0, .tear 0, .tear 0, .remove 0] ++ [.tear 0, .tear 0, .tear 0, .tear 0] ++
        moves [.unwound, .report, .announce])).any (fun ends =>
        decide ((ends.1.attempts 0).pc = .authenticated ∧
          (ends.2.attempts 0).pc.inCall = false ∧ ends.2.cell = .failed)) = true := by
    decide +kernel
  obtain ⟨w, landed, w', hreach, hland, hrest, hw⟩ := landing_of_run hrun
  obtain ⟨hpc, hended, hfailed⟩ := of_decide_eq_true hw
  exact ⟨w, landed, w', _, hreach, hpc, hland, hrest, hended, hfailed⟩

end ThisConnect.Session
