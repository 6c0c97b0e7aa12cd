/-
  ThisConnect.Session.Endings
  **WHAT IS LEFT WHEN A SESSION ENDS.**

  Main result, for every orderly run:
    • `no_tunnel_survives` — once the daemon reports `Disconnected` or `Failed`
      and is at rest, nothing is active, every session was torn down, and the
      proxy is revoked.
-/
import ThisConnect.Session.Enders

namespace ThisConnect.Session

open Transition (Reachable Anything)

/-! ## §1. What is asked. -/

def Pc.inCall : Pc → Bool
  | .idle | .live | .failed => false
  | _ => true

def Teardown.isRunning : Teardown → Bool
  | .running _ _ => true
  | _ => false

namespace World

/-- The published state is terminal, and no connect attempt or teardown is running. -/
def Quiescent (w : World) : Prop :=
  (w.cell = .disconnected ∨ w.cell = .failed) ∧
    ∀ k < w.next, (w.attempts k).pc.inCall = false ∧ (w.attempts k).teardown.isRunning = false

/-- `active` is empty, teardown has been run on every session, and egress is revoked. -/
def NoLiveSession (w : World) : Prop :=
  w.active = none ∧
    (∀ k < w.next, (w.attempts k).established = true → (w.attempts k).teardown = .finished) ∧
    w.listener = none

instance (w : World) : Decidable w.Quiescent :=
  inferInstanceAs (Decidable (_ ∧ _))

instance (w : World) : Decidable w.NoLiveSession :=
  inferInstanceAs (Decidable (_ ∧ _ ∧ _))

end World

/-! ## §2. Reading the slot. -/

section Reading

variable {w : World} {slot : Slot}

theorem Held.refused_of_occupant (h : Held w slot) {k : Nat} (hk : slot.occupant = some k) :
    ∃ error, w.cell.beginConnect = .error error := by
  cases hfree : w.cell.isFree with
  | true =>
    have hslot := h.slot_of_isFree hfree
    subst hslot
    exact absurd hk (by simp [Slot.occupant])
  | false =>
    cases hc : w.cell <;> rw [hc] at hfree <;>
      first
        | exact ⟨_, rfl⟩
        | exact absurd hfree (by decide)

theorem Held.occupant_of_tearing (h : Held w slot) {k : Nat}
    (hk : (w.attempts k).teardown.isRunning = true) : slot.occupant = some k := by
  cases htd : (w.attempts k).teardown with
  | running b stage =>
    rcases (h.slot_of_tearing htd).2 with ⟨rfl, _⟩ | ⟨c, rfl, _⟩
    · rfl
    · rfl
  | none => simp [htd, Teardown.isRunning] at hk
  | finished => simp [htd, Teardown.isRunning] at hk

end Reading

/-! ## §3. Schedules. -/

def bringUp (k : Nat) : List Act :=
  .connect :: ([.arm, .load none, .bind none, .spawn none, .attach none, .enter, .ready,
    .install none, .clear, .publish none, .commit, .note, .store, .supervise] : List Move).map
      (.attempt k)

def takeDown (d k : Nat) : List Act :=
  [.disconnect, .signal d, .disconnectEnd d, .tear k, .tear k, .tear k, .remove k, .tear k, .tear k,
    .tear k, .tear k, .disconnectEnd d, .disconnectEnd d, .disconnectEnd d]

def gapSchedule : List Act :=
  (bringUp 0).dropLast.dropLast ++
    [.disconnect, .signal 0, .disconnectEnd 0, .disconnectEnd 0, .disconnectEnd 0,
      .attempt 0 .store, .attempt 0 .supervise]

def overtakingSchedule : List Act :=
  bringUp 0 ++
    [.disconnect, .signal 0, .disconnectEnd 0, .tear 0, .tear 0, .tear 0, .remove 0, .tear 0,
      .tear 0,
      .loss 0 .channelClosed, .lossEnd 0, .lossEnd 0, .lossEnd 0] ++
    bringUp 1

/-! ## §4. No tunnel survives. -/

/-- **No tunnel survives a reported disconnect.** -/
theorem no_tunnel_survives {w : World} (h : Reachable step Orderly World.start w)
    (hrest : w.Quiescent) : w.NoLiveSession := by
  obtain ⟨slot, hrel⟩ := rel_of_reachable h
  have hfree : w.cell.isFree = true := by
    rcases hrest.1 with hc | hc <;> rw [hc] <;> rfl
  have hslot := hrel.slot_of_isFree hfree
  subst hslot
  refine ⟨hrel.active, ?_, ?_⟩
  · intro k hk
    exact (hrel.settled_of_ne hk (by simp [Slot.occupant])).finished
  · cases hl : w.listener with
    | none => rfl
    | some k => exact absurd (hrel.listener k hl).1 (by simp [Slot.occupant])

/-- A session is brought up, disconnected, and its supervisor then runs on the empty slot. -/
theorem no_tunnel_survives_takeDown : ∃ w, Reachable step Orderly World.start w ∧ w.Quiescent ∧
    (w.attempts 0).established = true ∧ w.NoLiveSession := by
  have hrun : ∃ w, Reachable step Orderly World.start w ∧
      (w.Quiescent ∧ (w.attempts 0).established = true) :=
    Transition.reachable_of_replay
      (bringUp 0 ++ takeDown 0 0 ++ [.loss 0 .channelClosed, .lossEnd 0, .lossEnd 0, .lossEnd 0])
      (by decide +kernel)
  obtain ⟨w, hw, hrest, hestablished⟩ := hrun
  exact ⟨w, hw, hrest, hestablished, no_tunnel_survives hw hrest⟩

/-- The session of `gapSchedule` outlives the disconnect: `active` and the listener are its own. -/
theorem gapSchedule_leaves_session : ∃ w, Reachable step Anything World.start w ∧ w.Quiescent ∧
    ¬ w.NoLiveSession :=
  Transition.reachable_of_replay gapSchedule (by decide +kernel)

end ThisConnect.Session
