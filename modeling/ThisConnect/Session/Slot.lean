/-
  ThisConnect.Session.Slot
  **ONE SLOT, ONE HOLDER.**
-/
import ThisConnect.Session.World

namespace ThisConnect.Session

open Function (update)

/-! ## §1. The abstract slot. -/

inductive Claim where
  | disconnect (d : Nat)
  | loss (s : Nat)
  deriving DecidableEq, Repr

inductive Slot where
  | free
  | trying (k : Nat)
  | committed (k : Nat) (disconnect : Option Nat)
  | serving (k : Nat) (claim : Option Claim)
  | clearing (claim : Claim)
  | closing (claim : Claim) (session : Option Nat)
  deriving DecidableEq, Repr

namespace Slot

def occupant : Slot → Option Nat
  | free | clearing _ => none
  | trying k | committed k _ | serving k _ => some k
  | closing _ session => session

def claim : Slot → Option Claim
  | free | trying _ => none
  | committed _ disconnect => disconnect.map .disconnect
  | serving _ claim => claim
  | clearing claim | closing claim _ => some claim

/-- What `active` holds. -/
def holds : Slot → Option Nat
  | serving k _ => some k
  | _ => none

def CellOk : Slot → SessionState → Prop
  | free, cell => cell = .disconnected ∨ cell = .failed
  | trying _, cell => cell = .connecting ∨ cell = .authenticating ∨ cell = .disconnecting
  | committed _ none, cell | serving _ none, cell => cell = .connected
  | _, cell => cell = .disconnecting

/-- Where the claimant can be. -/
def EnderOk : Slot → Ender → Prop
  | committed _ _, ender | serving _ _, ender | clearing _, ender => ender = .taking
  | closing _ (some k), ender => ender = .tearing k
  | closing _ none, ender => ender ≠ .taking
  | _, _ => False

end Slot

/-! ## §2. What each attempt may look like. -/

/-- Holds nothing that a teardown would have to remove. -/
structure Attempt.Settled (a : Attempt) : Prop where
  teardown : a.teardown = .none ∨ a.teardown = .finished
  released : a.spawned = true → a.released = true
  finished : a.established = true → a.teardown = .finished
  closed : a.streaming = false

/-- An attempt that holds the slot. -/
def Attempt.Trying (a : Attempt) : Prop :=
  match a.pc with
  | .claimed | .armed | .loaded | .bound =>
    a.teardown = .none ∧ a.spawned = false ∧ a.established = false ∧ a.streaming = false
  | .spawned => a.teardown = .none ∧ a.established = false ∧ a.streaming = false
  | .managed | .authenticating | .asking | .authenticated | .secured | .cleared =>
    a.teardown = .none ∧ a.established = false
  | .established => a.teardown = .none
  | .unwinding _ =>
    a.teardown ≠ .none ∧
      (a.teardown = .finished → a.released = true ∧ a.streaming = false)
  | .reporting _ | .announcing _ => a.Settled
  | _ => False

inductive Role where
  | trying
  | committed
  | serving
  | closing
  | rest
  deriving DecidableEq, Repr

def Role.Ok : Role → Attempt → Prop
  | .trying, a => a.Trying
  | .committed, a => (a.pc = .committed ∨ a.pc = .noted) ∧ a.teardown = .none
  | .serving, a => (a.pc = .stored ∨ a.pc = .live) ∧ a.teardown = .none
  | .closing, a => (a.pc = .stored ∨ a.pc = .live) ∧ ∃ b stage, a.teardown = .running b stage
  | .rest, a =>
    (a.pc = .failed ∨ ((a.pc = .stored ∨ a.pc = .live) ∧ a.teardown = .finished)) ∧ a.Settled

def Slot.role : Slot → Nat → Role
  | .trying i, k => if k = i then .trying else .rest
  | .committed i _, k => if k = i then .committed else .rest
  | .serving i _, k => if k = i then .serving else .rest
  | .closing _ (some i), k => if k = i then .closing else .rest
  | _, _ => .rest

def Pc.exposes : Pc → Bool
  | .established | .committed | .noted | .stored | .live | .unwinding _ => true
  | _ => false

def Teardown.beforeStop : Teardown → Bool
  | .none | .running _ .stop => true
  | _ => false

/-! ## §3. The relation. -/

def Supervisor.ender : Supervisor → Option Ender
  | .ending _ ender => some ender
  | _ => .none

def Disconnect.ender : Disconnect → Option Ender
  | .signalling previous => if previous.inFlight then .none else some .taking
  | .ending ender => some ender
  | _ => .none

def World.ender (w : World) : Claim → Option Ender
  | .disconnect d => (w.disconnects d).ender
  | .loss s => (w.attempts s).supervisor.ender

def Slot.ClaimOk (slot : Slot) (claim : Claim) : Option Ender → Prop
  | some ender => slot.claim = some claim ∧ slot.EnderOk ender
  | none => slot.claim ≠ some claim

structure Held (w : World) (slot : Slot) : Prop where
  cell : slot.CellOk w.cell
  active : w.active = slot.holds
  future : ∀ k, w.next ≤ k → w.attempts k = {}
  cancelTo : ∀ k, w.cancelTo = some k → k < w.next
  occupant : ∀ k, slot.occupant = some k → k + 1 = w.next
  role : ∀ k, k < w.next → (slot.role k).Ok (w.attempts k)
  unwatched : ∀ k, (w.attempts k).pc ≠ .live → (w.attempts k).supervisor = .none
  listener : ∀ k, w.listener = some k → slot.occupant = some k ∧
    (w.attempts k).pc.exposes = true ∧ (w.attempts k).teardown.beforeStop = true

structure Rel (w : World) (slot : Slot) : Prop extends Held w slot where
  claims : ∀ claim, slot.ClaimOk claim (w.ender claim)
  futureDisconnect : ∀ d, w.nextDisconnect ≤ d → w.disconnects d = .none

/-- The two orderings under which the slot is held by one party at a time. -/
def Orderly (w : World) : Act → Prop
  | .loss s _ => (w.cell = .connected ∧ w.active = some s) ∨ w.cell.isFree = true
  | .disconnectEnd d =>
    w.disconnects d = .ending .taking →
      ∀ k < w.next, (w.attempts k).pc ≠ .committed ∧ (w.attempts k).pc ≠ .noted
  | _ => True

instance (w : World) (a : Act) : Decidable (Orderly w a) :=
  match a with
  | .loss s _ =>
    inferInstanceAs (Decidable ((w.cell = .connected ∧ w.active = some s) ∨ w.cell.isFree = true))
  | .disconnectEnd d =>
    inferInstanceAs (Decidable (w.disconnects d = .ending .taking →
      ∀ k < w.next, (w.attempts k).pc ≠ .committed ∧ (w.attempts k).pc ≠ .noted))
  | .connect | .attempt _ _ | .push _ | .tear _ | .expire _ | .remove _ | .disconnect
  | .signal _ | .bytes _ _ _ | .lossEnd _ => isTrue trivial

theorem rel_start : Rel World.start .free where
  cell := .inl rfl
  active := rfl
  future := fun _ _ => rfl
  futureDisconnect := fun _ _ => rfl
  cancelTo := fun _ h => absurd h (by simp [World.start])
  occupant := fun _ h => absurd h (by simp [Slot.occupant])
  role := fun _ h => absurd h (by simp [World.start])
  unwatched := fun _ _ => rfl
  listener := fun _ h => absurd h (by simp [World.start])
  claims := fun claim => by cases claim <;> exact fun h => absurd h (by simp [Slot.claim])

/-! ## §4. Reading the slot off a task. -/

section Reading

variable {w : World} {slot : Slot} {k : Nat}

theorem Held.lt_next (h : Held w slot) (hpc : (w.attempts k).pc ≠ .idle) : k < w.next := by
  by_contra hge
  rw [h.future k (by omega)] at hpc
  exact hpc rfl

theorem Slot.role_cases (slot : Slot) (k : Nat) :
    slot.role k = .rest ∨ (slot = .trying k ∧ slot.role k = .trying) ∨
      (∃ c, slot = .committed k c ∧ slot.role k = .committed) ∨
      (∃ c, slot = .serving k c ∧ slot.role k = .serving) ∨
      ∃ c, slot = .closing c (some k) ∧ slot.role k = .closing := by
  cases slot with
  | free => exact .inl rfl
  | trying i =>
    by_cases hki : k = i
    · subst hki
      exact .inr (.inl ⟨rfl, by simp [Slot.role]⟩)
    · exact .inl (by simp [Slot.role, hki])
  | committed i c =>
    by_cases hki : k = i
    · subst hki
      exact .inr (.inr (.inl ⟨c, rfl, by simp [Slot.role]⟩))
    · exact .inl (by simp [Slot.role, hki])
  | serving i c =>
    by_cases hki : k = i
    · subst hki
      exact .inr (.inr (.inr (.inl ⟨c, rfl, by simp [Slot.role]⟩)))
    · exact .inl (by simp [Slot.role, hki])
  | clearing c => exact .inl rfl
  | closing c i =>
    cases i with
    | none => exact .inl rfl
    | some i =>
      by_cases hki : k = i
      · subst hki
        exact .inr (.inr (.inr (.inr ⟨c, rfl, by simp [Slot.role]⟩)))
      · exact .inl (by simp [Slot.role, hki])

def Pc.isTrying : Pc → Bool
  | .idle | .committed | .noted | .stored | .live | .failed => false
  | _ => true

theorem Held.slot_of_trying (h : Held w slot) (hpc : (w.attempts k).pc.isTrying = true) :
    slot = .trying k ∧ (w.attempts k).Trying ∧ k + 1 = w.next := by
  have hlt : k < w.next := h.lt_next (by intro hp; rw [hp] at hpc; exact absurd hpc (by decide))
  have hrole := h.role k hlt
  rcases slot.role_cases k with hr | ⟨rfl, hr⟩ | ⟨c, rfl, hr⟩ | ⟨c, rfl, hr⟩ | ⟨c, rfl, hr⟩ <;>
    rw [hr] at hrole
  · rcases hrole.1 with hp | ⟨hp | hp, _⟩ <;> simp [hp, Pc.isTrying] at hpc
  · exact ⟨rfl, hrole, h.occupant k rfl⟩
  · rcases hrole.1 with hp | hp <;> simp [hp, Pc.isTrying] at hpc
  · rcases hrole.1 with hp | hp <;> simp [hp, Pc.isTrying] at hpc
  · rcases hrole.1 with hp | hp <;> simp [hp, Pc.isTrying] at hpc

theorem Held.slot_of_committed (h : Held w slot)
    (hpc : (w.attempts k).pc = .committed ∨ (w.attempts k).pc = .noted) :
    ∃ c, slot = .committed k c ∧ (w.attempts k).teardown = .none ∧ k + 1 = w.next := by
  have hlt : k < w.next := h.lt_next (by rcases hpc with hp | hp <;> simp [hp])
  have hrole := h.role k hlt
  rcases slot.role_cases k with hr | ⟨rfl, hr⟩ | ⟨c, rfl, hr⟩ | ⟨c, rfl, hr⟩ | ⟨c, rfl, hr⟩ <;>
    rw [hr] at hrole
  · rcases hrole.1 with hp | ⟨hp | hp, _⟩ <;> simp [hp] at hpc
  · have htrying : (w.attempts k).Trying := hrole
    unfold Attempt.Trying at htrying
    rcases hpc with hp | hp <;> simp [hp] at htrying
  · exact ⟨c, rfl, hrole.2, h.occupant k rfl⟩
  · rcases hrole.1 with hp | hp <;> simp [hp] at hpc
  · rcases hrole.1 with hp | hp <;> simp [hp] at hpc

theorem Held.slot_of_tearing (h : Held w slot) {b : Nat} {stage : Stage}
    (htd : (w.attempts k).teardown = .running b stage) :
    k + 1 = w.next ∧ ((slot = .trying k ∧ ∃ e, (w.attempts k).pc = .unwinding e) ∨
      ∃ c, slot = .closing c (some k) ∧
        ((w.attempts k).pc = .stored ∨ (w.attempts k).pc = .live)) := by
  have hlt : k < w.next := by
    by_contra hge
    rw [h.future k (by omega)] at htd
    exact absurd htd (by simp)
  have hrole := h.role k hlt
  rcases slot.role_cases k with hr | ⟨rfl, hr⟩ | ⟨c, rfl, hr⟩ | ⟨c, rfl, hr⟩ | ⟨c, rfl, hr⟩ <;>
    rw [hr] at hrole
  · rcases hrole.2.teardown with ht | ht <;> simp [ht] at htd
  · refine ⟨h.occupant k rfl, .inl ⟨rfl, ?_⟩⟩
    have htrying : (w.attempts k).Trying := hrole
    unfold Attempt.Trying at htrying
    cases hp : (w.attempts k).pc <;> simp only [hp] at htrying <;>
      first
        | exact ⟨_, rfl⟩
        | exact absurd htrying id
        | (rcases htrying.teardown with ht | ht <;> simp [ht] at htd)
        | simp [htd] at htrying
  · simp [hrole.2] at htd
  · simp [hrole.2] at htd
  · exact ⟨h.occupant k rfl, .inr ⟨c, rfl, hrole.1⟩⟩

theorem Held.settled_of_ne (h : Held w slot) (hlt : k < w.next)
    (hk : slot.occupant ≠ some k) : (w.attempts k).Settled := by
  have hrole := h.role k hlt
  rcases slot.role_cases k with hr | ⟨rfl, _⟩ | ⟨c, rfl, _⟩ | ⟨c, rfl, _⟩ | ⟨c, rfl, _⟩
  · rw [hr] at hrole
    exact hrole.2
  · exact absurd rfl hk
  · exact absurd rfl hk
  · exact absurd rfl hk
  · exact absurd rfl hk

end Reading

end ThisConnect.Session
