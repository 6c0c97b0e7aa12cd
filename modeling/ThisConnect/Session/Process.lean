/-
  ThisConnect.Session.Process
  **STOPPING A CHILD THAT ONE TASK OWNS.**

  Main result:
    • `doomed_exits` — once the channel is closed, or nothing was spawned,
      every fair execution ends without a child.
-/
import ThisConnect.Base.Fairness

namespace ThisConnect.Session.Process

open Transition

inductive Stop where
  | term
  | kill
  deriving DecidableEq, Repr

inductive Child where
  | none
  | running
  | killed
  | exited
  deriving DecidableEq, Repr

structure Control where
  child : Child := .none
  queue : List Stop := []
  closed : Bool := false
  deriving DecidableEq, Repr

def Control.request (c : Control) (stop : Stop) : Control :=
  if c.child ≠ .exited ∧ c.queue.length < 2 then { c with queue := c.queue ++ [stop] } else c

inductive Act where
  | handle
  | reap
  | die
  deriving DecidableEq, Repr

def step (c : Control) : Act → Option Control
  | .handle =>
    if c.child = .running ∨ c.child = .killed then
      match c.queue with
      | .term :: rest => some { c with queue := rest }
      | .kill :: rest => some { c with queue := rest, child := .killed }
      | [] => if c.closed then some { c with child := .killed } else none
    else none
  | .reap => if c.child = .killed then some { c with child := .exited } else none
  | .die => if c.child = .running then some { c with child := .exited } else none

/-- No child is left. -/
def Gone (c : Control) : Prop := c.child = .none ∨ c.child = .exited

def Doomed (c : Control) : Prop := Gone c ∨ c.closed = true

variable {c c' init : Control} {σ : Execution Control Act}

theorem step_cases {a : Act} (h : step c a = some c') :
    c'.closed = c.closed ∧ c.child ≠ .none ∧ c'.child ≠ .none ∧
    (c'.child = .exited ∨ c'.child = .killed ∨
      (c'.child = .running ∧ c.child = .running ∧ c'.queue.length < c.queue.length)) := by
  cases a with
  | handle =>
    simp only [step] at h
    obtain ⟨halive, h⟩ := some_of_guard h
    have hchild : c.child ≠ .none := by
      rcases halive with hc | hc <;> simp [hc]
    split at h
    · next rest hqueue =>
      cases h
      refine ⟨rfl, hchild, hchild, ?_⟩
      rcases halive with hc | hc
      · exact .inr (.inr ⟨hc, hc, by simp [hqueue]⟩)
      · exact .inr (.inl hc)
    · cases h
      exact ⟨rfl, hchild, by simp, .inr (.inl rfl)⟩
    · obtain ⟨_, ⟨⟩⟩ := some_of_guard h
      exact ⟨rfl, hchild, by simp, .inr (.inl rfl)⟩
  | reap | die =>
    simp only [step] at h
    obtain ⟨hc, ⟨⟩⟩ := some_of_guard h
    exact ⟨rfl, by simp [hc], by simp, .inl rfl⟩

abbrev Background (c c' : Control) : Prop := Reachable step Anything c c'

theorem Background.none_of_none (h : Background c c') (hc : c.child = .none) : c'.child = .none :=
  h.invariant (I := fun t => t.child = .none) hc
    fun _ _ _ ih _ hstep => absurd ih (step_cases hstep).2.1

/-! ## A closed channel is the end of the child. -/

theorem killed_exits (hσ : σ.Of step Anything init) (hreap : σ.Fair step .reap) {k : Nat}
    (hk : (σ.state k).child = .killed) : ∃ j, k ≤ j ∧ Gone (σ.state j) := by
  refine hσ.wf1 (P := fun c => c.child = .killed) (Q := Gone) hreap ?_ ?_ ?_ hk
  · intro c hc
    simp [step, hc]
  · intro c a c' hc _ hstep
    obtain ⟨_, _, _, hexited | hkilled | ⟨_, hrunning, _⟩⟩ := step_cases hstep
    · exact .inr (.inr hexited)
    · exact .inl hkilled
    · rw [hc] at hrunning
      exact absurd hrunning (by decide)
  · intro c c' hc hstep
    simp only [step, hc, if_true, Option.some.injEq] at hstep
    exact .inr (by rw [← hstep])

theorem closed_exits (hσ : σ.Of step Anything init) (hhandle : σ.Fair step .handle)
    (hreap : σ.Fair step .reap) (n : Nat) :
    ∀ k, (σ.state k).closed = true → (σ.state k).child = .running →
      (σ.state k).queue.length ≤ n → ∃ j, k ≤ j ∧ Gone (σ.state j) := by
  induction n with
  | zero =>
    intro k hclosed hrunning hlength
    have hqueue : (σ.state k).queue = [] := by simpa using hlength
    obtain ⟨j, hj, hnext⟩ := hσ.wf1
      (P := fun c => c.closed = true ∧ c.child = .running ∧ c.queue = [])
      (Q := fun c => c.child = .exited ∨ c.child = .killed) hhandle
      (fun c hc => by simp [step, hc.1, hc.2.1, hc.2.2])
      (fun c a c' hc _ hstep => by
        obtain ⟨_, _, _, hexited | hkilled | ⟨_, _, hshorter⟩⟩ := step_cases hstep
        · exact .inr (.inl hexited)
        · exact .inr (.inr hkilled)
        · rw [hc.2.2] at hshorter
          exact absurd hshorter (by simp))
      (fun c c' hc hstep => by
        simp only [step, hc.1, hc.2.1, hc.2.2, true_or, if_true, Option.some.injEq] at hstep
        exact .inr (by rw [← hstep]))
      ⟨hclosed, hrunning, hqueue⟩
    rcases hnext with hexited | hkilled
    · exact ⟨j, hj, .inr hexited⟩
    · obtain ⟨i, hi, hgone⟩ := killed_exits hσ hreap hkilled
      exact ⟨i, Nat.le_trans hj hi, hgone⟩
  | succ n ih =>
    intro k hclosed hrunning hlength
    rcases Nat.lt_or_ge (σ.state k).queue.length (n + 1) with hlt | hge
    · exact ih k hclosed hrunning (by omega)
    have hfull : (σ.state k).queue.length = n + 1 := by omega
    obtain ⟨j, hj, hnext⟩ := hσ.wf1
      (P := fun c => c.closed = true ∧ c.child = .running ∧ c.queue.length = n + 1)
      (Q := fun c => c.child = .exited ∨ c.child = .killed ∨
        (c.closed = true ∧ c.child = .running ∧ c.queue.length ≤ n)) hhandle
      (fun c hc => by
        obtain ⟨_, hchild, hsize⟩ := hc
        cases hqueue : c.queue with
        | nil => rw [hqueue] at hsize; simp at hsize
        | cons stop rest => cases stop <;> simp [step, hchild, hqueue])
      (fun c a c' hc _ hstep => by
        obtain ⟨hsame, _, _, hexited | hkilled | ⟨hstill, _, hshorter⟩⟩ := step_cases hstep
        · exact .inr (.inl hexited)
        · exact .inr (.inr (.inl hkilled))
        · exact .inr (.inr (.inr ⟨hsame.trans hc.1, hstill, by omega⟩)))
      (fun c c' hc hstep => by
        obtain ⟨hsame, _, _, hexited | hkilled | ⟨hstill, _, hshorter⟩⟩ := step_cases hstep
        · exact .inl hexited
        · exact .inr (.inl hkilled)
        · exact .inr (.inr ⟨hsame.trans hc.1, hstill, by omega⟩))
      ⟨hclosed, hrunning, hfull⟩
    rcases hnext with hexited | hkilled | ⟨hclosed', hrunning', hlength'⟩
    · exact ⟨j, hj, .inr hexited⟩
    · obtain ⟨i, hi, hgone⟩ := killed_exits hσ hreap hkilled
      exact ⟨i, Nat.le_trans hj hi, hgone⟩
    · obtain ⟨i, hi, hgone⟩ := ih j hclosed' hrunning' hlength'
      exact ⟨i, Nat.le_trans hj hi, hgone⟩

theorem doomed_exits (hσ : σ.Of step Anything init) (hhandle : σ.Fair step .handle)
    (hreap : σ.Fair step .reap) (hdoomed : Doomed init) : ∃ j, Gone (σ.state j) := by
  rw [← hσ.start] at hdoomed
  rcases hdoomed with hgone | hclosed
  · exact ⟨0, hgone⟩
  cases hchild : (σ.state 0).child with
  | none => exact ⟨0, .inl hchild⟩
  | exited => exact ⟨0, .inr hchild⟩
  | killed =>
    obtain ⟨j, _, hgone⟩ := killed_exits hσ hreap hchild
    exact ⟨j, hgone⟩
  | running =>
    obtain ⟨j, _, hgone⟩ := closed_exits hσ hhandle hreap _ 0 hclosed hchild (Nat.le_refl _)
    exact ⟨j, hgone⟩

end ThisConnect.Session.Process
