/-
  ThisConnect.Session.Ownership
  **WHAT IS SHARED BELONGS TO THE LATEST ATTEMPT.**
-/
import ThisConnect.Session.Enders

namespace ThisConnect.Session

open Function (update)

/-! ## §1. The condition. -/

/-- What a run must keep to for the sessions to stay apart: a loss is reported by the session that is
connected, or by the latest one once the cell is free, no challenge expires while its attempt is
being removed or is still prompted for, and every other step is `Orderly`. -/
def Apart (w : World) : Act → Prop
  | .loss s _ =>
    (w.cell = .connected ∧ w.active = some s) ∨ (w.cell.isFree = true ∧ s + 1 = w.next)
  | .expire k => (w.attempts k).removal = none ∧ k ∉ w.prompts
  | a => Orderly w a

instance (w : World) (a : Act) : Decidable (Apart w a) :=
  match a with
  | .loss s _ =>
    inferInstanceAs (Decidable ((w.cell = .connected ∧ w.active = some s) ∨
      (w.cell.isFree = true ∧ s + 1 = w.next)))
  | .expire k => inferInstanceAs (Decidable ((w.attempts k).removal = none ∧ k ∉ w.prompts))
  | .connect => inferInstanceAs (Decidable (Orderly w .connect))
  | .attempt k move => inferInstanceAs (Decidable (Orderly w (.attempt k move)))
  | .push k => inferInstanceAs (Decidable (Orderly w (.push k)))
  | .tear k => inferInstanceAs (Decidable (Orderly w (.tear k)))
  | .remove k => inferInstanceAs (Decidable (Orderly w (.remove k)))
  | .disconnect => inferInstanceAs (Decidable (Orderly w .disconnect))
  | .signal d => inferInstanceAs (Decidable (Orderly w (.signal d)))
  | .disconnectEnd d => inferInstanceAs (Decidable (Orderly w (.disconnectEnd d)))
  | .bytes s i o => inferInstanceAs (Decidable (Orderly w (.bytes s i o)))
  | .lossEnd s => inferInstanceAs (Decidable (Orderly w (.lossEnd s)))

theorem Apart.orderly {w : World} {a : Act} (h : Apart w a) : Orderly w a := by
  cases a with
  | loss s reason => exact h.imp_right And.left
  | expire k => exact trivial
  | _ => exact h

/-! ## §2. Ownership. -/

def Pc.binds : Pc → Bool
  | .secured | .cleared | .established | .committed => true
  | .noted | .stored | .live | .unwinding _ => true
  | _ => false

def Teardown.beforeRemoval : Teardown → Bool
  | .none | .running _ .stop | .running _ .reset | .running _ .submit => true
  | _ => false

/-- A prompt of this attempt may be out. -/
def Attempt.mayPrompt (a : Attempt) : Bool :=
  match a.pc with
  | .asking => true
  | .unwinding _ => a.teardown != .finished
  | _ => false

structure Attempt.Own (a : Attempt) (k : Nat) : Prop where
  behalf : ∀ b stage, a.teardown = .running b stage → b = k
  removal : ∀ b, a.removal = some b → a.teardown = .running b .removing
  binding : a.binding = true → a.pc.binds = true ∧ a.teardown.beforeRemoval = true

/-- What is shared is `k`'s. -/
structure Owned (w : World) (k : Nat) (a : Attempt) : Prop where
  installed : ∀ j, w.installed = some j → j = k ∧ (a.binding = true ∨ a.removal ≠ none)
  prompts : w.prompts = [] ∨ (w.prompts = [k] ∧ a.mayPrompt = true)
  capture : a.pc.isBound = true → w.capture = none ∨ w.capture = some k

def World.claimant (w : World) : Claim → Nat
  | .disconnect d => w.behalf d
  | .loss s => s

/-- What is shared belongs to the latest attempt, and so do its publications and claims. -/
structure Tidy (w : World) : Prop where
  own : ∀ k, (w.attempts k).Own k
  owned : ∀ k, k + 1 = w.next → Owned w k (w.attempts k)
  unused : w.next = 0 → w.installed = none ∧ w.prompts = []
  setBy : ∀ j, w.setBy = some j → j + 1 = w.next
  unset : w.setBy = none → w.cell = .disconnected
  claimant : ∀ c e, w.ender c = some e → w.claimant c + 1 = w.next

theorem tidy_start : Tidy World.start where
  own := fun _ => ⟨fun _ _ h => (by cases h), fun _ h => (by cases h), fun h => (by cases h)⟩
  owned := fun _ h => (by cases h)
  unused := fun _ => ⟨rfl, rfl⟩
  setBy := fun _ h => (by cases h)
  unset := fun _ => rfl
  claimant := fun c _ h => by cases c <;> cases h

section Attempts

variable {w w' : World} {k : Nat} {a a' : Attempt}

theorem Attempt.Own.removal_eq_none (h : a.Own k) (htd : ∀ b, a.teardown ≠ .running b .removing) :
    a.removal = none := by
  cases hr : a.removal with
  | none => rfl
  | some b => exact absurd (h.removal b hr) (htd b)

theorem Attempt.Own.of_pc (h : a.Own k) (htd : a'.teardown = a.teardown)
    (hremoval : a'.removal = a.removal) (hbinding : a'.binding = a.binding)
    (hpc : a.binding = true → a.pc.binds = true → a.teardown.beforeRemoval = true →
      a'.pc.binds = true) : a'.Own k where
  behalf := by rw [htd]; exact h.behalf
  removal := by rw [htd, hremoval]; exact h.removal
  binding := by
    rw [hbinding, htd]
    intro hb
    exact ⟨hpc hb (h.binding hb).1 (h.binding hb).2, (h.binding hb).2⟩

theorem Attempt.Own.begin (h : a.Own k) (hnone : a.teardown = .none)
    (htd : a'.teardown = .running k .stop) (hremoval : a'.removal = a.removal)
    (hbinding : a'.binding = a.binding)
    (hpc : a.pc.binds = true → a'.pc.binds = true) : a'.Own k where
  behalf := by
    intro b stage hb
    rw [htd] at hb
    injection hb with hb
    exact hb.symm
  removal := by
    rw [hremoval, h.removal_eq_none (by simp [hnone])]
    simp
  binding := by
    rw [hbinding, htd]
    intro hb
    exact ⟨hpc (h.binding hb).1, rfl⟩

theorem Owned.of_pc (h : Owned w k a) (hinstalled : w'.installed = w.installed)
    (hprompts : w'.prompts = w.prompts)
    (hcapture : w'.capture = none ∨
      (w'.capture = w.capture ∧ (a'.pc.isBound = true → a.pc.isBound = true)))
    (hremoval : a'.removal = a.removal) (hbinding : a'.binding = a.binding)
    (hprompt : a.mayPrompt = true → a'.mayPrompt = true) : Owned w' k a' where
  installed := by rw [hinstalled, hremoval, hbinding]; exact h.installed
  prompts := by
    rw [hprompts]
    exact h.prompts.imp_right fun ⟨hp, hm⟩ => ⟨hp, hprompt hm⟩
  capture := by
    intro hb
    rcases hcapture with hc | ⟨hc, hbound⟩
    · exact .inl hc
    · rw [hc]
      exact h.capture (hbound hb)

theorem Tidy.signed (h : Tidy w)
    (hset : (w'.cell = w.cell ∧ w'.setBy = w.setBy) ∨ (w'.setBy = some k ∧ k + 1 = w.next)) :
    (∀ j, w'.setBy = some j → j + 1 = w.next) ∧ (w'.setBy = none → w'.cell = .disconnected) := by
  rcases hset with ⟨hc, hs⟩ | ⟨hs, hk⟩
  · rw [hs, hc]
    exact ⟨h.setBy, h.unset⟩
  · rw [hs]
    exact ⟨fun j hj => by injection hj with hj; omega, fun hnone => by cases hnone⟩

theorem Tidy.move (h : Tidy w) (hlt : k < w.next) (hframe : Frame w w')
    (hbehalf : w'.behalf = w.behalf) (hattempts : w'.attempts = update w.attempts k a)
    (hender : a.supervisor.ender = (w.attempts k).supervisor.ender) (hown : a.Own k)
    (howned : k + 1 = w.next → Owned w' k a)
    (hshared : k + 1 = w.next ∨ (w'.installed = w.installed ∧ w'.prompts = w.prompts ∧
      w'.capture = w.capture))
    (hset : (w'.cell = w.cell ∧ w'.setBy = w.setBy) ∨ (w'.setBy = some k ∧ k + 1 = w.next)) :
    Tidy w' where
  own := by
    rw [hattempts]
    exact (Function.forall_update_iff w.attempts fun j a => a.Own j).mpr
      ⟨hown, fun j _ => h.own j⟩
  owned := by
    rw [hframe.next, hattempts]
    refine (Function.forall_update_iff w.attempts fun j a => j + 1 = w.next → Owned w' j a).mpr
      ⟨howned, fun j hjk hj => ?_⟩
    rcases hshared with hk | ⟨hi, hp, hc⟩
    · exact absurd (by omega) hjk
    · exact (h.owned j hj).of_pc hi hp (.inr ⟨hc, id⟩) rfl rfl id
  unused := by
    intro hzero
    rw [hframe.next] at hzero
    omega
  setBy := by
    rw [hframe.next]
    exact (h.signed hset).1
  unset := (h.signed hset).2
  claimant := by
    have hclaimant : w'.claimant = w.claimant := by
      funext c
      cases c <;> simp [World.claimant, hbehalf]
    rw [hframe.next, hclaimant, ender_update hframe.disconnects hattempts hender]
    exact h.claimant

end Attempts

/-! ## §3. Steps of a connect call. -/

section Connect

variable {w w' : World} {slot : Slot} {k : Nat} {a : Attempt}

theorem Tidy.try_move (h : Tidy w) (hk : k + 1 = w.next) (hframe : Frame w w')
    (hbehalf : w'.behalf = w.behalf) (hattempts : w'.attempts = update w.attempts k a)
    (hsame : a.supervisor = (w.attempts k).supervisor)
    (htd : a.teardown = (w.attempts k).teardown) (hremoval : a.removal = (w.attempts k).removal)
    (hbinding : a.binding = (w.attempts k).binding)
    (hbinds : (w.attempts k).pc.binds = true → a.pc.binds = true)
    (hprompt : (w.attempts k).mayPrompt = true → a.mayPrompt = true)
    (hinstalled : w'.installed = w.installed) (hprompts : w'.prompts = w.prompts)
    (hcapture : w'.capture = none ∨
      (w'.capture = w.capture ∧ (a.pc.isBound = true → (w.attempts k).pc.isBound = true)))
    (hset : (w'.cell = w.cell ∧ w'.setBy = w.setBy) ∨ w'.setBy = some k) : Tidy w' :=
  h.move (by omega) hframe hbehalf hattempts (by rw [hsame])
    ((h.own k).of_pc htd hremoval hbinding fun _ hp _ => hbinds hp)
    (fun _ => (h.owned k hk).of_pc hinstalled hprompts hcapture hremoval hbinding hprompt)
    (.inl hk) (hset.imp_right fun hs => ⟨hs, hk⟩)

theorem Tidy.try_unwind (h : Tidy w) (hk : k + 1 = w.next)
    (hnone : (w.attempts k).teardown = .none) (hbound : (w.attempts k).pc.isBound = true)
    (error : SessionError) : Tidy (w.setAttempt k ((w.attempts k).unwind k error)) :=
  h.move (by omega) ⟨rfl, rfl, rfl, fun _ => .inl⟩ rfl rfl rfl
    ((h.own k).begin hnone rfl rfl rfl fun _ => rfl)
    (fun _ => (h.owned k hk).of_pc rfl rfl (.inr ⟨rfl, fun _ => hbound⟩) rfl rfl fun _ => rfl)
    (.inl hk) (.inl ⟨rfl, rfl⟩)

theorem tidy_unwind (hrel : Rel w slot) (h : Tidy w) (hpc : (w.attempts k).pc.unwinds = true)
    (error : SessionError) : Tidy (w.setAttempt k ((w.attempts k).unwind k error)) := by
  have htrying : (w.attempts k).pc.isTrying = true ∧ (w.attempts k).pc.isBound = true := by
    cases hp : (w.attempts k).pc <;> rw [hp] at hpc <;> first | exact ⟨rfl, rfl⟩ | cases hpc
  obtain ⟨_, ht, hk⟩ := hrel.slot_of_trying htrying.1
  exact h.try_unwind hk (ht.teardown_none hpc) htrying.2 error

theorem Tidy.try_publish (h : Tidy w) (hk : k + 1 = w.next) (state : SessionState) {pc : Pc}
    (hbinds : (w.attempts k).pc.binds = true → pc.binds = true)
    (hprompt : (w.attempts k).mayPrompt = false)
    (hbound : pc.isBound = true → (w.attempts k).pc.isBound = true) :
    Tidy ((w.publish state k).setAttempt k { w.attempts k with pc }) := by
  refine h.try_move (a := { w.attempts k with pc }) hk (.publish w state k _)
    (by simp [World.setAttempt]) (by simp [World.setAttempt]) rfl rfl rfl rfl hbinds
    (by simp [hprompt]) (by simp [World.setAttempt]) (by simp [World.setAttempt])
    (.inr ⟨by simp [World.setAttempt], hbound⟩) ?_
  simpa [World.setAttempt] using publish_setBy w state k

theorem Attempt.idle_of_passes (hpc : a.pc.passes = true) :
    a.pc.binds = false ∧ a.mayPrompt = false := by
  unfold Attempt.mayPrompt
  cases hp : a.pc <;> rw [hp] at hpc <;> first | exact ⟨rfl, rfl⟩ | cases hpc

theorem tidy_attempt {move : Move} (hrel : Rel w slot) (h : Tidy w)
    (hstep : attemptStep w k move = some w') : Tidy w' := by
  have hframe : ∀ j, w.cancelTo = some j → w.cancelTo = some j ∨ j < w.next := fun _ => .inl
  have hlast (hp : (w.attempts k).pc.isTrying = true) : k + 1 = w.next :=
    (hrel.slot_of_trying hp).2.2
  cases moved_of_attemptStep hrel hstep with
  | pass hpc hpc' hkeeps htrying hcancel hcapture hshown =>
    have hk := hlast (Pc.isTrying_of_passes hpc).1
    obtain ⟨hbinds, hprompt⟩ := Attempt.idle_of_passes hpc
    refine h.try_move hk ⟨rfl, rfl, rfl, fun j hj => ?_⟩ rfl rfl hkeeps.supervisor hkeeps.teardown
      hkeeps.removal hkeeps.binding (by simp [hbinds]) (by simp [hprompt]) rfl rfl hcapture
      (.inl ⟨rfl, rfl⟩)
    rcases hcancel with hc | hc
    · exact .inl (hc.symm.trans hj)
    · injection hc.symm.trans hj with hj
      exact .inr (by omega)
  | unwind hpc error => exact tidy_unwind hrel h hpc error
  | enter hpc =>
    exact h.try_publish (hlast (by rw [hpc]; rfl)) _ (by simp [hpc, Pc.binds])
      (by simp [hpc, Attempt.mayPrompt]) (by simp [hpc, Pc.isBound])
  | ask hpc =>
    have hk := hlast (by rw [hpc]; rfl)
    have howned := h.owned k hk
    have hempty : w.prompts = [] := by simpa [hpc, Attempt.mayPrompt] using howned.prompts
    refine h.move (by omega) ⟨rfl, rfl, rfl, hframe⟩ rfl rfl rfl ?_ (fun _ => ?_) (.inl hk)
      (.inl ⟨rfl, rfl⟩)
    · exact (h.own k).of_pc rfl rfl rfl (by simp [hpc, Pc.binds])
    · exact ⟨howned.installed, .inr ⟨by simp [World.setAttempt, hempty], rfl⟩,
        fun _ => howned.capture (by rw [hpc]; rfl)⟩
  | answer hpc =>
    have hk := hlast (by rw [hpc]; rfl)
    have howned := h.owned k hk
    have hempty : w.prompts.erase k = [] := by
      rcases howned.prompts with hp | ⟨hp, _⟩ <;> simp [hp]
    refine h.move (by omega) ⟨rfl, rfl, rfl, hframe⟩ rfl rfl rfl ?_ (fun _ => ?_) (.inl hk)
      (.inl ⟨rfl, rfl⟩)
    · exact (h.own k).of_pc rfl rfl rfl (by simp [hpc, Pc.binds])
    · exact ⟨howned.installed, .inl hempty, fun _ => howned.capture (by rw [hpc]; rfl)⟩
  | install hpc =>
    obtain ⟨_, ht, hk⟩ := hrel.slot_of_trying (k := k) (by rw [hpc]; rfl)
    have hnone : (w.attempts k).teardown = .none := by
      simp only [Attempt.Trying, hpc] at ht
      exact ht.1
    have howned := h.owned k hk
    have hempty : w.prompts = [] := by simpa [hpc, Attempt.mayPrompt] using howned.prompts
    refine h.move (by omega) ⟨rfl, rfl, rfl, hframe⟩ rfl rfl rfl ?_ (fun _ => ?_) (.inl hk)
      (.inl ⟨rfl, rfl⟩)
    · refine ⟨(h.own k).behalf, (h.own k).removal, fun _ => ⟨rfl, ?_⟩⟩
      simp [hnone, Teardown.beforeRemoval]
    · refine ⟨fun j hj => ⟨?_, .inl rfl⟩, .inl hempty, fun _ => howned.capture (by rw [hpc]; rfl)⟩
      injection hj with hj
      exact hj.symm
  | clear hpc | publish hpc =>
    exact h.try_move (hlast (by rw [hpc]; rfl)) ⟨rfl, rfl, rfl, hframe⟩ rfl rfl rfl rfl rfl rfl
      (by simp [Pc.binds]) (by simp [hpc, Attempt.mayPrompt]) rfl rfl
      (.inr ⟨rfl, by simp [hpc, Pc.isBound]⟩) (.inl ⟨rfl, rfl⟩)
  | commit _ hpc =>
    exact h.try_publish (hlast (by rw [hpc]; rfl)) _ (by simp [Pc.binds])
      (by simp [hpc, Attempt.mayPrompt]) (by simp [hpc, Pc.isBound])
  | note hpc =>
    obtain ⟨_, _, _, hk⟩ := hrel.slot_of_committed (.inl hpc)
    exact h.try_move hk ⟨rfl, rfl, rfl, hframe⟩ rfl rfl rfl rfl rfl rfl
      (by simp [Pc.binds]) (by simp [hpc, Attempt.mayPrompt]) rfl rfl
      (.inr ⟨rfl, by simp [hpc, Pc.isBound]⟩) (.inl ⟨rfl, rfl⟩)
  | store hpc =>
    obtain ⟨_, _, _, hk⟩ := hrel.slot_of_committed (.inr hpc)
    exact h.try_move hk ⟨rfl, rfl, rfl, hframe⟩ rfl rfl rfl rfl rfl rfl
      (by simp [Pc.binds]) (by simp [hpc, Attempt.mayPrompt]) rfl rfl
      (.inr ⟨rfl, by simp [hpc, Pc.isBound]⟩) (.inl ⟨rfl, rfl⟩)
  | supervise hpc =>
    -- another attempt may have begun in the meantime
    have hlt : k < w.next := hrel.lt_next (by simp [hpc])
    have hnone : (w.attempts k).supervisor = .none := hrel.unwatched k (by simp [hpc])
    refine h.move hlt ⟨rfl, rfl, rfl, hframe⟩ rfl rfl (by rw [hnone]; rfl) ?_ (fun hk => ?_)
      (.inr ⟨rfl, rfl, rfl⟩) (.inl ⟨rfl, rfl⟩)
    · exact (h.own k).of_pc rfl rfl rfl (by simp [Pc.binds])
    · exact (h.owned k hk).of_pc rfl rfl (.inr ⟨rfl, by simp [hpc, Pc.isBound]⟩) rfl rfl
        (by simp [hpc, Attempt.mayPrompt])
  | unwound hpc htd =>
    have hk := hlast (by rw [hpc]; rfl)
    refine h.move (by omega) ⟨rfl, rfl, rfl, hframe⟩ rfl rfl rfl ?_ (fun _ => ?_) (.inl hk)
      (.inl ⟨rfl, rfl⟩)
    · exact (h.own k).of_pc rfl rfl rfl (by simp [htd, Teardown.beforeRemoval])
    · exact (h.owned k hk).of_pc rfl rfl (.inr ⟨rfl, by simp [Pc.isBound]⟩) rfl rfl
        (by simp [hpc, htd, Attempt.mayPrompt])
  | announce hpc =>
    exact h.try_publish (hlast (by rw [hpc]; rfl)) _ (by simp [hpc, Pc.binds])
      (by simp [hpc, Attempt.mayPrompt]) (by simp [Pc.isBound])

end Connect

/-! ## §4. Teardowns. -/

section Teardown

variable {w w' : World} {slot : Slot} {k b : Nat} {stage stage' : Stage} {a : Attempt}

theorem mayPrompt_congr {a a' : Attempt} (hpc : a'.pc = a.pc)
    (htd : a'.teardown = .finished → a.teardown = .finished) (h : a.mayPrompt = true) :
    a'.mayPrompt = true := by
  unfold Attempt.mayPrompt at h ⊢
  rw [hpc]
  cases hp : a.pc <;> simp only [hp] at h ⊢ <;>
    first
      | exact h
      | exact bne_iff_ne.mpr fun hf => bne_iff_ne.mp h (htd hf)

theorem Held.bound_of_tearing (h : Held w slot) (htd : (w.attempts k).teardown = .running b stage) :
    (w.attempts k).pc.isBound = true := by
  rcases (h.slot_of_tearing htd).2 with ⟨_, e, he⟩ | ⟨_, _, hp | hp⟩
  · rw [he]; rfl
  · rw [hp]; rfl
  · rw [hp]; rfl

theorem Tidy.tear_move (hrel : Rel w slot) (h : Tidy w)
    (htd : (w.attempts k).teardown = .running b stage) (hframe : Frame w w')
    (hbehalf : w'.behalf = w.behalf) (hattempts : w'.attempts = update w.attempts k a)
    (hsame : a.supervisor = (w.attempts k).supervisor) (hown : b = k → a.Own k)
    (howned : Owned w k (w.attempts k) → Owned w' k a)
    (hset : w'.cell = w.cell ∧ w'.setBy = w.setBy) : Tidy w' := by
  have hk : k + 1 = w.next := (hrel.slot_of_tearing htd).1
  exact h.move (by omega) hframe hbehalf hattempts (by rw [hsame])
    (hown ((h.own k).behalf b stage htd)) (fun _ => howned (h.owned k hk)) (.inl hk) (.inl hset)

theorem Attempt.Own.unbound {a : Attempt} (h : a.Own k)
    (htd : a.teardown.beforeRemoval = false) : a.binding = false := by
  cases hb : a.binding with
  | false => rfl
  | true =>
    have hbefore := (h.binding hb).2
    rw [htd] at hbefore
    cases hbefore

theorem Owned.installed_eq_none {a : Attempt} (h : Owned w k a) (hbinding : a.binding = false)
    (hremoval : a.removal = none) : w.installed = none := by
  cases hi : w.installed with
  | none => rfl
  | some j =>
    rcases (h.installed j hi).2 with hb | hr
    · rw [hbinding] at hb
      cases hb
    · exact absurd hremoval hr

theorem tidy_late (hrel : Rel w slot) (h : Tidy w)
    (htd : (w.attempts k).teardown = .running b stage)
    (hlate : (Teardown.running b stage).beforeRemoval = false)
    (hremoval : (w.attempts k).removal = none) (hframe : Frame w w')
    (hbehalf : w'.behalf = w.behalf) (hattempts : w'.attempts = update w.attempts k a)
    (hsame : a.supervisor = (w.attempts k).supervisor) (hpc : a.pc = (w.attempts k).pc)
    (hon : (∃ stage', a.teardown = .running b stage') ∨ a.teardown = .finished)
    (hbindingA : a.binding = (w.attempts k).binding)
    (hremovalA : a.removal = (w.attempts k).removal)
    (hinstalled : w'.installed = w.installed) (hcapture : w'.capture = w.capture)
    (hprompts : w'.prompts = [] ∨ (w'.prompts = w.prompts ∧ a.teardown ≠ .finished))
    (hset : w'.cell = w.cell ∧ w'.setBy = w.setBy) : Tidy w' := by
  have hbinding : (w.attempts k).binding = false := (h.own k).unbound (by rw [htd]; exact hlate)
  refine h.tear_move hrel htd hframe hbehalf hattempts hsame (fun hb => ⟨?_, ?_, ?_⟩)
    (fun howned => ⟨?_, ?_, ?_⟩) hset
  · intro b' stage' htd'
    rcases hon with ⟨stage'', hon⟩ | hon
    · rw [hon] at htd'
      injection htd' with hbb
      exact hbb.symm.trans hb
    · rw [hon] at htd'
      cases htd'
  · rw [hremovalA, hremoval]
    simp
  · rw [hbindingA, hbinding]
    simp
  · intro j hj
    rw [hinstalled, howned.installed_eq_none hbinding hremoval] at hj
    cases hj
  · rcases hprompts with hp | ⟨hp, hfinished⟩
    · exact .inl hp
    · rw [hp]
      exact howned.prompts.imp_right fun ⟨hk, hm⟩ =>
        ⟨hk, mayPrompt_congr hpc (fun hf => absurd hf hfinished) hm⟩
  · intro _
    rw [hcapture]
    exact howned.capture (hrel.bound_of_tearing htd)

theorem Tidy.tear_early (hrel : Rel w slot) (h : Tidy w)
    (htd : (w.attempts k).teardown = .running b stage) (hstage : stage ≠ .removing)
    {stage' : Stage} (hbinding : (w.attempts k).binding = true →
      (Teardown.running b stage').beforeRemoval = true) (hframe : Frame w w')
    (hbehalf : w'.behalf = w.behalf)
    (hattempts : w'.attempts =
      update w.attempts k { w.attempts k with teardown := .running b stage' })
    (hinstalled : w'.installed = w.installed) (hprompts : w'.prompts = w.prompts)
    (hcapture : w'.capture = none ∨ w'.capture = w.capture)
    (hset : w'.cell = w.cell ∧ w'.setBy = w.setBy) : Tidy w' := by
  have hremoval := (h.own k).removal_eq_none fun b' hr => hstage (by
    rw [htd] at hr
    injection hr)
  refine h.tear_move hrel htd hframe hbehalf hattempts rfl (fun hb => ⟨?_, ?_, ?_⟩)
    (fun howned => ?_) hset
  · intro b' stage'' hr
    injection hr with hr
    exact hr.symm.trans hb
  · simp [hremoval]
  · exact fun hbound => ⟨((h.own k).binding hbound).1, hbinding hbound⟩
  · exact howned.of_pc hinstalled hprompts (hcapture.imp_right fun hc => ⟨hc, id⟩) rfl rfl
      (mayPrompt_congr rfl fun hf => by cases hf)

theorem tidy_tear (hrel : Rel w slot) (h : Tidy w) (hstep : tearStep w k = some w') : Tidy w' := by
  unfold tearStep at hstep
  dsimp only at hstep
  have hquiet (hne : ∀ b, (w.attempts k).teardown ≠ .running b .removing) :
      (w.attempts k).removal = none := (h.own k).removal_eq_none hne
  split at hstep
  · next htd => -- stop
    cases hstep
    exact h.tear_early hrel htd (by decide) (fun _ => rfl) ⟨rfl, rfl, rfl, fun _ => .inl⟩ rfl rfl
      rfl rfl (.inr rfl) ⟨rfl, rfl⟩
  · next htd => -- reset
    cases hstep
    exact h.tear_early hrel htd (by decide) (fun _ => rfl) ⟨rfl, rfl, rfl, fun _ => .inl⟩ rfl rfl
      rfl rfl (.inl rfl) ⟨rfl, rfl⟩
  · next htd => -- submit
    split at hstep
    · cases hstep
      refine h.tear_move hrel htd ⟨rfl, rfl, rfl, fun _ => .inl⟩ rfl rfl rfl (fun hb => ?_)
        (fun howned => ?_) ⟨rfl, rfl⟩
      · refine ⟨fun _ _ hr => ?_, fun b' hb' => ?_, fun hbinding => (by cases hbinding)⟩
        · injection hr with hr
          exact hr.symm.trans hb
        · injection hb' with hb'
          rw [← hb']
      · refine ⟨fun j hj => ⟨(howned.installed j hj).1, .inr (by simp)⟩, ?_, howned.capture⟩
        exact howned.prompts.imp_right fun ⟨hp, hm⟩ =>
          ⟨hp, mayPrompt_congr (a := w.attempts k) rfl (fun hf => (by cases hf)) hm⟩
    · next hbinding =>
      cases hstep
      exact h.tear_early hrel htd (by decide) (fun hbound => absurd hbound hbinding)
        ⟨rfl, rfl, rfl, fun _ => .inl⟩ rfl rfl rfl rfl (.inr rfl) ⟨rfl, rfl⟩
  · next htd => -- removing
    split at hstep
    · next hremoval =>
      cases hstep
      exact tidy_late hrel h htd rfl hremoval ⟨rfl, rfl, rfl, fun _ => .inl⟩ rfl rfl rfl rfl
        (.inl ⟨_, rfl⟩) rfl rfl rfl rfl (.inr ⟨rfl, by simp⟩) ⟨rfl, rfl⟩
    · cases hstep
  · next htd => -- signal
    cases hstep
    exact tidy_late hrel h htd rfl (hquiet (by simp [htd])) ⟨rfl, rfl, rfl, fun _ => .inl⟩ rfl rfl
      rfl rfl (.inl ⟨_, rfl⟩) rfl rfl rfl rfl (.inr ⟨rfl, by simp⟩) ⟨rfl, rfl⟩
  · next htd => -- terminate
    cases hstep
    exact tidy_late hrel h htd rfl (hquiet (by simp [htd])) ⟨rfl, rfl, rfl, fun _ => .inl⟩ rfl rfl
      rfl rfl (.inl ⟨_, rfl⟩) rfl rfl rfl rfl (.inr ⟨rfl, by simp⟩) ⟨rfl, rfl⟩
  · next htd => -- withdraw
    cases hstep
    exact tidy_late hrel h htd rfl (hquiet (by simp [htd])) ⟨rfl, rfl, rfl, fun _ => .inl⟩ rfl rfl
      rfl rfl (.inr rfl) rfl rfl rfl rfl (.inl rfl) ⟨rfl, rfl⟩
  · cases hstep

theorem tidy_expire (hrel : Rel w slot) (h : Tidy w) (hremoval : (w.attempts k).removal = none)
    (hprompts : k ∉ w.prompts) (hstep : expireStep w k = some w') : Tidy w' := by
  unfold expireStep at hstep
  split at hstep
  · next stage htd =>
    split at hstep
    · next hwaits =>
      cases hstep
      have hk : k + 1 = w.next := (hrel.slot_of_tearing htd).1
      have hempty : w.prompts = [] := by
        rcases (h.owned k hk).prompts with hp | ⟨hp, _⟩
        · exact hp
        · exact absurd (by simp [hp]) hprompts
      refine tidy_late hrel h htd ?_ hremoval ⟨rfl, rfl, rfl, fun _ => .inl⟩ rfl rfl rfl rfl
        (.inr rfl) rfl rfl rfl rfl (.inl hempty) ⟨rfl, rfl⟩
      cases stage <;> first | rfl | cases hwaits
    · cases hstep
  · cases hstep

theorem tidy_remove (hrel : Rel w slot) (h : Tidy w) (hstep : removeStep w k = some w') :
    Tidy w' := by
  unfold removeStep at hstep
  split at hstep
  · next hremoval =>
    cases hstep
    have htd := (h.own k).removal _ hremoval
    refine h.tear_move hrel htd ⟨rfl, rfl, rfl, fun _ => .inl⟩ rfl rfl rfl (fun _ => ?_)
      (fun howned => ⟨fun j hj => (by cases hj), howned.prompts, howned.capture⟩) ⟨rfl, rfl⟩
    exact ⟨(h.own k).behalf, fun b hb => (by cases hb), (h.own k).binding⟩
  · cases hstep

end Teardown

/-! ## §5. The tasks that end sessions. -/

section Enders

variable {w w' : World} {slot : Slot}

variable {b d s : Nat} {reason : LossReason}

theorem Tidy.still (h : Tidy w) (hattempts : w'.attempts = w.attempts) (hnext : w'.next = w.next)
    (hinstalled : w'.installed = w.installed) (hprompts : w'.prompts = w.prompts)
    (hcapture : w'.capture = w.capture)
    (hset : (w'.cell = w.cell ∧ w'.setBy = w.setBy) ∨ (w'.setBy = some b ∧ b + 1 = w.next))
    (hclaims : ∀ c e, w'.ender c = some e → w'.claimant c + 1 = w.next) : Tidy w' where
  own := by rw [hattempts]; exact h.own
  owned := by
    intro k hk
    rw [hnext] at hk
    rw [hattempts]
    exact (h.owned k hk).of_pc hinstalled hprompts (.inr ⟨hcapture, id⟩) rfl rfl id
  unused := by rw [hnext, hinstalled, hprompts]; exact h.unused
  setBy := by
    rw [hnext]
    exact (h.signed hset).1
  unset := (h.signed hset).2
  claimant := by rw [hnext]; exact hclaims

theorem Tidy.reclaim (h : Tidy w) (c : Claim) (hc : w.claimant c + 1 = w.next)
    (hown : w'.attempts = w.attempts ∨ ∃ s p, w'.attempts = update w.attempts s
      { w.attempts s with supervisor := p })
    (hnext : w'.next = w.next) (hinstalled : w'.installed = w.installed)
    (hprompts : w'.prompts = w.prompts) (hcapture : w'.capture = w.capture)
    (hcell : w'.cell = w.cell) (hset : w'.setBy = w.setBy) (hbehalf : w'.behalf = w.behalf)
    (hothers : ∀ c', c' ≠ c → w'.ender c' = w.ender c') : Tidy w' := by
  have hclaimant (c' : Claim) : w'.claimant c' = w.claimant c' := by
    cases c' <;> simp [World.claimant, hbehalf]
  have hclaims : ∀ c' e, w'.ender c' = some e → w'.claimant c' + 1 = w.next := by
    intro c' e he
    rw [hclaimant]
    by_cases hcc : c' = c
    · exact hcc ▸ hc
    · exact h.claimant c' e ((hothers c' hcc) ▸ he)
  rcases hown with hown | ⟨s, p, hown⟩
  · exact h.still (b := 0) hown hnext hinstalled hprompts hcapture (.inl ⟨hcell, hset⟩) hclaims
  · refine ⟨?_, ?_, ?_, ?_, ?_, ?_⟩
    · rw [hown]
      exact (Function.forall_update_iff w.attempts fun j a => a.Own j).mpr
        ⟨(h.own s).of_pc rfl rfl rfl fun _ hp _ => hp, fun j _ => h.own j⟩
    · have howned : ∀ j, j + 1 = w.next → Owned w' j (w.attempts j) := fun j hj =>
        (h.owned j hj).of_pc hinstalled hprompts (.inr ⟨hcapture, id⟩) rfl rfl id
      rw [hnext, hown]
      exact (Function.forall_update_iff w.attempts fun j a => j + 1 = w.next → Owned w' j a).mpr
        ⟨fun hs => (howned s hs).of_pc rfl rfl (.inr ⟨rfl, id⟩) rfl rfl id, fun j _ => howned j⟩
    · rw [hnext, hinstalled, hprompts]
      exact h.unused
    · rw [hnext, hset]
      exact h.setBy
    · rw [hcell, hset]
      exact h.unset
    · rw [hnext]
      exact hclaims

theorem Tidy.claimant_publish (h : Tidy w) (state : SessionState) (k : Nat) (c : Claim) (e : Ender)
    (he : (w.publish state k).ender c = some e) :
    (w.publish state k).claimant c + 1 = w.next := by
  rw [publish_ender] at he
  have hclaimant := h.claimant c e he
  cases c <;> simpa [World.claimant] using hclaimant

theorem tidy_ender (hrel : Rel w slot) (h : Tidy w) (hb : b + 1 = w.next) {final : SessionState}
    {snapshot : Snapshot} {ender : Ender} {r : World × Option Ender}
    (hstep : enderStep w b final snapshot ender = some r) :
    Tidy r.1 ∧ r.1.behalf = w.behalf ∧ r.1.next = w.next := by
  unfold enderStep at hstep
  split at hstep
  · split at hstep
    · next j hactive =>
      cases hstep
      refine ⟨?_, rfl, rfl⟩
      -- the session in `active` is the latest too
      have hserving : ∃ c, slot = .serving j c := by
        have hholds : slot.holds = some j := hrel.active.symm.trans hactive
        cases slot with
        | serving i c =>
          injection hholds with hij
          exact ⟨c, by rw [hij]⟩
        | _ => cases hholds
      obtain ⟨c, rfl⟩ := hserving
      have hj : j + 1 = w.next := hrel.occupant j rfl
      have hrole := hrel.role j (by omega)
      simp only [Slot.role, if_true] at hrole
      have hbj : b = j := by omega
      subst hbj
      refine h.move (k := b) (by omega) ⟨rfl, rfl, rfl, fun _ => .inl⟩ rfl rfl rfl ?_ (fun _ => ?_)
        (.inl hj) (.inl ⟨rfl, rfl⟩)
      · exact (h.own b).begin hrole.2 rfl rfl rfl id
      · exact (h.owned b hj).of_pc rfl rfl (.inr ⟨rfl, id⟩) rfl rfl
          (mayPrompt_congr rfl fun hf => (by cases hf))
    · cases hstep
      exact ⟨h, rfl, rfl⟩
  · split at hstep
    · cases hstep
      exact ⟨h, rfl, rfl⟩
    · cases hstep
  · cases hstep
    exact ⟨h.still (b := 0) rfl rfl rfl rfl rfl (.inl ⟨rfl, rfl⟩) h.claimant, rfl, rfl⟩
  · cases hstep
    refine ⟨?_, by simp, by simp⟩
    refine h.still (b := b) (by simp) (by simp) (by simp) (by simp) (by simp) ?_ ?_
    · exact (publish_setBy w final b).imp_right fun hs => ⟨hs, hb⟩
    · exact h.claimant_publish final b

theorem tidy_disconnectEnd (hrel : Rel w slot) (h : Tidy w)
    (hstep : disconnectEndStep w d = some w') : Tidy w' := by
  unfold disconnectEndStep at hstep
  split at hstep
  · next ender hd =>
    obtain ⟨r, hr, rfl⟩ := Option.map_eq_some_iff.mp hstep
    have hb : w.behalf d + 1 = w.next :=
      h.claimant (.disconnect d) ender (by simp [World.ender, hd, Disconnect.ender])
    obtain ⟨htidy, hbehalf, hnext⟩ := tidy_ender hrel h hb hr
    refine htidy.reclaim (.disconnect d) ?_ (.inl rfl) rfl rfl rfl rfl rfl rfl rfl ?_
    · simpa [World.claimant, hbehalf, hnext] using hb
    · exact fun c' hne => ender_setDisconnect _ _ hne
  · cases hstep

theorem tidy_lossEnd (hrel : Rel w slot) (h : Tidy w) (hstep : lossEndStep w s = some w') :
    Tidy w' := by
  unfold lossEndStep at hstep
  split at hstep
  · next reason ender hs =>
    obtain ⟨r, hr, rfl⟩ := Option.map_eq_some_iff.mp hstep
    have hb : s + 1 = w.next :=
      h.claimant (.loss s) ender (by simp [World.ender, hs, Supervisor.ender])
    obtain ⟨htidy, hbehalf, hnext⟩ := tidy_ender hrel h hb hr
    refine htidy.reclaim (.loss s) ?_ (.inr ⟨s, _, rfl⟩) rfl rfl rfl rfl rfl rfl rfl ?_
    · simpa [World.claimant, hnext] using hb
    · exact fun c' hne => ender_setAttempt _ _ hne
  · cases hstep

theorem Apart.loss_latest (h : Apart w (.loss s reason)) (hrel : Rel w slot) : s + 1 = w.next := by
  rcases h with ⟨hcell, hactive⟩ | ⟨_, hs⟩
  · have hslot := hrel.slot_of_active hactive hcell
    subst hslot
    exact hrel.occupant s rfl
  · exact hs

theorem tidy_loss (h : Tidy w) (hs : s + 1 = w.next) (hstep : lossStep w s reason = some w') :
    Tidy w' := by
  unfold lossStep at hstep
  split at hstep
  · cases hstep
    have hpublished : Tidy (w.publish .disconnecting s) := by
      refine h.still (b := s) (by simp) (by simp) (by simp) (by simp) (by simp) ?_ ?_
      · exact (publish_setBy w .disconnecting s).imp_right fun hset => ⟨hset, hs⟩
      · exact h.claimant_publish .disconnecting s
    refine hpublished.reclaim (.loss s) (by simpa [World.claimant] using hs)
      (.inr ⟨s, .ending reason .taking, by simp [World.setAttempt]⟩) rfl rfl rfl rfl rfl rfl rfl ?_
    exact fun c' hne => ender_setAttempt _ _ hne
  · cases hstep

theorem tidy_disconnect (h : Tidy w) (hstep : step w .disconnect = some w') :
    Tidy w' := by
  simp only [step] at hstep
  split at hstep
  · next state hbegin =>
    cases hstep
    -- the state was not the initial one, so some attempt has been made
    have hsome : w.next - 1 + 1 = w.next := by
      cases hset : w.setBy with
      | some j =>
        have hj := h.setBy j hset
        omega
      | none =>
        rw [h.unset hset] at hbegin
        cases hbegin
    refine h.still (b := w.next - 1) (by simp [World.setDisconnect]) (by simp [World.setDisconnect])
      (by simp [World.setDisconnect]) (by simp [World.setDisconnect])
      (by simp [World.setDisconnect]) ?_ ?_
    · simpa [World.setDisconnect, hsome] using publish_setBy w state (w.next - 1)
    · intro c e he
      cases c with
      | disconnect d =>
        by_cases hd : d = w.nextDisconnect
        · simpa [World.claimant, World.setDisconnect, hd] using hsome
        · have hclaimant := h.claimant (.disconnect d) e
            (by simpa [World.ender, World.setDisconnect, hd] using he)
          simpa [World.claimant, World.setDisconnect, hd] using hclaimant
      | loss s =>
        exact h.claimant (.loss s) e (by simpa [World.ender, World.setDisconnect] using he)
  · cases hstep
    exact h

theorem tidy_sendCancel (hrel : Rel w slot) (h : Tidy w) : Tidy w.sendCancel := by
  unfold World.sendCancel
  split
  · next j hj =>
    refine h.move (hrel.cancelTo j hj) ⟨rfl, rfl, rfl, fun _ => .inl⟩ rfl rfl rfl ?_ (fun hk => ?_)
      (.inr ⟨rfl, rfl, rfl⟩) (.inl ⟨rfl, rfl⟩)
    · exact (h.own j).of_pc rfl rfl rfl fun _ hp _ => hp
    · exact (h.owned j hk).of_pc rfl rfl (.inr ⟨rfl, id⟩) rfl rfl id
  · exact h

theorem tidy_signal (hrel : Rel w slot) (h : Tidy w) (hstep : signalStep w d = some w') :
    Tidy w' := by
  unfold signalStep at hstep
  split at hstep
  · next previous hd =>
    cases hstep
    have hc := tidy_sendCancel hrel h
    have hdc : w.sendCancel.disconnects d = .signalling previous := by
      rw [sendCancel_disconnects, hd]
    refine hc.still (b := 0) rfl rfl rfl rfl rfl (.inl ⟨rfl, rfl⟩) ?_
    rw [ender_signalled hdc]
    exact hc.claimant
  · cases hstep

end Enders

/-! ## §6. Every step. -/

section Steps

variable {w w' : World} {slot : Slot}

theorem Role.Ok.shares_nothing {a : Attempt} {k : Nat} (h : (Role.rest).Ok a) (hown : a.Own k) :
    a.binding = false ∧ a.removal = none ∧ a.mayPrompt = false := by
  refine ⟨?_, ?_, ?_⟩
  · cases hb : a.binding with
    | false => rfl
    | true =>
      obtain ⟨hbinds, hbefore⟩ := hown.binding hb
      rcases h.1 with hp | ⟨_, htd⟩
      · rw [hp] at hbinds
        cases hbinds
      · rw [htd] at hbefore
        cases hbefore
  · refine hown.removal_eq_none fun b htd => ?_
    rcases h.2.teardown with ht | ht <;> rw [ht] at htd <;> cases htd
  · rcases h.1 with hp | ⟨hp | hp, _⟩ <;> simp [Attempt.mayPrompt, hp]

theorem tidy_connect (hrel : Rel w slot) (h : Tidy w) (hstep : step w .connect = some w') :
    Tidy w' := by
  simp only [step] at hstep
  split at hstep
  · next state hbegin =>
    cases hstep
    obtain ⟨hfree, rfl⟩ : w.cell.isFree = true ∧ state = .connecting := by
      cases hc : w.cell <;> rw [hc] at hbegin <;> cases hbegin <;> exact ⟨rfl, rfl⟩
    have hslot := hrel.slot_of_isFree hfree
    subst hslot
    -- nothing shared is left over from the attempts before
    have hclean : w.installed = none ∧ w.prompts = [] := by
      cases hn : w.next with
      | zero => exact h.unused hn
      | succ k =>
        have howned := h.owned k hn.symm
        have hrole : (Role.rest).Ok (w.attempts k) := hrel.role k (by omega)
        obtain ⟨hbinding, hremoval, hprompt⟩ := hrole.shares_nothing (h.own k)
        exact ⟨howned.installed_eq_none hbinding hremoval, by
          simpa [hprompt] using howned.prompts⟩
    have hchanged : w.cell ≠ .connecting := by
      intro hc
      rw [hc] at hfree
      cases hfree
    have hsetBy : (w.publish .connecting w.next).setBy = some w.next := by
      simp [World.publish, hchanged]
    refine ⟨?_, ?_, ?_, ?_, ?_, ?_⟩
    · intro k
      by_cases hk : k = w.next
      · subst hk
        simp only [World.setAttempt, Function.update_self]
        exact ⟨fun _ _ ht => (by cases ht), fun _ hr => (by cases hr), fun hb => (by cases hb)⟩
      · simpa [World.setAttempt, hk] using h.own k
    · intro k hk
      have hkn : k + 1 = w.next + 1 := hk
      have hkw : k = w.next := by omega
      subst hkw
      simp only [World.setAttempt, publish_attempts, Function.update_self]
      refine ⟨fun j hj => ?_, .inl (by simpa using hclean.2), fun hb => (by cases hb)⟩
      simp [hclean.1] at hj
    · intro hzero
      exact absurd hzero (Nat.succ_ne_zero _)
    · intro j hj
      have hj' : (w.publish .connecting w.next).setBy = some j := hj
      rw [hsetBy] at hj'
      injection hj' with hj'
      rw [← hj']
      rfl
    · intro hnone
      have hnone' : (w.publish .connecting w.next).setBy = none := hnone
      rw [hsetBy] at hnone'
      cases hnone'
    · intro c e he
      have hsame : w.ender c = some e := by
        cases c with
        | disconnect d => simpa [World.ender, World.setAttempt] using he
        | loss s =>
          by_cases hs : s = w.next
          · simp [World.ender, World.setAttempt, hs, Supervisor.ender] at he
          · simpa [World.ender, World.setAttempt, hs] using he
      have hclaim := hrel.claims c
      rw [hsame] at hclaim
      cases hclaim.1
  · cases hstep
    exact h

theorem tidy_step {a : Act} (hrel : Rel w slot) (h : Tidy w) (hapart : Apart w a)
    (hstep : step w a = some w') : Tidy w' := by
  cases a with
  | connect => exact tidy_connect hrel h hstep
  | attempt k move => exact tidy_attempt hrel h hstep
  | push k =>
    simp only [step] at hstep
    split at hstep
    · next hstreaming =>
      cases hstep
      -- only the latest attempt still has its management stream open
      have hk : k + 1 = w.next := by
        have hlt : k < w.next := by
          by_contra hge
          rw [hrel.future k (by omega)] at hstreaming
          cases hstreaming
        by_contra hne
        have hclosed := (hrel.settled_of_ne hlt fun hocc => hne (hrel.occupant k hocc)).closed
        rw [hclosed] at hstreaming
        cases hstreaming
      refine ⟨h.own, fun j hj => ?_, h.unused, h.setBy, h.unset, h.claimant⟩
      have hjk : j = k := by
        have hj' : j + 1 = w.next := hj
        omega
      subst hjk
      exact ⟨(h.owned j hk).installed, (h.owned j hk).prompts, fun _ => .inr rfl⟩
    · cases hstep
  | tear k => exact tidy_tear hrel h hstep
  | expire k => exact tidy_expire hrel h hapart.1 hapart.2 hstep
  | remove k => exact tidy_remove hrel h hstep
  | disconnect => exact tidy_disconnect h hstep
  | signal d => exact tidy_signal hrel h hstep
  | disconnectEnd d => exact tidy_disconnectEnd hrel h hstep
  | bytes s bytesIn bytesOut =>
    simp only [step] at hstep
    split at hstep
    · cases hstep
      exact h.still (b := 0) rfl rfl rfl rfl rfl (.inl ⟨rfl, rfl⟩) h.claimant
    · cases hstep
  | loss s reason => exact tidy_loss h (hapart.loss_latest hrel) hstep
  | lossEnd s => exact tidy_lossEnd hrel h hstep

end Steps

end ThisConnect.Session
