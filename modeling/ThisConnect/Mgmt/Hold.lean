/-
  ThisConnect.Mgmt.Hold
  **WHETHER EVERY HOLD IS RELEASED.**

  Main results:
    • `hold_released` — in every execution in which the connection stays up and
      the slot keeps being emptied, a hold that found room in the outbox is
      followed by the writing of a `hold release` queued after it.
    • `hold_unreleased` — one that finds thirty-two commands there is not.
-/
import ThisConnect.Base.Fairness
import ThisConnect.Mgmt.Client

namespace ThisConnect.Mgmt

open Transition

/-! ## §1. What a step does to the outbox. -/

def Releases (i : Nat) (c : Command) : Prop := c.line = holdRelease ∧ i < c.stamp

structure Released (w : World) : Prop where
  counted : w.occupancy.length = w.holds
  release : ∀ i n, w.occupancy[i]? = some n → n < outboxLimit →
    ∃ c, (c ∈ w.outbox ∨ c ∈ w.written) ∧ Releases i c

structure Kept (w w' : World) : Prop where
  running : w'.running = w.running
  outbox : ∃ added, w'.outbox = w.outbox ++ added
  written : w'.written = w.written
  idle : w.pending = none → w'.pending = none
  released : Released w → Released w'

variable {w w' : World} {peer : Peer} {c : Command} {place : Nat}

theorem Kept.trans {w'' : World} (h : Kept w w') (h' : Kept w' w'') : Kept w w'' := by
  obtain ⟨first, hfirst⟩ := h.outbox
  obtain ⟨second, hsecond⟩ := h'.outbox
  refine ⟨h'.running.trans h.running, ⟨first ++ second, ?_⟩, h'.written.trans h.written,
    fun hnone => h'.idle (h.idle hnone), fun hreleased => h'.released (h.released hreleased)⟩
  rw [hsecond, hfirst, List.append_assoc]

theorem Kept.of_append {added : List Command} (hrunning : w'.running = w.running)
    (houtbox : w'.outbox = w.outbox ++ added) (hwritten : w'.written = w.written)
    (hidle : w.pending = none → w'.pending = none) (hholds : w'.holds = w.holds)
    (hoccupancy : w'.occupancy = w.occupancy) : Kept w w' := by
  refine ⟨hrunning, ⟨added, houtbox⟩, hwritten, hidle, fun hreleased => ⟨?_, ?_⟩⟩
  · rw [hoccupancy, hholds]
    exact hreleased.counted
  · intro i n hhold hroom
    rw [hoccupancy] at hhold
    obtain ⟨c, hmem, hc⟩ := hreleased.release i n hhold hroom
    rw [houtbox, hwritten]
    exact ⟨c, hmem.imp_left (List.mem_append_left _), hc⟩

theorem Kept.of_eq (hrunning : w'.running = w.running) (houtbox : w'.outbox = w.outbox)
    (hwritten : w'.written = w.written) (hidle : w.pending = none → w'.pending = none)
    (hholds : w'.holds = w.holds) (hoccupancy : w'.occupancy = w.occupancy) : Kept w w' :=
  Kept.of_append hrunning (houtbox.trans (List.append_nil _).symm) hwritten hidle hholds hoccupancy

theorem kept_queueRelease (w : World) : Kept w w.queueRelease := by
  unfold World.queueRelease
  by_cases hroom : w.outbox.length < outboxLimit
  · simp only [hroom, ↓reduceIte]
    refine ⟨rfl, ⟨_, rfl⟩, rfl, id, fun hreleased => ⟨by simp [hreleased.counted], ?_⟩⟩
    intro i n hhold hlimit
    by_cases hi : i < w.occupancy.length
    · rw [List.getElem?_append_left hi] at hhold
      obtain ⟨c, hmem, hc⟩ := hreleased.release i n hhold hlimit
      exact ⟨c, hmem.imp_left (List.mem_append_left _), hc⟩
    · -- the hold that came just now
      have hlast : i < w.occupancy.length + 1 := by
        have := (List.getElem?_eq_some_iff.mp hhold).1
        simpa using this
      have hcounted := hreleased.counted
      exact ⟨_, .inl (List.mem_append_right _ (List.mem_singleton_self _)), rfl,
        show i < w.holds + 1 by omega⟩
  · simp only [hroom, ↓reduceIte]
    refine ⟨rfl, ⟨[], (List.append_nil _).symm⟩, rfl, id, fun hreleased =>
      ⟨by simp [hreleased.counted], ?_⟩⟩
    intro i n hhold hlimit
    by_cases hi : i < w.occupancy.length
    · rw [List.getElem?_append_left hi] at hhold
      exact hreleased.release i n hhold hlimit
    · have hlast : i = w.occupancy.length := by
        have := (List.getElem?_eq_some_iff.mp hhold).1
        simp at this
        omega
      rw [hlast, List.getElem?_concat_length] at hhold
      injection hhold with hhold
      exact absurd (hhold ▸ hlimit) hroom

theorem kept_answerPending (w : World) (outcome : Except MgmtError CommandReply) :
    Kept w (w.answerPending outcome) := by
  unfold World.answerPending
  split
  · exact Kept.of_eq rfl rfl rfl (fun _ => rfl) rfl rfl
  · exact Kept.of_eq rfl rfl rfl (fun _ => rfl) rfl rfl

theorem running_finish (w : World) : w.finish.running = false := rfl

theorem kept_handleEvent (w : World) (event : Event) :
    Kept w (w.handleEvent event) ∨ (w.handleEvent event).running = false := by
  have hqueued : Kept w (if World.isHold event then w.queueRelease else w) := by
    split
    · exact kept_queueRelease w
    · exact Kept.of_eq rfl rfl rfl id rfl rfl
  unfold World.handleEvent
  generalize (if World.isHold event then w.queueRelease else w) = queued at hqueued ⊢
  dsimp only
  split
  · exact .inl (hqueued.trans (Kept.of_eq rfl rfl rfl id rfl rfl))
  · exact .inr (running_finish _)

theorem kept_handleLine (w : World) (line : List Char) :
    Kept w (w.handleLine line) ∨ (w.handleLine line).running = false := by
  unfold World.handleLine
  split
  · exact kept_handleEvent w _
  · split
    · exact .inl (Kept.of_eq rfl rfl rfl id rfl rfl)
    · split
      · exact .inl (Kept.of_eq rfl rfl rfl id rfl rfl)
      · refine .inl (Kept.trans ?_ (kept_answerPending _ _))
        exact Kept.of_eq rfl rfl rfl id rfl rfl

theorem kept_handleLines (lines : List (List Char)) :
    ∀ w : World, Kept w (World.handleLines lines w) ∨
      (World.handleLines lines w).running = false := by
  induction lines with
  | nil => intro w; exact .inl (Kept.of_eq rfl rfl rfl id rfl rfl)
  | cons line rest ih =>
    intro w
    unfold World.handleLines
    split
    · rcases kept_handleLine w line with hkept | hended
      · exact (ih (w.handleLine line)).imp_left hkept.trans
      · -- an actor that has ended handles no further lines
        right
        cases rest with
        | nil => exact hended
        | cons => simp [World.handleLines, hended]
    · exact .inl (Kept.of_eq rfl rfl rfl id rfl rfl)

structure Wrote (c : Command) (w w' : World) : Prop where
  running : w'.running = w.running
  head : w.outbox = c :: w'.outbox
  written : w'.written = w.written ++ [c]
  holds : w'.holds = w.holds
  occupancy : w'.occupancy = w.occupancy

/-- **What a step does to the outbox.** -/
inductive Moves (w w' : World) : Prop where
  | kept (h : Kept w w')
  | wrote (c : Command) (h : Wrote c w w')
  | ended (h : w'.running = false)

theorem kept_submit {line : List Char} {acknowledged : Bool}
    (h : w.submit line acknowledged = some w') : Kept w w' := by
  unfold World.submit at h
  split at h
  · injection h with h
    exact h ▸ Kept.of_eq rfl rfl rfl id rfl rfl
  · split at h
    · cases h
      exact Kept.of_eq rfl rfl rfl id rfl rfl
    · obtain ⟨_, ⟨⟩⟩ := some_of_guard h
      exact Kept.of_eq rfl rfl rfl id rfl rfl

theorem wrote_of_write (h : w.write peer = some w') : (∃ c, Wrote c w w') ∨ w'.running = false := by
  unfold World.write at h
  split at h
  · next command rest hpending houtbox =>
    obtain ⟨_, h⟩ := some_of_unless h
    split at h
    · injection h with h
      exact .inr (h ▸ running_finish _)
    · cases h
      exact .inl ⟨command, rfl, houtbox, rfl, rfl, rfl⟩
  · cases h

theorem moves_read {count : Nat} (h : w.read count = some w') : Moves w w' := by
  unfold World.read at h
  obtain ⟨_, h⟩ := some_of_guard h
  split at h
  · injection h with h
    exact .ended (h ▸ running_finish _)
  · next splitter lines _ =>
    cases h
    have hread : Kept w { w with splitter, toClient := w.toClient.drop count } :=
      Kept.of_eq rfl rfl rfl id rfl rfl
    rcases kept_handleLines lines _ with hkept | hended
    · exact .kept (hread.trans hkept)
    · exact .ended hended

theorem moves_ended {ended : World} {c : Prop} [Decidable c] (hended : ended.running = false)
    (h : (if c then some ended else none) = some w') : Moves w w' := by
  obtain ⟨_, h⟩ := some_of_guard h
  injection h with h
  exact .ended (h ▸ hended)

theorem step_moves {action : Action} (h : step peer w action = some w') : Moves w w' := by
  cases action with
  | send line => exact .kept (kept_submit h)
  | announce =>
    simp only [step, World.announce] at h
    split at h
    · obtain ⟨_, h⟩ := some_of_guard h
      exact .kept ((Kept.of_eq rfl rfl rfl id rfl rfl : Kept w { w with announced := true }).trans
        (kept_submit h))
    · cases h
  | enqueue =>
    simp only [step, World.enqueue] at h
    obtain ⟨_, h⟩ := some_of_guard h
    split at h
    · cases h
    · injection h with h
      exact .kept (h ▸ Kept.of_append rfl rfl rfl id rfl rfl)
  | write =>
    rcases wrote_of_write h with ⟨c, hwrote⟩ | hended
    · exact .wrote c hwrote
    · exact .ended hended
  | read count => exact moves_read h
  | expire => exact moves_ended (running_finish _) h
  | eof => exact moves_ended (running_finish _) h
  | fail => exact moves_ended (running_finish _) h
  | close => exact moves_ended (running_finish _) h
  | abort => exact moves_ended rfl h
  | take reply =>
    simp only [step, World.take] at h
    split at h
    · split at h
      · obtain ⟨_, h⟩ := some_of_guard h
        injection h with h
        exact .kept (h ▸ Kept.of_eq rfl rfl rfl id rfl rfl)
      · injection h with h
        exact .kept (h ▸ Kept.of_eq rfl rfl rfl id rfl rfl)
    · exact absurd h (by simp)
  | reply =>
    simp only [step] at h
    split at h
    · exact absurd h (by simp)
    · injection h with h
      exact .kept (h ▸ Kept.of_eq rfl rfl rfl id rfl rfl)
  | notify raw =>
    simp only [step] at h
    obtain ⟨_, h⟩ := some_of_guard h
    injection h with h
    exact .kept (h ▸ Kept.of_eq rfl rfl rfl id rfl rfl)

theorem Released.wrote (h : Released w) (hwrote : Wrote c w w') : Released w' := by
  refine ⟨by rw [hwrote.occupancy, hwrote.holds]; exact h.counted, fun i n hhold hroom => ?_⟩
  rw [hwrote.occupancy] at hhold
  obtain ⟨release, hmem, hrelease⟩ := h.release i n hhold hroom
  refine ⟨release, ?_, hrelease⟩
  rw [hwrote.head, List.mem_cons] at hmem
  rw [hwrote.written, List.mem_append, List.mem_singleton]
  rcases hmem with (hhead | hrest) | hwritten
  · exact .inr (.inr hhead)
  · exact .inl hrest
  · exact .inr (.inl hwritten)

theorem released_of_reachable (h : Reachable (step peer) Anything {} w) :
    w.running = true → Released w := by
  refine h.invariant (I := fun w => w.running = true → Released w) ?_ ?_
  · exact fun _ => ⟨rfl, fun i n hhold => absurd hhold (by simp)⟩
  · intro w action w' ih _ hstep hrunning
    cases step_moves hstep with
    | kept hkept => exact hkept.released (ih (hkept.running ▸ hrunning))
    | wrote c hwrote => exact (ih (hwrote.running ▸ hrunning)).wrote hwrote
    | ended hended => exact absurd hrunning (by simp [hended])

/-! ## §2. A queued command is written. -/

def At (c : Command) (place : Nat) (w : World) : Prop :=
  w.running = true ∧ w.outbox[place]? = some c

def Ahead (c : Command) (place : Nat) (w : World) : Prop :=
  w.running = false ∨ c ∈ w.written ∨ ∃ nearer, nearer < place ∧ w.outbox[nearer]? = some c

theorem at_wrote {head : Command} (h : At c place w) (hwrote : Wrote head w w') :
    Ahead c place w' := by
  have hplace := h.2
  rw [hwrote.head] at hplace
  cases place with
  | zero =>
    injection hplace with hplace
    refine .inr (.inl ?_)
    rw [hwrote.written, hplace]
    exact List.mem_append_right _ (List.mem_singleton_self _)
  | succ place => exact .inr (.inr ⟨place, Nat.lt_succ_self _, hplace⟩)

theorem At.kept (h : At c place w) (hkept : Kept w w') : At c place w' := by
  obtain ⟨added, hadded⟩ := hkept.outbox
  refine ⟨hkept.running.trans h.1, ?_⟩
  rw [hadded, List.getElem?_append_left (List.getElem?_eq_some_iff.mp h.2).1]
  exact h.2

theorem at_step (w : World) (action : Action) (w' : World) (h : At c place w)
    (_ : Anything w action) (hstep : step peer w action = some w') :
    At c place w' ∨ Ahead c place w' := by
  cases step_moves hstep with
  | kept hkept => exact .inl (h.kept hkept)
  | wrote head hwrote => exact .inr (at_wrote h hwrote)
  | ended hended => exact .inr (.inl hended)

theorem idle_step (w : World) (action : Action) (w' : World) (h : At c place w ∧ w.pending = none)
    (_ : Anything w action) (hstep : step peer w action = some w') :
    (At c place w' ∧ w'.pending = none) ∨ Ahead c place w' := by
  cases step_moves hstep with
  | kept hkept => exact .inl ⟨h.1.kept hkept, hkept.idle h.2⟩
  | wrote head hwrote => exact .inr (at_wrote h.1 hwrote)
  | ended hended => exact .inr (.inl hended)

theorem write_enabled (w : World) (h : At c place w ∧ w.pending = none) :
    (step peer w .write).isSome = true := by
  obtain ⟨⟨hrunning, hplace⟩, hidle⟩ := h
  cases houtbox : w.outbox with
  | nil =>
    rw [houtbox] at hplace
    exact absurd hplace (by simp)
  | cons head rest =>
    simp only [step, World.write, hidle, houtbox, hrunning]
    cases checkLineLength head.line <;> rfl

theorem write_taken (w w' : World) (h : At c place w ∧ w.pending = none)
    (hstep : step peer w .write = some w') : Ahead c place w' := by
  rcases wrote_of_write hstep with ⟨head, hwrote⟩ | hended
  · exact at_wrote h.1 hwrote
  · exact .inl hended

section

variable {σ : Execution World Action}

theorem eventually_written (hσ : σ.Of (step peer) Anything {})
    (hup : ∀ k, (σ.state k).running = true) (hwrite : σ.Fair (step peer) .write)
    (hanswered : ∀ k, ∃ j, k ≤ j ∧ (σ.state j).pending = none) (place : Nat) :
    ∀ k, (σ.state k).outbox[place]? = some c → ∃ j, k ≤ j ∧ c ∈ (σ.state j).written := by
  induction place using Nat.strong_induction_on with
  | _ place ih =>
    intro k hplace
    have hahead : ∃ j, k ≤ j ∧ Ahead c place (σ.state j) := by
      obtain ⟨j, hj, hidle⟩ := hanswered k
      obtain ⟨n, rfl⟩ := Nat.exists_eq_add_of_le hj
      rcases hσ.lasts at_step (k := k) ⟨hup k, hplace⟩ n with hat | ⟨m, _, hahead⟩
      · obtain ⟨i, hi, hahead⟩ :=
          hσ.wf1 hwrite write_enabled idle_step write_taken ⟨hat, hidle⟩
        exact ⟨i, by omega, hahead⟩
      · exact ⟨k + m, by omega, hahead⟩
    obtain ⟨j, hj, hended | hwritten | ⟨nearer, hnearer, hmoved⟩⟩ := hahead
    · exact absurd (hup j) (by simp [hended])
    · exact ⟨j, hj, hwritten⟩
    · obtain ⟨i, hi, hwritten⟩ := ih nearer hnearer j hmoved
      exact ⟨i, by omega, hwritten⟩

end

/-- **A hold that finds room is released.**  In every execution in which the connection stays up,
    the actor keeps running and every command is answered, the hold with index `i` is followed by
    the writing of a `hold release` that was queued after it, if fewer than `outboxLimit` commands
    were in the outbox when it came. -/
theorem hold_released {peer : Peer} {σ : Execution World Action}
    (hσ : σ.Of (step peer) Anything {}) (hup : ∀ k, (σ.state k).running = true)
    (hwrite : σ.Fair (step peer) .write)
    (hanswered : ∀ k, ∃ j, k ≤ j ∧ (σ.state j).pending = none) {k i n : Nat}
    (hhold : (σ.state k).occupancy[i]? = some n) (hroom : n < outboxLimit) :
    ∃ j, k ≤ j ∧ ∃ c ∈ (σ.state j).written, c.line = holdRelease ∧ i < c.stamp := by
  have hreleased := released_of_reachable (hσ.reachable k) (hup k)
  obtain ⟨c, hqueued | hwritten, hrelease⟩ := hreleased.release i n hhold hroom
  · obtain ⟨place, hplace⟩ := List.mem_iff_getElem?.mp hqueued
    obtain ⟨j, hj, hwritten⟩ := eventually_written hσ hup hwrite hanswered place k hplace
    exact ⟨j, hj, c, hwritten, hrelease⟩
  · exact ⟨k, Nat.le_refl _, c, hwritten, hrelease⟩

/-! ## §3. Runs that come to rest. -/

/-- Nothing is left to write or to wait for. -/
def World.Settled (w : World) : Prop := w.running = true ∧ w.pending = none ∧ w.outbox = []

instance (w : World) : Decidable w.Settled :=
  inferInstanceAs (Decidable (w.running = true ∧ w.pending = none ∧ w.outbox = []))

theorem ended_step (w : World) (action : Action) (w' : World) (h : w.running = false)
    (_ : Anything w action) (hstep : step peer w action = some w') :
    w'.running = false ∨ False := by
  refine .inl ?_
  cases step_moves hstep with
  | kept hkept => exact hkept.running.trans h
  | wrote c hwrote => exact hwrote.running.trans h
  | ended hended => exact hended

theorem written_step (w : World) (action : Action) (w' : World) (h : c ∈ w.written)
    (_ : Anything w action) (hstep : step peer w action = some w') :
    c ∈ w'.written ∨ w'.running = false := by
  cases step_moves hstep with
  | kept hkept => exact .inl (hkept.written ▸ h)
  | wrote head hwrote => exact .inl (hwrote.written ▸ List.mem_append_left _ h)
  | ended hended => exact .inr hended

theorem settled_execution {peer : Peer} {actions : List Action} {P : World → Prop}
    [DecidablePred P]
    (hrun : (replay (step peer) Anything {} actions).any (fun w => decide (w.Settled ∧ P w))) :
    ∃ (w : World) (σ : Execution World Action), P w ∧ σ.Of (step peer) Anything {} ∧
      (∀ k, (σ.state k).running = true) ∧ σ.Fair (step peer) .write ∧
      (∀ k, ∃ j, k ≤ j ∧ (σ.state j).pending = none) ∧ σ.state actions.length = w ∧
      ∀ k, ∀ c ∈ (σ.state k).written, c ∈ w.written := by
  obtain ⟨w, hreplay, hw⟩ := (Option.any_eq_true _ _).mp hrun
  obtain ⟨⟨hrunning, hidle, houtbox⟩, hP⟩ := of_decide_eq_true hw
  have hσ := Execution.ofList_of actions {} w hreplay
  have hrest : ∀ n, (Execution.ofList (step peer) {} actions).state (actions.length + n) = w :=
    fun n => Execution.ofList_rests actions {} w n hreplay
  have hlater : ∀ k, (Execution.ofList (step peer) {} actions).state (k + actions.length) = w :=
    fun k => by rw [Nat.add_comm]; exact hrest k
  have hup : ∀ k, ((Execution.ofList (step peer) {} actions).state k).running = true := by
    intro k
    by_contra hended
    rw [Bool.not_eq_true] at hended
    rcases hσ.lasts ended_step hended actions.length with hended | ⟨_, _, habsurd⟩
    · rw [hlater, hrunning] at hended
      exact absurd hended (by simp)
    · exact habsurd
  refine ⟨w, _, hP, hσ, hup, ?_, fun k => ⟨actions.length + k, by omega, ?_⟩, hrest 0,
    fun k c hc => ?_⟩
  · refine Execution.ofList_fair hreplay ?_
    simp [step, World.write, houtbox]
  · rw [hrest]
    exact hidle
  · rcases hσ.lasts written_step hc actions.length with hwritten | ⟨m, _, hended⟩
    · rw [hlater] at hwritten
      exact hwritten
    · exact absurd (hup (k + m)) (by simp [hended])

def holdLine : List UInt8 := wire ">HOLD:Waiting for hold release:0"

def okReply : Reply := ⟨[], wire "SUCCESS: ok"⟩

def answerRun : List Action := [.take okReply, .reply, .read 12]

/-- A hold with nothing queued. -/
def quietRun : List Action := .notify holdLine :: .read 33 :: .write :: answerRun

theorem hold_released_quiet : ∃ σ : Execution World Action,
    σ.Of (step samplePeer) Anything {} ∧ ∃ k, (σ.state k).occupancy[0]? = some 0 ∧
      ∃ j, k ≤ j ∧ ∃ c ∈ (σ.state j).written, c.line = holdRelease ∧ 0 < c.stamp := by
  obtain ⟨w, σ, hw, hσ, hup, hwrite, hanswered, hend, _⟩ :=
    @settled_execution samplePeer quietRun (fun w => w.occupancy = [0]) inferInstance
      (by decide +kernel)
  have hhold : (σ.state quietRun.length).occupancy[0]? = some 0 := by
    rw [hend, hw]
    rfl
  exact ⟨σ, hσ, _, hhold, hold_released hσ hup hwrite hanswered hhold (by decide)⟩

def queueRun : List Action := [.send "pid".toList, .enqueue]

def fullRun : List Action :=
  let waiting : List Action := (List.replicate 32 queueRun).flatten
  let answering : List Action := (List.replicate 32 (Action.write :: answerRun)).flatten
  queueRun ++ Action.write :: waiting ++ Action.notify holdLine :: Action.read 33 :: answerRun ++
    answering

/-- **A hold that finds the outbox full is never released**, although the connection stays up and
    openvpn answers every command. -/
theorem hold_unreleased : ∃ σ : Execution World Action,
    σ.Of (step samplePeer) Anything {} ∧ (∀ k, (σ.state k).running = true) ∧
      σ.Fair (step samplePeer) .write ∧ (∀ k, ∃ j, k ≤ j ∧ (σ.state j).pending = none) ∧
      (∃ k, (σ.state k).occupancy[0]? = some outboxLimit) ∧
      ∀ j, ∀ c ∈ (σ.state j).written, c.line ≠ holdRelease := by
  obtain ⟨w, σ, hw, hσ, hup, hwrite, hanswered, hend, hwritten⟩ :=
    @settled_execution samplePeer fullRun
      (fun w => w.occupancy = [32] ∧ ∀ c ∈ w.written, c.line ≠ holdRelease) inferInstance
      (by decide +kernel)
  refine ⟨σ, hσ, hup, hwrite, hanswered, ⟨fullRun.length, ?_⟩, fun j c hc => ?_⟩
  · rw [hend, hw.1]
    rfl
  · exact hw.2 c (hwritten j c hc)

end ThisConnect.Mgmt
