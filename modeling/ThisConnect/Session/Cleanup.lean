/-
  ThisConnect.Session.Cleanup
  **WHAT A FAILED CONNECT ATTEMPT LEAVES BEHIND.**

  Main results:
    • `tidy_iff` — which attempts return their error with nothing left,
    • `panicked_leaves_prompts` — what the others leave.
-/
import ThisConnect.Auth.Disclosure
import ThisConnect.Session.Process

namespace ThisConnect.Session.Cleanup

open Interaction Transition Process
open Auth (FlowState AuthFlow AttemptError handleEvent)
open Mgmt (StaticChallengeFormat)

/-! ## §1. The attempt as a program. -/

inductive Point where
  | beginConnect
  | loadProfile
  | parseProfile
  | resolveOpenvpn
  | createWorkspace
  | writeConfig
  | bind
  | buildArgs
  | spawn
  | handshake
  | advanceAuthenticating
  | tunnelSpec
  | install
  | publish
  | advanceConnected
  deriving DecidableEq, Repr

inductive Failure where
  | refused (point : Point)
  | acceptFailed
  | exitedEarly
  | exited
  | cancelled
  | managementTimeout
  | eof
  | auth (error : AttemptError)
  deriving DecidableEq, Repr

def Failure.takesExit : Failure → Bool
  | .exited => true
  | _ => false

inductive Interrupt where
  | exited
  | cancelled
  deriving DecidableEq, Repr

def Interrupt.failure : Interrupt → Failure
  | .exited => .exited
  | .cancelled => .cancelled

inductive Accepted where
  | stream
  | failed
  | exited
  deriving DecidableEq, Repr

inductive Wait where
  | ready
  | event (event : Mgmt.Event)
  | nothing
  | interrupted (why : Interrupt)
  | deadline
  | closed
  deriving DecidableEq, Repr

inductive Raced (α : Type) where
  | done (value : α)
  | interrupted (why : Interrupt) (begun : Bool)

inductive Call where
  | attempt (point : Point)
  | accept
  | wait
  | flow (call : Auth.Call)
  | revoke
  | removePolicy
  | signal
  | terminate
  | waitExit
  | kill
  | withdrawAll
  | dropWorkspace
  | dropControl

/-- Durations are in milliseconds. -/
def Call.Answer : Call → Type
  | .attempt _ => Bool
  | .accept => Accepted
  | .wait => Wait
  | .flow call => Raced call.Answer
  | .removePolicy | .signal => Nat
  | .waitExit => Option Nat
  | .revoke | .terminate | .kill | .withdrawAll | .dropWorkspace | .dropControl => Unit

abbrev Script (α : Type) := Prog Call Call.Answer α

@[irreducible] def stopGrace : Nat := 5000

@[irreducible] def teardownBudget : Nat := 30000

def dropResources {α : Type} (result : α) : Script α :=
  .call .dropWorkspace fun _ => .call .dropControl fun _ => .ret result

def within (elapsed : Nat) (next : Nat → Script Bool) : Script Bool :=
  if elapsed ≤ teardownBudget then next elapsed else dropResources true

def finish : Script Bool := .call .withdrawAll fun _ => dropResources true

def killOpenvpn (elapsed : Nat) : Script Bool :=
  .call .kill fun _ => .call .waitExit fun (spent : Option Nat) =>
    within (elapsed + min (spent.getD stopGrace) stopGrace) fun _ => finish

/-- The grace period. -/
def awaitExit (elapsed : Nat) : Script Bool :=
  .call .waitExit fun
    | some spent => within (elapsed + min spent stopGrace) fun _ => finish
    | none => within (elapsed + stopGrace) killOpenvpn

/-- The polite requests come first. -/
def stopOpenvpn (exitTaken : Bool) (elapsed : Nat) : Script Bool :=
  .call .signal fun (spent : Nat) => within (elapsed + min spent stopGrace) fun elapsed =>
    .call .terminate fun _ =>
      -- The receiver has given its value away: the poll unwinds, dropping the resources.
      if exitTaken then dropResources false
      else awaitExit elapsed

/-- The teardown; `false` is a panic. -/
def teardown (bound exitTaken : Bool) : Script Bool :=
  .call .revoke fun _ =>
    if bound then .call .removePolicy fun spent => within spent (stopOpenvpn exitTaken)
    else stopOpenvpn exitTaken 0

inductive Outcome where
  | connected
  | failed (failure : Failure)
  | panicked
  deriving DecidableEq, Repr

/-- Tears down and passes the error on. -/
def abandon (bound : Bool) (failure : Failure) : Script Outcome :=
  teardown bound failure.takesExit >>= fun returned =>
    .ret (if returned then .failed failure else .panicked)

def orElse (point : Point) (undo : Failure → Script Outcome) (next : Script Outcome) :
    Script Outcome :=
  .call (.attempt point) fun
    | true => next
    | false => undo (.refused point)

def race {α : Type} : Prog Auth.Call Auth.Call.Answer α → Script (Except Failure α)
  | .ret value => .ret (.ok value)
  | .call call rest => .call (.flow call) fun
      | .done value => race (rest value)
      | .interrupted why _ => .ret (.error why.failure)

variable (auth : AuthFlow) (format : StaticChallengeFormat)

def authenticate : Nat → FlowState → Script (Except Failure Unit)
  | 0, _ => .ret (.error .managementTimeout)
  | n + 1, flow => .call .wait fun
      | .ready => .ret (.ok ())
      | .nothing => authenticate n flow
      | .interrupted why => .ret (.error why.failure)
      | .deadline => .ret (.error .managementTimeout)
      | .closed => .ret (.error .eof)
      | .event event => race (handleEvent auth format flow event) >>= fun
          | .error failure => .ret (.error failure)
          | .ok (.error error) => .ret (.error (.auth error))
          | .ok (.ok flow) => authenticate n flow

def installPolicy : Script Outcome :=
  orElse .tunnelSpec (abandon false) <|
  orElse .install (abandon false) <|
  orElse .publish (abandon true) <|
  orElse .advanceConnected (abandon true) <|
  .ret .connected

def bringUp (turns : Nat) (flow : FlowState) : Script Outcome :=
  orElse .advanceAuthenticating (abandon false) <|
  authenticate auth format turns flow >>= fun
    | .error failure => abandon false failure
    | .ok () => installPolicy

def dropWorkspace (failure : Failure) : Script Outcome :=
  .call .dropWorkspace fun _ => .ret (.failed failure)

def dropAll (failure : Failure) : Script Outcome := dropResources (.failed failure)

def giveUp (failure : Failure) : Script Outcome := .ret (.failed failure)

def startOpenvpn (next : Script Outcome) : Script Outcome :=
  orElse .resolveOpenvpn giveUp <|
  orElse .createWorkspace giveUp <|
  orElse .writeConfig dropWorkspace <|
  orElse .bind dropWorkspace <|
  orElse .buildArgs dropWorkspace <|
  orElse .spawn dropWorkspace <|
  .call .accept fun
    | .exited => dropAll .exitedEarly
    | .failed => dropAll .acceptFailed
    | .stream => orElse .handshake dropAll next

def connect (turns : Nat) (flow : FlowState) : Script Outcome :=
  orElse .beginConnect giveUp <|
  orElse .loadProfile giveUp <|
  orElse .parseProfile giveUp <|
  startOpenvpn (bringUp auth format turns flow)

/-! ## §2. What is around it. -/

structure Machine where
  control : Control := {}
  policy : Bool := false
  listener : Bool := false
  directory : Bool := false
  prompts : Nat := 0
  exitSeen : Bool := false
  overran : Bool := false
  deriving DecidableEq, Repr

def Machine.acquire (m : Machine) : Point → Machine
  | .createWorkspace => { m with directory := true }
  | .spawn => { m with control := { m.control with child := .running } }
  | .install => { m with policy := true }
  | .publish => { m with listener := true }
  | _ => m

def asks : Auth.Call → Bool
  | .ask _ => true
  | _ => false

def Machine.interrupt (m : Machine) : Interrupt → Machine
  | .exited => { m with exitSeen := true }
  | .cancelled => m

def Machine.after (m : Machine) : (c : Call) → c.Answer → Machine
  | .attempt point, (ok : Bool) => if ok then m.acquire point else m
  | .accept, _ => m
  | .wait, .interrupted why => m.interrupt why
  | .wait, _ => m
  | .flow _, .done _ => m
  | .flow call, .interrupted why begun =>
    { m.interrupt why with prompts := m.prompts + if asks call && begun then 1 else 0 }
  | .revoke, _ => { m with listener := false }
  | .removePolicy, (spent : Nat) =>
    -- A removal that overruns goes on in the background, and the attempt does not wait for it.
    if spent ≤ teardownBudget then { m with policy := false } else { m with overran := true }
  | .signal, _ => m
  | .terminate, _ => { m with control := m.control.request .term }
  | .waitExit, _ => m
  | .kill, _ => { m with control := m.control.request .kill }
  | .withdrawAll, _ => { m with prompts := 0 }
  | .dropWorkspace, _ => { m with directory := false }
  | .dropControl, _ => { m with control := { m.control with closed := true } }

def Machine.Possible (m : Machine) : (c : Call) → c.Answer → Prop
  | .accept, .exited => m.control.child = .exited
  | .wait, .interrupted .exited => m.control.child = .exited
  | .flow (.send _ _), .interrupted _ _ => False
  | .flow _, .interrupted .exited _ => m.control.child = .exited
  | .waitExit, some _ => m.control.child = .exited
  | _, _ => True

def answers : Env Call Call.Answer Machine := fun m c r m' =>
  ∃ control, Background m.control control ∧ { m with control }.Possible c r ∧
    m' = { m with control }.after c r

def Exits (control : Control) : Prop :=
  ∀ σ : Execution Control Act, σ.Of Process.step Anything control →
    σ.Fair Process.step .handle → σ.Fair Process.step .reap → ∃ j, Gone (σ.state j)

/-- Nothing of the attempt is left. -/
structure Clean (m : Machine) : Prop where
  policy : m.policy = false
  listener : m.listener = false
  directory : m.directory = false
  prompts : m.prompts = 0
  exits : Exits m.control

/-- A failed attempt returns its error, and nothing is left. -/
def Tidy : Outcome → Machine → Prop
  | .connected, _ => True
  | .failed _, m => Clean m
  | .panicked, _ => False

/-! ## §3. The teardown. -/

/-- What is left to release is openvpn, the directory and the prompts. -/
structure Quiet (exitTaken : Bool) (m : Machine) : Prop where
  policy : m.policy = m.overran
  listener : m.listener = false
  exitSeen : m.exitSeen = exitTaken
  inTime : exitTaken = true → m.overran = false

/-- What a teardown comes to. -/
structure Torn (exitTaken returned : Bool) (m : Machine) : Prop extends Quiet exitTaken m where
  returned : returned = !exitTaken
  directory : m.directory = false
  closed : m.control.closed = true
  prompts : exitTaken = false → m.prompts = 0

abbrev Leads {α : Type} (Q : α → Machine → Prop) (p : Script α) (m : Machine) : Prop :=
  Safe answers (fun _ => True) Q p m

variable {exitTaken : Bool} {m : Machine} {elapsed : Nat} {next : Script Outcome}

theorem dropResources_leads {returned : Bool} (h : Quiet exitTaken m)
    (hreturned : returned = !exitTaken) (hprompts : exitTaken = false → m.prompts = 0) :
    Leads (Torn exitTaken) (dropResources returned) m := by
  refine ⟨trivial, ?_⟩
  rintro _ _ ⟨_, _, _, rfl⟩
  refine ⟨trivial, ?_⟩
  rintro _ _ ⟨_, _, _, rfl⟩
  exact ⟨trivial, ⟨h.policy, h.listener, h.exitSeen, h.inTime⟩, hreturned, rfl, rfl, hprompts⟩

theorem finish_leads (h : Quiet false m) : Leads (Torn false) finish m := by
  refine ⟨trivial, ?_⟩
  rintro _ _ ⟨_, _, _, rfl⟩
  exact dropResources_leads ⟨h.policy, h.listener, h.exitSeen, h.inTime⟩ rfl fun _ => rfl

theorem within_leads {next : Nat → Script Bool} (h : Quiet exitTaken m)
    (hlate : elapsed ≤ teardownBudget ∨ (exitTaken = false ∧ m.prompts = 0))
    (hnext : elapsed ≤ teardownBudget → Leads (Torn exitTaken) (next elapsed) m) :
    Leads (Torn exitTaken) (within elapsed next) m := by
  unfold within
  split
  · next hin => exact hnext hin
  · next hout =>
    obtain hin | ⟨htaken, hprompts⟩ := hlate
    · exact absurd hin hout
    · exact dropResources_leads h (by simp [htaken]) fun _ => hprompts

def Call.processOnly : Call → Bool
  | .signal | .terminate | .waitExit | .kill => true
  | _ => false

theorem Quiet.process {c : Call} {r : c.Answer} {m' : Machine} (h : Quiet exitTaken m)
    (hcall : c.processOnly = true) (hanswer : answers m c r m') :
    Quiet exitTaken m' ∧ m'.prompts = m.prompts := by
  obtain ⟨_, _, _, rfl⟩ := hanswer
  cases c <;> first
    | exact absurd hcall Bool.false_ne_true
    | exact ⟨⟨h.policy, h.listener, h.exitSeen, h.inTime⟩, rfl⟩

theorem killOpenvpn_leads (h : Quiet false m)
    (hlate : elapsed + stopGrace ≤ teardownBudget ∨ m.prompts = 0) :
    Leads (Torn false) (killOpenvpn elapsed) m := by
  refine ⟨trivial, fun _ m₁ hkill => ⟨trivial, fun (spent : Option Nat) m₂ hwait => ?_⟩⟩
  obtain ⟨h₁, hprompts₁⟩ := h.process rfl hkill
  obtain ⟨h₂, hprompts₂⟩ := h₁.process rfl hwait
  have hspent : min (spent.getD stopGrace) stopGrace ≤ stopGrace := Nat.min_le_right _ _
  refine within_leads h₂ ?_ fun _ => finish_leads h₂
  exact hlate.imp (fun hearly => by omega) fun hnone => ⟨rfl, by omega⟩

theorem awaitExit_leads (h : Quiet false m)
    (hlate : elapsed + 2 * stopGrace ≤ teardownBudget ∨ m.prompts = 0) :
    Leads (Torn false) (awaitExit elapsed) m := by
  refine ⟨trivial, fun (waited : Option Nat) m₁ hwait => ?_⟩
  obtain ⟨h₁, hprompts⟩ := h.process rfl hwait
  cases waited with
  | some spent =>
    have hspent : min spent stopGrace ≤ stopGrace := Nat.min_le_right _ _
    refine within_leads h₁ ?_ fun _ => finish_leads h₁
    exact hlate.imp (fun hearly => by omega) fun hnone => ⟨rfl, by omega⟩
  | none =>
    have hkill : Leads (Torn false) (killOpenvpn (elapsed + stopGrace)) m₁ := by
      refine killOpenvpn_leads h₁ ?_
      exact hlate.imp (fun hearly => by omega) fun hnone => by omega
    refine within_leads h₁ ?_ fun _ => hkill
    exact hlate.imp (fun hearly => by omega) fun hnone => ⟨rfl, by omega⟩

theorem stopOpenvpn_leads (h : Quiet exitTaken m)
    (hlate : elapsed + 3 * stopGrace ≤ teardownBudget ∨ (exitTaken = false ∧ m.prompts = 0)) :
    Leads (Torn exitTaken) (stopOpenvpn exitTaken elapsed) m := by
  refine ⟨trivial, fun (spent : Nat) m₁ hsignal => ?_⟩
  obtain ⟨h₁, hprompts₁⟩ := h.process rfl hsignal
  have hspent : min spent stopGrace ≤ stopGrace := Nat.min_le_right _ _
  refine within_leads h₁ ?_ fun _ => ⟨trivial, fun _ m₂ hterminate => ?_⟩
  · exact hlate.imp (fun hearly => by omega) fun hnone => ⟨hnone.1, hprompts₁.trans hnone.2⟩
  obtain ⟨h₂, hprompts₂⟩ := h₁.process rfl hterminate
  cases exitTaken with
  | true => exact dropResources_leads h₂ rfl (fun h => by cases h)
  | false =>
    refine awaitExit_leads h₂ ?_
    exact hlate.imp (fun hearly => by omega) fun hnone => by omega

structure Holding (bound exitTaken : Bool) (m : Machine) : Prop where
  policy : m.policy = bound
  prompts : bound = true → m.prompts = 0
  notTaken : bound = true → exitTaken = false
  exitSeen : m.exitSeen = exitTaken
  overran : m.overran = false

variable {bound : Bool} {failure : Failure} {point : Point} {undo : Failure → Script Outcome}
  {t : Machine}

theorem teardown_leads (h : Holding bound exitTaken m) :
    Leads (Torn exitTaken) (teardown bound exitTaken) m := by
  refine ⟨trivial, ?_⟩
  rintro _ _ ⟨_, _, _, rfl⟩
  dsimp only
  cases bound with
  | false =>
    exact stopOpenvpn_leads ⟨h.policy.trans h.overran.symm, rfl, h.exitSeen, fun _ => h.overran⟩
      (.inl (by unfold stopGrace teardownBudget; omega))
  | true =>
    have hidle : exitTaken = false ∧ m.prompts = 0 := ⟨h.notTaken rfl, h.prompts rfl⟩
    refine ⟨trivial, ?_⟩
    rintro (spent : Nat) m' ⟨_, _, _, hafter⟩
    have hquiet : Quiet exitTaken m' ∧ m'.prompts = 0 := by
      rw [hafter]
      simp only [Machine.after]
      split
      · exact ⟨⟨h.overran.symm, rfl, h.exitSeen, fun _ => h.overran⟩, hidle.2⟩
      · exact ⟨⟨h.policy, rfl, h.exitSeen, by simp [hidle.1]⟩, hidle.2⟩
    exact within_leads hquiet.1 (.inr ⟨hidle.1, hquiet.2⟩) fun _ =>
      stopOpenvpn_leads hquiet.1 (.inr ⟨hidle.1, hquiet.2⟩)

/-! ## §4. The attempt. -/

structure Released (m : Machine) : Prop where
  policy : m.policy = m.overran
  listener : m.listener = false
  directory : m.directory = false
  doomed : Doomed m.control

/-- What an attempt comes to. -/
def Ends : Outcome → Machine → Prop
  | .connected, m => m.exitSeen = false ∧ m.overran = false
  | .failed _, m => Released m ∧ m.exitSeen = false ∧ m.prompts = 0
  | .panicked, m => Released m ∧ m.exitSeen = true ∧ m.overran = false

theorem abandon_leads (h : Holding bound failure.takesExit m) :
    Leads Ends (abandon bound failure) m := by
  refine Safe.bind (fun returned t _ htorn => ?_) (teardown_leads h)
  refine ⟨trivial, ?_⟩
  have hreleased : Released t :=
    ⟨htorn.policy, htorn.listener, htorn.directory, .inr htorn.closed⟩
  have hreturned := htorn.returned
  cases htaken : failure.takesExit with
  | true =>
    rw [htaken] at hreturned
    rw [hreturned]
    exact ⟨hreleased, htorn.exitSeen.trans htaken, htorn.inTime htaken⟩
  | false =>
    rw [htaken] at hreturned
    rw [hreturned]
    exact ⟨hreleased, htorn.exitSeen.trans htaken, htorn.prompts htaken⟩

/-- Before a policy is installed, and with no prompt outstanding. -/
structure Plain (m : Machine) : Prop where
  policy : m.policy = false
  listener : m.listener = false
  prompts : m.prompts = 0
  exitSeen : m.exitSeen = false
  overran : m.overran = false

theorem Plain.holding (h : Plain m) (hfailure : failure.takesExit = false) :
    Holding false failure.takesExit m :=
  ⟨h.policy, fun h => (by cases h), fun h => (by cases h), h.exitSeen.trans hfailure.symm,
    h.overran⟩

theorem orElse_leads
    (hfails : ∀ control, Background m.control control → Leads Ends (undo (.refused point))
      { m with control })
    (hgoes : ∀ control, Background m.control control → Leads Ends next
      ({ m with control }.acquire point)) :
    Leads Ends (orElse point undo next) m := by
  refine ⟨trivial, ?_⟩
  rintro (ok : Bool) _ ⟨control, hbackground, _, rfl⟩
  cases ok with
  | false => exact hfails control hbackground
  | true => exact hgoes control hbackground

/-- What authentication comes to. -/
def Authenticated {α : Type} : Except Failure α → Machine → Prop
  | .ok _, m => Plain m
  | .error failure, m => Holding false failure.takesExit m

theorem interrupted_holding (h : Plain m) (why : Interrupt) (prompts : Nat) :
    Holding false why.failure.takesExit { m.interrupt why with prompts } := by
  cases why with
  | exited => exact ⟨h.policy, fun h => (by cases h), fun h => (by cases h), rfl, h.overran⟩
  | cancelled => exact ⟨h.policy, fun h => (by cases h), fun h => (by cases h), h.exitSeen,
    h.overran⟩

theorem race_leads {α : Type} (p : Prog Auth.Call Auth.Call.Answer α) :
    ∀ {m : Machine}, Plain m → Leads Authenticated (race p) m := by
  induction p with
  | ret value => intro m h; exact ⟨trivial, h⟩
  | call c rest ih =>
    intro m h
    rw [race]
    refine ⟨trivial, ?_⟩
    rintro (value | ⟨why, begun⟩) _ ⟨control, _, _, rfl⟩
    · exact ih value ⟨h.policy, h.listener, h.prompts, h.exitSeen, h.overran⟩
    · have hplain : Plain { m with control } :=
        ⟨h.policy, h.listener, h.prompts, h.exitSeen, h.overran⟩
      exact ⟨trivial, interrupted_holding hplain why _⟩

theorem authenticate_leads (turns : Nat) :
    ∀ (flow : FlowState) {m : Machine}, Plain m →
      Leads Authenticated (authenticate auth format turns flow) m := by
  induction turns with
  | zero => intro flow m h; exact ⟨trivial, h.holding rfl⟩
  | succ turns ih =>
    intro flow m h
    refine ⟨trivial, ?_⟩
    rintro wait _ ⟨control, _, _, rfl⟩
    have hplain : Plain { m with control } :=
      ⟨h.policy, h.listener, h.prompts, h.exitSeen, h.overran⟩
    cases wait with
    | ready => exact ⟨trivial, hplain⟩
    | nothing => exact ih flow hplain
    | deadline => exact ⟨trivial, hplain.holding rfl⟩
    | closed => exact ⟨trivial, hplain.holding rfl⟩
    | interrupted why =>
      have hholding := interrupted_holding hplain why m.prompts
      cases why with
      | exited => exact ⟨trivial, hholding⟩
      | cancelled => exact ⟨trivial, hholding⟩
    | event event =>
      refine Safe.bind (fun outcome t _ hraced => ?_)
        (race_leads (handleEvent auth format flow event) hplain)
      match outcome, hraced with
      | .error failure, hholding => exact ⟨trivial, hholding⟩
      | .ok (.error error), hraced => exact ⟨trivial, hraced.holding rfl⟩
      | .ok (.ok flow), hraced => exact ih flow hraced

theorem installPolicy_leads (h : Plain m) : Leads Ends installPolicy m := by
  have hfree : ∀ control, Plain { m with control } := fun _ =>
    ⟨h.policy, h.listener, h.prompts, h.exitSeen, h.overran⟩
  refine orElse_leads (fun _ _ => abandon_leads ((hfree _).holding rfl)) fun _ _ => ?_
  refine orElse_leads (fun _ _ => abandon_leads ((hfree _).holding rfl)) fun _ _ => ?_
  refine orElse_leads (fun _ _ => abandon_leads ?_) fun _ _ => ?_
  · exact ⟨rfl, fun _ => h.prompts, fun _ => rfl, h.exitSeen, h.overran⟩
  refine orElse_leads (fun _ _ => abandon_leads ?_) fun _ _ => ⟨trivial, h.exitSeen, h.overran⟩
  exact ⟨rfl, fun _ => h.prompts, fun _ => rfl, h.exitSeen, h.overran⟩

theorem bringUp_leads (turns : Nat) (flow : FlowState) (h : Plain m) :
    Leads Ends (bringUp auth format turns flow) m := by
  have hfree : ∀ control, Plain { m with control } := fun _ =>
    ⟨h.policy, h.listener, h.prompts, h.exitSeen, h.overran⟩
  refine orElse_leads (fun _ _ => abandon_leads ((hfree _).holding rfl)) fun control _ => ?_
  refine Safe.bind (fun outcome t _ hdone => ?_)
    (authenticate_leads auth format turns flow (hfree control))
  cases outcome with
  | error failure => exact abandon_leads hdone
  | ok _ => exact installPolicy_leads hdone

theorem dropAll_leads (h : Plain m) (failure : Failure) : Leads Ends (dropAll failure) m := by
  refine ⟨trivial, ?_⟩
  rintro _ _ ⟨_, _, _, rfl⟩
  refine ⟨trivial, ?_⟩
  rintro _ _ ⟨_, _, _, rfl⟩
  exact ⟨trivial, ⟨h.policy.trans h.overran.symm, h.listener, rfl, .inr rfl⟩, h.exitSeen, h.prompts⟩

theorem dropWorkspace_leads (h : Plain m) (hchild : m.control.child = .none) (failure : Failure) :
    Leads Ends (dropWorkspace failure) m := by
  refine ⟨trivial, ?_⟩
  rintro _ _ ⟨control, hbackground, _, rfl⟩
  have hnone : control.child = .none := hbackground.none_of_none hchild
  exact ⟨trivial, ⟨h.policy.trans h.overran.symm, h.listener, rfl, .inl (.inl hnone)⟩,
    h.exitSeen, h.prompts⟩

structure Unspawned (m : Machine) : Prop extends Plain m where
  child : m.control.child = .none

theorem Unspawned.background (h : Unspawned m) {control : Control}
    (hbackground : Background m.control control) : Unspawned { m with control } :=
  ⟨⟨h.policy, h.listener, h.prompts, h.exitSeen, h.overran⟩, hbackground.none_of_none h.child⟩

theorem giveUp_leads (h : Unspawned m) (hdirectory : m.directory = false) (failure : Failure) :
    Leads Ends (giveUp failure) m :=
  ⟨trivial, ⟨h.policy.trans h.overran.symm, h.listener, hdirectory, .inl (.inl h.child)⟩,
    h.exitSeen, h.prompts⟩

theorem orElse_unspawned (hsame : ∀ t : Machine, t.acquire point = t) (h : Unspawned m)
    (hfails : ∀ t, Unspawned t → t.directory = m.directory → Leads Ends (undo (.refused point)) t)
    (hgoes : ∀ t, Unspawned t → t.directory = m.directory → Leads Ends next t) :
    Leads Ends (orElse point undo next) m := by
  refine orElse_leads (fun control hbackground => ?_) fun control hbackground => ?_
  · exact hfails _ (h.background hbackground) rfl
  · rw [hsame]
    exact hgoes _ (h.background hbackground) rfl

theorem startOpenvpn_leads (h : Unspawned m) (hdirectory : m.directory = false)
    (hnext : ∀ t, Plain t → Leads Ends next t) : Leads Ends (startOpenvpn next) m := by
  refine orElse_unspawned (fun _ => rfl) h
    (fun t ht hdir => giveUp_leads ht (hdir.trans hdirectory) _) fun m₁ h₁ hdir₁ => ?_
  refine orElse_leads (fun _ hbackground =>
    giveUp_leads (h₁.background hbackground) (hdir₁.trans hdirectory) _) fun control hcreated => ?_
  have h₂ : Unspawned ({ m₁ with control }.acquire .createWorkspace) :=
    ⟨⟨h₁.policy, h₁.listener, h₁.prompts, h₁.exitSeen, h₁.overran⟩,
      hcreated.none_of_none h₁.child⟩
  refine orElse_unspawned (fun _ => rfl) h₂
    (fun t ht _ => dropWorkspace_leads ht.toPlain ht.child _) fun m₃ h₃ _ => ?_
  refine orElse_unspawned (fun _ => rfl) h₃
    (fun t ht _ => dropWorkspace_leads ht.toPlain ht.child _) fun m₄ h₄ _ => ?_
  refine orElse_unspawned (fun _ => rfl) h₄
    (fun t ht _ => dropWorkspace_leads ht.toPlain ht.child _) fun m₅ h₅ _ => ?_
  refine orElse_leads (fun _ hbackground => dropWorkspace_leads
    (h₅.background hbackground).toPlain (h₅.background hbackground).child _) fun control _ => ?_
  -- From here on there is a process, and every early return drops its control.
  have hplain : ∀ control, Plain { m₅ with control } := fun _ =>
    ⟨h₅.policy, h₅.listener, h₅.prompts, h₅.exitSeen, h₅.overran⟩
  refine ⟨trivial, ?_⟩
  rintro accepted _ ⟨control', _, _, rfl⟩
  cases accepted with
  | exited => exact dropAll_leads (hplain control') _
  | failed => exact dropAll_leads (hplain control') _
  | stream =>
    exact orElse_leads (fun _ _ => dropAll_leads (hplain _) _) fun _ _ => hnext _ (hplain _)

theorem connect_leads (turns : Nat) (flow : FlowState) :
    Leads Ends (connect auth format turns flow) {} := by
  have hstart : Unspawned {} := ⟨⟨rfl, rfl, rfl, rfl, rfl⟩, rfl⟩
  refine orElse_unspawned (fun _ => rfl) hstart (fun t ht hdir => giveUp_leads ht hdir _)
    fun m₁ h₁ hdir₁ => ?_
  refine orElse_unspawned (fun _ => rfl) h₁
    (fun t ht hdir => giveUp_leads ht (hdir.trans hdir₁) _) fun m₂ h₂ hdir₂ => ?_
  refine orElse_unspawned (fun _ => rfl) h₂
    (fun t ht hdir => giveUp_leads ht (hdir.trans (hdir₂.trans hdir₁)) _) fun m₃ h₃ hdir₃ => ?_
  exact startOpenvpn_leads h₃ (hdir₃.trans (hdir₂.trans hdir₁))
    fun t ht => bringUp_leads auth format turns flow ht

theorem Released.clean_iff (h : Released m) (hprompts : m.prompts = 0) :
    Clean m ↔ m.overran = false := by
  constructor
  · intro hclean
    exact h.policy.symm.trans hclean.policy
  · intro htime
    exact ⟨h.policy.trans htime, h.listener, h.directory, hprompts,
      fun σ hσ hhandle hreap => doomed_exits hσ hhandle hreap h.doomed⟩

/-- **An attempt that fails returns its error with nothing left behind** exactly when the exit of
    openvpn is not what ends authentication, and the policy, if there is one, is removed within
    the budget of the teardown. -/
theorem tidy_iff (turns : Nat) (flow : FlowState) {outcome : Outcome} {t : Machine}
    (hrun : Reaches answers (connect auth format turns flow) {} (.ret outcome) t) :
    Tidy outcome t ↔ t.exitSeen = false ∧ t.overran = false := by
  have hends := (connect_leads auth format turns flow).post_of_reaches hrun
  cases outcome with
  | connected => exact ⟨fun _ => hends, fun _ => trivial⟩
  | failed failure =>
    obtain ⟨hreleased, hseen, hprompts⟩ := hends
    refine (hreleased.clean_iff hprompts).trans ?_
    simp [hseen]
  | panicked =>
    obtain ⟨_, hseen, _⟩ := hends
    simp [Tidy, hseen]

/-! ### An attempt that is interrupted while the user is asked for the account. -/

theorem answers_still (m : Machine) (c : Call) (r : c.Answer) (h : m.Possible c r) :
    answers m c r (m.after c r) :=
  ⟨m.control, .init, h, rfl⟩

theorem answers_attempt (m : Machine) (point : Point) :
    answers m (.attempt point) true (m.acquire point) :=
  answers_still m (.attempt point) true trivial

theorem within_zero (next : Nat → Script Bool) : within (0 + min 0 stopGrace) next = next 0 := by
  simp [within]

def idle : Machine := { control := { child := .running }, directory := true }

theorem reaches_prompt (why : Interrupt) (m : Machine) {q : Script Outcome}
    (hinterrupt : ∀ prompt, answers idle (.flow (.ask prompt)) (.interrupted why true) m)
    (hrest : Reaches answers (abandon false why.failure) m q t) :
    Reaches answers (connect Auth.sampleAuth .scrv1 1 {}) {} q t := by
  refine .step (answers_attempt _ _) (.step (answers_attempt _ _) (.step (answers_attempt _ _) ?_))
  refine .step (answers_attempt _ _) (.step (answers_attempt _ _) (.step (answers_attempt _ _) ?_))
  refine .step (answers_attempt _ _) (.step (answers_attempt _ _) (.step (answers_attempt _ _) ?_))
  refine .step (answers_still _ .accept .stream trivial) ?_
  refine .step (answers_attempt _ _) (.step (answers_attempt _ _) ?_)
  refine .step (answers_still _ .wait (.event (.password (.need "Auth" true true none))) trivial) ?_
  obtain ⟨rest, hasks⟩ : ∃ rest, handleEvent Auth.sampleAuth .scrv1 {}
      (.password (.need "Auth" true true none)) =
        .call (.ask (.usernamePassword Auth.sampleAuth.profileId none)) rest := ⟨_, rfl⟩
  show Reaches answers ((race (handleEvent Auth.sampleAuth .scrv1 {} _) >>= _) >>= _) _ _ _
  rw [hasks, race]
  refine .step (hinterrupt _) ?_
  exact hrest

/-- The user disconnects; openvpn goes when it is asked to. -/
theorem tidy_cancelled : ∃ t : Machine,
    Reaches answers (connect Auth.sampleAuth .scrv1 1 {}) {} (.ret (.failed .cancelled)) t ∧
      Tidy (.failed .cancelled) t := by
  have hgone : answers
      { idle with control := { child := .running, queue := [.term] }, prompts := 1 }
      .waitExit (some 0)
      { idle with control := { child := .exited, queue := [.term] }, prompts := 1 } :=
    ⟨_, @Reachable.step _ _ _ _ _ _ _ Act.die .init trivial rfl, rfl, rfl⟩
  have hrun : Reaches answers (connect Auth.sampleAuth .scrv1 1 {}) {}
      (.ret (.failed .cancelled))
      { control := { child := .exited, queue := [.term], closed := true } } := by
    refine reaches_prompt .cancelled { idle with prompts := 1 }
      (fun _ => ⟨idle.control, .init, trivial, rfl⟩) ?_
    refine .step (answers_still _ .revoke () trivial) ?_
    refine .step (answers_still _ .signal (0 : Nat) trivial) ?_
    show Reaches answers (within (0 + min 0 stopGrace) _ >>= _) _ _ _
    rw [within_zero]
    refine .step (answers_still _ .terminate () trivial) ?_
    refine .step hgone ?_
    show Reaches answers (within (0 + min 0 stopGrace) _ >>= _) _ _ _
    rw [within_zero]
    refine .step (answers_still _ .withdrawAll () trivial) ?_
    refine .step (answers_still _ .dropWorkspace () trivial) ?_
    exact .step (answers_still _ .dropControl () trivial) (.here _ _)
  exact ⟨_, hrun, (tidy_iff Auth.sampleAuth .scrv1 1 {} hrun).mpr ⟨rfl, rfl⟩⟩

/-- openvpn exits while the user is being asked: the attempt panics instead of returning, and the
    question stays on the books. -/
theorem exit_leaves_prompt : ∃ t : Machine,
    Reaches answers (connect Auth.sampleAuth .scrv1 1 {}) {} (.ret .panicked) t ∧
      t.prompts = 1 ∧ ¬ Tidy .panicked t := by
  have hgone : Background idle.control { child := .exited } :=
    @Reachable.step _ _ _ _ _ _ _ Act.die .init trivial rfl
  refine ⟨{ control := { child := .exited, closed := true }, prompts := 1, exitSeen := true },
    ?_, rfl, fun h => h⟩
  refine reaches_prompt .exited
    { idle with control := { child := .exited }, prompts := 1, exitSeen := true }
    (fun _ => ⟨_, hgone, rfl, rfl⟩) ?_
  refine .step (answers_still _ .revoke () trivial) ?_
  refine .step (answers_still _ .signal (0 : Nat) trivial) ?_
  show Reaches answers (within (0 + min 0 stopGrace) _ >>= _) _ _ _
  rw [within_zero]
  refine .step (answers_still _ .terminate () trivial) ?_
  refine .step (answers_still _ .dropWorkspace () trivial) ?_
  exact .step (answers_still _ .dropControl () trivial) (.here _ _)

theorem panicked_leaves_prompts (turns : Nat) (flow : FlowState)
    (hrun : Reaches answers (connect auth format turns flow) {} (.ret .panicked) t) :
    Clean t ↔ t.prompts = 0 := by
  obtain ⟨hreleased, _, htime⟩ := (connect_leads auth format turns flow).post_of_reaches hrun
  constructor
  · intro hclean
    exact hclean.prompts
  · intro hprompts
    exact (hreleased.clean_iff hprompts).mpr htime

end ThisConnect.Session.Cleanup
