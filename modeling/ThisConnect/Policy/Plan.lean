/-
  ThisConnect.Policy.Plan
  **ORDERED INSTALLATION AND TEARDOWN OF TUNNEL POLICY.**
-/
import ThisConnect.Base.Interaction
import ThisConnect.Policy.Types

namespace ThisConnect.Policy

open Text Interaction

/-! ## §1. Commands. -/

def maxValueLen : Nat := 64

inductive Arg where
  | flag (literal : String)
  | value (data : String)

structure Command where
  program : String
  args : List String
  deriving DecidableEq, Repr

def isValueChar (c : Char) : Bool := c.isAlphanum || ['.', ':', '_', '-', '/'].contains c

def validateValue (data : String) : Except PolicyError String :=
  let reject (reason : String) : Except PolicyError String := .error (.unsafeArgument reason data)
  if data.toList = [] then reject "empty arguments are never meaningful here"
  else if maxValueLen < byteLen data.toList then
    reject "argument is longer than any address, device or metric we emit"
  else if data.toList.head? = some '-' then
    reject "an argument starting with '-' would be read as an option"
  else if ¬ data.toList.all isValueChar then
    reject "only [A-Za-z0-9.:_/-] may reach a privileged command line"
  else .ok data

def Arg.render : Arg → Except PolicyError String
  | .flag literal => .ok literal
  | .value data => validateValue data

def Command.build (program : String) (args : List Arg) : Except PolicyError Command := do
  let args ← args.mapM Arg.render
  .ok ⟨program, args⟩

def Command.display (command : Command) : String :=
  command.args.foldl (fun text arg => text ++ " " ++ arg) command.program

structure CommandOutput where
  status : Option Int
  stdout : String
  stderr : String
  deriving DecidableEq, Repr

def CommandOutput.succeeded (output : CommandOutput) : Bool := output.status == some 0

abbrev Script (α : Type) :=
  ExceptT PolicyError (Prog Command fun _ => Except PolicyError CommandOutput) α

/-- `runner.run(command)?`. -/
def run (command : Command) : Script CommandOutput := ExceptT.mk (Prog.ask command)

def settle {α : Type} (outcome : Except PolicyError α) : Script α := ExceptT.mk (.ret outcome)

/-! ## §2. Read-back checks. -/

/-- `str::contains`. -/
def contains (text needle : String) : Bool := decide (needle.toList <:+: text.toList)

def quoted (text : String) : String := "\"" ++ text ++ "\""

structure Check where
  probe : Command
  required : List String
  forbidden : List String
  probeFailureProvesAbsence : Bool
  deriving DecidableEq, Repr

def Check.present (probe : Command) (required : List String) : Check :=
  ⟨probe, required, [], false⟩

def Check.absent (probe : Command) (forbidden : List String) : Check :=
  ⟨probe, [], forbidden, false⟩

def statusLabel : Option Int → String
  | some code => toString code
  | none => "signal"

def Check.judge (check : Check) (output : CommandOutput) : Except PolicyError Unit :=
  let fail (detail : String) : Except PolicyError Unit :=
    .error (.verification check.probe.display detail)
  if !output.succeeded then
    if check.probeFailureProvesAbsence && check.required.isEmpty then .ok ()
    else fail (s!"probe exited with {quoted (statusLabel output.status)}; "
      ++ "the state could not be read back")
  else
    match check.required.find? fun needle => !contains output.stdout needle with
    | some missing => fail s!"expected {quoted missing} in the state read back"
    | none =>
      match check.forbidden.find? fun needle => contains output.stdout needle with
      | some present => fail s!"{quoted present} is still installed"
      | none => .ok ()

def Check.evaluate (check : Check) : Script Unit := do
  let output ← run check.probe
  settle (check.judge output)

/-! ## §3. Steps and plans. -/

inductive StepKind where
  | backstop
  | floor
  | rule
  | tunnelRoute
  deriving DecidableEq, Repr

def StepKind.rank : StepKind → Nat
  | .backstop => 0
  | .floor => 1
  | .rule => 2
  | .tunnelRoute => 3

def StepKind.label : StepKind → String
  | .backstop => "fail-closed backstop rule"
  | .floor => "fail-closed floor route"
  | .rule => "policy rule"
  | .tunnelRoute => "tunnel route"

structure Step where
  family : Family
  kind : StepKind
  apply : Command
  undo : Command
  afterApply : Option Check
  afterUndo : Option Check
  deriving DecidableEq, Repr

def outOfOrder : List StepKind → Bool
  | a :: b :: rest => decide (b.rank ≤ a.rank) || outOfOrder (b :: rest)
  | _ => false

def kindsOf (family : Family) (steps : List Step) : List StepKind :=
  (steps.filter fun step => step.family = family).map Step.kind

theorem outOfOrder_append_left {kinds more : List StepKind}
    (h : outOfOrder (kinds ++ more) = false) : outOfOrder kinds = false := by
  induction kinds with
  | nil => rfl
  | cons a rest ih =>
    cases rest with
    | nil => rfl
    | cons b rest =>
      simp only [List.cons_append, outOfOrder, Bool.or_eq_false_iff] at h ⊢
      exact ⟨h.1, ih h.2⟩

structure Plan where
  steps : List Step
  ordered : ∀ family, outOfOrder (kindsOf family steps) = false
  deriving DecidableEq

def Plan.new (steps : List Step) : Except PolicyError Plan :=
  if h4 : outOfOrder (kindsOf .v4 steps) = false then
    if h6 : outOfOrder (kindsOf .v6 steps) = false then
      .ok ⟨steps, fun family => match family with | .v4 => h4 | .v6 => h6⟩
    else .error (.ordering misordered)
  else .error (.ordering misordered)

where
  misordered : String :=
    "policy steps must ascend backstop -> floor -> rule -> route within a family"

theorem Plan.new_steps {steps : List Step} {plan : Plan} (h : Plan.new steps = .ok plan) :
    plan.steps = steps := by
  unfold Plan.new at h
  split at h
  · split at h
    · injection h with h; rw [← h]
    · exact absurd h (by simp)
  · exact absurd h (by simp)

def Plan.take (plan : Plan) (n : Nat) : Plan where
  steps := plan.steps.take n
  ordered := by
    intro family
    have h := plan.ordered family
    rw [← List.take_append_drop n plan.steps, kindsOf, List.filter_append, List.map_append] at h
    exact outOfOrder_append_left h

/-! ## §4. Teardown. -/

def undoStep (step : Step) : Script Unit := do
  let _ ← run step.undo
  match step.afterUndo with
  | some check => check.evaluate
  | none => pure ()

def undoAll : List Step → Script Unit
  | [] => pure ()
  | step :: rest => do
      undoStep step
      undoAll rest

def teardown (plan : Plan) : Script Unit := undoAll plan.steps.reverse

/-! ## §5. Installation. -/

def firstLine (text : String) : String :=
  String.ofList (trim ((lines text.toList).headD []))

def installStep (step : Step) : Script Unit := do
  let output ← run step.apply
  if !output.succeeded then
    settle (.error (.commandFailed step.kind.label step.apply.display (firstLine output.stderr)))
  else
    match step.afterApply with
    | some check => check.evaluate
    | none => pure ()

def rollback (installed : Plan) (error : PolicyError) : Script Unit :=
  ExceptT.mk do
    match ← (teardown installed).run with
    | .ok () => pure (.error error)
    | .error undoing => pure (.error (.rollbackFailed error undoing))

def installFrom (plan : Plan) (index : Nat) : List Step → Script Unit
  | [] => pure ()
  | step :: rest =>
    ExceptT.mk do
      match ← (installStep step).run with
      | .ok () => (installFrom plan (index + 1) rest).run
      | .error error => (rollback (plan.take (index + 1)) error).run

def install (plan : Plan) : Script Unit := installFrom plan 0 plan.steps

/-! ## §6. Re-assertion. -/

/-- What one re-assertion pass changed. -/
structure Reassertion where
  restored : List StepKind := []
  failed : List StepKind := []
  deriving DecidableEq, Repr

abbrev Pass (α : Type) := Prog Command (fun _ => Except PolicyError CommandOutput) α

def stillStanding (step : Step) : Pass Bool :=
  match step.afterApply with
  | some check => do
      let outcome ← check.evaluate.run
      pure outcome.isOk
  | none => pure false

def reassertStep (step : Step) (outcome : Reassertion) : Pass Reassertion := do
  let standing ← stillStanding step
  if standing then pure outcome
  else do
    let result ← (installStep step).run
    match result with
    | .ok () => pure { outcome with restored := outcome.restored ++ [step.kind] }
    | .error _ => pure { outcome with failed := outcome.failed ++ [step.kind] }

def reassertAll : List Step → Reassertion → Pass Reassertion
  | [], outcome => pure outcome
  | step :: rest, outcome => do
      let outcome ← reassertStep step outcome
      reassertAll rest outcome

def reassert (plan : Plan) : Pass Reassertion := reassertAll plan.steps {}

/-! ## §7. Cleaning up. -/

def runBestEffort : List Command → Script (List String)
  | [] => pure []
  | command :: rest => do
      let _ ← run command
      let issued ← runBestEffort rest
      pure (command.display :: issued)

end ThisConnect.Policy
