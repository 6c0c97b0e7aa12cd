/-
  ThisConnect.Policy.Linux
  **LINUX TUNNEL POLICY: A SOURCE RULE INTO A PRIVATE TABLE.**
-/
import ThisConnect.Policy.Plan

namespace ThisConnect.Policy

/-! ## §1. Command lines. -/

/-- The backend: where `ip(8)` lives. -/
structure LinuxPolicy where
  ip : String
  deriving DecidableEq, Repr

namespace LinuxPolicy

variable (policy : LinuxPolicy)

def backstopArgs (endpoint : TunnelEndpoint) (verb : String) : List Arg :=
  [.flag endpoint.family.ipFlag, .flag "rule", .flag verb, .flag "from",
    .value endpoint.localHostCidr, .flag "type", .flag "unreachable", .flag "priority",
    .value backstopPriority]

def floorArgs (family : Family) (verb : String) : List Arg :=
  [.flag family.ipFlag, .flag "route", .flag verb, .flag "unreachable", .flag "default",
    .flag "table", .value policyTable, .flag "metric", .value floorMetric]

def ruleArgs (endpoint : TunnelEndpoint) (verb : String) : List Arg :=
  [.flag endpoint.family.ipFlag, .flag "rule", .flag verb, .flag "from",
    .value endpoint.localHostCidr, .flag "lookup", .value policyTable, .flag "priority",
    .value rulePriority]

def routeArgs (device : DeviceName) (endpoint : TunnelEndpoint) (mtu verb : String) : List Arg :=
  [.flag endpoint.family.ipFlag, .flag "route", .flag verb, .flag "default", .flag "dev",
    .value device.name, .flag "src", .value (String.ofList endpoint.localAddr.display),
    .flag "table", .value policyTable, .flag "metric", .value routeMetric, .flag "mtu",
    .value mtu]

def tableShow (family : Family) : Except PolicyError Command :=
  Command.build policy.ip
    [.flag family.ipFlag, .flag "route", .flag "show", .flag "table", .value policyTable]

def ruleShow (family : Family) : Except PolicyError Command :=
  Command.build policy.ip [.flag family.ipFlag, .flag "rule", .flag "show"]

def ruleFlush (family : Family) : Except PolicyError Command :=
  Command.build policy.ip
    [.flag family.ipFlag, .flag "rule", .flag "del", .flag "lookup", .value policyTable]

def backstopFlush (family : Family) : Except PolicyError Command :=
  Command.build policy.ip
    [.flag family.ipFlag, .flag "rule", .flag "del", .flag "priority", .value backstopPriority]

def tableFlush (family : Family) : Except PolicyError Command :=
  Command.build policy.ip
    [.flag family.ipFlag, .flag "route", .flag "flush", .flag "table", .value policyTable]

/-! ## §2. Steps. -/

def step (family : Family) (kind : StepKind) (args : String → List Arg)
    (probe : Except PolicyError Command) (rendered : String) : Except PolicyError Step := do
  let probe ← probe
  let apply ← Command.build policy.ip (args "add")
  let undo ← Command.build policy.ip (args "del")
  .ok
    { family, kind, apply, undo
      afterApply := some (Check.present probe [rendered])
      afterUndo := some (Check.absent probe [rendered]) }

def backstopText (endpoint : TunnelEndpoint) : String :=
  "from " ++ String.ofList endpoint.localAddr.display ++ " unreachable"

def backstopStep (endpoint : TunnelEndpoint) : Except PolicyError Step :=
  policy.step endpoint.family .backstop (backstopArgs endpoint)
    (policy.ruleShow endpoint.family) (backstopText endpoint)

def floorText : String := "unreachable default"

def floorStep (family : Family) : Except PolicyError Step :=
  policy.step family .floor (floorArgs family) (policy.tableShow family) floorText

def ruleText (endpoint : TunnelEndpoint) : String :=
  "from " ++ String.ofList endpoint.localAddr.display ++ " lookup " ++ policyTable

def ruleStep (endpoint : TunnelEndpoint) : Except PolicyError Step :=
  policy.step endpoint.family .rule (ruleArgs endpoint) (policy.ruleShow endpoint.family)
    (ruleText endpoint)

def routeText (device : DeviceName) : String := "default dev " ++ device.name

def routeStep (device : DeviceName) (endpoint : TunnelEndpoint) (mtu : String) :
    Except PolicyError Step :=
  policy.step endpoint.family .tunnelRoute (routeArgs device endpoint mtu)
    (policy.tableShow endpoint.family) (routeText device)

def familySteps (spec : TunnelSpec) (endpoint : TunnelEndpoint) :
    Except PolicyError (List Step) := do
  let backstop ← policy.backstopStep endpoint
  let floor ← policy.floorStep endpoint.family
  let rule ← policy.ruleStep endpoint
  let route ← policy.routeStep spec.device endpoint spec.mtu.display
  .ok [backstop, floor, rule, route]

def plan (spec : TunnelSpec) : Except PolicyError Plan := do
  let steps ← spec.endpoints.mapM (policy.familySteps spec)
  Plan.new steps.flatten

def preInstallCleanup (spec : TunnelSpec) : Except PolicyError (List Command) :=
  (spec.endpoints.flatMap fun endpoint =>
    [policy.backstopFlush endpoint.family, policy.ruleFlush endpoint.family,
      policy.tableFlush endpoint.family]).mapM id

end LinuxPolicy

/-! ## §3. The manager. -/

structure InstalledPolicy where
  spec : TunnelSpec
  plan : Plan
  deriving DecidableEq

structure PolicyManager where
  backend : LinuxPolicy
  installed : Bool
  deriving DecidableEq

def PolicyManager.install (manager : PolicyManager) (spec : TunnelSpec) :
    Script (InstalledPolicy × PolicyManager) := do
  let plan ← settle (manager.backend.plan spec)
  let cleanup ← settle (manager.backend.preInstallCleanup spec)
  let _ ← runBestEffort cleanup
  Policy.install plan
  pure (⟨spec, plan⟩, { manager with installed := true })

def PolicyManager.reassert (_ : PolicyManager) (installed : InstalledPolicy) : Pass Reassertion :=
  Policy.reassert installed.plan

def PolicyManager.teardown (manager : PolicyManager) (installed : InstalledPolicy) :
    Script PolicyManager := do
  Policy.teardown installed.plan
  pure { manager with installed := false }

end ThisConnect.Policy
