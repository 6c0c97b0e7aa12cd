/-
  ThisConnect.Policy.Kernel
  **THE ROUTING STATE, `ip(8)`, AND A RUNNER THAT MAY LIE.**
-/
import ThisConnect.Policy.Linux

namespace ThisConnect.Policy

open Net Numeral Interaction

/-! ## §1. Rules and routes. -/

structure IpPrefix where
  addr : IpAddr
  bits : Nat
  deriving DecidableEq, Repr

inductive RuleAction where
  | lookup (table : Nat)
  | unreachable
  deriving DecidableEq, Repr

structure IpRule where
  family : Family
  priority : Nat
  src : Option IpPrefix
  action : RuleAction
  deriving DecidableEq, Repr

inductive RouteTarget where
  | unreachable
  | dev (device : String)
  deriving DecidableEq, Repr

structure IpRoute where
  family : Family
  table : Nat
  dst : Option IpPrefix
  target : RouteTarget
  src : Option IpAddr
  metric : Nat
  mtu : Option Nat
  deriving DecidableEq, Repr

inductive Entry where
  | rule (r : IpRule)
  | route (r : IpRoute)
  deriving DecidableEq, Repr

abbrev Kernel := List Entry

def Kernel.rulesOf (kernel : Kernel) (family : Family) : List IpRule :=
  kernel.filterMap fun
    | .rule r => if r.family = family then some r else none
    | .route _ => none

def Kernel.tableOf (kernel : Kernel) (family : Family) (table : Nat) : List IpRoute :=
  kernel.filterMap fun
    | .rule _ => none
    | .route r => if r.family = family ∧ r.table = table then some r else none

theorem Kernel.mem_rulesOf {kernel : Kernel} {family : Family} {r : IpRule} :
    r ∈ kernel.rulesOf family ↔ Entry.rule r ∈ kernel ∧ r.family = family := by
  unfold Kernel.rulesOf
  rw [List.mem_filterMap]
  constructor
  · rintro ⟨entry, hmem, hentry⟩
    cases entry with
    | rule r' =>
      by_cases hf : r'.family = family
      · simp only [hf, if_true, Option.some.injEq] at hentry
        subst hentry
        exact ⟨hmem, hf⟩
      · simp [hf] at hentry
    | route r' => simp at hentry
  · rintro ⟨hmem, hf⟩
    exact ⟨.rule r, hmem, by simp [hf]⟩

theorem Kernel.mem_tableOf {kernel : Kernel} {family : Family} {table : Nat} {r : IpRoute} :
    r ∈ kernel.tableOf family table ↔
      Entry.route r ∈ kernel ∧ r.family = family ∧ r.table = table := by
  unfold Kernel.tableOf
  rw [List.mem_filterMap]
  constructor
  · rintro ⟨entry, hmem, hentry⟩
    cases entry with
    | rule r' => simp at hentry
    | route r' =>
      by_cases hf : r'.family = family ∧ r'.table = table
      · simp only [hf, and_self, if_true, Option.some.injEq] at hentry
        subst hentry
        exact ⟨hmem, hf⟩
      · simp [hf] at hentry
  · rintro ⟨hmem, hf⟩
    exact ⟨.route r, hmem, by simp [hf]⟩

/-! ## §2. Reading an argument vector. -/

structure RuleQuery where
  priority : Option Nat := none
  src : Option IpPrefix := none
  action : Option RuleAction := none

def RuleQuery.selects (query : RuleQuery) (family : Family) (r : IpRule) : Bool :=
  decide (r.family = family)
    && query.priority.all (· == r.priority)
    && query.src.all (some · == r.src)
    && query.action.all (· == r.action)

structure RouteQuery where
  target : Option RouteTarget := none
  src : Option IpAddr := none
  table : Option Nat := none
  metric : Option Nat := none
  mtu : Option Nat := none

def RouteQuery.selects (query : RouteQuery) (family : Family) (r : IpRoute) : Bool :=
  decide (r.family = family) && decide (r.dst = none)
    && query.target.all (· == r.target)
    && query.src.all (some · == r.src)
    && query.table.all (· == r.table)
    && query.metric.all (· == r.metric)
    && query.mtu.all (some · == r.mtu)

inductive IpOp where
  | addRule (r : IpRule)
  | delRule (family : Family) (query : RuleQuery)
  | addRoute (r : IpRoute)
  | delRoute (family : Family) (query : RouteQuery)
  | flushTable (family : Family) (table : Nat)
  | showRules (family : Family)
  | showTable (family : Family) (table : Nat)

def readNat (text : String) : Option Nat := parseUnsigned (2 ^ 32) text.toList

/-- `address/length`. -/
def readPrefix (text : String) : Option IpPrefix := do
  let addr ← parseIpAddr (text.toList.takeWhile (· ≠ '/'))
  let bits ← parseUnsigned 129 ((text.toList.dropWhile (· ≠ '/')).drop 1)
  some ⟨addr, bits⟩

/-- Options come as keyword and value. -/
def readOptions {σ : Type} (option : σ → String → String → Option σ) : σ → List String → Option σ
  | s, [] => some s
  | _, [_] => none
  | s, key :: value :: rest => (option s key value).bind fun s' => readOptions option s' rest

def ruleOption (query : RuleQuery) (key value : String) : Option RuleQuery :=
  if key = "from" then (readPrefix value).map fun src => { query with src := some src }
  else if key = "priority" then (readNat value).map fun p => { query with priority := some p }
  else if key = "lookup" then
    (readNat value).map fun t => { query with action := some (.lookup t) }
  else if key = "type" ∧ value = "unreachable" then
    some { query with action := some .unreachable }
  else none

def routeOption (query : RouteQuery) (key value : String) : Option RouteQuery :=
  if key = "dev" then some { query with target := some (.dev value) }
  else if key = "src" then (parseIpAddr value.toList).map fun a => { query with src := some a }
  else if key = "table" then (readNat value).map fun t => { query with table := some t }
  else if key = "metric" then (readNat value).map fun m => { query with metric := some m }
  else if key = "mtu" then (readNat value).map fun m => { query with mtu := some m }
  else none

/-- `[unreachable] default OPTIONS`. -/
def readRoute (args : List String) : Option RouteQuery :=
  match args with
  | word :: rest =>
    if word = "default" then readOptions routeOption {} rest
    else if word = "unreachable" ∧ rest.head? = some "default" then
      readOptions routeOption { target := some .unreachable } rest.tail
    else none
  | [] => none

def readFamily (flag : String) : Option Family :=
  if flag = "-4" then some .v4 else if flag = "-6" then some .v6 else none

def readRuleOp (family : Family) (verb : String) (rest : List String) : Option IpOp :=
  if verb = "show" then some (.showRules family)
  else if verb = "del" then (readOptions ruleOption {} rest).map (.delRule family)
  else if verb = "add" then do
    let query ← readOptions ruleOption {} rest
    let priority ← query.priority
    let action ← query.action
    some (.addRule ⟨family, priority, query.src, action⟩)
  else none

def readRouteOp (family : Family) (verb : String) (rest : List String) : Option IpOp :=
  if verb = "show" then do
    let query ← readOptions routeOption {} rest
    query.table.map (.showTable family)
  else if verb = "flush" then do
    let query ← readOptions routeOption {} rest
    query.table.map (.flushTable family)
  else if verb = "del" then (readRoute rest).map (.delRoute family)
  else if verb = "add" then do
    let query ← readRoute rest
    let table ← query.table
    let target ← query.target
    let metric ← query.metric
    some (.addRoute ⟨family, table, none, target, query.src, metric, query.mtu⟩)
  else none

def readIp : List String → Option IpOp
  | flag :: object :: verb :: rest => do
      let family ← readFamily flag
      if object = "rule" then readRuleOp family verb rest
      else if object = "route" then readRouteOp family verb rest
      else none
  | _ => none

/-! ## §3. What an operation does. -/

def Kernel.apply (kernel : Kernel) : IpOp → Kernel
  | .addRule r => kernel ++ [.rule r]
  | .addRoute r => kernel ++ [.route r]
  | .delRule family query => kernel.eraseP fun
      | .rule r => query.selects family r
      | .route _ => false
  | .delRoute family query => kernel.eraseP fun
      | .rule _ => false
      | .route r => query.selects family r
  | .flushTable family table => kernel.filter fun
      | .rule _ => true
      | .route r => !(decide (r.family = family) && decide (r.table = table))
  | .showRules _ => kernel
  | .showTable _ _ => kernel

/-- How `ip` prints a listing. -/
structure Listing where
  rules : List IpRule → String
  table : List IpRoute → String

def Listing.print (listing : Listing) (kernel : Kernel) : IpOp → Option String
  | .showRules family => some (listing.rules (kernel.rulesOf family))
  | .showTable family table => some (listing.table (kernel.tableOf family table))
  | _ => none

inductive Answers (listing : Listing) :
    Kernel → Command → Except PolicyError CommandOutput → Kernel → Prop where
  | performed {kernel : Kernel} {command : Command} {op : IpOp}
      (reply : Except PolicyError CommandOutput) (hop : readIp command.args = some op)
      (hmutates : listing.print kernel op = none) :
      Answers listing kernel command reply (kernel.apply op)
  | ignored {kernel : Kernel} {command : Command}
      (reply : Except PolicyError CommandOutput)
      (hmutates : ∀ op, readIp command.args = some op → listing.print kernel op = none) :
      Answers listing kernel command reply kernel
  | printed {kernel : Kernel} {command : Command} {op : IpOp} {text : String} (stderr : String)
      (hop : readIp command.args = some op) (htext : listing.print kernel op = some text) :
      Answers listing kernel command (.ok ⟨some 0, text, stderr⟩) kernel
  | unreadable {kernel : Kernel} {command : Command}
      (reply : Except PolicyError CommandOutput)
      (hfailed : ∀ output, reply = .ok output → output.succeeded = false) :
      Answers listing kernel command reply kernel

def runner (listing : Listing) :
    Env Command (fun _ => Except PolicyError CommandOutput) Kernel :=
  fun kernel command reply kernel' => Answers listing kernel command reply kernel'

end ThisConnect.Policy
