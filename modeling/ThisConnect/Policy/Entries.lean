/-
  ThisConnect.Policy.Entries
  **WHAT THE LINUX PLAN PUTS ON THE MACHINE.**
-/
import ThisConnect.Policy.Staged

namespace ThisConnect.Policy

open Net Numeral Interaction

/-! ## §1. The entries of a tunnel. -/

namespace TunnelEndpoint

variable (endpoint : TunnelEndpoint)

def host : IpPrefix := ⟨endpoint.localAddr, endpoint.family.hostBits⟩

def backstopRule : IpRule := ⟨endpoint.family, 18500, some endpoint.host, .unreachable⟩

def sourceRule : IpRule := ⟨endpoint.family, 18000, some endpoint.host, .lookup 218⟩

end TunnelEndpoint

def floorRoute (family : Family) : IpRoute := ⟨family, 218, none, .unreachable, none, 4000, none⟩

namespace TunnelSpec

variable (spec : TunnelSpec)

def tunnelRoute (endpoint : TunnelEndpoint) : IpRoute :=
  ⟨endpoint.family, 218, none, .dev spec.device.name, some endpoint.localAddr, 100,
    some spec.mtu.value.toNat⟩

/-- One family's entries, in plan order. -/
def entriesOf (endpoint : TunnelEndpoint) : List Entry :=
  [.rule endpoint.backstopRule, .route (floorRoute endpoint.family), .rule endpoint.sourceRule,
    .route (spec.tunnelRoute endpoint)]

def entries : List Entry := spec.endpoints.flatMap spec.entriesOf

def Foreign : Entry → Prop
  | .rule r => r.priority ≠ 18000 ∧ r.priority ≠ 18500 ∧ r.action ≠ .lookup 218 ∧
      ∀ endpoint ∈ spec.endpoints, ∀ src ∈ r.src, src.addr ≠ endpoint.localAddr
  | .route r => r.table ≠ 218

/-- A machine with none of our entries. -/
def Clean (kernel : Kernel) : Prop := ∀ entry ∈ kernel, spec.Foreign entry

/-- A machine whose entries are foreign or ours. -/
def Confined (kernel : Kernel) : Prop := ∀ entry ∈ kernel, spec.Foreign entry ∨ entry ∈ spec.entries

end TunnelSpec

/-- The text of a listing shows exactly the entries present: the text each check looks for is
    there when, and only when, the entry it stands for is. -/
structure Listing.Decides (listing : Listing) (spec : TunnelSpec) : Prop where
  backstop : ∀ kernel, spec.Confined kernel → ∀ endpoint ∈ spec.endpoints,
    contains (listing.rules (kernel.rulesOf endpoint.family))
        (LinuxPolicy.backstopText endpoint) = true ↔
      Entry.rule endpoint.backstopRule ∈ kernel
  floor : ∀ kernel, spec.Confined kernel → ∀ endpoint ∈ spec.endpoints,
    contains (listing.table (kernel.tableOf endpoint.family 218)) LinuxPolicy.floorText = true ↔
      Entry.route (floorRoute endpoint.family) ∈ kernel
  source : ∀ kernel, spec.Confined kernel → ∀ endpoint ∈ spec.endpoints,
    contains (listing.rules (kernel.rulesOf endpoint.family))
        (LinuxPolicy.ruleText endpoint) = true ↔
      Entry.rule endpoint.sourceRule ∈ kernel
  tunnel : ∀ kernel, spec.Confined kernel → ∀ endpoint ∈ spec.endpoints,
    contains (listing.table (kernel.tableOf endpoint.family 218))
        (LinuxPolicy.routeText spec.device) = true ↔
      Entry.route (spec.tunnelRoute endpoint) ∈ kernel

/-- The half of it that asks nothing of the machine: an entry that is there shows. -/
structure Listing.Shows (listing : Listing) : Prop where
  backstop : ∀ (kernel : Kernel) (endpoint : TunnelEndpoint),
    Entry.rule endpoint.backstopRule ∈ kernel →
      contains (listing.rules (kernel.rulesOf endpoint.family))
        (LinuxPolicy.backstopText endpoint) = true
  floor : ∀ (kernel : Kernel) (family : Family), Entry.route (floorRoute family) ∈ kernel →
    contains (listing.table (kernel.tableOf family 218)) LinuxPolicy.floorText = true
  source : ∀ (kernel : Kernel) (endpoint : TunnelEndpoint),
    Entry.rule endpoint.sourceRule ∈ kernel →
      contains (listing.rules (kernel.rulesOf endpoint.family))
        (LinuxPolicy.ruleText endpoint) = true
  tunnel : ∀ (kernel : Kernel) (spec : TunnelSpec) (endpoint : TunnelEndpoint),
    Entry.route (spec.tunnelRoute endpoint) ∈ kernel →
      contains (listing.table (kernel.tableOf endpoint.family 218))
        (LinuxPolicy.routeText spec.device) = true

/-! ## §2. Reading the plan's commands. -/

def Arg.text : Arg → String
  | .flag literal => literal
  | .value data => data

theorem Arg.render_ok {arg : Arg} {text : String} (h : arg.render = .ok text) :
    text = arg.text := by
  cases arg with
  | flag literal =>
    injection h with h
    exact h.symm
  | value data =>
    unfold Arg.render validateValue at h
    dsimp only at h
    obtain ⟨_, h⟩ := ok_of_unless h
    obtain ⟨_, h⟩ := ok_of_unless h
    obtain ⟨_, h⟩ := ok_of_unless h
    obtain ⟨_, h⟩ := ok_of_unless h
    injection h with h
    exact h.symm

variable {args : List Arg} {command : Command} {k : Kernel} {p : Entry → Bool} {action : RuleAction}
  {family : Family} {priority : Nat} {src : IpPrefix} {endpoint : TunnelEndpoint}
  {steps : List Step}

theorem mapM_render_ok :
    ∀ {texts : List String}, args.mapM Arg.render = .ok texts → texts = args.map Arg.text := by
  induction args with
  | nil =>
    intro texts h
    rw [List.mapM_nil] at h
    injection h with h
    exact h.symm
  | cons arg args ih =>
    intro texts h
    rw [List.mapM_cons] at h
    obtain ⟨text, htext, h⟩ := ok_of_bind h
    obtain ⟨rest, hrest, h⟩ := ok_of_bind h
    injection h with h
    rw [← h, List.map_cons, Arg.render_ok htext, ih hrest]

theorem build_ok {program : String} (h : Command.build program args = .ok command) :
    command.args = args.map Arg.text := by
  obtain ⟨texts, htexts, h⟩ := ok_of_bind h
  injection h with h
  rw [← h]
  exact mapM_render_ok htexts

theorem readFamily_ipFlag (family : Family) : readFamily family.ipFlag = some family := by
  cases family <;> rfl

theorem slash_not_mem_display (ip : IpAddr) : '/' ∉ ip.display := by
  intro h
  exact absurd (isAddrChar_of_mem_display h) (by decide)

theorem readPrefix_localHostCidr (endpoint : TunnelEndpoint) :
    readPrefix endpoint.localHostCidr = some endpoint.host := by
  have hne : ∀ c ∈ endpoint.localAddr.display, decide (c ≠ '/') = true := by
    intro c hc
    have := slash_not_mem_display endpoint.localAddr
    simp only [ne_eq, decide_eq_true_eq]
    rintro rfl
    exact this hc
  have htext : endpoint.localHostCidr.toList
      = endpoint.localAddr.display ++ '/' :: Nat.toDigits 10 endpoint.family.hostBits := by
    unfold TunnelEndpoint.localHostCidr Family.hostPrefix
    simp [String.toList_append, Nat.repr]
  unfold readPrefix
  rw [htext, List.takeWhile_append_of_pos hne, List.dropWhile_append_of_pos hne]
  have hbits : parseUnsigned 129 (Nat.toDigits 10 endpoint.family.hostBits)
      = some endpoint.family.hostBits :=
    parseUnsigned_toDigits (by cases endpoint.family <;> decide)
  simp [parseIpAddr_display, hbits, TunnelEndpoint.host]

theorem readNat_mtu (mtu : Mtu) : readNat mtu.display = some mtu.value.toNat := by
  unfold readNat Mtu.display
  have htext : (mtu.value.toNat.repr).toList = Nat.toDigits 10 mtu.value.toNat := by
    simp [Nat.repr]
  rw [htext]
  exact parseUnsigned_toDigits mtu.value.toNat_lt

/-! ### One lemma per command of the plan. -/

section Commands

variable (endpoint : TunnelEndpoint) (spec : TunnelSpec) (family : Family)

theorem readIp_backstop_add :
    readIp ((LinuxPolicy.backstopArgs endpoint "add").map Arg.text)
      = some (.addRule endpoint.backstopRule) := by
  have hprio : readNat backstopPriority = some 18500 := by decide
  simp [readIp, LinuxPolicy.backstopArgs, Arg.text, readFamily_ipFlag, readRuleOp, readOptions,
    ruleOption, readPrefix_localHostCidr, hprio, TunnelEndpoint.backstopRule]

theorem readIp_backstop_del :
    readIp ((LinuxPolicy.backstopArgs endpoint "del").map Arg.text)
      = some (.delRule endpoint.family ⟨some 18500, some endpoint.host, some .unreachable⟩) := by
  have hprio : readNat backstopPriority = some 18500 := by decide
  simp [readIp, LinuxPolicy.backstopArgs, Arg.text, readFamily_ipFlag, readRuleOp, readOptions,
    ruleOption, readPrefix_localHostCidr, hprio]

theorem readIp_source_add :
    readIp ((LinuxPolicy.ruleArgs endpoint "add").map Arg.text)
      = some (.addRule endpoint.sourceRule) := by
  have hprio : readNat rulePriority = some 18000 := by decide
  have htable : readNat policyTable = some 218 := by decide
  simp [readIp, LinuxPolicy.ruleArgs, Arg.text, readFamily_ipFlag, readRuleOp, readOptions,
    ruleOption, readPrefix_localHostCidr, hprio, htable, TunnelEndpoint.sourceRule]

theorem readIp_source_del :
    readIp ((LinuxPolicy.ruleArgs endpoint "del").map Arg.text)
      = some (.delRule endpoint.family ⟨some 18000, some endpoint.host, some (.lookup 218)⟩) := by
  have hprio : readNat rulePriority = some 18000 := by decide
  have htable : readNat policyTable = some 218 := by decide
  simp [readIp, LinuxPolicy.ruleArgs, Arg.text, readFamily_ipFlag, readRuleOp, readOptions,
    ruleOption, readPrefix_localHostCidr, hprio, htable]

theorem readIp_floor_add :
    readIp ((LinuxPolicy.floorArgs family "add").map Arg.text)
      = some (.addRoute (floorRoute family)) := by
  have htable : readNat policyTable = some 218 := by decide
  have hmetric : readNat floorMetric = some 4000 := by decide
  simp [readIp, LinuxPolicy.floorArgs, Arg.text, readFamily_ipFlag, readRouteOp, readRoute,
    readOptions, routeOption, htable, hmetric, floorRoute]

theorem readIp_floor_del :
    readIp ((LinuxPolicy.floorArgs family "del").map Arg.text)
      = some (.delRoute family ⟨some .unreachable, none, some 218, some 4000, none⟩) := by
  have htable : readNat policyTable = some 218 := by decide
  have hmetric : readNat floorMetric = some 4000 := by decide
  simp [readIp, LinuxPolicy.floorArgs, Arg.text, readFamily_ipFlag, readRouteOp, readRoute,
    readOptions, routeOption, htable, hmetric]

theorem readIp_route_add :
    readIp ((LinuxPolicy.routeArgs spec.device endpoint spec.mtu.display "add").map Arg.text)
      = some (.addRoute (spec.tunnelRoute endpoint)) := by
  have htable : readNat policyTable = some 218 := by decide
  have hmetric : readNat routeMetric = some 100 := by decide
  simp [readIp, LinuxPolicy.routeArgs, Arg.text, readFamily_ipFlag, readRouteOp, readRoute,
    readOptions, routeOption, htable, hmetric, readNat_mtu, parseIpAddr_display,
    TunnelSpec.tunnelRoute]

theorem readIp_route_del :
    readIp ((LinuxPolicy.routeArgs spec.device endpoint spec.mtu.display "del").map Arg.text)
      = some (.delRoute endpoint.family ⟨some (.dev spec.device.name), some endpoint.localAddr,
          some 218, some 100, some spec.mtu.value.toNat⟩) := by
  have htable : readNat policyTable = some 218 := by decide
  have hmetric : readNat routeMetric = some 100 := by decide
  simp [readIp, LinuxPolicy.routeArgs, Arg.text, readFamily_ipFlag, readRouteOp, readRoute,
    readOptions, routeOption, htable, hmetric, readNat_mtu, parseIpAddr_display]

variable {policy : LinuxPolicy} {command : Command}

theorem readIp_ruleShow (h : policy.ruleShow family = .ok command) :
    readIp command.args = some (.showRules family) := by
  rw [build_ok h]
  simp [readIp, Arg.text, readFamily_ipFlag, readRuleOp]

theorem readIp_tableShow (h : policy.tableShow family = .ok command) :
    readIp command.args = some (.showTable family 218) := by
  have htable : readNat policyTable = some 218 := by decide
  rw [build_ok h]
  simp [readIp, Arg.text, readFamily_ipFlag, readRouteOp, readOptions, routeOption, htable]

theorem readIp_ruleFlush (h : policy.ruleFlush family = .ok command) :
    readIp command.args = some (.delRule family ⟨none, none, some (.lookup 218)⟩) := by
  have htable : readNat policyTable = some 218 := by decide
  rw [build_ok h]
  simp [readIp, Arg.text, readFamily_ipFlag, readRuleOp, readOptions, ruleOption, htable]

theorem readIp_backstopFlush (h : policy.backstopFlush family = .ok command) :
    readIp command.args = some (.delRule family ⟨some 18500, none, none⟩) := by
  have hprio : readNat backstopPriority = some 18500 := by decide
  rw [build_ok h]
  simp [readIp, Arg.text, readFamily_ipFlag, readRuleOp, readOptions, ruleOption, hprio]

theorem readIp_tableFlush (h : policy.tableFlush family = .ok command) :
    readIp command.args = some (.flushTable family 218) := by
  have htable : readNat policyTable = some 218 := by decide
  rw [build_ok h]
  simp [readIp, Arg.text, readFamily_ipFlag, readRouteOp, readOptions, routeOption, htable]

end Commands

/-! ## §3. Ours and foreign. -/

variable {entry : Entry} {s : Step} {base : Kernel}

section Membership

variable {spec : TunnelSpec} {kernel : Kernel}

theorem TunnelSpec.mem_entries :
    entry ∈ spec.entries ↔ ∃ endpoint ∈ spec.endpoints, entry ∈ spec.entriesOf endpoint := by
  unfold TunnelSpec.entries
  exact List.mem_flatMap

theorem TunnelSpec.rule_mem_entries {r : IpRule} (h : Entry.rule r ∈ spec.entries) :
    ∃ endpoint ∈ spec.endpoints, r = endpoint.backstopRule ∨ r = endpoint.sourceRule := by
  obtain ⟨endpoint, hmem, hentry⟩ := TunnelSpec.mem_entries.mp h
  refine ⟨endpoint, hmem, ?_⟩
  simpa [TunnelSpec.entriesOf] using hentry

variable {r : IpRoute}

theorem TunnelSpec.route_mem_entries (h : Entry.route r ∈ spec.entries) :
    ∃ endpoint ∈ spec.endpoints,
      r = floorRoute endpoint.family ∨ r = spec.tunnelRoute endpoint := by
  obtain ⟨endpoint, hmem, hentry⟩ := TunnelSpec.mem_entries.mp h
  refine ⟨endpoint, hmem, ?_⟩
  simpa [TunnelSpec.entriesOf] using hentry

theorem TunnelSpec.not_foreign_of_mem_entries (h : entry ∈ spec.entries) :
    ¬ spec.Foreign entry := by
  cases entry with
  | rule r =>
    obtain ⟨endpoint, -, rfl | rfl⟩ := TunnelSpec.rule_mem_entries h
    · exact fun hf => hf.2.1 rfl
    · exact fun hf => hf.1 rfl
  | route r =>
    obtain ⟨endpoint, -, rfl | rfl⟩ := TunnelSpec.route_mem_entries h
    · exact fun hf => hf rfl
    · exact fun hf => hf rfl

theorem TunnelSpec.Confined.table (hk : spec.Confined kernel) (hmem : Entry.route r ∈ kernel)
    (htable : r.table = 218) :
    ∃ endpoint ∈ spec.endpoints,
      r = floorRoute endpoint.family ∨ r = spec.tunnelRoute endpoint := by
  rcases hk _ hmem with hforeign | hours
  · exact absurd htable hforeign
  · exact TunnelSpec.route_mem_entries hours

theorem TunnelSpec.endpoint_unique {e e' : TunnelEndpoint} (he : e ∈ spec.endpoints)
    (he' : e' ∈ spec.endpoints) (hf : e.family = e'.family) : e = e' := by
  have h4 := spec.v4_family
  have h6 := spec.v6_family
  unfold TunnelSpec.endpoints at he he'
  rcases List.mem_cons.mp he with rfl | he
  · rcases List.mem_cons.mp he' with rfl | he'
    · rfl
    · rw [h4, h6 e' (Option.mem_toList.mp he')] at hf
      exact absurd hf (by decide)
  · rcases List.mem_cons.mp he' with rfl | he'
    · rw [h4, h6 e (Option.mem_toList.mp he)] at hf
      exact absurd hf (by decide)
    · exact Option.mem_unique (Option.mem_toList.mp he) (Option.mem_toList.mp he')

theorem TunnelSpec.entries_nodup (spec : TunnelSpec) : spec.entries.Nodup := by
  have hown : ∀ e : TunnelEndpoint, (spec.entriesOf e).Nodup := by
    intro e
    simp [TunnelSpec.entriesOf, TunnelEndpoint.backstopRule, TunnelEndpoint.sourceRule,
      TunnelSpec.tunnelRoute, floorRoute]
  unfold TunnelSpec.entries TunnelSpec.endpoints
  cases hv6 : spec.v6 with
  | none => simpa using hown spec.v4
  | some e6 =>
    have h4 := spec.v4_family
    have h6 : e6.family = .v6 := spec.v6_family e6 (by rw [hv6]; rfl)
    simp only [Option.toList_some, List.flatMap_cons, List.flatMap_nil, List.append_nil]
    refine List.Nodup.append (hown _) (hown _) ?_
    -- entries of different families differ in their family field
    intro entry ha hb
    simp only [TunnelSpec.entriesOf, List.mem_cons, List.not_mem_nil, or_false] at ha hb
    rcases ha with rfl | rfl | rfl | rfl <;>
      simp [TunnelEndpoint.backstopRule, TunnelEndpoint.sourceRule, TunnelSpec.tunnelRoute,
        floorRoute, h4, h6] at hb

end Membership

/-! ## §4. Every step of the plan is lawful. -/

theorem eraseP_entry (hp : ∀ x ∈ k, p x = true → x = entry) (hself : p entry = true)
    (hnew : entry ∉ k) : (k ++ [entry]).eraseP p = k ∧ k.eraseP p = k := by
  have hnone : ∀ x ∈ k, ¬ p x = true := by
    intro x hx hpx
    exact hnew (hp x hx hpx ▸ hx)
  constructor
  · rw [List.eraseP_append_right _ hnone]
    simp [hself]
  · exact List.eraseP_of_forall_not hnone

theorem RuleQuery.selects_full {r : IpRule} :
    (RuleQuery.mk (some priority) (some src) (some action)).selects family r = true ↔
      r = ⟨family, priority, some src, action⟩ := by
  obtain ⟨f, p, s, a⟩ := r
  unfold RuleQuery.selects
  simp only [Option.all_some, Bool.and_eq_true, decide_eq_true_eq, beq_iff_eq, IpRule.mk.injEq]
  constructor
  · rintro ⟨⟨⟨rfl, rfl⟩, rfl⟩, rfl⟩
    exact ⟨rfl, rfl, rfl, rfl⟩
  · rintro ⟨rfl, rfl, rfl, rfl⟩
    exact ⟨⟨⟨rfl, rfl⟩, rfl⟩, rfl⟩

theorem delRule_entry (hnew : Entry.rule ⟨family, priority, some src, action⟩ ∉ k) :
    let op := IpOp.delRule family ⟨some priority, some src, some action⟩
    let entry := Entry.rule ⟨family, priority, some src, action⟩
    Kernel.apply (k ++ [entry]) op = k ∧ k.apply op = k := by
  refine eraseP_entry ?_ (RuleQuery.selects_full.mpr rfl) hnew
  intro x _ hx
  cases x with
  | rule r => exact congrArg Entry.rule (RuleQuery.selects_full.mp hx)
  | route r => exact absurd hx (by simp)

variable {listing : Listing} {spec : TunnelSpec} {policy : LinuxPolicy}

theorem step_ok {kind : StepKind} {args : String → List Arg} {probe : Except PolicyError Command}
    {rendered : String} (h : policy.step family kind args probe rendered = .ok s) :
    s.apply.args = (args "add").map Arg.text ∧ s.undo.args = (args "del").map Arg.text ∧
      ∃ p, probe = .ok p ∧ s.afterApply = some (Check.present p [rendered]) ∧
        s.afterUndo = some (Check.absent p [rendered]) := by
  obtain ⟨p, hp, h⟩ := ok_of_bind h
  obtain ⟨apply, happly, h⟩ := ok_of_bind h
  obtain ⟨undo, hundo, h⟩ := ok_of_bind h
  injection h with h
  subst h
  exact ⟨build_ok happly, build_ok hundo, p, hp, rfl, rfl⟩

theorem backstopStep_lawful (hlisting : listing.Decides spec) (hmem : endpoint ∈ spec.endpoints)
    (h : policy.backstopStep endpoint = .ok s) :
    s.Lawful listing spec.Confined (.rule endpoint.backstopRule) := by
  obtain ⟨happly, hundo, probe, hprobe, hafter, hafter'⟩ := step_ok h
  constructor
  · exact ⟨_, happly ▸ readIp_backstop_add endpoint, fun _ => rfl⟩
  · exact ⟨_, hundo ▸ readIp_backstop_del endpoint, fun k _ hnew => delRule_entry hnew⟩
  · exact ⟨probe, _, _, hafter, hafter', readIp_ruleShow _ hprobe,
      fun k hk => ⟨_, rfl, hlisting.backstop k hk endpoint hmem⟩⟩

theorem ruleStep_lawful (hlisting : listing.Decides spec) (hmem : endpoint ∈ spec.endpoints)
    (h : policy.ruleStep endpoint = .ok s) :
    s.Lawful listing spec.Confined (.rule endpoint.sourceRule) := by
  obtain ⟨happly, hundo, probe, hprobe, hafter, hafter'⟩ := step_ok h
  constructor
  · exact ⟨_, happly ▸ readIp_source_add endpoint, fun _ => rfl⟩
  · exact ⟨_, hundo ▸ readIp_source_del endpoint, fun k _ hnew => delRule_entry hnew⟩
  · exact ⟨probe, _, _, hafter, hafter', readIp_ruleShow _ hprobe,
      fun k hk => ⟨_, rfl, hlisting.source k hk endpoint hmem⟩⟩

theorem floorStep_lawful (hlisting : listing.Decides spec) (hmem : endpoint ∈ spec.endpoints)
    (h : policy.floorStep endpoint.family = .ok s) :
    s.Lawful listing spec.Confined (.route (floorRoute endpoint.family)) := by
  obtain ⟨happly, hundo, probe, hprobe, hafter, hafter'⟩ := step_ok h
  constructor
  · exact ⟨_, happly ▸ readIp_floor_add endpoint.family, fun _ => rfl⟩
  · refine ⟨_, hundo ▸ readIp_floor_del endpoint.family, fun k hk hnew => ?_⟩
    refine eraseP_entry ?_ (by simp [RouteQuery.selects, floorRoute]) hnew
    intro x hx hsel
    cases x with
    | rule r => exact absurd hsel (by simp)
    | route r =>
      simp only [RouteQuery.selects, Option.all_some, Option.all_none, Bool.and_true,
        Bool.and_eq_true, decide_eq_true_eq, beq_iff_eq] at hsel
      obtain ⟨⟨⟨⟨hfamily, -⟩, htarget⟩, htable⟩, -⟩ := hsel
      obtain ⟨e, he, rfl | rfl⟩ := hk.table hx htable.symm
      · exact congrArg (fun f => Entry.route (floorRoute f)) hfamily
      · exact absurd htarget (by simp [TunnelSpec.tunnelRoute])
  · exact ⟨probe, _, _, hafter, hafter', readIp_tableShow _ hprobe,
      fun k hk => ⟨_, rfl, hlisting.floor k hk endpoint hmem⟩⟩

theorem routeStep_lawful (hlisting : listing.Decides spec) (hmem : endpoint ∈ spec.endpoints)
    (h : policy.routeStep spec.device endpoint spec.mtu.display = .ok s) :
    s.Lawful listing spec.Confined (.route (spec.tunnelRoute endpoint)) := by
  obtain ⟨happly, hundo, probe, hprobe, hafter, hafter'⟩ := step_ok h
  constructor
  · exact ⟨_, happly ▸ readIp_route_add endpoint spec, fun _ => rfl⟩
  · refine ⟨_, hundo ▸ readIp_route_del endpoint spec, fun k _ hnew => ?_⟩
    refine eraseP_entry ?_ (by simp [RouteQuery.selects, TunnelSpec.tunnelRoute]) hnew
    intro x _ hsel
    cases x with
    | rule r => exact absurd hsel (by simp)
    | route r =>
      obtain ⟨f, table, dst, target, src, metric, mtu⟩ := r
      simp only [RouteQuery.selects, Option.all_some, Bool.and_eq_true, decide_eq_true_eq,
        beq_iff_eq] at hsel
      obtain ⟨⟨⟨⟨⟨⟨rfl, rfl⟩, rfl⟩, rfl⟩, rfl⟩, rfl⟩, rfl⟩ := hsel
      rfl
  · exact ⟨probe, _, _, hafter, hafter', readIp_tableShow _ hprobe,
      fun k hk => ⟨_, rfl, hlisting.tunnel k hk endpoint hmem⟩⟩

theorem familySteps_ok (h : policy.familySteps spec endpoint = .ok steps) :
    ∃ backstop floor rule route, policy.backstopStep endpoint = .ok backstop ∧
      policy.floorStep endpoint.family = .ok floor ∧ policy.ruleStep endpoint = .ok rule ∧
      policy.routeStep spec.device endpoint spec.mtu.display = .ok route ∧
      steps = [backstop, floor, rule, route] := by
  obtain ⟨backstop, hbackstop, h⟩ := ok_of_bind h
  obtain ⟨floor, hfloor, h⟩ := ok_of_bind h
  obtain ⟨rule, hrule, h⟩ := ok_of_bind h
  obtain ⟨route, hroute, h⟩ := ok_of_bind h
  injection h with h
  exact ⟨backstop, floor, rule, route, hbackstop, hfloor, hrule, hroute, h.symm⟩

theorem familySteps_lawful (hlisting : listing.Decides spec) (hmem : endpoint ∈ spec.endpoints)
    (h : policy.familySteps spec endpoint = .ok steps) :
    List.Forall₂ (fun s entry => s.Lawful listing spec.Confined entry) steps
      (spec.entriesOf endpoint) := by
  obtain ⟨backstop, floor, rule, route, hbackstop, hfloor, hrule, hroute, rfl⟩ := familySteps_ok h
  exact .cons (backstopStep_lawful hlisting hmem hbackstop)
    (.cons (floorStep_lawful hlisting hmem hfloor)
      (.cons (ruleStep_lawful hlisting hmem hrule)
        (.cons (routeStep_lawful hlisting hmem hroute) .nil)))

theorem mapM_familySteps_lawful (hlisting : listing.Decides spec) (endpoints : List TunnelEndpoint)
    (hmem : ∀ e ∈ endpoints, e ∈ spec.endpoints) :
    ∀ {steps : List (List Step)}, endpoints.mapM (policy.familySteps spec) = .ok steps →
      List.Forall₂ (fun s entry => s.Lawful listing spec.Confined entry) steps.flatten
        (endpoints.flatMap spec.entriesOf) := by
  induction endpoints with
  | nil =>
    intro steps h
    rw [List.mapM_nil] at h
    injection h with h
    subst h
    exact .nil
  | cons e endpoints ih =>
    intro steps h
    rw [List.mapM_cons] at h
    obtain ⟨own, hown, h⟩ := ok_of_bind h
    obtain ⟨others, hothers, h⟩ := ok_of_bind h
    injection h with h
    subst h
    rw [List.flatten_cons, List.flatMap_cons]
    exact List.rel_append (familySteps_lawful hlisting (hmem e (by simp)) hown)
      (ih (fun e' he' => hmem e' (by simp [he'])) hothers)

theorem plan_staged (hlisting : listing.Decides spec) {plan : Plan}
    (h : policy.plan spec = .ok plan) (hclean : spec.Clean base) :
    Staged listing spec.Confined base plan.steps spec.entries := by
  obtain ⟨steps, hsteps, h⟩ := ok_of_bind h
  have hplan : plan.steps = steps.flatten := Plan.new_steps h
  constructor
  · rw [hplan]
    exact mapM_familySteps_lawful hlisting _ (fun _ h => h) hsteps
  · intro n entry hmem
    rcases List.mem_append.mp hmem with hbase | hours
    · exact .inl (hclean entry hbase)
    · exact .inr (List.mem_of_mem_take hours)
  · intro n entry hentry hmem
    obtain ⟨hn, rfl⟩ := List.getElem?_eq_some_iff.mp hentry
    rcases List.mem_append.mp hmem with hbase | hours
    · exact TunnelSpec.not_foreign_of_mem_entries (List.getElem_mem hn) (hclean _ hbase)
    · obtain ⟨i, hi, heq⟩ := List.mem_iff_getElem.mp hours
      rw [List.length_take] at hi
      rw [List.getElem_take] at heq
      have := (spec.entries_nodup.getElem_inj_iff).mp heq
      omega

/-! ## §5. Cleanup on a clean machine. -/

theorem eraseP_clean (h : ∀ entry ∈ base, p entry = false) :
    base.eraseP p = base :=
  List.eraseP_of_forall_not fun entry hmem => by simp [h entry hmem]

theorem flush_idle (hclean : spec.Clean base) (family : Family)
    (h : policy.backstopFlush family = .ok command ∨ policy.ruleFlush family = .ok command ∨
      policy.tableFlush family = .ok command) :
    ∃ op, readIp command.args = some op ∧ base.apply op = base := by
  rcases h with h | h | h
  · refine ⟨_, readIp_backstopFlush family h, eraseP_clean fun entry hmem => ?_⟩
    cases entry with
    | rule r =>
      have := (hclean _ hmem).2.1
      simp [RuleQuery.selects, Ne.symm this]
    | route r => rfl
  · refine ⟨_, readIp_ruleFlush family h, eraseP_clean fun entry hmem => ?_⟩
    cases entry with
    | rule r =>
      have := (hclean _ hmem).2.2.1
      simp [RuleQuery.selects, Ne.symm this]
    | route r => rfl
  · refine ⟨_, readIp_tableFlush family h, List.filter_eq_self.mpr fun entry hmem => ?_⟩
    cases entry with
    | rule r => rfl
    | route r =>
      have : r.table ≠ 218 := hclean _ hmem
      simp [this]

theorem preInstallCleanup_idle (hclean : spec.Clean base) {commands : List Command}
    (h : policy.preInstallCleanup spec = .ok commands) :
    ∀ command ∈ commands, ∃ op, readIp command.args = some op ∧ base.apply op = base := by
  intro command hmem
  obtain ⟨action, haction, hok⟩ := mem_of_mapM_ok h command hmem
  obtain ⟨endpoint, -, hflush⟩ := List.mem_flatMap.mp haction
  have hcases : policy.backstopFlush endpoint.family = .ok command ∨
      policy.ruleFlush endpoint.family = .ok command ∨
      policy.tableFlush endpoint.family = .ok command := by
    simpa [show action = _ from hok, eq_comm] using hflush
  exact flush_idle hclean endpoint.family hcases

end ThisConnect.Policy
