/-
  ThisConnect.Policy.Reassert
  **PUTTING BACK WHAT OTHERS TOOK AWAY.**

  Main results:
    • `reassert_keeps_order` — both hold of every command of every pass with a
      runner that answers a listing while it has something of ours to show, and
      carries out the `add` of a backstop or a floor that is needed,
    • `reassert_unsteady` — without either, a pass does what it must not.
-/
import ThisConnect.Policy.FailClosed

namespace ThisConnect.Policy

open Net Interaction

/-! ## §1. What a pass may add. -/

/-- A source rule or tunnel route stands behind its family's backstop and floor. -/
def TunnelSpec.Shielded (spec : TunnelSpec) (entry : Entry) (kernel : Kernel) : Prop :=
  ∀ e ∈ spec.endpoints, entry = .rule e.sourceRule ∨ entry = .route (spec.tunnelRoute e) →
    Entry.rule e.backstopRule ∈ kernel ∧ Entry.route (floorRoute e.family) ∈ kernel

def TunnelSpec.MayIssue (spec : TunnelSpec) (kernel : Kernel) (command : Command) : Prop :=
  ∀ entry, command.adds = some entry → entry ∉ kernel ∧ spec.Shielded entry kernel

/-- The entries a listing shows. -/
def IpOp.Lists : IpOp → Entry → Prop
  | .showRules family, .rule r => r.family = family
  | .showTable family table, .route r => r.family = family ∧ r.table = table
  | _, _ => False

def steady (listing : Listing) (spec : TunnelSpec) :
    Env Command (fun _ => Except PolicyError CommandOutput) Kernel :=
  fun kernel command reply kernel' => runner listing kernel command reply kernel' ∧
    (∀ op entry, readIp command.args = some op → op.Lists entry → entry ∈ spec.entries →
      entry ∈ kernel → ∃ output, reply = .ok output ∧ output.succeeded = true) ∧
    (∀ e ∈ spec.endpoints, ∀ entry, command.adds = some entry →
      entry = .rule e.backstopRule ∨ entry = .route (floorRoute e.family) →
      entry ∈ kernel' ∨
        (Entry.rule e.sourceRule ∈ kernel ∧ Entry.route (spec.tunnelRoute e) ∈ kernel))

/-! ## §2. The checks of a plan. -/

def Step.Probes (step : Step) (entry : Entry) : Prop :=
  ∃ check op, step.afterApply = some check ∧ readIp check.probe.args = some op ∧ op.Lists entry

variable {op : IpOp} {entry : Entry}

section Plans

variable {listing : Listing} {spec : TunnelSpec} {policy : LinuxPolicy}

theorem step_probes {family : Family} {kind : StepKind} {args : String → List Arg}
    {probe : Except PolicyError Command} {rendered : String} {s : Step}
    (h : policy.step family kind args probe rendered = .ok s)
    (hop : ∀ command, probe = .ok command → readIp command.args = some op)
    (hlists : op.Lists entry) :
    s.Probes entry := by
  obtain ⟨-, -, p, hp, hafter, -⟩ := step_ok h
  exact ⟨Check.present p [rendered], op, hafter, hop p hp, hlists⟩

theorem familySteps_watched (hlisting : listing.Decides spec) {endpoint : TunnelEndpoint}
    (hmem : endpoint ∈ spec.endpoints) {steps : List Step}
    (h : policy.familySteps spec endpoint = .ok steps) :
    List.Forall₂ (fun s entry => s.Lawful listing spec.Confined entry ∧ s.Probes entry) steps
      (spec.entriesOf endpoint) := by
  have hlawful := familySteps_lawful hlisting hmem h
  obtain ⟨backstop, floor, rule, route, hbackstop, hfloor, hrule, hroute, rfl⟩ := familySteps_ok h
  obtain ⟨h1, h2, h3, h4, -⟩ : _ ∧ _ ∧ _ ∧ _ ∧ _ := by
    simpa only [TunnelSpec.entriesOf, List.forall₂_cons] using hlawful
  refine .cons ⟨h1, ?_⟩ (.cons ⟨h2, ?_⟩ (.cons ⟨h3, ?_⟩ (.cons ⟨h4, ?_⟩ .nil)))
  · exact step_probes hbackstop (fun _ => readIp_ruleShow _) rfl
  · exact step_probes hfloor (fun _ => readIp_tableShow _) ⟨rfl, rfl⟩
  · exact step_probes hrule (fun _ => readIp_ruleShow _) rfl
  · exact step_probes hroute (fun _ => readIp_tableShow _) ⟨rfl, rfl⟩

end Plans

/-! ## §3. One step. -/

section OneStep

variable {listing : Listing} {spec : TunnelSpec} {kernel : Kernel} {step : Step}

theorem mayIssue_of_lists {command : Command} (hop : readIp command.args = some op)
    (hlists : op.Lists entry) : spec.MayIssue kernel command := by
  intro added hadds
  unfold Command.adds at hadds
  rw [hop] at hadds
  cases op with
  | addRule r => exact hlists.elim
  | addRoute r => exact hlists.elim
  | _ => cases hadds

theorem evaluate_issues {check : Check} {text : String} (hop : readIp check.probe.args = some op)
    (hlists : op.Lists entry) (hmem : entry ∈ spec.entries)
    (htext : listing.print kernel op = some text) :
    Issues (steady listing spec) spec.MayIssue
      (fun outcome k => k = kernel ∧ (outcome = .ok () →
          ∃ output : CommandOutput, check.judge output = .ok () ∧
            (output.succeeded = true → output.stdout = text)) ∧
        (entry ∈ kernel → ∃ output : CommandOutput, output.succeeded = true ∧
          output.stdout = text ∧ outcome = check.judge output))
      check.evaluate.run kernel := by
  refine ⟨mayIssue_of_lists hop hlists, fun reply k answered => ?_⟩
  obtain ⟨hrunner, hanswered, -⟩ := answered
  obtain ⟨rfl, hprinted⟩ := answers_listing hop htext hrunner
  cases reply with
  | error e =>
    refine ⟨rfl, fun h => (by cases h), fun hin => ?_⟩
    obtain ⟨output, h, -⟩ := hanswered op entry hop hlists hmem hin
    cases h
  | ok output =>
    refine ⟨rfl, fun h => ⟨output, h, hprinted output rfl⟩, fun hin => ?_⟩
    obtain ⟨output', h, hsucceeded⟩ := hanswered op entry hop hlists hmem hin
    cases h
    exact ⟨output, hsucceeded, hprinted output rfl hsucceeded, rfl⟩

theorem judge_present_of_contains {probe : Command} {needle : String} {output : CommandOutput}
    (hsucceeded : output.succeeded = true) (hcontains : contains output.stdout needle = true) :
    (Check.present probe [needle]).judge output = .ok () := by
  simp [Check.judge, Check.present, hsucceeded, hcontains]

theorem stillStanding_issues (hlaw : step.Lawful listing spec.Confined entry)
    (hprobes : step.Probes entry) (hmem : entry ∈ spec.entries) (hk : spec.Confined kernel) :
    Issues (steady listing spec) spec.MayIssue
      (fun standing k => k = kernel ∧ (standing = true ↔ entry ∈ kernel))
      (stillStanding step) kernel := by
  obtain ⟨probe, op, needle, hafter, -, hop, hdecides⟩ := hlaw.checks
  obtain ⟨check, op', hafter', hop', hlists⟩ := hprobes
  rw [hafter] at hafter'
  injection hafter' with hcheck
  subst hcheck
  have hsame : op = op' := Option.some.inj (hop.symm.trans hop')
  subst hsame
  obtain ⟨text, htext, hshown⟩ := hdecides kernel hk
  unfold stillStanding
  rw [hafter]
  refine Issues.bind (fun outcome k hq => ?_) (evaluate_issues hop hlists hmem htext)
  obtain ⟨rfl, haccepted, hfound⟩ := hq
  refine ⟨rfl, fun hstanding => ?_, fun hin => ?_⟩
  · cases outcome with
    | error e => cases hstanding
    | ok _ =>
      obtain ⟨output, hjudge, hstdout⟩ := haccepted rfl
      obtain ⟨hsucceeded, hcontains⟩ := judge_present_ok hjudge
      rw [hstdout hsucceeded] at hcontains
      exact hshown.mp hcontains
  · obtain ⟨output, hsucceeded, hstdout, houtcome⟩ := hfound hin
    rw [houtcome, judge_present_of_contains hsucceeded (by rw [hstdout]; exact hshown.mpr hin)]
    rfl

def TunnelSpec.Seen (spec : TunnelSpec) (e : TunnelEndpoint) (entry : Entry)
    (kernel : Kernel) : Prop :=
  entry ∈ kernel ∨ (Entry.rule e.sourceRule ∈ kernel ∧ Entry.route (spec.tunnelRoute e) ∈ kernel)

theorem TunnelSpec.Confined.append (hk : spec.Confined kernel) (hmem : entry ∈ spec.entries) :
    spec.Confined (kernel ++ [entry]) := by
  intro other hother
  rcases List.mem_append.mp hother with h | h
  · exact hk other h
  · rw [List.mem_singleton.mp h]
    exact .inr hmem

theorem installStep_issues (hlaw : step.Lawful listing spec.Confined entry)
    (hprobes : step.Probes entry) (hmem : entry ∈ spec.entries) (hk : spec.Confined kernel)
    (hmissing : entry ∉ kernel) (hshielded : spec.Shielded entry kernel) :
    Issues (steady listing spec) spec.MayIssue
      (fun _ k => (k = kernel ∨ k = kernel ++ [entry]) ∧ ∀ e ∈ spec.endpoints,
        entry = .rule e.backstopRule ∨ entry = .route (floorRoute e.family) → spec.Seen e entry k)
      (installStep step).run kernel := by
  obtain ⟨op, hop, happly⟩ := hlaw.applies
  have hadds : step.apply.adds = some entry := hlaw.entry_eq
  obtain ⟨probe, showOp, needle, hafter, -, hshow, hdecides⟩ := hlaw.checks
  obtain ⟨check, op', hafter', hop', hlists⟩ := hprobes
  rw [hafter] at hafter'
  injection hafter' with hcheck
  subst hcheck
  have hsame : showOp = op' := Option.some.inj (hshow.symm.trans hop')
  subst hsame
  unfold installStep
  refine Issues.bindExcept (Q := fun _ k => (k = kernel ∨ k = kernel ++ [entry]) ∧
    ∀ e ∈ spec.endpoints, entry = .rule e.backstopRule ∨ entry = .route (floorRoute e.family) →
      spec.Seen e entry k) ⟨?_, fun reply k answered => ?_⟩ ?_ (fun _ _ h => h)
  · intro added h
    rw [hadds] at h
    injection h with h
    exact h ▸ ⟨hmissing, hshielded⟩
  · obtain ⟨hrunner, -, heffect⟩ := answered
    have hcases : k = kernel ∨ k = kernel ++ [entry] := by
      have h := answers_mutating hop hrunner
      rw [happly] at h
      exact h.symm
    refine ⟨hcases, fun e he hprotects => ?_⟩
    rcases heffect e he entry hadds hprotects with h | ⟨hrule, hroute⟩
    · exact .inl h
    · rcases hcases with rfl | rfl
      · exact .inr ⟨hrule, hroute⟩
      · exact .inl (by simp)
  · intro output k hq
    have hkk : spec.Confined k := by
      rcases hq.1 with rfl | rfl
      · exact hk
      · exact hk.append hmem
    by_cases hs : output.succeeded = true
    · -- the read-back changes nothing
      simp only [hs, Bool.not_true, Bool.false_eq_true, if_false, hafter]
      obtain ⟨text, htext, -⟩ := hdecides k hkk
      refine Issues.mono ?_ (evaluate_issues hshow hlists hmem htext)
      rintro outcome k' ⟨rfl, -⟩
      exact hq
    · simp only [hs, Bool.not_false, if_true]
      exact hq

theorem reassertStep_issues (hlaw : step.Lawful listing spec.Confined entry)
    (hprobes : step.Probes entry) (hmem : entry ∈ spec.entries) (hk : spec.Confined kernel)
    (hshielded : entry ∉ kernel → spec.Shielded entry kernel) (outcome : Reassertion) :
    Issues (steady listing spec) spec.MayIssue
      (fun _ k => (k = kernel ∨ k = kernel ++ [entry]) ∧ ∀ e ∈ spec.endpoints,
        entry = .rule e.backstopRule ∨ entry = .route (floorRoute e.family) → spec.Seen e entry k)
      (reassertStep step outcome) kernel := by
  unfold reassertStep
  refine Issues.bind (fun standing k hq => ?_) (stillStanding_issues hlaw hprobes hmem hk)
  obtain ⟨rfl, hstanding⟩ := hq
  split
  · next hyes => exact ⟨.inl rfl, fun _ _ _ => .inl (hstanding.mp hyes)⟩
  · next hno =>
    have hmissing : entry ∉ k := fun hin => hno (hstanding.mpr hin)
    refine Issues.bind (fun result k' hq => ?_)
      (installStep_issues hlaw hprobes hmem hk hmissing (hshielded hmissing))
    cases result with
    | ok _ => exact hq
    | error _ => exact hq

end OneStep

/-! ## §4. A whole pass. -/

section WholePass

variable {listing : Listing} {spec : TunnelSpec} {policy : LinuxPolicy} {kernel : Kernel}
  {e : TunnelEndpoint}

theorem TunnelSpec.Seen.mono {kernel' : Kernel} (h : spec.Seen e entry kernel)
    (hsub : kernel ⊆ kernel') : spec.Seen e entry kernel' := by
  rcases h with h | ⟨hrule, hroute⟩
  · exact .inl (hsub h)
  · exact .inr ⟨hsub hrule, hsub hroute⟩

theorem shielded_backstop : spec.Shielded (.rule e.backstopRule) kernel := by
  intro e' _ h
  rcases h with h | h
  · injection h with h
    have hpriority : 18500 = 18000 := congrArg IpRule.priority h
    exact absurd hpriority (by decide)
  · cases h

theorem shielded_floor : spec.Shielded (.route (floorRoute e.family)) kernel := by
  intro e' _ h
  rcases h with h | h
  · cases h
  · injection h with h
    have htarget := congrArg IpRoute.target h
    cases htarget

theorem shielded_of_seen (he : e ∈ spec.endpoints)
    (hown : entry = .rule e.sourceRule ∨ entry = .route (spec.tunnelRoute e))
    (hmissing : entry ∉ kernel) (hbackstop : spec.Seen e (.rule e.backstopRule) kernel)
    (hfloor : spec.Seen e (.route (floorRoute e.family)) kernel) : spec.Shielded entry kernel := by
  have hnone :
      ¬ (Entry.rule e.sourceRule ∈ kernel ∧ Entry.route (spec.tunnelRoute e) ∈ kernel) := by
    rintro ⟨hrule, hroute⟩
    rcases hown with rfl | rfl
    · exact hmissing hrule
    · exact hmissing hroute
  intro e' he' hown'
  have hfamily : e.family = e'.family := by
    rcases hown with rfl | rfl
    · rcases hown' with h | h
      · injection h with h
        exact congrArg IpRule.family h
      · cases h
    · rcases hown' with h | h
      · cases h
      · injection h with h
        exact congrArg IpRoute.family h
  have hsame : e = e' := spec.endpoint_unique he he' hfamily
  subst hsame
  exact ⟨hbackstop.resolve_right hnone, hfloor.resolve_right hnone⟩

theorem subset_of_round {k : Kernel} (h : k = kernel ∨ k = kernel ++ [entry]) : kernel ⊆ k := by
  rcases h with rfl | rfl
  · exact fun _ h => h
  · exact List.subset_append_left _ _

theorem confined_of_round {k : Kernel} (hk : spec.Confined kernel) (hmem : entry ∈ spec.entries)
    (h : k = kernel ∨ k = kernel ++ [entry]) : spec.Confined k := by
  rcases h with rfl | rfl
  · exact hk
  · exact hk.append hmem

theorem reassert_family (he : e ∈ spec.endpoints) {steps : List Step}
    (hsteps : List.Forall₂ (fun s entry => s.Lawful listing spec.Confined entry ∧ s.Probes entry)
      steps (spec.entriesOf e))
    (hk : spec.Confined kernel) (outcome : Reassertion) :
    Issues (steady listing spec) spec.MayIssue (fun _ k => spec.Confined k)
      (reassertAll steps outcome) kernel := by
  have hentry : ∀ entry ∈ spec.entriesOf e, entry ∈ spec.entries := fun entry h =>
    List.mem_flatMap.mpr ⟨e, he, h⟩
  unfold TunnelSpec.entriesOf at hsteps hentry
  obtain ⟨backstop, _, ⟨hlaw1, hprobe1⟩, hrest1, rfl⟩ := List.forall₂_cons_right_iff.mp hsteps
  obtain ⟨floor, _, ⟨hlaw2, hprobe2⟩, hrest2, rfl⟩ := List.forall₂_cons_right_iff.mp hrest1
  obtain ⟨rule, _, ⟨hlaw3, hprobe3⟩, hrest3, rfl⟩ := List.forall₂_cons_right_iff.mp hrest2
  obtain ⟨route, _, ⟨hlaw4, hprobe4⟩, hrest4, rfl⟩ := List.forall₂_cons_right_iff.mp hrest3
  obtain rfl := List.forall₂_nil_right_iff.mp hrest4
  refine Issues.bind (fun _ k1 h1 => ?_)
    (reassertStep_issues hlaw1 hprobe1 (hentry _ (by simp)) hk (fun _ => shielded_backstop) _)
  have hk1 := confined_of_round hk (hentry _ (by simp)) h1.1
  have hseen1 := h1.2 e he (.inl rfl)
  refine Issues.bind (fun _ k2 h2 => ?_)
    (reassertStep_issues hlaw2 hprobe2 (hentry _ (by simp)) hk1 (fun _ => shielded_floor) _)
  have hk2 := confined_of_round hk1 (hentry _ (by simp)) h2.1
  have hseen2 := h2.2 e he (.inr rfl)
  replace hseen1 := hseen1.mono (subset_of_round h2.1)
  refine Issues.bind (fun _ k3 h3 => ?_)
    (reassertStep_issues hlaw3 hprobe3 (hentry _ (by simp)) hk2
      (fun hmissing => shielded_of_seen he (.inl rfl) hmissing hseen1 hseen2) _)
  have hk3 := confined_of_round hk2 (hentry _ (by simp)) h3.1
  replace hseen1 := hseen1.mono (subset_of_round h3.1)
  replace hseen2 := hseen2.mono (subset_of_round h3.1)
  refine Issues.bind (fun _ k4 h4 => ?_)
    (reassertStep_issues hlaw4 hprobe4 (hentry _ (by simp)) hk3
      (fun hmissing => shielded_of_seen he (.inr rfl) hmissing hseen1 hseen2) _)
  exact confined_of_round hk3 (hentry _ (by simp)) h4.1

theorem reassertAll_append (xs ys : List Step) (outcome : Reassertion) :
    reassertAll (xs ++ ys) outcome = reassertAll xs outcome >>= reassertAll ys := by
  induction xs generalizing outcome with
  | nil => rfl
  | cons step xs ih =>
    simp only [List.cons_append, reassertAll, ih]
    exact (Prog.bind_assoc _ _ _).symm

theorem reassert_families (hlisting : listing.Decides spec) (endpoints : List TunnelEndpoint)
    (hmem : ∀ e ∈ endpoints, e ∈ spec.endpoints) : ∀ {steps : List (List Step)} {kernel : Kernel}
    (outcome : Reassertion), endpoints.mapM (policy.familySteps spec) = .ok steps →
      spec.Confined kernel →
      Issues (steady listing spec) spec.MayIssue (fun _ k => spec.Confined k)
        (reassertAll steps.flatten outcome) kernel := by
  induction endpoints with
  | nil =>
    intro steps kernel outcome h hk
    rw [List.mapM_nil] at h
    injection h with h
    subst h
    exact hk
  | cons e endpoints ih =>
    intro steps kernel outcome h hk
    rw [List.mapM_cons] at h
    obtain ⟨own, hown, h⟩ := ok_of_bind h
    obtain ⟨others, hothers, h⟩ := ok_of_bind h
    injection h with h
    subst h
    rw [List.flatten_cons, reassertAll_append]
    refine Issues.bind (fun outcome' k hk' => ?_) (reassert_family (hmem e (by simp))
      (familySteps_watched hlisting (hmem e (by simp)) hown) hk outcome)
    exact ih (fun e' he' => hmem e' (by simp [he'])) outcome' hothers hk'

end WholePass

/-- **Re-assertion restores without weakening or duplicating**, from every machine that holds of
    ours what is left of an installed policy, with a steady runner. -/
theorem reassert_keeps_order {listing : Listing} {spec : TunnelSpec} {policy : LinuxPolicy}
    {plan : Plan} {kernel t : Kernel} {command : Command}
    {rest : Except PolicyError CommandOutput → Pass Reassertion} {entry : Entry}
    (hlisting : listing.Decides spec) (hplan : policy.plan spec = .ok plan)
    (hkernel : spec.Confined kernel)
    (hrun : Reaches (steady listing spec) (reassert plan) kernel (.call command rest) t)
    (hadds : command.adds = some entry) : entry ∉ t ∧ spec.Shielded entry t := by
  obtain ⟨steps, hsteps, hnew⟩ := ok_of_bind hplan
  have hpass := reassert_families hlisting spec.endpoints (fun _ h => h) {} hsteps hkernel
  rw [← Plan.new_steps hnew] at hpass
  exact hpass.permits_of_reaches hrun entry hadds

/-! ## §5. A steady runner, and two that are not. -/

def samplePlan : Plan :=
  match sampleManager.backend.plan sampleSpec with
  | .ok plan => plan
  | .error _ => ⟨[], fun _ => rfl⟩

theorem samplePlan_eq : sampleManager.backend.plan sampleSpec = .ok samplePlan := by
  decide +kernel

def sampleInstalled : Kernel := sampleBase ++ sampleSpec.entries

theorem sampleInstalled_confined : sampleSpec.Confined sampleInstalled := by
  intro entry hmem
  rcases List.mem_append.mp hmem with h | h
  · exact .inl (sampleBase_clean entry h)
  · exact .inr h

theorem honestReply_steady (spec : TunnelSpec) (kernel : Kernel) (command : Command) :
    steady iproute2 spec kernel command (honestReply kernel command).1
      (honestReply kernel command).2 := by
  refine ⟨honestReply_answers kernel command, ?_, ?_⟩
  · intro op entry hop hlists _ _
    unfold honestReply
    rw [hop]
    cases op with
    | showRules family => exact ⟨_, rfl, rfl⟩
    | showTable family table => exact ⟨_, rfl, rfl⟩
    | _ => exact hlists.elim
  · intro e _ entry hadds _
    left
    unfold Command.adds at hadds
    unfold honestReply
    split at hadds
    · next r hop =>
      injection hadds with hadds
      simp [hop, Listing.print, Kernel.apply, hadds]
    · next r hop =>
      injection hadds with hadds
      simp [hop, Listing.print, Kernel.apply, hadds]
    · cases hadds

/-- After the IPv4 backstop and source rule went missing, the pass adds both; here the source rule,
    with the backstop back and the floor where it was. -/
theorem reassert_keeps_order_sample : ∃ command rest t,
    Reaches (steady iproute2 sampleSpec) (reassert samplePlan)
      (sampleInstalled.filter fun entry => entry ≠ .rule sampleSpec.v4.backstopRule ∧
        entry ≠ .rule sampleSpec.v4.sourceRule) (.call command rest) t ∧
      command.adds = some (.rule sampleSpec.v4.sourceRule) ∧
      Entry.rule sampleSpec.v4.sourceRule ∉ t ∧
      sampleSpec.Shielded (.rule sampleSpec.v4.sourceRule) t := by
  let kernel : Kernel := sampleInstalled.filter fun entry =>
    entry ≠ .rule sampleSpec.v4.backstopRule ∧ entry ≠ .rule sampleSpec.v4.sourceRule
  have hconfined : sampleSpec.Confined kernel :=
    fun entry hmem => sampleInstalled_confined entry (List.mem_of_mem_filter hmem)
  -- Probe, add and check the backstop; probe the floor; probe the source rule.
  have hnext : ((reassert samplePlan).after honestReply 5 kernel).1.issues?.bind Command.adds =
      some (.rule sampleSpec.v4.sourceRule) := by decide +kernel
  obtain ⟨command, hissues, hadds⟩ := Option.bind_eq_some_iff.mp hnext
  obtain ⟨rest, hrest⟩ := Prog.eq_call_of_issues hissues
  have hrun := after_reaches (honestReply_steady sampleSpec) 5 (reassert samplePlan) kernel
  rw [hrest] at hrun
  exact ⟨command, rest, _, hrun, hadds, reassert_keeps_order (iproute2_decides sampleSpec)
    samplePlan_eq hconfined hrun hadds⟩

/-- A runner whose listings all fail. -/
def blindReply (kernel : Kernel) (command : Command) :
    Except PolicyError CommandOutput × Kernel :=
  if command.args.contains "show" then (.ok ⟨some 1, "", "Cannot send dump request"⟩, kernel)
  else honestReply kernel command

theorem blindReply_answers (kernel : Kernel) (command : Command) :
    runner iproute2 kernel command (blindReply kernel command).1 (blindReply kernel command).2 := by
  unfold blindReply
  split
  · refine .unreadable _ fun output houtput => ?_
    injection houtput with houtput
    rw [← houtput]
    rfl
  · exact honestReply_answers kernel command

def laxReply (kernel : Kernel) (command : Command) :
    Except PolicyError CommandOutput × Kernel :=
  if command.args.contains "unreachable" then
    (.ok ⟨some 2, "", "RTNETLINK answers: Operation not permitted"⟩, kernel)
  else honestReply kernel command

theorem laxReply_answers (kernel : Kernel) (command : Command) :
    runner iproute2 kernel command (laxReply kernel command).1 (laxReply kernel command).2 := by
  unfold laxReply
  split
  · refine .unreadable _ fun output houtput => ?_
    injection houtput with houtput
    rw [← houtput]
    rfl
  · exact honestReply_answers kernel command

/-- **A probe that cannot be read duplicates a rule, and a backstop and floor that do not come back
    leave the source rule to be added without them.** -/
theorem reassert_unsteady : sampleManager.backend.plan sampleSpec = .ok samplePlan ∧
    (∃ command rest t entry,
      Reaches (runner iproute2) (reassert samplePlan) sampleInstalled (.call command rest) t ∧
        command.adds = some entry ∧ entry ∈ t) ∧
    ∃ command rest t,
      Reaches (runner iproute2) (reassert samplePlan) sampleBase (.call command rest) t ∧
        command.adds = some (.rule sampleSpec.v4.sourceRule) ∧
        Entry.rule sampleSpec.v4.backstopRule ∉ t ∧ Entry.route (floorRoute .v4) ∉ t := by
  refine ⟨samplePlan_eq, ?_, ?_⟩
  · have hnext : ((reassert samplePlan).after blindReply 1 sampleInstalled).1.issues?.bind
        Command.adds = some (.rule sampleSpec.v4.backstopRule) := by decide +kernel
    have hstands : Entry.rule sampleSpec.v4.backstopRule ∈
        ((reassert samplePlan).after blindReply 1 sampleInstalled).2 := by decide +kernel
    obtain ⟨command, hissues, hadds⟩ := Option.bind_eq_some_iff.mp hnext
    obtain ⟨rest, hrest⟩ := Prog.eq_call_of_issues hissues
    have hrun := after_reaches blindReply_answers 1 (reassert samplePlan) sampleInstalled
    rw [hrest] at hrun
    exact ⟨command, rest, _, _, hrun, hadds, hstands⟩
  -- Two calls each for the backstop and the floor, one probe for the source rule.
  · have hnext : ((reassert samplePlan).after laxReply 5 sampleBase).1.issues?.bind
        Command.adds = some (.rule sampleSpec.v4.sourceRule) := by decide +kernel
    have hopen : Entry.rule sampleSpec.v4.backstopRule ∉
          ((reassert samplePlan).after laxReply 5 sampleBase).2 ∧
        Entry.route (floorRoute .v4) ∉ ((reassert samplePlan).after laxReply 5 sampleBase).2 := by
      decide +kernel
    obtain ⟨command, hissues, hadds⟩ := Option.bind_eq_some_iff.mp hnext
    obtain ⟨rest, hrest⟩ := Prog.eq_call_of_issues hissues
    have hrun := after_reaches laxReply_answers 5 (reassert samplePlan) sampleBase
    rw [hrest] at hrun
    exact ⟨command, rest, _, hrun, hadds, hopen⟩

end ThisConnect.Policy
