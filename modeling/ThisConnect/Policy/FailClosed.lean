/-
  ThisConnect.Policy.FailClosed
  **LINUX ROUTING FAILS CLOSED AT EVERY INSTANT, AND INSTALL IS ATOMIC.**
-/
import ThisConnect.Policy.Listing

namespace ThisConnect.Policy

open Net Interaction

/-! ## §1. The manager's runs. -/

def PolicyManager.lifecycle (manager : PolicyManager) (spec : TunnelSpec) :
    Script PolicyManager := do
  let (installed, manager) ← manager.install spec
  manager.teardown installed

def Command.adds (command : Command) : Option Entry :=
  match readIp command.args with
  | some (.addRule r) => some (.rule r)
  | some (.addRoute r) => some (.route r)
  | _ => none

def Step.entry (step : Step) : Option Entry := step.apply.adds

theorem Step.entry_eq_of_apply {step : Step} {entry : Entry} {op : IpOp}
    (hop : readIp step.apply.args = some op)
    (happly : ∀ kernel : Kernel, kernel.apply op = kernel ++ [entry]) :
    step.entry = some entry := by
  have hempty := happly []
  unfold Step.entry Command.adds
  rw [hop]
  cases op with
  | addRule r => simpa [Kernel.apply] using hempty
  | addRoute r => simpa [Kernel.apply] using hempty
  | delRule family query => exact absurd hempty (by simp [Kernel.apply])
  | delRoute family query => exact absurd hempty (by simp [Kernel.apply])
  | flushTable family table => exact absurd hempty (by simp [Kernel.apply])
  | showRules family => exact absurd hempty (by simp [Kernel.apply])
  | showTable family table => exact absurd hempty (by simp [Kernel.apply])

theorem Step.Lawful.entry_eq {listing : Listing} {Ok : Kernel → Prop} {step : Step} {entry : Entry}
    (h : step.Lawful listing Ok entry) : step.entry = some entry := by
  obtain ⟨op, hop, happly⟩ := h.applies
  exact Step.entry_eq_of_apply hop happly

def InstallOutcome (base : Kernel) (policy : LinuxPolicy) (spec : TunnelSpec)
    (outcome : Except PolicyError (InstalledPolicy × PolicyManager)) (k : Kernel) : Prop :=
  (∀ installed manager, outcome = .ok (installed, manager) →
    policy.plan spec = .ok installed.plan ∧ Standing base spec.entries spec.entries.length k) ∧
  ∀ error, outcome = .error error → (∀ cause undoing, error ≠ .rollbackFailed cause undoing) →
    Standing base spec.entries 0 k

variable {listing : Listing} {spec : TunnelSpec} {base : Kernel}

theorem underway_base (spec : TunnelSpec) (base : Kernel) : Underway base spec.entries base :=
  ⟨0, by simp [Standing]⟩

theorem installOutcome_untouched {policy : LinuxPolicy} {error : PolicyError} {k : Kernel}
    (hk : k = base) : InstallOutcome base policy spec (.error error) k :=
  ⟨by simp, fun _ _ _ => by simp [Standing, hk]⟩

theorem manager_install_safe (hlisting : listing.Decides spec) (hclean : spec.Clean base)
    (manager : PolicyManager) :
    Safe (runner listing) (Underway base spec.entries)
      (InstallOutcome base manager.backend spec) (manager.install spec).run base := by
  have hI := underway_base spec base
  unfold PolicyManager.install
  cases hplan : manager.backend.plan spec with
  | error e => exact ⟨hI, installOutcome_untouched rfl⟩
  | ok plan =>
    cases hcleanup : manager.backend.preInstallCleanup spec with
    | error e => exact ⟨hI, installOutcome_untouched rfl⟩
    | ok cleanup =>
      show Safe _ _ _ (ExceptT.run (runBestEffort cleanup >>= fun _ => _)) base
      refine Safe.bindExcept
        (runBestEffort_safe hI cleanup (preInstallCleanup_idle hclean hcleanup)) ?_
        (fun e k _ hk => installOutcome_untouched hk)
      intro _ k _ hk
      subst hk
      refine Safe.bindExcept (install_safe (plan_staged hlisting hplan hclean)) ?_ ?_
      · intro _ k' hIk hq
        refine ⟨hIk, ?_, by simp⟩
        intro installed m hok
        injection hok with hok
        injection hok with hinstalled _
        subst hinstalled
        exact ⟨hplan, hq.1 rfl⟩
      · intro error k' _ hq
        refine ⟨by simp, fun error' herror => ?_⟩
        injection herror with herror
        subst herror
        exact hq.2 error rfl

theorem lifecycle_safe (hlisting : listing.Decides spec) (hclean : spec.Clean base)
    (manager : PolicyManager) :
    Safe (runner listing) (Underway base spec.entries) (fun _ _ => True)
      (manager.lifecycle spec).run base := by
  unfold PolicyManager.lifecycle
  refine Safe.bindExcept (manager_install_safe hlisting hclean manager) ?_ (fun _ _ _ _ => trivial)
  intro pair k hI hq
  obtain ⟨installed, m⟩ := pair
  obtain ⟨hplan, htop⟩ := hq.1 installed m rfl
  have hstaged := plan_staged hlisting hplan hclean
  have hremoval := undoAll_safe hstaged installed.plan.steps.length (le_refl _)
    (.inl (hstaged.length_eq ▸ htop))
  rw [List.take_length] at hremoval
  exact Safe.bindExcept hremoval (fun _ _ hIk _ => ⟨hIk, trivial⟩) (fun _ _ _ _ => trivial)

/-! ## §2. Failing closed. -/

/-- If a source rule or a tunnel route of the family is there, so are its floor and its
    backstop. -/
def FailClosed (spec : TunnelSpec) (family : Family) (kernel : Kernel) : Prop :=
  ((∃ r, Entry.rule r ∈ kernel ∧ r.family = family ∧ r.priority = 18000) ∨
    ∃ r, Entry.route r ∈ kernel ∧ r.family = family ∧ r.table = 218 ∧ r.target ≠ .unreachable) →
  ∃ endpoint ∈ spec.endpoints, endpoint.family = family ∧
    Entry.route (floorRoute family) ∈ kernel ∧ Entry.rule endpoint.backstopRule ∈ kernel

theorem mem_take_of_before {entries before after : List Entry} {entry earlier : Entry} {n : Nat}
    (hnodup : entries.Nodup) (hsplit : entries = before ++ entry :: after)
    (hearlier : earlier ∈ before) (hmem : entry ∈ entries.take n) : earlier ∈ entries.take n := by
  subst hsplit
  have hn : before.length < n := by
    by_contra hle
    rw [List.take_append_of_le_length (by omega)] at hmem
    exact (List.nodup_append.mp hnodup).2.2 _ (List.mem_of_mem_take hmem) _ (by simp) rfl
  rw [List.take_append]
  exact List.mem_append_left _ (by rw [List.take_of_length_le (by omega)]; exact hearlier)

theorem protected_of_mem_take {endpoint : TunnelEndpoint} (hmem : endpoint ∈ spec.endpoints)
    {n : Nat} (h : Entry.rule endpoint.sourceRule ∈ spec.entries.take n ∨
      Entry.route (spec.tunnelRoute endpoint) ∈ spec.entries.take n) :
    Entry.route (floorRoute endpoint.family) ∈ spec.entries.take n ∧
      Entry.rule endpoint.backstopRule ∈ spec.entries.take n := by
  obtain ⟨before, after, hsplit⟩ := List.append_of_mem hmem
  have hentries : spec.entries = before.flatMap spec.entriesOf ++
      (spec.entriesOf endpoint ++ after.flatMap spec.entriesOf) := by
    unfold TunnelSpec.entries
    rw [hsplit, List.flatMap_append, List.flatMap_cons]
  have hnodup := spec.entries_nodup
  rcases h with h | h
  · have hcut : spec.entries = (before.flatMap spec.entriesOf ++
        [.rule endpoint.backstopRule, .route (floorRoute endpoint.family)]) ++
        .rule endpoint.sourceRule ::
          (.route (spec.tunnelRoute endpoint) :: after.flatMap spec.entriesOf) := by
      rw [hentries]
      simp [TunnelSpec.entriesOf]
    exact ⟨mem_take_of_before hnodup hcut (by simp) h, mem_take_of_before hnodup hcut (by simp) h⟩
  · have hcut : spec.entries = (before.flatMap spec.entriesOf ++
        [.rule endpoint.backstopRule, .route (floorRoute endpoint.family),
          .rule endpoint.sourceRule]) ++
        .route (spec.tunnelRoute endpoint) :: after.flatMap spec.entriesOf := by
      rw [hentries]
      simp [TunnelSpec.entriesOf]
    exact ⟨mem_take_of_before hnodup hcut (by simp) h, mem_take_of_before hnodup hcut (by simp) h⟩

theorem failClosed_of_underway (hclean : spec.Clean base) {kernel : Kernel}
    (h : Underway base spec.entries kernel) (family : Family) : FailClosed spec family kernel := by
  obtain ⟨n, hn⟩ := h
  unfold Standing at hn
  subst hn
  intro hpresent
  -- whichever is present is ours, since nothing foreign has the priority or the table
  have hours : ∃ endpoint ∈ spec.endpoints, endpoint.family = family ∧
      (Entry.rule endpoint.sourceRule ∈ spec.entries.take n ∨
        Entry.route (spec.tunnelRoute endpoint) ∈ spec.entries.take n) := by
    rcases hpresent with ⟨r, hmem, hfamily, hpriority⟩ | ⟨r, hmem, hfamily, htable, htarget⟩
    · rcases List.mem_append.mp hmem with hbase | hmem
      · exact absurd hpriority (hclean _ hbase).1
      · obtain ⟨e, he, rfl | rfl⟩ := TunnelSpec.rule_mem_entries (List.mem_of_mem_take hmem)
        · exact absurd hpriority (by simp [TunnelEndpoint.backstopRule])
        · exact ⟨e, he, hfamily, .inl hmem⟩
    · rcases List.mem_append.mp hmem with hbase | hmem
      · exact absurd htable (hclean _ hbase)
      · obtain ⟨e, he, rfl | rfl⟩ := TunnelSpec.route_mem_entries (List.mem_of_mem_take hmem)
        · exact absurd rfl htarget
        · exact ⟨e, he, hfamily, .inr hmem⟩
  obtain ⟨endpoint, hmem, hfamily, hentry⟩ := hours
  obtain ⟨hfloor, hbackstop⟩ := protected_of_mem_take hmem hentry
  exact ⟨endpoint, hmem, hfamily, List.mem_append_right _ (hfamily ▸ hfloor),
    List.mem_append_right _ hbackstop⟩

/-- **Linux routing fails closed at every instant.**  From a machine with nothing of ours, after
    every command of an install (its cleanup and rollback included) and of the teardown that
    follows it, whatever the runner did: a source rule or tunnel route is never there without
    its family's floor and backstop. -/
theorem lifecycle_fails_closed (hlisting : listing.Decides spec) (hclean : spec.Clean base)
    (manager : PolicyManager) {rest : Prog Command (fun _ => Except PolicyError CommandOutput)
      (Except PolicyError PolicyManager)} {kernel : Kernel}
    (hrun : Reaches (runner listing) (manager.lifecycle spec).run base rest kernel)
    (family : Family) : FailClosed spec family kernel :=
  failClosed_of_underway hclean
    ((lifecycle_safe hlisting hclean manager).inv_of_reaches hrun) family

/-! ## §3. A machine to run on. -/

def honestReply (kernel : Kernel) (command : Command) :
    Except PolicyError CommandOutput × Kernel :=
  match readIp command.args with
  | some op =>
    match iproute2.print kernel op with
    | some text => (.ok ⟨some 0, text, ""⟩, kernel)
    | none => (.ok ⟨some 0, "", ""⟩, kernel.apply op)
  | none => (.ok ⟨some 2, "", "Error: argument is wrong."⟩, kernel)

theorem honestReply_answers (kernel : Kernel) (command : Command) :
    runner iproute2 kernel command (honestReply kernel command).1
      (honestReply kernel command).2 := by
  unfold honestReply
  split
  · next op hop =>
    split
    · next text htext => exact .printed "" hop htext
    · next hnone => exact .performed _ hop hnone
  · next hnone => exact .ignored _ (by simp [hnone])

def unluckyReply (kernel : Kernel) (command : Command) :
    Except PolicyError CommandOutput × Kernel :=
  if command.args.contains "add" && command.args.contains "dev" then
    match readIp command.args with
    | some op =>
      match iproute2.print kernel op with
      | some _ => honestReply kernel command
      | none => (.ok ⟨some 2, "", "RTNETLINK answers: File exists"⟩, kernel.apply op)
    | none => honestReply kernel command
  else honestReply kernel command

theorem unluckyReply_answers (kernel : Kernel) (command : Command) :
    runner iproute2 kernel command (unluckyReply kernel command).1
      (unluckyReply kernel command).2 := by
  unfold unluckyReply
  split
  · split
    · next op hop =>
      split
      · exact honestReply_answers kernel command
      · next hnone => exact .performed _ hop hnone
    · exact honestReply_answers kernel command
  · exact honestReply_answers kernel command

/-- A dual-stack tunnel. -/
def sampleSpec : TunnelSpec where
  device := ⟨"tun0", by decide, by decide, by decide, by decide⟩
  v4 := ⟨.v4, .v4 ⟨10, 8, 0, 2⟩, .gateway (.v4 ⟨10, 8, 0, 1⟩), by decide⟩
  v6 := some ⟨.v6, .v6 ⟨[0xfd00, 0, 0, 0, 0, 0, 0, 2], rfl⟩, .interface, by decide⟩
  mtu := ⟨1400, by decide, by decide⟩
  v4_family := rfl
  v6_family := by
    intro endpoint h
    injection h with h
    rw [← h]
  v6_mtu := by decide

def sampleBase : Kernel :=
  [.rule ⟨.v4, 0, none, .lookup 255⟩, .rule ⟨.v4, 32766, none, .lookup 254⟩,
    .rule ⟨.v4, 32767, none, .lookup 253⟩,
    .route ⟨.v4, 254, none, .dev "eth0", none, 100, none⟩]

theorem sampleBase_clean : sampleSpec.Clean sampleBase := by
  intro entry hmem
  simp only [sampleBase, List.mem_cons, List.not_mem_nil, or_false] at hmem
  rcases hmem with rfl | rfl | rfl | rfl <;> simp [TunnelSpec.Foreign]

def sampleManager : PolicyManager := ⟨⟨"/usr/sbin/ip"⟩, false⟩

def sampleMidway : Kernel :=
  ((sampleManager.lifecycle sampleSpec).run.after unluckyReply 13 sampleBase).2

/-- The tunnel route stands there, so the floor and the backstop do. -/
theorem lifecycle_fails_closed_sample :
    Entry.route (sampleSpec.tunnelRoute sampleSpec.v4) ∈ sampleMidway ∧
      ∃ endpoint ∈ sampleSpec.endpoints, endpoint.family = .v4 ∧
        Entry.route (floorRoute .v4) ∈ sampleMidway ∧
        Entry.rule endpoint.backstopRule ∈ sampleMidway := by
  have hroute : Entry.route (sampleSpec.tunnelRoute sampleSpec.v4) ∈ sampleMidway := by
    decide +kernel
  have hclosed := lifecycle_fails_closed (iproute2_decides sampleSpec) sampleBase_clean
    sampleManager (after_reaches unluckyReply_answers 13 _ sampleBase) .v4
  exact ⟨hroute, hclosed (.inr ⟨_, hroute, rfl, rfl, by decide⟩)⟩

/-! ## §4. Atomic installation. -/

/-- **Linux policy install is atomic.**  An error other than a failed rollback means no step's
    rule or route is there, also where a command took effect while reporting failure; success
    means every step's is. -/
theorem install_atomic (hlisting : listing.Decides spec) (hclean : spec.Clean base)
    (manager : PolicyManager) {outcome : Except PolicyError (InstalledPolicy × PolicyManager)}
    {kernel : Kernel}
    (hrun : Reaches (runner listing) (manager.install spec).run base (.ret outcome) kernel) :
    (∀ error, outcome = .error error → (∀ cause undoing, error ≠ .rollbackFailed cause undoing) →
      ∀ plan, manager.backend.plan spec = .ok plan →
        ∀ step ∈ plan.steps, ∃ entry, step.entry = some entry ∧ entry ∉ kernel) ∧
    ∀ installed manager', outcome = .ok (installed, manager') →
      manager.backend.plan spec = .ok installed.plan ∧
        ∀ step ∈ installed.plan.steps, ∃ entry, step.entry = some entry ∧ entry ∈ kernel := by
  have hpost := (manager_install_safe hlisting hclean manager).post_of_reaches hrun
  constructor
  · intro error herror hother plan hplan step hstep
    have hnone := hpost.2 error herror hother
    have hstaged := plan_staged hlisting hplan hclean
    obtain ⟨entry, hentry, hlaw⟩ := hstaged.entry_of_mem hstep
    refine ⟨entry, hlaw.entry_eq, ?_⟩
    rw [hnone, List.take_zero, List.append_nil]
    intro hmem
    exact TunnelSpec.not_foreign_of_mem_entries hentry (hclean _ hmem)
  · intro installed manager' hok
    obtain ⟨hplan, hall⟩ := hpost.1 installed manager' hok
    refine ⟨hplan, fun step hstep => ?_⟩
    obtain ⟨entry, hentry, hlaw⟩ := (plan_staged hlisting hplan hclean).entry_of_mem hstep
    refine ⟨entry, hlaw.entry_eq, ?_⟩
    rw [hall, List.take_length]
    exact List.mem_append_right _ hentry

/-- What the unlucky run ends with. -/
def unluckyFailure : PolicyError :=
  .commandFailed "tunnel route"
    "/usr/sbin/ip -4 route add default dev tun0 src 10.8.0.2 table 218 metric 100 mtu 1400"
    "RTNETLINK answers: File exists"

/-- The tunnel route was installed behind a reported failure, and is gone again. -/
theorem install_atomic_unlucky :
    ((sampleManager.install sampleSpec).run.exec unluckyReply sampleBase).1
        = .error unluckyFailure ∧
      ∀ plan, sampleManager.backend.plan sampleSpec = .ok plan →
        ∀ step ∈ plan.steps, ∃ entry, step.entry = some entry ∧
          entry ∉ ((sampleManager.install sampleSpec).run.exec unluckyReply sampleBase).2 := by
  have hfailed : ((sampleManager.install sampleSpec).run.exec unluckyReply sampleBase).1
      = .error unluckyFailure := by
    decide +kernel
  exact ⟨hfailed, (install_atomic (iproute2_decides sampleSpec) sampleBase_clean sampleManager
    (exec_reaches unluckyReply_answers _ sampleBase)).1 _ hfailed (by simp [unluckyFailure])⟩

end ThisConnect.Policy
