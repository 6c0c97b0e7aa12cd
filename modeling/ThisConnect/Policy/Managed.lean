/-
  ThisConnect.Policy.Managed
  **WHO OWNS AN INSTALLED POLICY.**

  Main results:
    • `undoAll_clears` — a removal that reports success removed everything, on
      any machine at all,
    • `teardown_honest_iff` — a teardown keeps its word exactly when the slot
      is full, or when nothing was left to remove,
    • `failed_teardown_forgotten` — after one that failed, the next reports
      success without issuing a command.
-/
import ThisConnect.Policy.Reassert
import Mathlib.Logic.Relation

namespace ThisConnect.Policy

open Net Interaction

/-! ## §1. The driver. -/

structure TunnelBinding where
  device : String
  ipv4 : Ipv4Addr
  ipv6 : Option Ipv6Addr
  mtu : UInt32
  deriving DecidableEq

def TunnelBinding.tunnelHasV6 (binding : TunnelBinding) : Bool := binding.ipv6.isSome

def TunnelBinding.fromInstalled (installed : InstalledPolicy) (mtu : UInt32) :
    Except PolicyError TunnelBinding := do
  let ipv4 ←
    match installed.spec.v4.localAddr with
    | .v4 address => .ok address
    | .v6 address =>
      .error (.invalidAddress "the tunnel's v4 endpoint is a v6 address"
        (String.ofList (IpAddr.v6 address).display))
  let ipv6 ←
    match installed.spec.v6.map TunnelEndpoint.localAddr with
    | some (.v6 address) => .ok (some address)
    | none => .ok none
    | some (.v4 address) =>
      .error (.invalidAddress "the tunnel's v6 endpoint is a v4 address"
        (String.ofList (IpAddr.v4 address).display))
  .ok { device := installed.spec.device.name, ipv4, ipv6, mtu }

theorem matchesAddr_of_valid {family : Family} {address : IpAddr}
    (h : validateAddress family address = .ok ()) : family.matchesAddr address = true := by
  unfold validateAddress at h
  obtain ⟨hmatches, h⟩ := ok_of_unless h
  simpa using hmatches

theorem fromInstalled_ok (installed : InstalledPolicy) (mtu : UInt32) :
    ∃ binding, TunnelBinding.fromInstalled installed mtu = .ok binding ∧
      IpAddr.v4 binding.ipv4 = installed.spec.v4.localAddr ∧
      binding.ipv6.map IpAddr.v6 = installed.spec.v6.map TunnelEndpoint.localAddr := by
  have h4 := matchesAddr_of_valid installed.spec.v4.valid
  rw [installed.spec.v4_family] at h4
  unfold TunnelBinding.fromInstalled
  cases haddr : installed.spec.v4.localAddr with
  | v6 address =>
    rw [haddr] at h4
    cases h4
  | v4 address =>
    cases hv6 : installed.spec.v6 with
    | none => exact ⟨_, rfl, rfl, rfl⟩
    | some endpoint =>
      have h6 := matchesAddr_of_valid endpoint.valid
      rw [installed.spec.v6_family endpoint hv6] at h6
      cases haddr6 : endpoint.localAddr with
      | v4 address' =>
        rw [haddr6] at h6
        cases h6
      | v6 address' =>
        simp only [Option.map_some, haddr6]
        exact ⟨_, rfl, rfl, rfl⟩

structure ManagedPolicy where
  manager : PolicyManager
  installed : Option InstalledPolicy
  deriving DecidableEq

namespace ManagedPolicy

def new (manager : PolicyManager) : ManagedPolicy := ⟨manager, none⟩

def install (driver : ManagedPolicy) (spec : TunnelSpec) (mtu : UInt32) :
    Pass (Except PolicyError TunnelBinding × ManagedPolicy) := do
  let outcome ← (driver.manager.install spec).run
  match outcome with
  | .error e => pure (.error e, driver)
  | .ok (installed, manager) =>
    match TunnelBinding.fromInstalled installed mtu with
    | .error e => pure (.error e, { driver with manager })
    | .ok binding => pure (.ok binding, ⟨manager, some installed⟩)

def teardown (driver : ManagedPolicy) (_binding : TunnelBinding) :
    Pass (Except PolicyError Unit × ManagedPolicy) :=
  match driver.installed with
  | none => pure (.ok (), driver)
  | some installed => do
      let outcome ← (driver.manager.teardown installed).run
      match outcome with
      | .error e => pure (.error e, { driver with installed := none })
      | .ok manager => pure (.ok (), ⟨manager, none⟩)

def reassert (driver : ManagedPolicy) : Pass Reassertion :=
  match driver.installed with
  | some installed => driver.manager.reassert installed
  | none => pure {}

end ManagedPolicy

/-! ## §2. A removal that succeeds removes everything. -/

structure Step.Removable (listing : Listing) (step : Step) : Prop where
  undoes : ∃ op, readIp step.undo.args = some op ∧ ∀ kernel : Kernel, kernel.apply op ⊆ kernel
  shows : ∃ probe op needle, step.afterUndo = some (Check.absent probe [needle]) ∧
    readIp probe.args = some op ∧ ∀ kernel, ∃ text, listing.print kernel op = some text ∧
      ∀ entry, step.entry = some entry → entry ∈ kernel → contains text needle = true

/-- None of the steps' entries is on the machine. -/
def Gone (steps : List Step) (kernel : Kernel) : Prop :=
  ∀ step ∈ steps, ∀ entry, step.entry = some entry → entry ∉ kernel

section Removal

variable {listing : Listing} {policy : LinuxPolicy} {spec : TunnelSpec}

theorem undoStep_clears {step : Step} (h : step.Removable listing) (kernel : Kernel) :
    Safe (runner listing) (fun _ => True)
      (fun outcome k => k ⊆ kernel ∧
        (outcome = .ok () → ∀ entry, step.entry = some entry → entry ∉ k))
      (undoStep step).run kernel := by
  obtain ⟨op, hop, hshrinks⟩ := h.undoes
  obtain ⟨probe, showOp, needle, hafter, hshow, hshown⟩ := h.shows
  unfold undoStep
  refine Safe.bindExcept (Q := fun _ k => k ⊆ kernel) ?_ ?_ ?_
  · refine Safe.ask trivial fun reply k answered => ⟨trivial, ?_⟩
    rcases answers_mutating hop answered with rfl | rfl
    · exact hshrinks kernel
    · exact List.Subset.refl _
  · intro output k _ hk
    simp only [hafter]
    obtain ⟨text, htext, hcontains⟩ := hshown k
    refine Safe.mono (fun _ h => h) ?_ (evaluate_safe (I := fun _ => True) trivial hshow htext)
    rintro outcome k' - ⟨rfl, hjudge⟩
    refine ⟨hk, fun houtcome entry hentry hmem => ?_⟩
    obtain ⟨output', hj, hstdout⟩ := hjudge houtcome
    obtain ⟨hsucceeded, habsent⟩ := judge_absent_ok hj
    rw [hstdout hsucceeded, hcontains entry hentry hmem] at habsent
    cases habsent
  · intro e k _ hk
    exact ⟨hk, fun h => (by cases h)⟩

theorem undoAll_clears {steps : List Step} (h : ∀ step ∈ steps, step.Removable listing) :
    ∀ kernel, Safe (runner listing) (fun _ => True)
      (fun outcome k => k ⊆ kernel ∧ (outcome = .ok () → Gone steps k))
      (undoAll steps).run kernel := by
  induction steps with
  | nil => intro kernel; exact ⟨trivial, List.Subset.refl _, fun _ step hstep => by cases hstep⟩
  | cons step rest ih =>
    intro kernel
    unfold undoAll
    refine Safe.bindExcept (undoStep_clears (h step (by simp)) kernel) ?_ ?_
    · rintro _ k - ⟨hk, hgone⟩
      refine Safe.mono (fun _ h => h) ?_ (ih (fun s hs => h s (by simp [hs])) k)
      rintro outcome k' - ⟨hk', hrest⟩
      refine ⟨List.Subset.trans hk' hk, fun houtcome s hs => ?_⟩
      rcases List.mem_cons.mp hs with rfl | hs
      · -- gone after its own removal, and the later ones add nothing
        exact fun entry hentry hmem => hgone rfl entry hentry (hk' hmem)
      · exact hrest houtcome s hs
    · rintro e k - ⟨hk, -⟩
      exact ⟨hk, fun h => (by cases h)⟩

theorem eraseP_shrinks (p : Entry → Bool) (kernel : Kernel) : kernel.eraseP p ⊆ kernel :=
  List.eraseP_subset

theorem step_removable {family : Family} {kind : StepKind} {args : String → List Arg}
    {probe : Except PolicyError Command} {rendered : String} {s : Step} {add del list : IpOp}
    {entry : Entry} (h : policy.step family kind args probe rendered = .ok s)
    (hadd : readIp ((args "add").map Arg.text) = some add)
    (hentry : ∀ kernel : Kernel, kernel.apply add = kernel ++ [entry])
    (hdel : readIp ((args "del").map Arg.text) = some del)
    (hshrinks : ∀ kernel : Kernel, kernel.apply del ⊆ kernel)
    (hlist : ∀ command, probe = .ok command → readIp command.args = some list)
    (hshows : ∀ kernel, ∃ text, listing.print kernel list = some text ∧
      (entry ∈ kernel → contains text rendered = true)) : s.Removable listing := by
  obtain ⟨happly, hundo, p, hp, -, hafter⟩ := step_ok h
  refine ⟨⟨del, hundo ▸ hdel, hshrinks⟩, p, list, rendered, hafter, hlist p hp, fun kernel => ?_⟩
  obtain ⟨text, htext, hcontains⟩ := hshows kernel
  refine ⟨text, htext, fun entry' hentry' hmem => hcontains ?_⟩
  rw [Step.entry_eq_of_apply (happly ▸ hadd) hentry] at hentry'
  injection hentry' with hentry'
  exact hentry' ▸ hmem

theorem familySteps_removable (hshows : listing.Shows) {endpoint : TunnelEndpoint}
    {steps : List Step} (h : policy.familySteps spec endpoint = .ok steps) :
    ∀ step ∈ steps, step.Removable listing := by
  obtain ⟨backstop, floor, rule, route, hbackstop, hfloor, hrule, hroute, rfl⟩ := familySteps_ok h
  simp only [List.forall_mem_cons, List.not_mem_nil, false_imp_iff, implies_true, and_true]
  refine ⟨?_, ?_, ?_, ?_⟩
  · exact step_removable hbackstop (readIp_backstop_add endpoint) (fun _ => rfl)
      (readIp_backstop_del endpoint) (eraseP_shrinks _) (fun _ => readIp_ruleShow _)
      fun kernel => ⟨_, rfl, hshows.backstop kernel endpoint⟩
  · exact step_removable hfloor (readIp_floor_add endpoint.family) (fun _ => rfl)
      (readIp_floor_del endpoint.family) (eraseP_shrinks _) (fun _ => readIp_tableShow _)
      fun kernel => ⟨_, rfl, hshows.floor kernel endpoint.family⟩
  · exact step_removable hrule (readIp_source_add endpoint) (fun _ => rfl)
      (readIp_source_del endpoint) (eraseP_shrinks _) (fun _ => readIp_ruleShow _)
      fun kernel => ⟨_, rfl, hshows.source kernel endpoint⟩
  · exact step_removable hroute (readIp_route_add endpoint spec) (fun _ => rfl)
      (readIp_route_del endpoint spec) (eraseP_shrinks _) (fun _ => readIp_tableShow _)
      fun kernel => ⟨_, rfl, hshows.tunnel kernel spec endpoint⟩

theorem plan_removable (hshows : listing.Shows) {plan : Plan} (h : policy.plan spec = .ok plan) :
    ∀ step ∈ plan.steps, step.Removable listing := by
  obtain ⟨steps, hsteps, h⟩ := ok_of_bind h
  intro step hstep
  rw [Plan.new_steps h] at hstep
  obtain ⟨own, hown, hstep⟩ := List.mem_flatten.mp hstep
  obtain ⟨endpoint, -, hfamily⟩ := mem_of_mapM_ok hsteps own hown
  exact familySteps_removable hshows hfamily step hstep

theorem teardown_clears (hshows : listing.Shows) {plan : Plan} (h : policy.plan spec = .ok plan)
    (kernel : Kernel) :
    Safe (runner listing) (fun _ => True) (fun outcome k => outcome = .ok () → Gone plan.steps k)
      (teardown plan).run kernel := by
  have hall : ∀ step ∈ plan.steps.reverse, step.Removable listing :=
    fun step hstep => plan_removable hshows h step (List.mem_reverse.mp hstep)
  refine Safe.mono (fun _ h => h) ?_ (undoAll_clears hall kernel)
  rintro outcome k - ⟨-, hgone⟩ houtcome step hstep
  exact hgone houtcome step (List.mem_reverse.mpr hstep)

end Removal

/-! ## §3. Sequences of calls. -/

structure Managed where
  driver : ManagedPolicy
  kernel : Kernel
  last : Option InstalledPolicy
  failed : Bool

/-- One call, with any answers the runner may give to its commands. -/
inductive Managed.Call (listing : Listing) : Managed → Managed → Prop where
  | installed {m : Managed} {driver : ManagedPolicy} {kernel : Kernel} {binding : TunnelBinding}
      (spec : TunnelSpec) (mtu : UInt32)
      (hrun : Reaches (runner listing) (m.driver.install spec mtu) m.kernel
        (.ret (.ok binding, driver)) kernel) :
      Managed.Call listing m ⟨driver, kernel, driver.installed, false⟩
  | refused {m : Managed} {driver : ManagedPolicy} {kernel : Kernel} {error : PolicyError}
      (spec : TunnelSpec) (mtu : UInt32)
      (hrun : Reaches (runner listing) (m.driver.install spec mtu) m.kernel
        (.ret (.error error, driver)) kernel) :
      Managed.Call listing m { m with driver, kernel }
  | tornDown {m : Managed} {driver : ManagedPolicy} {kernel : Kernel}
      {outcome : Except PolicyError Unit} (binding : TunnelBinding)
      (hrun : Reaches (runner listing) (m.driver.teardown binding) m.kernel
        (.ret (outcome, driver)) kernel) :
      Managed.Call listing m ⟨driver, kernel, m.last, m.failed || !outcome.isOk⟩
  | reasserted {m : Managed} {kernel : Kernel} {report : Reassertion}
      (hrun : Reaches (runner listing) m.driver.reassert m.kernel (.ret report) kernel) :
      Managed.Call listing m { m with kernel }

/-- The states any sequence of calls reaches from a machine nobody has touched yet. -/
def Managed.Reached (listing : Listing) (manager : PolicyManager) (kernel : Kernel) (m : Managed) :
    Prop :=
  Relation.ReflTransGen (Managed.Call listing) ⟨.new manager, kernel, none, false⟩ m

structure Managed.Owned (backend : LinuxPolicy) (m : Managed) : Prop where
  backend_eq : m.driver.manager.backend = backend
  slot : ∀ installed, m.driver.installed = some installed →
    m.last = some installed ∧ backend.plan installed.spec = .ok installed.plan ∧ m.failed = false

section Ownership

variable {listing : Listing}

theorem manager_install_plan (manager : PolicyManager) (spec : TunnelSpec) (kernel : Kernel) :
    Safe (runner listing) (fun _ => True)
      (fun outcome _ => ∀ installed manager', outcome = .ok (installed, manager') →
        manager.backend.plan installed.spec = .ok installed.plan ∧
          manager'.backend = manager.backend)
      (manager.install spec).run kernel := by
  unfold PolicyManager.install
  cases hplan : manager.backend.plan spec with
  | error e => exact ⟨trivial, fun _ _ h => (by cases h)⟩
  | ok plan =>
    cases hcleanup : manager.backend.preInstallCleanup spec with
    | error e => exact ⟨trivial, fun _ _ h => (by cases h)⟩
    | ok cleanup =>
      show Safe _ _ _ (ExceptT.run (runBestEffort cleanup >>= fun _ => _)) kernel
      refine Safe.bindExcept (Safe.of_forall (Q := fun _ _ => True) (fun _ _ => trivial) _ _)
        ?_ (fun _ _ _ _ _ _ h => (by cases h))
      intro _ k _ _
      refine Safe.bindExcept (Safe.of_forall (Q := fun _ _ => True) (fun _ _ => trivial) _ _)
        ?_ (fun _ _ _ _ _ _ h => (by cases h))
      intro _ k' _ _
      refine ⟨trivial, fun installed manager' h => ?_⟩
      injection h with h
      injection h with hinstalled hmanager
      subst hinstalled hmanager
      exact ⟨hplan, rfl⟩

theorem driver_install (driver : ManagedPolicy) (spec : TunnelSpec) (mtu : UInt32)
    (kernel : Kernel) :
    Safe (runner listing) (fun _ => True)
      (fun result _ => result.2.manager.backend = driver.manager.backend ∧
        (∀ e, result.1 = .error e → result.2.installed = driver.installed) ∧
        ∀ binding, result.1 = .ok binding → ∃ installed, result.2.installed = some installed ∧
          driver.manager.backend.plan installed.spec = .ok installed.plan)
      (driver.install spec mtu) kernel := by
  unfold ManagedPolicy.install
  refine Safe.bind ?_ (manager_install_plan driver.manager spec kernel)
  rintro outcome k - hplan
  cases outcome with
  | error e => exact ⟨trivial, rfl, fun _ _ => rfl, fun _ h => (by cases h)⟩
  | ok result =>
    obtain ⟨installed, manager⟩ := result
    obtain ⟨hown, hbackend⟩ := hplan installed manager rfl
    obtain ⟨binding, hbinding, -⟩ := fromInstalled_ok installed mtu
    simp only [hbinding]
    exact ⟨trivial, hbackend, fun _ h => (by cases h), fun _ _ => ⟨installed, rfl, hown⟩⟩

theorem driver_teardown (driver : ManagedPolicy) (binding : TunnelBinding) (kernel : Kernel) :
    Safe (runner listing) (fun _ => True)
      (fun result _ => result.2.manager.backend = driver.manager.backend ∧
        result.2.installed = none)
      (driver.teardown binding) kernel := by
  unfold ManagedPolicy.teardown
  split
  · next hempty => exact ⟨trivial, rfl, hempty⟩
  · next installed _ =>
    refine Safe.bind (Q := fun outcome _ => ∀ manager, outcome = .ok manager →
      manager.backend = driver.manager.backend) ?_ ?_
    · rintro outcome k - hmanager
      cases outcome with
      | error e => exact ⟨trivial, rfl, rfl⟩
      | ok manager => exact ⟨trivial, hmanager manager rfl, rfl⟩
    · refine Safe.bindExcept (Safe.of_forall (Q := fun _ _ => True) (fun _ _ => trivial) _ _)
        ?_ (fun _ _ _ _ _ h => (by cases h))
      intro _ k _ _
      refine ⟨trivial, fun manager h => ?_⟩
      injection h with h
      rw [← h]

theorem Managed.Owned.call {backend : LinuxPolicy} {m m' : Managed} (h : m.Owned backend)
    (hcall : Managed.Call listing m m') : m'.Owned backend := by
  cases hcall with
  | installed spec mtu hrun =>
    obtain ⟨hbackend, -, hslot⟩ := (driver_install m.driver spec mtu m.kernel).post_of_reaches hrun
    obtain ⟨own, hown, hplan⟩ := hslot _ rfl
    refine ⟨hbackend.trans h.backend_eq, fun installed hinstalled => ?_⟩
    rw [h.backend_eq] at hplan
    obtain rfl : own = installed := Option.some.inj (hown.symm.trans hinstalled)
    exact ⟨hown, hplan, rfl⟩
  | refused spec mtu hrun =>
    obtain ⟨hbackend, hkeeps, -⟩ :=
      (driver_install m.driver spec mtu m.kernel).post_of_reaches hrun
    refine ⟨hbackend.trans h.backend_eq, fun installed hinstalled => ?_⟩
    exact h.slot installed ((hkeeps _ rfl).symm.trans hinstalled)
  | tornDown binding hrun =>
    obtain ⟨hbackend, hempty⟩ := (driver_teardown m.driver binding m.kernel).post_of_reaches hrun
    refine ⟨hbackend.trans h.backend_eq, fun installed hinstalled => ?_⟩
    exact absurd (hempty.symm.trans hinstalled) (by simp)
  | reasserted hrun => exact ⟨h.backend_eq, h.slot⟩

theorem Managed.Reached.owned {manager : PolicyManager} {kernel : Kernel} {m : Managed}
    (h : Managed.Reached listing manager kernel m) : m.Owned manager.backend := by
  induction h with
  | refl => exact ⟨rfl, fun _ h => (by cases h)⟩
  | tail _ hcall ih => exact ih.call hcall

end Ownership

/-! ## §4. When a teardown keeps its word. -/

/-- A teardown that returns `Ok` leaves nothing of the last policy, and after one that failed it
    does not return without issuing a command. -/
def Managed.TeardownHonest (listing : Listing) (m : Managed) (binding : TunnelBinding) : Prop :=
  (∀ driver kernel, Reaches (runner listing) (m.driver.teardown binding) m.kernel
      (.ret (.ok (), driver)) kernel →
    ∀ installed, m.last = some installed → Gone installed.plan.steps kernel) ∧
  (m.failed = true → ∃ command, (m.driver.teardown binding).issues? = some command)

section Honest

variable {listing : Listing}

theorem teardown_ok_gone (hshows : listing.Shows) {driver : ManagedPolicy}
    {installed : InstalledPolicy} (hslot : driver.installed = some installed)
    (hplan : driver.manager.backend.plan installed.spec = .ok installed.plan)
    (binding : TunnelBinding) (kernel : Kernel) :
    Safe (runner listing) (fun _ => True)
      (fun result k => result.1 = .ok () → Gone installed.plan.steps k)
      (driver.teardown binding) kernel := by
  unfold ManagedPolicy.teardown
  rw [hslot]
  refine Safe.bind (Q := fun outcome k => ∀ manager, outcome = .ok manager →
    Gone installed.plan.steps k) ?_ ?_
  · rintro outcome k - hgone
    cases outcome with
    | error e => exact ⟨trivial, fun h => (by cases h)⟩
    | ok manager => exact ⟨trivial, fun _ => hgone manager rfl⟩
  · refine Safe.bindExcept (teardown_clears hshows hplan kernel) ?_
      (fun _ _ _ _ _ h => (by cases h))
    exact fun _ k _ hgone => ⟨trivial, fun _ _ => hgone rfl⟩

/-- **A teardown keeps its word exactly when the slot is full, or when nothing of the last policy
    was left and no teardown of it had failed** — in every state any sequence of calls reaches,
    whatever the runner did. -/
theorem teardown_honest_iff (hshows : listing.Shows) {manager : PolicyManager} {kernel : Kernel}
    {m : Managed} (h : Managed.Reached listing manager kernel m) (binding : TunnelBinding) :
    m.TeardownHonest listing binding ↔
      m.driver.installed.isSome = true ∨
        (m.failed = false ∧
          ∀ installed, m.last = some installed → Gone installed.plan.steps m.kernel) := by
  have howned := h.owned
  cases hslot : m.driver.installed with
  | some installed =>
    obtain ⟨hlast, hplan, hfailed⟩ := howned.slot installed hslot
    rw [← howned.backend_eq] at hplan
    refine iff_of_true ⟨fun driver k hrun installed' hinstalled' => ?_, fun h => ?_⟩ (.inl rfl)
    · obtain rfl : installed = installed' := Option.some.inj (hlast.symm.trans hinstalled')
      exact (teardown_ok_gone hshows hslot hplan binding m.kernel).post_of_reaches hrun rfl
    · rw [hfailed] at h
      cases h
  | none =>
    -- the call returns at once, and the machine stays as it is
    have hreturns : m.driver.teardown binding = .ret (.ok (), m.driver) := by
      unfold ManagedPolicy.teardown
      rw [hslot]
      rfl
    unfold Managed.TeardownHonest
    rw [hreturns]
    constructor
    · rintro ⟨hgone, hissues⟩
      refine .inr ⟨?_, hgone m.driver m.kernel (.here _ _)⟩
      by_contra hfailed
      obtain ⟨command, hcommand⟩ := hissues (by simpa using hfailed)
      cases hcommand
    · rintro (h | ⟨hfailed, hgone⟩)
      · cases h
      · refine ⟨fun driver k hrun => ?_, fun h => ?_⟩
        · cases hrun
          exact hgone
        · rw [hfailed] at h
          cases h

end Honest

/-! ## §5. A teardown that fails. -/

section Replayed

variable {listing : Listing} {reply : Kernel → Command → Except PolicyError CommandOutput × Kernel}

theorem Managed.call_of_install
    (hreply : ∀ k command, runner listing k command (reply k command).1 (reply k command).2)
    (m : Managed) {spec : TunnelSpec} {mtu : UInt32} {binding : TunnelBinding}
    (hok : ((m.driver.install spec mtu).exec reply m.kernel).1.1 = .ok binding) :
    Managed.Call listing m
      (let run := (m.driver.install spec mtu).exec reply m.kernel
      ⟨run.1.2, run.2, run.1.2.installed, false⟩) := by
  have hrun := exec_reaches hreply (m.driver.install spec mtu) m.kernel
  generalize (m.driver.install spec mtu).exec reply m.kernel = run at hok hrun ⊢
  obtain ⟨⟨outcome, driver⟩, kernel⟩ := run
  simp only at hok
  subst hok
  exact .installed spec mtu hrun

theorem Managed.call_of_teardown
    (hreply : ∀ k command, runner listing k command (reply k command).1 (reply k command).2)
    (m : Managed) (binding : TunnelBinding) :
    Managed.Call listing m
      (let run := (m.driver.teardown binding).exec reply m.kernel
      ⟨run.1.2, run.2, m.last, m.failed || !run.1.1.isOk⟩) :=
  .tornDown binding (exec_reaches hreply (m.driver.teardown binding) m.kernel)

end Replayed

def sampleBinding : TunnelBinding :=
  ⟨"tun0", ⟨10, 8, 0, 2⟩, some (.new 0xfd00 0 0 0 0 0 0 2), 1400⟩

def sampleStart : Managed := ⟨.new sampleManager, sampleBase, none, false⟩

def sampleManaged : Managed :=
  let run := (sampleStart.driver.install sampleSpec 1400).exec honestReply sampleStart.kernel
  ⟨run.1.2, run.2, run.1.2.installed, false⟩

theorem sampleManaged_reached :
    Managed.Reached iproute2 sampleManager sampleBase sampleManaged := by
  have hok : ((sampleStart.driver.install sampleSpec 1400).exec honestReply
      sampleStart.kernel).1.1 = .ok sampleBinding := by decide +kernel
  exact .tail .refl (Managed.call_of_install honestReply_answers sampleStart hok)

theorem teardown_honest_sample : sampleManaged.driver.installed.isSome = true ∧
    sampleManaged.TeardownHonest iproute2 sampleBinding := by
  have hfull : sampleManaged.driver.installed.isSome = true := by decide +kernel
  exact ⟨hfull, (teardown_honest_iff iproute2_shows sampleManaged_reached sampleBinding).mpr
    (.inl hfull)⟩

def sampleAbandoned : Managed :=
  let run := (sampleManaged.driver.teardown sampleBinding).exec blindReply sampleManaged.kernel
  ⟨run.1.2, run.2, sampleManaged.last, sampleManaged.failed || !run.1.1.isOk⟩

/-- **A failed teardown is forgotten.**  It returned an error with rules and routes left; the next
    one returns `Ok` and has issued nothing. -/
theorem failed_teardown_forgotten :
    Managed.Reached iproute2 sampleManager sampleBase sampleAbandoned ∧
      sampleAbandoned.failed = true ∧
      sampleAbandoned.driver.teardown sampleBinding = .ret (.ok (), sampleAbandoned.driver) ∧
      sampleAbandoned.last = some ⟨sampleSpec, samplePlan⟩ ∧
      ∃ step ∈ samplePlan.steps, ∃ entry ∈ sampleAbandoned.kernel, step.entry = some entry := by
  refine ⟨.tail sampleManaged_reached (Managed.call_of_teardown blindReply_answers _ _),
    by decide +kernel, ?_, by decide +kernel, by decide +kernel⟩
  have hempty : sampleAbandoned.driver.installed = none := by decide +kernel
  unfold ManagedPolicy.teardown
  rw [hempty]
  rfl

end ThisConnect.Policy
