/-
  ThisConnect.Policy.Recovery
  **WHAT A CRASH CAN LEAVE, AND WHETHER STARTUP GETS RID OF IT.**

  Main results:
    • `recovers_iff` — with commands and probes that work, reconciliation
      succeeds and leaves nothing of ours exactly when there are at most four
      of each rule in each family and no foreign rule is taken for one of ours,
    • `recovers_after_crash_iff` — the same of every machine some history left,
    • `residue_after_crash` — two machines on which it fails.
-/
import ThisConnect.Policy.Managed
import ThisConnect.Policy.Reconcile

namespace ThisConnect.Policy

open Net Interaction

/-! ## §1. Clean, and recoverable. -/

/-- No rule with priority 18500, none looking up table 218, and no route in it. -/
def Swept (kernel : Kernel) : Prop :=
  ∀ family, ∀ entry ∈ kernel, entry.isBackstop family = false ∧ entry.isLookup family = false ∧
    entry.isRoute family = false

/-- A rule that is not ours, and whose line looks as if it were: its priority ends in 18500, or
    the number of its table starts with 218. -/
def IpRule.Mimics (r : IpRule) : Prop :=
  (r.priority ≠ 18500 ∧ "18500".toList <:+ Nat.toDigits 10 r.priority) ∨
    ∃ table, table ≠ 218 ∧ r.action = .lookup table ∧ "218".toList <+: Nat.toDigits 10 table

instance (r : IpRule) : Decidable r.Mimics :=
  match h : r.action with
  | .lookup table =>
    decidable_of_iff
      ((r.priority ≠ 18500 ∧ "18500".toList <:+ Nat.toDigits 10 r.priority) ∨
        (table ≠ 218 ∧ "218".toList <+: Nat.toDigits 10 table))
      (by simp [IpRule.Mimics, h])
  | .unreachable =>
    decidable_of_iff (r.priority ≠ 18500 ∧ "18500".toList <:+ Nat.toDigits 10 r.priority)
      (by simp [IpRule.Mimics, h])

/-- At most four of each rule in each family, and no rule that looks like one of them. -/
def Recoverable (kernel : Kernel) : Prop :=
  (∀ r, Entry.rule r ∈ kernel → ¬ r.Mimics) ∧
    ∀ family, kernel.countP (Entry.isBackstop family) ≤ maxPasses ∧
      kernel.countP (Entry.isLookup family) ≤ maxPasses

/-! ## §2. Counting. -/

section Counting

variable {α : Type} {p q : α → Bool} {l : List α}

theorem countP_eraseP_self : (l.eraseP p).countP p = l.countP p - 1 := by
  induction l with
  | nil => rfl
  | cons a rest ih =>
    by_cases ha : p a = true
    · simp [ha]
    · simp [ha, ih]

theorem countP_eraseP_of_disjoint (h : ∀ a ∈ l, p a = true → q a = false) :
    (l.eraseP p).countP q = l.countP q := by
  induction l with
  | nil => rfl
  | cons a rest ih =>
    by_cases ha : p a = true
    · simp [ha, h a (by simp) ha]
    · simp [ha, List.countP_cons, ih fun b hb => h b (by simp [hb])]

theorem countP_filter_of_imp (h : ∀ a ∈ l, q a = true → p a = true) :
    (l.filter p).countP q = l.countP q := by
  rw [List.countP_filter]
  refine List.countP_congr fun a ha => ?_
  rw [Bool.and_eq_true]
  exact ⟨fun hq => hq.1, fun hq => ⟨hq, h a ha hq⟩⟩

end Counting

/-- Every rule is foreign, or one of the two kinds we install. -/
def Tidy (kernel : Kernel) : Prop :=
  ∀ r, Entry.rule r ∈ kernel → (r.priority ≠ 18500 ∧ r.action ≠ .lookup 218) ∨
    (r.priority = 18500 ∧ r.action = .unreachable) ∨ (r.priority = 18000 ∧ r.action = .lookup 218)

section Sweep

variable {kernel : Kernel} {entry : Entry} {family other : Family}

theorem isLookup_of_isBackstop (htidy : Tidy kernel) (hmem : entry ∈ kernel)
    (hbackstop : entry.isBackstop family = true) : entry.isLookup other = false := by
  cases entry with
  | route r => rfl
  | rule r =>
    have hprio : r.priority = 18500 := by
      simp only [Entry.isBackstop, Bool.and_eq_true, beq_iff_eq] at hbackstop
      exact hbackstop.2
    rcases htidy r hmem with ⟨hne, -⟩ | ⟨-, haction⟩ | ⟨hne, -⟩
    · exact absurd hprio hne
    · simp [Entry.isLookup, haction]
    · rw [hprio] at hne
      exact absurd hne (by decide)

theorem not_isRoute_of_isBackstop (hbackstop : entry.isBackstop family = true) :
    (!entry.isRoute other) = true := by
  cases entry with
  | route r => cases hbackstop
  | rule r => rfl

theorem not_isRoute_of_isLookup (hlookup : entry.isLookup family = true) :
    (!entry.isRoute other) = true := by
  cases entry with
  | route r => cases hlookup
  | rule r => rfl

theorem isBackstop_other (hne : other ≠ family) (h : entry.isBackstop family = true) :
    entry.isBackstop other = false := by
  cases entry with
  | route r => rfl
  | rule r =>
    simp only [Entry.isBackstop, Bool.and_eq_true, decide_eq_true_eq] at h
    simp [Entry.isBackstop, h.1, hne.symm]

theorem isLookup_other (hne : other ≠ family) (h : entry.isLookup family = true) :
    entry.isLookup other = false := by
  cases entry with
  | route r => rfl
  | rule r =>
    simp only [Entry.isLookup, Bool.and_eq_true, decide_eq_true_eq] at h
    simp [Entry.isLookup, h.1, hne.symm]

theorem Tidy.subset {kernel' : Kernel} (h : Tidy kernel) (hless : kernel' ⊆ kernel) :
    Tidy kernel' :=
  fun r hr => h r (hless hr)

theorem countP_sweep_backstop (htidy : Tidy kernel) :
    (kernel.sweep family).countP (Entry.isBackstop other) =
      kernel.countP (Entry.isBackstop other) - if other = family then 1 else 0 := by
  unfold Kernel.sweep
  rw [countP_filter_of_imp fun _ _ => not_isRoute_of_isBackstop, countP_eraseP_of_disjoint]
  · by_cases hsame : other = family
    · rw [hsame, if_pos rfl, countP_eraseP_self]
    · rw [if_neg hsame, countP_eraseP_of_disjoint fun _ _ => isBackstop_other hsame]
      rfl
  · intro entry hmem hlookup
    by_contra hbackstop
    have hclash : entry.isLookup family = false :=
      isLookup_of_isBackstop htidy (List.eraseP_subset hmem) (by simpa using hbackstop)
    rw [hlookup] at hclash
    cases hclash

theorem countP_sweep_lookup (htidy : Tidy kernel) :
    (kernel.sweep family).countP (Entry.isLookup other) =
      kernel.countP (Entry.isLookup other) - if other = family then 1 else 0 := by
  have hfirst : (kernel.eraseP (Entry.isBackstop family)).countP (Entry.isLookup other) =
      kernel.countP (Entry.isLookup other) :=
    countP_eraseP_of_disjoint fun _ hmem => isLookup_of_isBackstop htidy hmem
  unfold Kernel.sweep
  rw [countP_filter_of_imp fun _ _ => not_isRoute_of_isLookup]
  by_cases hsame : other = family
  · subst hsame
    rw [if_pos rfl, ← hfirst]
    exact countP_eraseP_self
  · rw [if_neg hsame, countP_eraseP_of_disjoint fun _ _ => isLookup_other hsame, hfirst]
    rfl

theorem mimics_sweep (htidy : Tidy kernel) {r : IpRule} (hmimics : r.Mimics) :
    Entry.rule r ∈ kernel.sweep family ↔ Entry.rule r ∈ kernel := by
  refine ⟨fun h => sweep_subset family h, fun h => ?_⟩
  have hforeign : r.priority ≠ 18500 ∧ r.action ≠ .lookup 218 := by
    rcases htidy r h with hforeign | ⟨hprio, haction⟩ | ⟨hprio, haction⟩
    · exact hforeign
    · rcases hmimics with ⟨hne, -⟩ | ⟨table, -, hlookup, -⟩
      · exact absurd hprio hne
      · rw [haction] at hlookup
        cases hlookup
    · rcases hmimics with ⟨-, hsuffix⟩ | ⟨table, hne, hlookup, -⟩
      · rw [hprio] at hsuffix
        exact absurd hsuffix (by decide)
      · rw [haction] at hlookup
        injection hlookup with htable
        exact absurd htable.symm hne
  unfold Kernel.sweep
  refine List.mem_filter.mpr ⟨?_, rfl⟩
  rw [List.mem_eraseP_of_neg (by simp [Entry.isLookup, hforeign]),
    List.mem_eraseP_of_neg (by simp [Entry.isBackstop, hforeign])]
  exact h

end Sweep

/-! ## §3. The passes. -/

structure Kernel.Clears (kernel : Kernel) (passes : Nat) : Prop where
  unmistaken : ∀ r, Entry.rule r ∈ kernel → ¬ r.Mimics
  backstops : ∀ family, kernel.countP (Entry.isBackstop family) ≤ passes
  lookups : ∀ family, kernel.countP (Entry.isLookup family) ≤ passes
  routes : passes = 0 → ∀ family, ∀ entry ∈ kernel, entry.isRoute family = false

section Passes

variable {kernel : Kernel} {policy : LinuxPolicy}

theorem Kernel.Clears.swept (h : kernel.Clears 0) : Swept kernel := by
  intro family entry hmem
  refine ⟨?_, ?_, h.routes rfl family entry hmem⟩
  · simpa using List.countP_eq_zero.mp (Nat.le_zero.mp (h.backstops family)) entry hmem
  · simpa using List.countP_eq_zero.mp (Nat.le_zero.mp (h.lookups family)) entry hmem

theorem removals_nil_iff :
    policy.removals .v4 (kernel.shows .v4) ++ policy.removals .v6 (kernel.shows .v6) = [] ↔
      kernel.Clears 0 := by
  have hfamily : ∀ family, policy.removals family (kernel.shows family) = [] ↔
      (kernel.shows family).1 = false ∧ (kernel.shows family).2.1 = false ∧
        (kernel.shows family).2.2 = false := by
    intro family
    unfold LinuxPolicy.removals
    simp
  rw [List.append_eq_nil_iff, hfamily, hfamily]
  constructor
  · rintro ⟨h4, h6⟩
    have hquiet : ∀ family, (kernel.shows family).1 = false ∧ (kernel.shows family).2.1 = false ∧
        (kernel.shows family).2.2 = false := by
      intro family
      cases family with
      | v4 => exact h4
      | v6 => exact h6
    refine ⟨fun r hr hmimics => ?_, fun family => ?_, fun family => ?_, fun _ family => ?_⟩
    · obtain ⟨hbackstop, hlookup, -⟩ := hquiet r.family
      rw [← Bool.not_eq_true, shows_backstop_iff] at hbackstop
      rw [← Bool.not_eq_true, shows_lookup_iff] at hlookup
      rcases hmimics with ⟨-, hsuffix⟩ | ⟨table, -, haction, hpre⟩
      · exact hbackstop ⟨r, hr, rfl, hsuffix⟩
      · exact hlookup ⟨r, hr, rfl, table, haction, hpre⟩
    · refine Nat.le_zero.mpr (List.countP_eq_zero.mpr fun entry hmem => ?_)
      rw [(not_shown family).1 (hquiet family).1 entry hmem]
      simp
    · refine Nat.le_zero.mpr (List.countP_eq_zero.mpr fun entry hmem => ?_)
      rw [(not_shown family).2.1 (hquiet family).2.1 entry hmem]
      simp
    · exact (not_shown family).2.2 (hquiet family).2.2
  · intro hclear
    have hquiet : ∀ family, (kernel.shows family).1 = false ∧ (kernel.shows family).2.1 = false ∧
        (kernel.shows family).2.2 = false := by
      intro family
      refine ⟨?_, ?_, ?_⟩
      · rw [← Bool.not_eq_true, shows_backstop_iff]
        rintro ⟨r, hr, rfl, hsuffix⟩
        by_cases hours : r.priority = 18500
        · have := List.countP_eq_zero.mp (Nat.le_zero.mp (hclear.backstops r.family)) _ hr
          exact this (by simp [Entry.isBackstop, hours])
        · exact hclear.unmistaken r hr (.inl ⟨hours, hsuffix⟩)
      · rw [← Bool.not_eq_true, shows_lookup_iff]
        rintro ⟨r, hr, rfl, table, haction, hpre⟩
        by_cases hours : table = 218
        · have := List.countP_eq_zero.mp (Nat.le_zero.mp (hclear.lookups r.family)) _ hr
          exact this (by simp [Entry.isLookup, haction, hours])
        · exact hclear.unmistaken r hr (.inr ⟨table, hours, haction, hpre⟩)
      · rw [← Bool.not_eq_true, shows_routes_iff]
        rintro ⟨entry, hmem, hroute⟩
        rw [hclear.routes rfl family entry hmem] at hroute
        cases hroute
    exact ⟨hquiet .v4, hquiet .v6⟩

theorem clears_sweep (htidy : Tidy kernel) (passes : Nat) :
    ((kernel.sweep .v4).sweep .v6).Clears passes ↔ kernel.Clears (passes + 1) := by
  have htidy4 : Tidy (kernel.sweep .v4) := htidy.subset (sweep_subset .v4)
  have hbackstop : ∀ family, ((kernel.sweep .v4).sweep .v6).countP (Entry.isBackstop family) =
      kernel.countP (Entry.isBackstop family) - 1 := by
    intro family
    rw [countP_sweep_backstop htidy4, countP_sweep_backstop htidy]
    cases family <;> rfl
  have hlookup : ∀ family, ((kernel.sweep .v4).sweep .v6).countP (Entry.isLookup family) =
      kernel.countP (Entry.isLookup family) - 1 := by
    intro family
    rw [countP_sweep_lookup htidy4, countP_sweep_lookup htidy]
    cases family <;> rfl
  constructor
  · intro h
    refine ⟨fun r hr hmimics => ?_, fun family => ?_, fun family => ?_, fun h => by cases h⟩
    · exact h.unmistaken r ((mimics_sweep htidy4 hmimics).mpr
        ((mimics_sweep htidy hmimics).mpr hr)) hmimics
    · have := h.backstops family
      rw [hbackstop] at this
      omega
    · have := h.lookups family
      rw [hlookup] at this
      omega
  · intro h
    refine ⟨fun r hr => ?_, fun family => ?_, fun family => ?_, fun _ family entry hmem => ?_⟩
    · exact h.unmistaken r (sweep_subset .v4 (sweep_subset .v6 hr))
    · have := h.backstops family
      rw [hbackstop]
      omega
    · have := h.lookups family
      rw [hlookup]
      omega
    · have hswept : ∀ (k : Kernel) (f : Family), entry ∈ k.sweep f → entry.isRoute f = false := by
        intro k f hk
        simpa using (List.mem_filter.mp hk).2
      cases family with
      | v4 => exact hswept kernel .v4 (sweep_subset .v6 hmem)
      | v6 => exact hswept _ .v6 hmem

theorem reconcilePasses_works (passes : Nat) :
    ∀ (kernel : Kernel) (report : ReconcileReport), Tidy kernel →
      Safe working (fun _ => True)
        (fun r t => (r.isOk = true ↔ kernel.Clears passes) ∧ (r.isOk = true → Swept t))
        (policy.reconcilePasses passes report).run kernel := by
  induction passes with
  | zero =>
    intro kernel report htidy
    unfold LinuxPolicy.reconcilePasses
    refine Safe.bindExcept staleCleanup_works ?_ (fun _ _ _ h => absurd h.2 (by simp))
    rintro leftovers t - ⟨rfl, hleftovers⟩
    injection hleftovers with hleftovers
    have hnil : leftovers = [] ↔ t.Clears 0 := by
      rw [hleftovers]
      exact removals_nil_iff
    split
    · next hempty =>
      have hclear := hnil.mp (List.isEmpty_iff.mp hempty)
      exact ⟨trivial, ⟨fun _ => hclear, fun _ => rfl⟩, fun _ => hclear.swept⟩
    · next hsome =>
      refine ⟨trivial, ⟨(fun h => by cases h), fun hclear => ?_⟩, (fun h => by cases h)⟩
      exact absurd (List.isEmpty_iff.mpr (hnil.mpr hclear)) hsome
  | succ passes ih =>
    intro kernel report htidy
    unfold LinuxPolicy.reconcilePasses
    refine Safe.bindExcept staleCleanup_works ?_ (fun _ _ _ h => absurd h.2 (by simp))
    rintro leftovers t - ⟨rfl, hleftovers⟩
    injection hleftovers with hleftovers
    have hnil : leftovers = [] ↔ t.Clears 0 := by
      rw [hleftovers]
      exact removals_nil_iff
    split
    · next hempty =>
      have hclear := hnil.mp (List.isEmpty_iff.mp hempty)
      have hmore : t.Clears (passes + 1) := by
        refine ⟨hclear.unmistaken, fun f => ?_, fun f => ?_, fun h => by cases h⟩
        · exact (hclear.backstops f).trans (Nat.zero_le _)
        · exact (hclear.lookups f).trans (Nat.zero_le _)
      exact ⟨trivial, ⟨fun _ => hmore, fun _ => rfl⟩, fun _ => hclear.swept⟩
    · have hpass := @pass_works policy t
      rw [← hleftovers] at hpass
      refine Safe.bindExcept hpass ?_
        (fun _ _ _ h => absurd h.1 (by simp [Except.isOk, Except.toBool]))
      rintro removed t' - ⟨-, rfl⟩
      rw [← clears_sweep htidy]
      exact ih _ _ (htidy.subset fun _ h => sweep_subset .v4 (sweep_subset .v6 h))

end Passes

/-! ## §4. Startup. -/

theorem honestReply_works (kernel : Kernel) (command : Command) :
    working kernel command (honestReply kernel command).1 (honestReply kernel command).2 := by
  unfold honestReply
  split
  · next op hop =>
    split
    · next text htext => exact .printed "" hop htext
    · next hnone => exact .performed _ hop hnone
  · next hnone => exact .refused _ hnone

/-- Reconciliation returns `Ok` and leaves nothing of ours. -/
structure Recovers (policy : LinuxPolicy) (kernel : Kernel) : Prop where
  returns : ∃ outcome t, Reaches working policy.reconcile.run kernel (.ret outcome) t
  cleans : ∀ outcome t, Reaches working policy.reconcile.run kernel (.ret outcome) t →
    outcome.isOk = true ∧ Swept t

variable {kernel k k' base : Kernel} {policy : LinuxPolicy} {listing : Listing}

theorem clears_maxPasses_iff : kernel.Clears maxPasses ↔ Recoverable kernel :=
  ⟨fun h => ⟨h.unmistaken, fun family => ⟨h.backstops family, h.lookups family⟩⟩,
    fun h => ⟨h.1, fun family => (h.2 family).1, fun family => (h.2 family).2, fun h => by cases h⟩⟩

theorem recovers_iff (htidy : Tidy kernel) :
    Recovers policy kernel ↔ Recoverable kernel := by
  have hsafe := @reconcilePasses_works policy maxPasses kernel {} htidy
  rw [clears_maxPasses_iff] at hsafe
  have hrun := exec_reaches honestReply_works policy.reconcile.run kernel
  constructor
  · intro h
    exact (hsafe.post_of_reaches hrun).1.mp (h.cleans _ _ hrun).1
  · intro h
    refine ⟨⟨_, _, hrun⟩, fun outcome t hrun => ?_⟩
    obtain ⟨hok, hswept⟩ := hsafe.post_of_reaches hrun
    exact ⟨hok.mpr h, hswept (hok.mpr h)⟩

/-! ## §5. What a history leaves. -/

def Command.Tidies (command : Command) : Prop :=
  ∀ op, readIp command.args = some op → ∀ kernel : Kernel, Tidy kernel → Tidy (kernel.apply op)

structure Step.Tidies (step : Step) : Prop where
  apply : step.apply.Tidies
  undo : step.undo.Tidies
  afterApply : ∀ check, step.afterApply = some check → check.probe.Tidies
  afterUndo : ∀ check, step.afterUndo = some check → check.probe.Tidies

/-- From a tidy machine the program reaches only tidy ones. -/
def Keeps {α : Type} (listing : Listing) (p : Pass α) : Prop :=
  ∀ kernel, Tidy kernel → Safe (runner listing) Tidy (fun _ _ => True) p kernel

section Histories

variable {α β : Type} {listing : Listing} {policy : LinuxPolicy} {spec : TunnelSpec}
  {command : Command} {step : Step}

theorem Keeps.ret (a : α) : Keeps listing (.ret a : Pass α) := fun _ htidy => ⟨htidy, trivial⟩

theorem Keeps.bind {p : Pass α} {f : α → Pass β} (hp : Keeps listing p)
    (hf : ∀ a, Keeps listing (f a)) : Keeps listing (p >>= f) :=
  fun kernel htidy => Safe.bind (fun a k hk _ => hf a k hk) (hp kernel htidy)

theorem Keeps.bindExcept {p : Script α} {f : α → Script β} (hp : Keeps listing p.run)
    (hf : ∀ a, Keeps listing (f a).run) : Keeps listing (p >>= f).run :=
  fun kernel htidy => Safe.bindExcept (hp kernel htidy) (fun a k hk _ => hf a k hk)
    (fun _ _ _ _ => trivial)

theorem Keeps.run (hcommand : command.Tidies) : Keeps listing (Policy.run command).run := by
  intro kernel htidy
  refine ⟨htidy, fun reply k answered => ⟨?_, trivial⟩⟩
  cases answered with
  | performed reply hop _ => exact hcommand _ hop kernel htidy
  | ignored reply _ => exact htidy
  | printed stderr hop _ => exact htidy
  | unreadable reply _ => exact htidy

theorem Keeps.evaluate {check : Check} (hcheck : check.probe.Tidies) :
    Keeps listing check.evaluate.run :=
  (Keeps.run hcheck).bindExcept fun _ => Keeps.ret _

theorem Keeps.installStep (h : step.Tidies) : Keeps listing (installStep step).run := by
  refine (Keeps.run h.apply).bindExcept fun output => ?_
  split
  · exact Keeps.ret _
  · split
    · next check hcheck => exact Keeps.evaluate (h.afterApply check hcheck)
    · exact Keeps.ret _

theorem Keeps.undoAll {steps : List Step} (h : ∀ step ∈ steps, step.Tidies) :
    Keeps listing (undoAll steps).run := by
  induction steps with
  | nil => exact Keeps.ret _
  | cons step rest ih =>
    refine Keeps.bindExcept ?_ fun _ => ih fun s hs => h s (by simp [hs])
    refine (Keeps.run (h step (by simp)).undo).bindExcept fun _ => ?_
    split
    · next check hcheck => exact Keeps.evaluate ((h step (by simp)).afterUndo check hcheck)
    · exact Keeps.ret _

variable {plan : Plan} {commands : List Command} {kernel : Kernel} {op : IpOp}

theorem Keeps.teardown (h : ∀ step ∈ plan.steps, step.Tidies) :
    Keeps listing (teardown plan).run :=
  Keeps.undoAll fun step hstep => h step (List.mem_reverse.mp hstep)

theorem Keeps.installFrom (h : ∀ step ∈ plan.steps, step.Tidies) (rest : List Step) :
    ∀ index, (∀ step ∈ rest, step.Tidies) →
      Keeps listing (installFrom plan index rest).run := by
  induction rest with
  | nil => intro index _; exact Keeps.ret _
  | cons step rest ih =>
    intro index hrest
    refine Keeps.bind (Keeps.installStep (hrest step (by simp))) fun outcome => ?_
    cases outcome with
    | ok _ => exact ih (index + 1) fun s hs => hrest s (by simp [hs])
    | error error =>
      refine Keeps.bind (Keeps.teardown fun s hs => h s (List.mem_of_mem_take hs))
        fun undone => ?_
      cases undone with
      | ok _ => exact Keeps.ret _
      | error undoing => exact Keeps.ret _

theorem Keeps.reassertAll (steps : List Step) : ∀ outcome, (∀ step ∈ steps, step.Tidies) →
    Keeps listing (reassertAll steps outcome) := by
  induction steps with
  | nil => intro outcome _; exact Keeps.ret _
  | cons step rest ih =>
    intro outcome h
    refine Keeps.bind ?_ fun outcome => ih outcome fun s hs => h s (by simp [hs])
    refine Keeps.bind ?_ fun standing => ?_
    · unfold stillStanding
      split
      · next check hcheck =>
        exact (Keeps.evaluate ((h step (by simp)).afterApply check hcheck)).bind
          fun _ => Keeps.ret _
      · exact Keeps.ret _
    · split
      · exact Keeps.ret _
      · refine Keeps.bind (Keeps.installStep (h step (by simp))) fun result => ?_
        cases result with
        | ok _ => exact Keeps.ret _
        | error _ => exact Keeps.ret _

theorem Keeps.runBestEffort (h : ∀ c ∈ commands, c.Tidies) :
    Keeps listing (runBestEffort commands).run := by
  induction commands with
  | nil => exact Keeps.ret _
  | cons c rest ih =>
    refine (Keeps.run (h c (by simp))).bindExcept fun _ => ?_
    exact (ih fun c hc => h c (by simp [hc])).bindExcept fun _ => Keeps.ret _

theorem Tidy.append {entry : Entry} (htidy : Tidy kernel) (hentry : entry ∈ spec.entries) :
    Tidy (kernel ++ [entry]) := by
  intro r hr
  rcases List.mem_append.mp hr with hr | hr
  · exact htidy r hr
  · rw [← List.mem_singleton.mp hr] at hentry
    obtain ⟨endpoint, -, rfl | rfl⟩ := TunnelSpec.rule_mem_entries hentry
    · exact .inr (.inl ⟨rfl, rfl⟩)
    · exact .inr (.inr ⟨rfl, rfl⟩)

theorem Command.tidies_of_subset (hop : readIp command.args = some op)
    (hless : ∀ kernel : Kernel, kernel.apply op ⊆ kernel) : command.Tidies := by
  intro op' hop' kernel htidy
  rw [hop] at hop'
  injection hop' with hop'
  rw [← hop']
  exact htidy.subset (hless kernel)

theorem Command.tidies_of_print {text : String} (hop : readIp command.args = some op)
    (htext : iproute2.print kernel op = some text) :
    command.Tidies := by
  refine Command.tidies_of_subset hop fun k => ?_
  cases op with
  | showRules family => exact List.Subset.refl _
  | showTable family table => exact List.Subset.refl _
  | _ => cases htext

theorem plan_tidies (hplan : policy.plan spec = .ok plan) :
    ∀ step ∈ plan.steps, step.Tidies := by
  intro step hstep
  have hempty : spec.Clean [] := fun _ h => by cases h
  have hstaged := plan_staged (iproute2_decides spec) hplan hempty
  obtain ⟨entry, hentry, hlaw⟩ := hstaged.entry_of_mem hstep
  obtain ⟨addOp, hadd, happly⟩ := hlaw.applies
  obtain ⟨probe, showOp, needle, hafter, hundone, hshow, hprints⟩ := hlaw.checks
  obtain ⟨undoOp, hundo, hshrinks⟩ := (plan_removable iproute2_shows hplan step hstep).undoes
  obtain ⟨text, htext, -⟩ := hprints [] fun _ h => by cases h
  have hprobe : probe.Tidies := Command.tidies_of_print hshow htext
  refine ⟨?_, Command.tidies_of_subset hundo hshrinks, ?_, ?_⟩
  · intro op hop kernel htidy
    rw [hadd] at hop
    injection hop with hop
    rw [← hop, happly]
    exact htidy.append hentry
  · intro check hcheck
    rw [hafter] at hcheck
    injection hcheck with hcheck
    exact hcheck ▸ hprobe
  · intro check hcheck
    rw [hundone] at hcheck
    injection hcheck with hcheck
    exact hcheck ▸ hprobe

theorem preInstallCleanup_tidies (h : policy.preInstallCleanup spec = .ok commands) :
    ∀ c ∈ commands, c.Tidies := by
  intro c hmem
  obtain ⟨action, haction, hok⟩ := mem_of_mapM_ok h c hmem
  obtain ⟨endpoint, -, hflush⟩ := List.mem_flatMap.mp haction
  have hcases : policy.backstopFlush endpoint.family = .ok c ∨
      policy.ruleFlush endpoint.family = .ok c ∨ policy.tableFlush endpoint.family = .ok c := by
    simpa [show action = _ from hok, eq_comm] using hflush
  rcases hcases with h | h | h
  · exact Command.tidies_of_subset (readIp_backstopFlush _ h) fun _ => List.eraseP_subset
  · exact Command.tidies_of_subset (readIp_ruleFlush _ h) fun _ => List.eraseP_subset
  · exact Command.tidies_of_subset (readIp_tableFlush _ h) fun _ _ hmem =>
      List.mem_of_mem_filter hmem

theorem Keeps.manager_install (manager : PolicyManager) (spec : TunnelSpec) :
    Keeps listing (manager.install spec).run := by
  unfold PolicyManager.install
  cases hplan : manager.backend.plan spec with
  | error e => exact Keeps.ret _
  | ok plan =>
    cases hcleanup : manager.backend.preInstallCleanup spec with
    | error e => exact Keeps.ret _
    | ok cleanup =>
      have hsteps := plan_tidies hplan
      simp only [settle_ok_bind]
      refine Keeps.bindExcept (Keeps.runBestEffort (preInstallCleanup_tidies hcleanup))
        fun _ => ?_
      exact (Keeps.installFrom hsteps plan.steps 0 hsteps).bindExcept fun _ => Keeps.ret _

end Histories

/-- One call, cut short anywhere: an install with or without the cleanup before it, a
    re-assertion, a teardown. -/
inductive Cut (env : Env Command (fun _ => Except PolicyError CommandOutput) Kernel)
    (policy : LinuxPolicy) : Kernel → Kernel → Prop where
  | managerInstall {k k' : Kernel} (installed : Bool) (spec : TunnelSpec)
      {rest : Pass (Except PolicyError (InstalledPolicy × PolicyManager))}
      (hrun : Reaches env (PolicyManager.install ⟨policy, installed⟩ spec).run k rest k') :
      Cut env policy k k'
  | install {k k' : Kernel} {spec : TunnelSpec} {plan : Plan} (hplan : policy.plan spec = .ok plan)
      {rest : Pass (Except PolicyError Unit)}
      (hrun : Reaches env (install plan).run k rest k') : Cut env policy k k'
  | reassert {k k' : Kernel} {spec : TunnelSpec} {plan : Plan} (hplan : policy.plan spec = .ok plan)
      {rest : Pass Reassertion} (hrun : Reaches env (reassert plan) k rest k') : Cut env policy k k'
  | teardown {k k' : Kernel} {spec : TunnelSpec} {plan : Plan} (hplan : policy.plan spec = .ok plan)
      {rest : Pass (Except PolicyError Unit)}
      (hrun : Reaches env (teardown plan).run k rest k') : Cut env policy k k'

theorem Cut.mono {env env' : Env Command (fun _ => Except PolicyError CommandOutput) Kernel}
    (henv : ∀ {k k' : Kernel} {c : Command} {reply : Except PolicyError CommandOutput},
      env k c reply k' → env' k c reply k') (h : Cut env policy k k') : Cut env' policy k k' := by
  cases h with
  | managerInstall installed spec hrun =>
    exact .managerInstall installed spec (hrun.mono fun _ _ _ _ => henv)
  | install hplan hrun => exact .install hplan (hrun.mono fun _ _ _ _ => henv)
  | reassert hplan hrun => exact .reassert hplan (hrun.mono fun _ _ _ _ => henv)
  | teardown hplan hrun => exact .teardown hplan (hrun.mono fun _ _ _ _ => henv)

theorem Cut.tidy (h : Cut (runner listing) policy k k') (htidy : Tidy k) : Tidy k' := by
  cases h with
  | managerInstall installed spec hrun =>
    exact (Keeps.manager_install _ spec k htidy).inv_of_reaches hrun
  | install hplan hrun =>
    have hsteps := plan_tidies hplan
    exact (Keeps.installFrom hsteps _ 0 hsteps k htidy).inv_of_reaches hrun
  | reassert hplan hrun =>
    exact (Keeps.reassertAll _ _ (plan_tidies hplan) k htidy).inv_of_reaches hrun
  | teardown hplan hrun => exact (Keeps.teardown (plan_tidies hplan) k htidy).inv_of_reaches hrun

theorem tidy_of_swept (h : Swept kernel) : Tidy kernel := by
  intro r hr
  obtain ⟨hbackstop, hlookup, -⟩ := h r.family _ hr
  left
  simpa [Entry.isBackstop, Entry.isLookup] using And.intro hbackstop hlookup

theorem tidy_of_crash (hbase : Swept base)
    (hcrash : Relation.ReflTransGen (Cut (runner listing) policy) base kernel) : Tidy kernel := by
  induction hcrash with
  | refl => exact tidy_of_swept hbase
  | tail _ hcut ih => exact hcut.tidy ih

/-- **Crash recovery.**  Whatever a history left, reconciliation gets rid of it exactly where there
    are at most four of each rule in each family and no foreign rule looks like one of them. -/
theorem recovers_after_crash_iff {policy : LinuxPolicy} {base kernel : Kernel} (hbase : Swept base)
    (hcrash : Relation.ReflTransGen (Cut (runner iproute2) policy) base kernel) :
    Recovers policy kernel ↔ Recoverable kernel :=
  recovers_iff (tidy_of_crash hbase hcrash)

/-! ## §6. Two machines. -/

def flaky : Env Command (fun _ => Except PolicyError CommandOutput) Kernel :=
  fun kernel command reply kernel' =>
    (reply, kernel') = honestReply kernel command ∨ (reply, kernel') = blindReply kernel command

theorem flaky_runner {kernel' : Kernel} {command : Command}
    {reply : Except PolicyError CommandOutput} (h : flaky kernel command reply kernel') :
    runner iproute2 kernel command reply kernel' := by
  rcases h with h | h
  · have := honestReply_answers kernel command
    rw [← h] at this
    exact this
  · have := blindReply_answers kernel command
    rw [← h] at this
    exact this

theorem install_honest : ((sampleManager.install sampleSpec).run.exec honestReply sampleBase).2 =
    sampleInstalled := by
  decide +kernel

theorem cut_install : Cut flaky sampleManager.backend sampleBase sampleInstalled := by
  rw [← install_honest]
  exact .managerInstall false sampleSpec (exec_reaches (fun _ _ => .inl rfl) _ sampleBase)

theorem cut_reassert (kernel : Kernel) :
    Cut flaky sampleManager.backend kernel (kernel ++ [.rule sampleSpec.v4.backstopRule]) :=
  have hrun : Reaches flaky (reassert samplePlan) kernel _
      ((reassert samplePlan).after blindReply 2 kernel).2 :=
    after_reaches (fun _ _ => .inr rfl) 2 (reassert samplePlan) kernel
  .reassert samplePlan_eq hrun

def piledUp (n : Nat) : Kernel :=
  sampleInstalled ++ List.replicate n (.rule sampleSpec.v4.backstopRule)

theorem crash_piledUp (n : Nat) :
    Relation.ReflTransGen (Cut flaky sampleManager.backend) sampleBase (piledUp n) := by
  induction n with
  | zero =>
    rw [piledUp, List.replicate_zero, List.append_nil]
    exact .single cut_install
  | succ n ih =>
    rw [piledUp, List.replicate_succ', ← List.append_assoc]
    exact ih.tail (cut_reassert _)

theorem crash_runner (h : Relation.ReflTransGen (Cut flaky policy) base kernel) :
    Relation.ReflTransGen (Cut (runner iproute2) policy) base kernel := by
  induction h with
  | refl => exact .refl
  | tail _ hcut ih => exact ih.tail (hcut.mono flaky_runner)

theorem sampleBase_swept : Swept sampleBase := by
  intro family
  cases family <;> decide

theorem not_recovers (htidy : Tidy kernel) (h : ¬ Recoverable kernel) : ¬ Recovers policy kernel :=
  fun hrecovers => h ((recovers_iff htidy).mp hrecovers)

/-- One of each, and a second backstop. -/
theorem recovers_after_crash_sample :
    Swept sampleBase ∧
    Relation.ReflTransGen (Cut (runner iproute2) sampleManager.backend) sampleBase (piledUp 1) ∧
    (piledUp 1).countP (Entry.isBackstop .v4) = 2 ∧
    Recovers sampleManager.backend (piledUp 1) := by
  have hcrash := crash_runner (crash_piledUp 1)
  refine ⟨sampleBase_swept, hcrash, by decide +kernel,
    (recovers_after_crash_iff sampleBase_swept hcrash).mpr ⟨fun r hr => ?_, fun family => ?_⟩⟩
  · have hrules : ∀ family ∈ [Family.v4, .v6], ∀ r ∈ (piledUp 1).rulesOf family, ¬ r.Mimics := by
      decide +kernel
    exact hrules r.family (by cases r.family <;> simp) r (Kernel.mem_rulesOf.mpr ⟨hr, rfl⟩)
  · cases family with
    | v4 => decide +kernel
    | v6 => decide +kernel

/-- **Four re-assertions leave five backstops, and that is one too many; a rule into table 2180 is
    enough without any history.** -/
theorem residue_after_crash :
    (Swept sampleBase ∧
      Relation.ReflTransGen (Cut flaky sampleManager.backend) sampleBase (piledUp 4) ∧
      ¬ Recovers sampleManager.backend (piledUp 4)) ∧
    Swept [.rule ⟨.v4, 1000, none, .lookup 2180⟩] ∧
      ¬ Recovers sampleManager.backend [.rule ⟨.v4, 1000, none, .lookup 2180⟩] := by
  have hforeign : Swept [.rule ⟨.v4, 1000, none, .lookup 2180⟩] := by
    intro family
    cases family <;> decide
  refine ⟨⟨sampleBase_swept, crash_piledUp 4, not_recovers ?_ fun h => ?_⟩, hforeign,
    not_recovers (tidy_of_swept hforeign) fun h => ?_⟩
  · exact tidy_of_crash sampleBase_swept (crash_runner (crash_piledUp 4))
  · exact absurd (h.2 .v4).1 (by decide +kernel)
  · exact h.1 ⟨.v4, 1000, none, .lookup 2180⟩ (by simp) (.inr ⟨2180, by decide, rfl, by decide⟩)

/-! ## §7. Machines with nothing of ours. -/

/-- Startup finds nothing, runs no command but its probes, and succeeds: the report, which lists
    every command line issued, is empty. -/
structure PassesOver (policy : LinuxPolicy) (kernel : Kernel) : Prop where
  finds : ∀ outcome t, Reaches working policy.staleCleanup.run kernel (.ret outcome) t →
    outcome = .ok []
  returns : ∃ t, Reaches working policy.reconcile.run kernel (.ret (.ok {})) t
  leaves : ∀ outcome t, Reaches working policy.reconcile.run kernel (.ret outcome) t →
    outcome = .ok {} ∧ t = kernel

theorem reconcile_idle (h : kernel.Clears 0) :
    Safe working (fun _ => True) (fun r t => r = .ok {} ∧ t = kernel)
      policy.reconcile.run kernel := by
  refine Safe.bindExcept staleCleanup_works ?_ (fun _ _ _ h => absurd h.2 (by simp))
  rintro leftovers t - ⟨rfl, hleftovers⟩
  injection hleftovers with hleftovers
  rw [removals_nil_iff.mpr h] at hleftovers
  rw [hleftovers]
  exact ⟨trivial, rfl, rfl⟩

def farRule : Kernel := [.rule ⟨.v4, 118500, none, .lookup 2180⟩]

theorem farRule_swept : Swept farRule := by
  intro family
  cases family <;> decide

end ThisConnect.Policy
