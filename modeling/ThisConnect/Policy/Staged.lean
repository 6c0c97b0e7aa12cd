/-
  ThisConnect.Policy.Staged
  **A PLAN IN PROGRESS IS AN INITIAL SEGMENT OF THE PLAN.**
-/
import ThisConnect.Policy.Kernel

namespace ThisConnect.Policy

open Interaction

/-! ## §1. What the runner can answer. -/

section Answers

variable {listing : Listing} {kernel kernel' : Kernel} {command : Command} {op : IpOp}
  {reply : Except PolicyError CommandOutput}

theorem answers_mutating (hop : readIp command.args = some op)
    (h : runner listing kernel command reply kernel') :
    kernel' = kernel.apply op ∨ kernel' = kernel := by
  cases h with
  | performed _ hop' _ =>
    rw [hop] at hop'
    injection hop' with hop'
    exact .inl (by rw [hop'])
  | ignored _ _ => exact .inr rfl
  | printed _ hop' htext => exact .inr rfl
  | unreadable _ _ => exact .inr rfl

theorem answers_listing {text : String} (hop : readIp command.args = some op)
    (htext : listing.print kernel op = some text)
    (h : runner listing kernel command reply kernel') :
    kernel' = kernel ∧
      ∀ output, reply = .ok output → output.succeeded = true → output.stdout = text := by
  cases h with
  | performed _ hop' hnone =>
    rw [hop] at hop'
    injection hop' with hop'
    rw [← hop', htext] at hnone
    exact absurd hnone (by simp)
  | ignored _ hnone =>
    rw [hnone op hop] at htext
    exact absurd htext (by simp)
  | printed _ hop' htext' =>
    rw [hop] at hop'
    injection hop' with hop'
    rw [← hop', htext] at htext'
    injection htext' with htext'
    refine ⟨rfl, ?_⟩
    intro output houtput _
    injection houtput with houtput
    rw [← houtput]
    exact htext'.symm
  | unreadable _ hfailed =>
    refine ⟨rfl, ?_⟩
    intro output houtput hsucceeded
    rw [hfailed output houtput] at hsucceeded
    exact absurd hsucceeded (by simp)

end Answers

/-! ## §2. What a check concludes. -/

variable {needle : String} {output : CommandOutput} {probe : Command}

theorem judge_present_ok (h : (Check.present probe [needle]).judge output = .ok ()) :
    output.succeeded = true ∧ contains output.stdout needle = true := by
  unfold Check.judge Check.present at h
  cases hs : output.succeeded with
  | false => simp [hs] at h
  | true =>
    cases hc : contains output.stdout needle with
    | false => simp [hs, hc] at h
    | true => exact ⟨rfl, rfl⟩

theorem judge_absent_ok (h : (Check.absent probe [needle]).judge output = .ok ()) :
    output.succeeded = true ∧ contains output.stdout needle = false := by
  unfold Check.judge Check.absent at h
  cases hs : output.succeeded with
  | false => simp [hs] at h
  | true =>
    cases hc : contains output.stdout needle with
    | false => exact ⟨rfl, rfl⟩
    | true => simp [hs, hc] at h

theorem evaluate_safe {listing : Listing} {I : Kernel → Prop} {kernel : Kernel} {check : Check}
    {op : IpOp} {text : String} (hI : I kernel) (hop : readIp check.probe.args = some op)
    (htext : listing.print kernel op = some text) :
    Safe (runner listing) I
      (fun outcome k => k = kernel ∧ (outcome = .ok () →
        ∃ output : CommandOutput, check.judge output = .ok () ∧
          (output.succeeded = true → output.stdout = text)))
      check.evaluate.run kernel := by
  unfold Check.evaluate
  refine Safe.bindExcept
    (Q := fun outcome k => k = kernel ∧ ∀ output, outcome = .ok output →
      output.succeeded = true → output.stdout = text) ?_ ?_ ?_
  · refine Safe.ask hI fun reply k answered => ?_
    obtain ⟨rfl, hprinted⟩ := answers_listing hop htext answered
    exact ⟨hI, rfl, hprinted⟩
  · intro output k hIk hq
    exact ⟨hIk, hq.1, fun hok => ⟨output, hok, hq.2 output rfl⟩⟩
  · intro e k _ hq
    exact ⟨hq.1, by simp⟩

/-! ## §3. One step. -/

structure Step.Lawful (listing : Listing) (Ok : Kernel → Prop) (step : Step) (entry : Entry) :
    Prop where
  applies : ∃ op, readIp step.apply.args = some op ∧ ∀ k : Kernel, k.apply op = k ++ [entry]
  undoes : ∃ op, readIp step.undo.args = some op ∧
    ∀ k : Kernel, Ok k → entry ∉ k → Kernel.apply (k ++ [entry]) op = k ∧ k.apply op = k
  checks : ∃ probe op needle, step.afterApply = some (Check.present probe [needle]) ∧
    step.afterUndo = some (Check.absent probe [needle]) ∧ readIp probe.args = some op ∧
    ∀ k, Ok k → ∃ text, listing.print k op = some text ∧
      (contains text needle = true ↔ entry ∈ k)

section OneStep

variable {listing : Listing} {Ok I : Kernel → Prop} {step : Step} {entry : Entry} {kernel : Kernel}

theorem installStep_safe (hlaw : step.Lawful listing Ok entry) (hok : Ok kernel)
    (hok' : Ok (kernel ++ [entry])) (hnew : entry ∉ kernel) (hI : I kernel)
    (hI' : I (kernel ++ [entry])) :
    Safe (runner listing) I
      (fun outcome k => (k = kernel ++ [entry] ∨ k = kernel) ∧
        (outcome = .ok () → k = kernel ++ [entry]))
      (installStep step).run kernel := by
  obtain ⟨op, hop, happly⟩ := hlaw.applies
  obtain ⟨probe, showOp, needle, hafter, -, hshow, hdecides⟩ := hlaw.checks
  unfold installStep
  refine Safe.bindExcept (Q := fun _ k => k = kernel ++ [entry] ∨ k = kernel) ?_ ?_ ?_
  · refine Safe.ask hI fun reply k answered => ?_
    have hk := answers_mutating hop answered
    rw [happly] at hk
    rcases hk with rfl | rfl
    · exact ⟨hI', .inl rfl⟩
    · exact ⟨hI, .inr rfl⟩
  · intro output k hIk hk
    have hokk : Ok k := by
      rcases hk with rfl | rfl
      · exact hok'
      · exact hok
    by_cases hs : output.succeeded = true
    · simp only [hs, Bool.not_true, Bool.false_eq_true, if_false, hafter]
      obtain ⟨text, htext, hmem⟩ := hdecides k hokk
      refine Safe.mono (fun _ h => h) ?_ (evaluate_safe hIk hshow htext)
      rintro outcome k' - ⟨rfl, hjudge⟩
      refine ⟨hk, fun houtcome => ?_⟩
      obtain ⟨output', hj, hstdout⟩ := hjudge houtcome
      obtain ⟨hsucceeded, hcontains⟩ := judge_present_ok hj
      rw [hstdout hsucceeded] at hcontains
      -- the entry was read back, so the command did take effect
      rcases hk with rfl | rfl
      · rfl
      · exact absurd (hmem.mp hcontains) hnew
    · simp only [hs, Bool.not_false, if_true]
      exact ⟨hIk, hk, by simp⟩
  · intro e k _ hk
    exact ⟨hk, by simp⟩

theorem undoStep_safe (hlaw : step.Lawful listing Ok entry) (hok : Ok kernel)
    (hok' : Ok (kernel ++ [entry])) (hnew : entry ∉ kernel) (hI : I kernel)
    (hI' : I (kernel ++ [entry])) {start : Kernel}
    (hstart : start = kernel ++ [entry] ∨ start = kernel) :
    Safe (runner listing) I
      (fun outcome k => (k = kernel ++ [entry] ∨ k = kernel) ∧ (outcome = .ok () → k = kernel))
      (undoStep step).run start := by
  obtain ⟨op, hop, hundo⟩ := hlaw.undoes
  obtain ⟨probe, showOp, needle, -, hafter, hshow, hdecides⟩ := hlaw.checks
  have hIstart : I start := by
    rcases hstart with rfl | rfl
    · exact hI'
    · exact hI
  unfold undoStep
  refine Safe.bindExcept (Q := fun _ k => k = kernel ++ [entry] ∨ k = kernel) ?_ ?_ ?_
  · refine Safe.ask hIstart fun reply k answered => ?_
    have hk := answers_mutating hop answered
    have hcases : k = kernel ++ [entry] ∨ k = kernel := by
      obtain ⟨hremoved, hnothing⟩ := hundo kernel hok hnew
      rcases hstart with rfl | rfl
      · rw [hremoved] at hk
        exact hk.symm
      · rw [hnothing] at hk
        exact .inr (hk.elim id id)
    rcases hcases with rfl | rfl
    · exact ⟨hI', .inl rfl⟩
    · exact ⟨hI, .inr rfl⟩
  · intro output k hIk hk
    have hokk : Ok k := by
      rcases hk with rfl | rfl
      · exact hok'
      · exact hok
    simp only [hafter]
    obtain ⟨text, htext, hmem⟩ := hdecides k hokk
    refine Safe.mono (fun _ h => h) ?_ (evaluate_safe hIk hshow htext)
    rintro outcome k' - ⟨rfl, hjudge⟩
    refine ⟨hk, fun houtcome => ?_⟩
    obtain ⟨output', hj, hstdout⟩ := hjudge houtcome
    obtain ⟨hsucceeded, hcontains⟩ := judge_absent_ok hj
    rw [hstdout hsucceeded] at hcontains
    rcases hk with rfl | rfl
    · have hpresent := hmem.mpr (by simp)
      rw [hcontains] at hpresent
      exact absurd hpresent (by simp)
    · rfl
  · intro e k _ hk
    exact ⟨hk, by simp⟩

end OneStep

/-! ## §4. Whole runs. -/

structure Staged (listing : Listing) (Ok : Kernel → Prop) (base : Kernel) (steps : List Step)
    (entries : List Entry) : Prop where
  lawful : List.Forall₂ (fun step entry => step.Lawful listing Ok entry) steps entries
  admissible : ∀ n, Ok (base ++ entries.take n)
  fresh : ∀ (n : Nat) (entry : Entry), entries[n]? = some entry → entry ∉ base ++ entries.take n

/-- `k` holds the first `n` entries on top of `base`. -/
def Standing (base : Kernel) (entries : List Entry) (n : Nat) (k : Kernel) : Prop :=
  k = base ++ entries.take n

def Underway (base : Kernel) (entries : List Entry) (k : Kernel) : Prop :=
  ∃ n, Standing base entries n k

section WholeRun

variable {listing : Listing} {Ok : Kernel → Prop} {base : Kernel} {steps : List Step}
  {entries : List Entry}

theorem Staged.length_eq (h : Staged listing Ok base steps entries) :
    steps.length = entries.length :=
  h.lawful.length_eq

variable {n : Nat} {plan : Plan}

theorem Staged.step_at (h : Staged listing Ok base steps entries) (hn : n < steps.length) :
    ∃ entry, entries[n]? = some entry ∧ (steps[n]).Lawful listing Ok entry ∧
      base ++ entries.take (n + 1) = (base ++ entries.take n) ++ [entry] := by
  have hn' : n < entries.length := h.length_eq ▸ hn
  refine ⟨entries[n], List.getElem?_eq_getElem hn', h.lawful.get hn hn', ?_⟩
  rw [List.take_succ_eq_append_getElem hn', List.append_assoc]

theorem Staged.entry_of_mem (h : Staged listing Ok base steps entries) {step : Step}
    (hstep : step ∈ steps) : ∃ entry ∈ entries, step.Lawful listing Ok entry := by
  obtain ⟨n, hn, rfl⟩ := List.mem_iff_getElem.mp hstep
  obtain ⟨entry, hentry, hlaw, -⟩ := h.step_at hn
  exact ⟨entry, List.mem_of_getElem? hentry, hlaw⟩

theorem undoAll_safe (h : Staged listing Ok base steps entries) (n : Nat) :
    ∀ {kernel : Kernel}, n ≤ steps.length →
      (Standing base entries n kernel ∨ ∃ m, n = m + 1 ∧ Standing base entries m kernel) →
      Safe (runner listing) (Underway base entries)
        (fun outcome k => outcome = .ok () → Standing base entries 0 k)
        (undoAll (steps.take n).reverse).run kernel := by
  induction n with
  | zero =>
    intro kernel _ hstart
    have hbottom : Standing base entries 0 kernel := by
      rcases hstart with hstart | ⟨m, hm, -⟩
      · exact hstart
      · exact absurd hm (by omega)
    exact ⟨⟨0, hbottom⟩, fun _ => hbottom⟩
  | succ n ih =>
    intro kernel hn hstart
    obtain ⟨entry, hentry, hlaw, hnext⟩ := h.step_at (n := n) (by omega)
    have hrev : (steps.take (n + 1)).reverse = steps[n] :: (steps.take n).reverse := by
      rw [List.take_succ_eq_append_getElem (by omega)]
      simp
    have hcases : kernel = (base ++ entries.take n) ++ [entry] ∨
        kernel = base ++ entries.take n := by
      rcases hstart with hstart | ⟨m, hm, hstart⟩
      · exact .inl (hstart.trans hnext)
      · obtain rfl : n = m := by omega
        exact .inr hstart
    rw [hrev]
    unfold undoAll
    refine Safe.bindExcept
      (undoStep_safe hlaw (h.admissible n) (hnext ▸ h.admissible (n + 1))
        (h.fresh n entry hentry) ⟨n, rfl⟩ ⟨n + 1, hnext.symm⟩ hcases) ?_ ?_
    · intro _ k _ hq
      exact ih (by omega) (.inl (hq.2 rfl))
    · intro e k _ _ herror
      exact absurd herror (by simp)

/-- The result of an installation that started from nothing. -/
def Settled (base : Kernel) (entries : List Entry) (outcome : Except PolicyError Unit)
    (k : Kernel) : Prop :=
  (outcome = .ok () → Standing base entries entries.length k) ∧
    ∀ error, outcome = .error error → (∀ cause undoing, error ≠ .rollbackFailed cause undoing) →
      Standing base entries 0 k

theorem rollback_safe (h : Staged listing Ok base plan.steps entries) (hn : n < plan.steps.length)
    {kernel : Kernel} {error : PolicyError}
    (hstart : Standing base entries (n + 1) kernel ∨ Standing base entries n kernel) :
    Safe (runner listing) (Underway base entries) (Settled base entries)
      (rollback (plan.take (n + 1)) error).run kernel := by
  unfold rollback
  refine Safe.bind (fun outcome k hI hq => ?_)
    (undoAll_safe h (n + 1) (by omega) (hstart.imp id fun hs => ⟨n, rfl, hs⟩))
  cases outcome with
  | ok _ => exact ⟨hI, by simp, fun _ _ _ => hq rfl⟩
  | error undoing =>
    refine ⟨hI, by simp, ?_⟩
    intro error' herror hother
    injection herror with herror
    exact absurd herror.symm (hother _ _)

theorem installFrom_safe (h : Staged listing Ok base plan.steps entries) (rest : List Step) :
    ∀ {n : Nat} {kernel : Kernel}, plan.steps.drop n = rest → Standing base entries n kernel →
      n ≤ plan.steps.length →
      Safe (runner listing) (Underway base entries) (Settled base entries)
        (installFrom plan n rest).run kernel := by
  induction rest with
  | nil =>
    intro n kernel hrest hstart hn
    have hlen : n = entries.length := by
      have := List.drop_eq_nil_iff.mp hrest
      have := h.length_eq
      omega
    exact ⟨⟨n, hstart⟩, fun _ => hlen ▸ hstart, by simp⟩
  | cons step rest ih =>
    intro n kernel hrest hstart hn
    have hlt : n < plan.steps.length := by
      by_contra hge
      rw [List.drop_eq_nil_iff.mpr (by omega)] at hrest
      exact absurd hrest (by simp)
    rw [List.drop_eq_getElem_cons hlt] at hrest
    injection hrest with hstep hrest
    obtain ⟨entry, hentry, hlaw, hnext⟩ := h.step_at hlt
    unfold Standing at hstart
    subst hstart hstep
    unfold installFrom
    refine Safe.bind (fun outcome k hI hq => ?_)
      (installStep_safe hlaw (h.admissible n) (hnext ▸ h.admissible (n + 1))
        (h.fresh n entry hentry) ⟨n, rfl⟩ ⟨n + 1, hnext.symm⟩)
    cases outcome with
    | ok _ => exact ih hrest ((hq.2 rfl).trans hnext.symm) (by omega)
    | error error => exact rollback_safe h hlt (hq.1.imp (·.trans hnext.symm) id)

theorem install_safe (h : Staged listing Ok base plan.steps entries) :
    Safe (runner listing) (Underway base entries) (Settled base entries) (install plan).run base :=
  installFrom_safe h plan.steps rfl (by simp [Standing]) (Nat.zero_le _)

theorem runBestEffort_safe {I : Kernel → Prop} (hI : I base) (commands : List Command)
    (hidle : ∀ command ∈ commands, ∃ op, readIp command.args = some op ∧ base.apply op = base) :
    Safe (runner listing) I (fun _ k => k = base) (runBestEffort commands).run base := by
  induction commands with
  | nil => exact ⟨hI, rfl⟩
  | cons command rest ih =>
    obtain ⟨op, hop, hnothing⟩ := hidle command (by simp)
    unfold runBestEffort
    refine Safe.bindExcept (Q := fun _ k => k = base) ?_ ?_ (fun _ _ _ h => h)
    · refine Safe.ask hI fun reply k answered => ?_
      have hk := answers_mutating hop answered
      rw [hnothing, or_self] at hk
      exact ⟨hk ▸ hI, hk⟩
    · rintro - k - rfl
      refine Safe.bindExcept (ih fun c hc => hidle c (by simp [hc])) ?_ (fun _ _ _ h => h)
      intro _ k' hIk hk
      exact ⟨hIk, hk⟩

end WholeRun

end ThisConnect.Policy
