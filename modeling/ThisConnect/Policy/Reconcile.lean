/-
  ThisConnect.Policy.Reconcile
  **STARTUP RECONCILIATION.**

  Main results:
    • `backstopMark_infix`, `lookupMark_infix` — whose lines the search finds,
    • `pass_works` — a pass removes one instance of each rule, and the routes.
-/
import ThisConnect.Policy.Listing

namespace ThisConnect.Policy

open Net Text Interaction

/-! ## §1. The passes. -/

def maxPasses : Nat := 4

structure ReconcileReport where
  passes : Nat := 0
  removed : List String := []
  deriving DecidableEq, Repr

def isAbsentTable (stderr : String) : Bool := contains stderr "FIB table does not exist"

namespace LinuxPolicy

variable (policy : LinuxPolicy)

def read (command : Command) : Script String := do
  let output ← run command
  if !output.succeeded then
    if isAbsentTable output.stderr then pure ""
    else
      settle (.error (.commandFailed "policy state enumeration" command.display
        (String.ofList ((lines output.stderr.toList).headD []))))
  else pure output.stdout

def staleForFamily (family : Family) : Script (List Command) := do
  let lookup := "lookup " ++ policyTable
  let backstop := backstopPriority ++ ":"
  let rules ← read (← settle (policy.ruleShow family))
  let table ← read (← settle (policy.tableShow family))
  let backstops ←
    if contains rules backstop then settle ((policy.backstopFlush family).map ([·])) else pure []
  let lookups ←
    if contains rules lookup then settle ((policy.ruleFlush family).map ([·])) else pure []
  let routes ←
    if trim table.toList ≠ [] then settle ((policy.tableFlush family).map ([·])) else pure []
  pure (backstops ++ lookups ++ routes)

def staleCleanup : Script (List Command) := do
  let v4 ← policy.staleForFamily .v4
  let v6 ← policy.staleForFamily .v6
  pure (v4 ++ v6)

def reconcilePasses : Nat → ReconcileReport → Script ReconcileReport
  | 0, report => do
      let leftovers ← policy.staleCleanup
      if leftovers.isEmpty then pure { report with passes := maxPasses }
      else settle (.error (.residueRemains maxPasses))
  | left + 1, report => do
      let leftovers ← policy.staleCleanup
      if leftovers.isEmpty then pure { report with passes := maxPasses - (left + 1) }
      else do
        let removed ← runBestEffort leftovers
        reconcilePasses left { report with removed := report.removed ++ removed }

def reconcile : Script ReconcileReport := policy.reconcilePasses maxPasses {}

end LinuxPolicy

/-! ## §2. What is ours. -/

/-- A rule with the backstop's priority. -/
def Entry.isBackstop (family : Family) : Entry → Bool
  | .rule r => decide (r.family = family) && r.priority == 18500
  | .route _ => false

/-- A rule into our table. -/
def Entry.isLookup (family : Family) : Entry → Bool
  | .rule r => decide (r.family = family) && r.action == .lookup 218
  | .route _ => false

/-- A route in our table. -/
def Entry.isRoute (family : Family) : Entry → Bool
  | .rule _ => false
  | .route r => decide (r.family = family) && decide (r.table = 218)

/-! ## §3. What the listing shows. -/

section Marks

variable {word x y : List Char}

theorem not_infix_group (hword : ':' ∉ word) (hx : ':' ∉ x) (hlen : x.length < word.length)
    (hy : ¬ word ++ [':'] <:+: y) : ¬ word ++ [':'] <:+: x ++ ':' :: y := by
  intro h
  rcases infix_word hx hword h with ⟨hsuffix, -⟩ | h
  · exact absurd hsuffix.length_le (by omega)
  · exact hy h

theorem colon_not_mem_toDigits {radix : Nat} (h1 : 1 < radix) (hr : radix ≤ 16) (n : Nat) :
    ':' ∉ Nat.toDigits radix n := by
  intro h
  have hsome := Numeral.toDigit_isSome_of_mem_toDigits h1 hr n ':' h
  have hnone : Numeral.toDigit radix ':' = none := by
    simp [Numeral.toDigit, Char.isLower, Char.isUpper]
  simp [hnone] at hsome

theorem length_group (s : UInt16) : (Nat.toDigits 16 s.toNat).length ≤ 4 :=
  (Nat.length_toDigits_le_iff (by decide) (by decide)).mpr s.toNat_lt

theorem not_infix_groups (hword : ':' ∉ word) (hlen : 4 < word.length) (gs : List UInt16)
    (hy : ¬ word ++ [':'] <:+: y) : ¬ word ++ [':'] <:+: fmtSubslice gs ++ ':' :: y := by
  have hcolon := fun s : UInt16 => colon_not_mem_toDigits (by decide : 1 < 16) (by decide) s.toNat
  fun_induction fmtSubslice gs with
  | case1 => exact not_infix_group hword (by simp) (by simp; omega) hy
  | case2 s => exact not_infix_group hword (hcolon s) (by have := length_group s; omega) hy
  | case3 s rest _ ih =>
    rw [List.append_assoc, List.cons_append]
    exact not_infix_group hword (hcolon s) (by have := length_group s; omega) ih

theorem not_infix_lastGroups (hword : ':' ∉ word) (hlen : 4 < word.length) (gs : List UInt16) :
    ¬ word ++ [':'] <:+: fmtSubslice gs := by
  have hcolon := fun s : UInt16 => colon_not_mem_toDigits (by decide : 1 < 16) (by decide) s.toNat
  fun_induction fmtSubslice gs with
  | case1 => simp
  | case2 s => exact not_infix_of_sep (hcolon s)
  | case3 s rest _ ih =>
    exact not_infix_group hword (hcolon s) (by have := length_group s; omega) ih

theorem colon_not_mem_v4 (ip : Ipv4Addr) : ':' ∉ ip.display := by
  have hcolon := fun n => colon_not_mem_toDigits (by decide : 1 < 10) (by decide) n
  simp [Ipv4Addr.display, hcolon]

theorem not_infix_display (hword : ':' ∉ word) (hlen : 4 < word.length) (ip : IpAddr) :
    ¬ word ++ [':'] <:+: ip.display := by
  cases ip with
  | v4 ip => exact not_infix_of_sep (colon_not_mem_v4 ip)
  | v6 ip =>
    rw [IpAddr.display, Ipv6Addr.display]
    split
    · next v4 _ =>
      have hv4 : ¬ word ++ [':'] <:+: v4.display := not_infix_of_sep (colon_not_mem_v4 v4)
      have hffff := not_infix_group (x := "ffff".toList) hword (by decide) hlen hv4
      have hsecond := not_infix_group (x := []) hword (by simp) (by simp; omega) hffff
      exact not_infix_group (x := []) hword (by simp) (by simp; omega) hsecond
    · dsimp only
      split
      · refine not_infix_groups hword hlen _ ?_
        exact not_infix_group (x := []) hword (by simp) (by simp; omega)
          (not_infix_lastGroups hword hlen _)
      · exact not_infix_lastGroups hword hlen _

theorem not_infix_srcText (hword : ':' ∉ word) (hslash : '/' ∉ word) (hlen : 4 < word.length)
    (family : Family) (src : Option IpPrefix) : ¬ word ++ [':'] <:+: srcText family src := by
  cases src with
  | none =>
    have hall : ':' ∉ "all".toList := by decide
    exact not_infix_of_sep hall
  | some p =>
    show ¬ word ++ [':'] <:+: prefixText family p
    unfold prefixText
    split
    · rw [List.append_nil]
      exact not_infix_display hword hlen p.addr
    · intro h
      rcases infix_append_sep (by simp [hslash]) h with h | h
      · exact not_infix_display hword hlen p.addr h
      · exact not_infix_of_sep (colon_not_mem_toDigits (by decide) (by decide) _) h

end Marks

theorem colon_not_mem_actionText (action : RuleAction) : ':' ∉ actionText action := by
  cases action with
  | unreachable => decide
  | lookup table =>
    have hname : ':' ∉ tableName table := by
      unfold tableName
      split
      · decide
      · split
        · decide
        · split
          · decide
          · exact colon_not_mem_toDigits (by decide) (by decide) table
    show ':' ∉ "lookup".toList ++ ' ' :: tableName table
    simp [hname]

theorem backstopMark_infix (r : IpRule) :
    (backstopPriority ++ ":").toList <:+: ruleLine r ↔
      "18500".toList <:+ Nat.toDigits 10 r.priority := by
  have hmark : (backstopPriority ++ ":").toList = "18500".toList ++ [':'] := by decide
  rw [hmark]
  constructor
  · intro h
    have hline : ruleLine r = Nat.toDigits 10 r.priority ++ ':' :: ("\tfrom".toList ++ ' ' ::
        (srcText r.family r.src ++ ' ' :: actionText r.action)) := by
      simp [ruleLine]
    rw [hline] at h
    rcases infix_word (colon_not_mem_toDigits (by decide) (by decide) _) (by decide) h with
      ⟨hsuffix, -⟩ | h
    · exact hsuffix
    · rcases infix_append_sep (by decide) h with h | h
      · exact absurd h (by decide)
      · rcases infix_append_sep (by decide) h with h | h
        · exact absurd h (not_infix_srcText (by decide) (by decide) (by decide) _ _)
        · exact absurd h (not_infix_of_sep (colon_not_mem_actionText r.action))
  · rintro ⟨leading, hdigits⟩
    refine ⟨leading, "\tfrom".toList ++ ' ' ::
      (srcText r.family r.src ++ ' ' :: actionText r.action), ?_⟩
    simp [ruleLine, ← hdigits]

theorem table_prefix_iff (table : Nat) :
    "218".toList <+: tableName table ↔ "218".toList <+: Nat.toDigits 10 table := by
  unfold tableName
  split
  · next h => rw [h]; decide
  · split
    · next h => rw [h]; decide
    · split
      · next h => rw [h]; decide
      · rfl

theorem lookupMark_infix (r : IpRule) :
    ("lookup " ++ policyTable).toList <:+: ruleLine r ↔
      ∃ table, r.action = .lookup table ∧ "218".toList <+: Nat.toDigits 10 table := by
  have hmark : ("lookup " ++ policyTable).toList = "lookup".toList ++ ' ' :: "218".toList := by
    decide
  rw [hmark]
  constructor
  · intro h
    have hfirst : ' ' ∉ Nat.toDigits 10 r.priority ++ ":\tfrom".toList := by
      have := @not_mem_digits ' ' (by decide) r.priority
      simp [this]
    unfold ruleLine at h
    rcases infix_word hfirst (by decide) h with ⟨hsuffix, -⟩ | h
    · have hfrom : ":\tfrom".toList <:+ Nat.toDigits 10 r.priority ++ ":\tfrom".toList :=
        List.suffix_append _ _
      exact absurd (List.suffix_of_suffix_length_le hsuffix hfrom (by decide)) (by decide)
    rcases infix_word (blank_not_mem_srcText r.family r.src) (by decide) h with ⟨hsuffix, -⟩ | h
    · have hk : 'k' ∈ srcText r.family r.src := hsuffix.subset (by decide)
      exact absurd hk
        (not_mem_srcText (by decide) (by decide) (by decide) (by decide) r.family r.src)
    cases haction : r.action with
    | unreachable =>
      rw [haction] at h
      exact absurd h (not_infix_of_sep (by decide))
    | lookup table =>
      rw [haction] at h
      rcases infix_word (by decide) (by decide) h with ⟨-, hpre⟩ | h
      · exact ⟨table, rfl, (table_prefix_iff table).mp hpre⟩
      · exact absurd h (not_infix_of_sep (blank_not_mem_tableName table))
  · rintro ⟨table, haction, hpre⟩
    have hname := (table_prefix_iff table).mpr hpre
    have htext : "lookup".toList ++ ' ' :: "218".toList <+: actionText r.action := by
      rw [haction]
      exact (List.prefix_append_right_inj _).mpr (List.cons_prefix_cons.mpr ⟨rfl, hname⟩)
    have hline : actionText r.action <:+ ruleLine r :=
      (List.suffix_cons _ _).trans ((List.suffix_append _ _).trans
        ((List.suffix_cons _ _).trans (List.suffix_append _ _)))
    exact htext.isInfix.trans hline.isInfix

/-! ## §4. Commands and probes that work. -/

inductive Works : Kernel → Command → Except PolicyError CommandOutput → Kernel → Prop where
  | performed {kernel : Kernel} {command : Command} {op : IpOp} (output : CommandOutput)
      (hop : readIp command.args = some op) (hmutates : iproute2.print kernel op = none) :
      Works kernel command (.ok output) (kernel.apply op)
  | printed {kernel : Kernel} {command : Command} {op : IpOp} {text : String} (stderr : String)
      (hop : readIp command.args = some op) (htext : iproute2.print kernel op = some text) :
      Works kernel command (.ok ⟨some 0, text, stderr⟩) kernel
  | absent {kernel : Kernel} {command : Command} {family : Family} {table : Nat}
      {output : CommandOutput} (hop : readIp command.args = some (.showTable family table))
      (hempty : kernel.tableOf family table = []) (hfailed : output.succeeded = false)
      (hstderr : isAbsentTable output.stderr = true) : Works kernel command (.ok output) kernel
  | refused {kernel : Kernel} {command : Command} (output : CommandOutput)
      (hop : readIp command.args = none) : Works kernel command (.ok output) kernel

/-- As an `Interaction` environment. -/
def working : Env Command (fun _ => Except PolicyError CommandOutput) Kernel :=
  fun kernel command reply kernel' => Works kernel command reply kernel'

variable {policy : LinuxPolicy} {kernel : Kernel} {command : Command}

theorem works_mutating {op : IpOp} {reply : Except PolicyError CommandOutput} {k : Kernel}
    (hop : readIp command.args = some op) (hmutates : iproute2.print kernel op = none)
    (h : Works kernel command reply k) : reply.isOk = true ∧ k = kernel.apply op := by
  cases h with
  | performed output hop' _ =>
    rw [hop] at hop'
    injection hop' with hop'
    exact ⟨rfl, by rw [hop']⟩
  | printed stderr hop' htext =>
    rw [hop] at hop'
    injection hop' with hop'
    rw [← hop', hmutates] at htext
    cases htext
  | absent hop' hempty hfailed hstderr =>
    rw [hop] at hop'
    injection hop' with hop'
    rw [hop'] at hmutates
    cases hmutates
  | refused output hop' =>
    rw [hop] at hop'
    cases hop'

theorem read_works {op : IpOp} {text : String} (hop : readIp command.args = some op)
    (htext : iproute2.print kernel op = some text) :
    Safe working (fun _ => True) (fun r t => t = kernel ∧ r = .ok text)
      (LinuxPolicy.read command).run kernel := by
  refine ⟨trivial, fun reply k h => ?_⟩
  cases h with
  | performed output hop' hmutates =>
    rw [hop] at hop'
    injection hop' with hop'
    rw [← hop', htext] at hmutates
    cases hmutates
  | @printed _ text' stderr hop' htext' =>
    rw [hop] at hop'
    injection hop' with hop'
    rw [← hop', htext] at htext'
    injection htext' with htext'
    exact ⟨trivial, rfl, by rw [htext']⟩
  | @absent family table output hop' hempty hfailed hstderr =>
    rw [hop] at hop'
    injection hop' with hop'
    rw [hop'] at htext
    have hnothing : text = "" := by
      injection htext with htext
      rw [← htext, hempty]
      rfl
    rw [hnothing]
    simp only [Prog.bind, ExceptT.bindCont, hfailed, hstderr, Bool.not_false, if_true]
    exact ⟨trivial, rfl, rfl⟩
  | refused output hop' =>
    rw [hop] at hop'
    cases hop'

/-! ## §5. One enumeration. -/

namespace LinuxPolicy

variable (policy) (kernel)

theorem ruleShow_eq (family : Family) :
    policy.ruleShow family = .ok ⟨policy.ip, [family.ipFlag, "rule", "show"]⟩ := by
  cases family <;> rfl

theorem tableShow_eq (family : Family) : policy.tableShow family =
    .ok ⟨policy.ip, [family.ipFlag, "route", "show", "table", "218"]⟩ := by
  cases family <;> rfl

theorem ruleFlush_eq (family : Family) : policy.ruleFlush family =
    .ok ⟨policy.ip, [family.ipFlag, "rule", "del", "lookup", "218"]⟩ := by
  cases family <;> rfl

theorem backstopFlush_eq (family : Family) : policy.backstopFlush family =
    .ok ⟨policy.ip, [family.ipFlag, "rule", "del", "priority", "18500"]⟩ := by
  cases family <;> rfl

theorem tableFlush_eq (family : Family) : policy.tableFlush family =
    .ok ⟨policy.ip, [family.ipFlag, "route", "flush", "table", "218"]⟩ := by
  cases family <;> rfl

end LinuxPolicy

/-- What the family's listings show. -/
def Kernel.shows (kernel : Kernel) (family : Family) : Bool × Bool × Bool :=
  (contains (iproute2.rules (kernel.rulesOf family)) (backstopPriority ++ ":"),
    contains (iproute2.rules (kernel.rulesOf family)) ("lookup " ++ policyTable),
    decide (trim (iproute2.table (kernel.tableOf family 218)).toList ≠ []))

def LinuxPolicy.removals (policy : LinuxPolicy) (family : Family) :
    Bool × Bool × Bool → List Command := fun (backstop, lookup, routes) =>
  (if backstop then [⟨policy.ip, [family.ipFlag, "rule", "del", "priority", "18500"]⟩] else []) ++
  (if lookup then [⟨policy.ip, [family.ipFlag, "rule", "del", "lookup", "218"]⟩] else []) ++
  (if routes then [⟨policy.ip, [family.ipFlag, "route", "flush", "table", "218"]⟩] else [])

theorem settle_ok_bind {α β : Type} (a : α) (f : α → Script β) :
    (settle (.ok a) >>= f) = f a := rfl

theorem staleForFamily_works (family : Family) :
    Safe working (fun _ => True)
      (fun r t => t = kernel ∧ r = .ok (policy.removals family (kernel.shows family)))
      (policy.staleForFamily family).run kernel := by
  unfold LinuxPolicy.staleForFamily
  rw [policy.ruleShow_eq, policy.tableShow_eq, policy.backstopFlush_eq, policy.ruleFlush_eq,
    policy.tableFlush_eq]
  simp only [settle_ok_bind]
  refine Safe.bindExcept (read_works (readIp_ruleShow family (policy.ruleShow_eq family)) rfl) ?_
    (fun _ _ _ h => absurd h.2 (by simp))
  rintro rules t - ⟨rfl, hrules⟩
  refine Safe.bindExcept (read_works (readIp_tableShow family (policy.tableShow_eq family)) rfl) ?_
    (fun _ _ _ h => absurd h.2 (by simp))
  rintro table t - ⟨rfl, htable⟩
  injection hrules with hrules
  injection htable with htable
  subst hrules htable
  unfold Kernel.shows LinuxPolicy.removals
  dsimp only
  generalize contains (iproute2.rules (t.rulesOf family)) (backstopPriority ++ ":") = backstop
  generalize contains (iproute2.rules (t.rulesOf family)) ("lookup " ++ policyTable) = lookup
  generalize trim (iproute2.table (t.tableOf family 218)).toList = routes
  cases backstop <;> cases lookup <;> cases routes <;> exact ⟨trivial, rfl, rfl⟩

theorem staleCleanup_works :
    Safe working (fun _ => True)
      (fun r t => t = kernel ∧ r = .ok (policy.removals .v4 (kernel.shows .v4) ++
        policy.removals .v6 (kernel.shows .v6))) policy.staleCleanup.run kernel := by
  refine Safe.bindExcept (staleForFamily_works .v4) ?_ (fun _ _ _ h => absurd h.2 (by simp))
  rintro v4 t - ⟨rfl, hv4⟩
  refine Safe.bindExcept (staleForFamily_works .v6) ?_ (fun _ _ _ h => absurd h.2 (by simp))
  rintro v6 t - ⟨rfl, hv6⟩
  injection hv4 with hv4
  injection hv6 with hv6
  subst hv4 hv6
  exact ⟨trivial, rfl, rfl⟩

theorem shows_backstop_iff (family : Family) : (kernel.shows family).1 = true ↔
    ∃ r, Entry.rule r ∈ kernel ∧ r.family = family ∧
      "18500".toList <:+ Nat.toDigits 10 r.priority := by
  unfold Kernel.shows
  rw [contains_rules (by decide) (by decide)]
  simp only [Kernel.mem_rulesOf, backstopMark_infix, and_assoc]

theorem shows_lookup_iff (family : Family) : (kernel.shows family).2.1 = true ↔
    ∃ r, Entry.rule r ∈ kernel ∧ r.family = family ∧
      ∃ table, r.action = .lookup table ∧ "218".toList <+: Nat.toDigits 10 table := by
  unfold Kernel.shows
  rw [contains_rules (by decide) (by decide)]
  simp only [Kernel.mem_rulesOf, lookupMark_infix, and_assoc]

theorem trim_ne_nil {s : List Char} {c : Char} (hmem : c ∈ s) (hc : isWhitespace c = false) :
    trim s ≠ [] := by
  intro htrim
  unfold trim at htrim
  rw [List.rdropWhile_eq_nil_iff] at htrim
  cases hstart : trimStart s with
  | nil =>
    rw [trimStart, List.dropWhile_eq_nil_iff] at hstart
    rw [hstart c hmem] at hc
    cases hc
  | cons d rest =>
    have hd := trimStart_head hstart
    rw [htrim d (by rw [hstart]; simp)] at hd
    cases hd

theorem shows_routes_iff (family : Family) : (kernel.shows family).2.2 = true ↔
    ∃ entry ∈ kernel, entry.isRoute family = true := by
  have hshown : (kernel.shows family).2.2 = true ↔ kernel.tableOf family 218 ≠ [] := by
    unfold Kernel.shows
    rw [decide_eq_true_eq]
    cases kernel.tableOf family 218 with
    | nil => decide
    | cons r rest =>
      have hm : 'm' ∈ (iproute2.table (r :: rest)).toList := by
        simp [iproute2, unlines, routeLine, optionText]
      exact ⟨fun _ => by simp, fun _ => trim_ne_nil hm (by decide)⟩
  rw [hshown]
  constructor
  · intro hne
    obtain ⟨r, hr⟩ := List.exists_mem_of_ne_nil _ hne
    obtain ⟨hmem, hfamily, htable⟩ := Kernel.mem_tableOf.mp hr
    exact ⟨.route r, hmem, by simp [Entry.isRoute, hfamily, htable]⟩
  · rintro ⟨entry, hmem, hroute⟩
    cases entry with
    | rule r => cases hroute
    | route r =>
      have hroute : r.family = family ∧ r.table = 218 := by simpa [Entry.isRoute] using hroute
      exact List.ne_nil_of_mem (Kernel.mem_tableOf.mpr ⟨hmem, hroute⟩)

/-! ## §6. One pass. -/

def Kernel.sweep (kernel : Kernel) (family : Family) : Kernel :=
  ((kernel.eraseP (Entry.isBackstop family)).eraseP (Entry.isLookup family)).filter
    fun entry => !entry.isRoute family

def Command.effect (kernel : Kernel) (command : Command) : Kernel :=
  match readIp command.args with
  | some op => kernel.apply op
  | none => kernel

def Command.Removes (command : Command) : Prop :=
  ∃ op, readIp command.args = some op ∧ ∀ kernel, iproute2.print kernel op = none

theorem runBestEffort_works (commands : List Command) (h : ∀ command ∈ commands, command.Removes) :
    ∀ kernel, Safe working (fun _ => True)
      (fun r t => r.isOk = true ∧ t = commands.foldl Command.effect kernel)
      (runBestEffort commands).run kernel := by
  induction commands with
  | nil => intro kernel; exact ⟨trivial, rfl, rfl⟩
  | cons command rest ih =>
    intro kernel
    obtain ⟨op, hop, hmutates⟩ := h command (by simp)
    refine Safe.bindExcept (Q := fun r t => r.isOk = true ∧ t = command.effect kernel)
      ⟨trivial, fun reply k hworks => ⟨trivial, ?_⟩⟩ ?_
        (fun _ _ _ h => absurd h.1 (by simp [Except.isOk, Except.toBool]))
    · obtain ⟨hok, hk⟩ := works_mutating hop (hmutates kernel) hworks
      exact ⟨hok, by rw [hk, Command.effect, hop]⟩
    · rintro - t - ⟨-, rfl⟩
      refine Safe.bindExcept (ih (fun c hc => h c (by simp [hc])) _) ?_
        (fun _ _ _ h => absurd h.1 (by simp [Except.isOk, Except.toBool]))
      rintro issued t - ⟨-, rfl⟩
      exact ⟨trivial, rfl, rfl⟩

theorem effect_backstopFlush (family : Family) :
    Command.effect kernel ⟨policy.ip, [family.ipFlag, "rule", "del", "priority", "18500"]⟩ =
      kernel.eraseP (Entry.isBackstop family) := by
  have hop := readIp_backstopFlush family (policy.backstopFlush_eq family)
  rw [Command.effect, hop]
  refine congrArg (fun p => kernel.eraseP p) (funext fun entry => ?_)
  cases entry with
  | rule r =>
    show (decide (r.family = family) && (18500 == r.priority) && true && true) = _
    rw [Bool.and_true, Bool.and_true, BEq.comm]
    rfl
  | route r => rfl

theorem effect_ruleFlush (family : Family) :
    Command.effect kernel ⟨policy.ip, [family.ipFlag, "rule", "del", "lookup", "218"]⟩ =
      kernel.eraseP (Entry.isLookup family) := by
  have hop := readIp_ruleFlush family (policy.ruleFlush_eq family)
  rw [Command.effect, hop]
  refine congrArg (fun p => kernel.eraseP p) (funext fun entry => ?_)
  cases entry with
  | rule r =>
    show (decide (r.family = family) && true && true && (.lookup 218 == r.action)) = _
    rw [Bool.and_true, Bool.and_true, BEq.comm]
    rfl
  | route r => rfl

theorem effect_tableFlush (family : Family) :
    Command.effect kernel ⟨policy.ip, [family.ipFlag, "route", "flush", "table", "218"]⟩ =
      kernel.filter fun entry => !entry.isRoute family := by
  have hop := readIp_tableFlush family (policy.tableFlush_eq family)
  rw [Command.effect, hop]
  refine congrArg (fun p => kernel.filter p) (funext fun entry => ?_)
  cases entry with
  | rule r => rfl
  | route r => rfl

theorem foldl_removals (family : Family) (shown : Bool × Bool × Bool) (kernel : Kernel)
    (hbackstop : shown.1 = false → ∀ entry ∈ kernel, entry.isBackstop family = false)
    (hlookup : shown.2.1 = false → ∀ entry ∈ kernel, entry.isLookup family = false)
    (hroute : shown.2.2 = false → ∀ entry ∈ kernel, entry.isRoute family = false) :
    (policy.removals family shown).foldl Command.effect kernel = kernel.sweep family := by
  obtain ⟨backstop, lookup, routes⟩ := shown
  unfold LinuxPolicy.removals Kernel.sweep
  rw [List.foldl_append, List.foldl_append]
  have hfirst : (if backstop then
        [(⟨policy.ip, [family.ipFlag, "rule", "del", "priority", "18500"]⟩ : Command)]
      else []).foldl Command.effect kernel = kernel.eraseP (Entry.isBackstop family) := by
    cases backstop with
    | true => exact effect_backstopFlush family
    | false => exact (List.eraseP_of_forall_not fun entry h => by simp [hbackstop rfl entry h]).symm
  rw [hfirst]
  have hless : kernel.eraseP (Entry.isBackstop family) ⊆ kernel := List.eraseP_subset
  generalize kernel.eraseP (Entry.isBackstop family) = k at hless ⊢
  have hsecond : (if lookup then
        [(⟨policy.ip, [family.ipFlag, "rule", "del", "lookup", "218"]⟩ : Command)]
      else []).foldl Command.effect k = k.eraseP (Entry.isLookup family) := by
    cases lookup with
    | true => exact effect_ruleFlush family
    | false =>
      exact (List.eraseP_of_forall_not fun entry h => by simp [hlookup rfl entry (hless h)]).symm
  rw [hsecond]
  have hless' : k.eraseP (Entry.isLookup family) ⊆ kernel := fun _ h => hless (List.eraseP_subset h)
  generalize k.eraseP (Entry.isLookup family) = k' at hless' ⊢
  cases routes with
  | true => exact effect_tableFlush family
  | false =>
    exact (List.filter_eq_self.mpr fun entry h => by simp [hroute rfl entry (hless' h)]).symm

theorem sweep_subset (family : Family) : kernel.sweep family ⊆ kernel :=
  fun _ h => List.eraseP_subset (List.eraseP_subset (List.mem_of_mem_filter h))

theorem not_shown (family : Family) :
    ((kernel.shows family).1 = false → ∀ entry ∈ kernel, entry.isBackstop family = false) ∧
    ((kernel.shows family).2.1 = false → ∀ entry ∈ kernel, entry.isLookup family = false) ∧
    ((kernel.shows family).2.2 = false → ∀ entry ∈ kernel, entry.isRoute family = false) := by
  refine ⟨fun hshown entry hmem => ?_, fun hshown entry hmem => ?_, fun hshown entry hmem => ?_⟩
  · by_contra hours
    cases entry with
    | route r => exact hours rfl
    | rule r =>
      have hours : r.family = family ∧ r.priority = 18500 := by
        simpa [Entry.isBackstop] using hours
      rw [← Bool.not_eq_true, shows_backstop_iff] at hshown
      exact hshown ⟨r, hmem, hours.1, by rw [hours.2]; decide⟩
  · by_contra hours
    cases entry with
    | route r => exact hours rfl
    | rule r =>
      have hours : r.family = family ∧ r.action = .lookup 218 := by
        simpa [Entry.isLookup] using hours
      rw [← Bool.not_eq_true, shows_lookup_iff] at hshown
      exact hshown ⟨r, hmem, hours.1, 218, hours.2, by decide⟩
  · rw [← Bool.not_eq_true, shows_routes_iff] at hshown
    by_contra hours
    exact hshown ⟨entry, hmem, by simpa using hours⟩

theorem removals_remove (family : Family) (shown : Bool × Bool × Bool) :
    ∀ command ∈ policy.removals family shown, command.Removes := by
  obtain ⟨backstop, lookup, routes⟩ := shown
  intro command hmem
  simp only [LinuxPolicy.removals, List.mem_append, List.mem_ite_nil_right,
    List.mem_singleton] at hmem
  rcases hmem with (⟨-, rfl⟩ | ⟨-, rfl⟩) | ⟨-, rfl⟩
  · exact ⟨_, readIp_backstopFlush family (policy.backstopFlush_eq family), fun _ => rfl⟩
  · exact ⟨_, readIp_ruleFlush family (policy.ruleFlush_eq family), fun _ => rfl⟩
  · exact ⟨_, readIp_tableFlush family (policy.tableFlush_eq family), fun _ => rfl⟩

theorem pass_works :
    Safe working (fun _ => True)
      (fun r t => r.isOk = true ∧ t = (kernel.sweep .v4).sweep .v6)
      (runBestEffort (policy.removals .v4 (kernel.shows .v4) ++
        policy.removals .v6 (kernel.shows .v6))).run kernel := by
  have hremove : ∀ command ∈ policy.removals .v4 (kernel.shows .v4) ++
      policy.removals .v6 (kernel.shows .v6), command.Removes := by
    intro command hmem
    rcases List.mem_append.mp hmem with h | h
    · exact removals_remove _ _ command h
    · exact removals_remove _ _ command h
  refine (runBestEffort_works _ hremove kernel).mono (fun _ h => h) ?_
  rintro r t - ⟨hok, rfl⟩
  refine ⟨hok, ?_⟩
  obtain ⟨hb4, hl4, hr4⟩ := @not_shown kernel .v4
  obtain ⟨hb6, hl6, hr6⟩ := @not_shown kernel .v6
  have hless : kernel.sweep .v4 ⊆ kernel := sweep_subset .v4
  rw [List.foldl_append, foldl_removals .v4 _ kernel hb4 hl4 hr4]
  exact foldl_removals .v6 _ _ (fun h entry hmem => hb6 h entry (hless hmem))
    (fun h entry hmem => hl6 h entry (hless hmem)) (fun h entry hmem => hr6 h entry (hless hmem))

end ThisConnect.Policy
