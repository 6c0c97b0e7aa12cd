/-
  ThisConnect.Ovpn.Allowlist
  **ALLOWLIST SOUNDNESS OF THE IMPORTER.**
-/
import ThisConnect.Ovpn.Verdict

namespace ThisConnect.Ovpn

open Text Net Numeral

/-! ## §1. Arguments that pass the character check. -/

def ArgOk (arg : String) : Prop :=
  ¬ ['.', '.'] <:+: arg.toList ∧ ∀ c ∈ arg.toList, isPermitted c = true

variable {ctx : Ctx} {args : List String} {c : Char} {arg : String}

theorem checkCharset_ok_iff : checkCharset ctx args = .ok () ↔ ∀ arg ∈ args, ArgOk arg := by
  induction args with
  | nil => simp [checkCharset]
  | cons arg args ih =>
    rw [checkCharset, List.forall_mem_cons]
    by_cases hdots : ['.', '.'] <:+: arg.toList
    · simp [hdots, ArgOk]
    · rw [if_neg hdots]
      cases hbad : arg.toList.find? fun c => !isPermitted c with
      | some bad =>
        have hmem := List.mem_of_find?_eq_some hbad
        have hnot : isPermitted bad = false := by simpa using List.find?_some hbad
        have hno : ¬ ArgOk arg := fun hok => by simpa [hnot] using hok.2 bad hmem
        simp [hno]
      | none =>
        have hok : ArgOk arg := ⟨hdots, by simpa using hbad⟩
        simp [hok, ih]

theorem isPermitted_of_isAlphanum (h : c.isAlphanum = true) : isPermitted c = true := by
  simp [isPermitted, h]

theorem argOk_of_alphanum (h : arg.toList.all Char.isAlphanum = true) : ArgOk arg := by
  rw [List.all_eq_true] at h
  refine ⟨dotDot_not_infix_of_not_mem fun hdot => ?_, fun c hc => ?_⟩
  · exact absurd (h '.' hdot) (by decide)
  · exact isPermitted_of_isAlphanum (h c hc)

theorem argOk_repr (n : Nat) : ArgOk n.repr := by
  refine argOk_of_alphanum (List.all_eq_true.mpr fun c hc => ?_)
  rw [Nat.toList_repr] at hc
  have hdigit := Nat.isDigit_of_mem_toDigits (b := 10) (by decide) (by decide) hc
  simp [Char.isAlphanum, hdigit]

theorem isPermitted_of_isAddrChar (h : isAddrChar c = true) : isPermitted c = true := by
  simp only [isAddrChar, Bool.or_eq_true, beq_iff_eq] at h
  rcases h with (h | h) | h
  · refine isPermitted_of_isAlphanum ?_
    unfold toDigit at h
    by_cases hd : c.isDigit
    · simp [Char.isAlphanum, hd]
    by_cases hl : c.isLower
    · simp [Char.isAlphanum, Char.isAlpha, hl]
    by_cases hu : c.isUpper
    · simp [Char.isAlphanum, Char.isAlpha, hu]
    simp [hd, hl, hu] at h
  · rw [h]
    decide
  · rw [h]
    decide

theorem argOk_ip (ip : IpAddr) : ArgOk (String.ofList ip.display) := by
  rw [ArgOk, String.toList_ofList]
  exact ⟨display_no_dotDot ip,
    fun c hc => isPermitted_of_isAddrChar (isAddrChar_of_mem_display hc)⟩

theorem argOk_host {host : RemoteHost} (h : parseHost ctx arg = .ok host) (harg : ArgOk arg) :
    ArgOk host.display := by
  rw [parseHost] at h
  split at h
  · injection h with h
    subst h
    exact argOk_ip _
  · obtain ⟨_, ⟨⟩⟩ := ok_of_guard h
    exact harg

theorem argOk_transport (t : TransportProto) : ArgOk t.display := by
  cases t <;> exact argOk_of_alphanum (by decide)

/-! ### Upper-casing. -/

theorem toUpper_eq_iff {d : Char} (hd : d.isAlpha = false) : c.toUpper = d ↔ c = d := by
  by_cases hc : c.isLower
  · have hupper : c.toUpper.isAlpha = true := by simp [Char.isAlpha, hc]
    constructor
    · intro h
      rw [h, hd] at hupper
      simp at hupper
    · intro h
      subst h
      simp [Char.isAlpha, hc] at hd
  · rw [Char.toUpper_eq_of_not_isLower (by simpa using hc)]

theorem dotDot_infix_map {f : Char → Char} (hf : ∀ c, f c = '.' ↔ c = '.') (cs : List Char) :
    ['.', '.'] <:+: cs.map f ↔ ['.', '.'] <:+: cs := by
  have hone : ∀ ds : List Char, ['.'] <+: ds.map f ↔ ['.'] <+: ds := by
    intro ds
    cases ds with
    | nil => simp
    | cons d ds => simp [List.cons_prefix_cons, eq_comm (a := '.'), hf]
  induction cs with
  | nil => simp
  | cons c cs ih =>
    have hhead : '.' = f c ↔ '.' = c := by rw [eq_comm, hf, eq_comm]
    rw [List.map_cons, List.infix_cons_iff, List.infix_cons_iff, List.cons_prefix_cons,
      List.cons_prefix_cons, hone, hhead]
    exact or_congr Iff.rfl ih

theorem isPermitted_toUpper (h : isPermitted c = true) : isPermitted c.toUpper = true := by
  by_cases hc : c.isLower
  · have halpha : c.toUpper.isAlpha = true := by simp [Char.isAlpha, hc]
    exact isPermitted_of_isAlphanum (by simp [Char.isAlphanum, halpha])
  · rw [Char.toUpper_eq_of_not_isLower (by simpa using hc)]
    exact h

theorem argOk_toAsciiUppercase (h : ArgOk arg) : ArgOk (toAsciiUppercase arg) := by
  rw [ArgOk, toAsciiUppercase, String.toList_ofList]
  refine ⟨?_, ?_⟩
  · rw [dotDot_infix_map fun c => toUpper_eq_iff (by decide)]
    exact h.1
  · intro c hc
    obtain ⟨d, hd, rfl⟩ := List.mem_map.mp hc
    exact isPermitted_toUpper (h.2 d hd)

/-! ## §2. Typed arguments, re-printed. -/

theorem onPresent_ok {α : Type} {f : String → Except ValidationError α} {arg : Option String}
    {r : Option α} (h : onPresent f arg = .ok r) :
    (arg = none ∧ r = none) ∨ ∃ a x, arg = some a ∧ f a = .ok x ∧ r = some x := by
  cases arg with
  | none =>
    injection h with h
    exact Or.inl ⟨rfl, h.symm⟩
  | some a =>
    obtain ⟨x, hx, rfl⟩ := ok_of_map h
    exact Or.inr ⟨a, x, rfl, hx, rfl⟩

theorem argOk_getD (hargs : ∀ arg ∈ args, ArgOk arg) {i : Nat} (hi : i < args.length) :
    ArgOk (args.getD i "") := by
  rw [List.getD_eq_getElem _ _ hi]
  exact hargs _ (List.getElem_mem hi)

theorem argsOk_remote {r : Remote} (h : parseRemote ctx args = .ok r)
    (hargs : ∀ arg ∈ args, ArgOk arg) : ∀ arg ∈ r.toDirective.args, ArgOk arg := by
  obtain ⟨_, harity, h⟩ := ok_of_bind h
  obtain ⟨host, hhost, h⟩ := ok_of_bind h
  obtain ⟨port, -, h⟩ := ok_of_bind h
  obtain ⟨proto, -, h⟩ := ok_of_bind h
  injection h with h
  subst h
  have hlen := (expectArity_ok harity).1
  intro arg harg
  simp only [Remote.toDirective, List.cons_append, List.nil_append, List.mem_cons,
    Option.mem_toList, Option.map_eq_some_iff] at harg
  rcases harg with rfl | rfl | ⟨t, -, rfl⟩
  · exact argOk_host hhost (argOk_getD hargs (by omega))
  · exact argOk_repr _
  · exact argOk_transport t

theorem argsOk_staticChallenge {c : StaticChallenge} (h : parseStaticChallenge ctx args = .ok c)
    (hargs : ∀ arg ∈ args, ArgOk arg) : ∀ arg ∈ c.toDirective.args, ArgOk arg := by
  obtain ⟨_, harity, h⟩ := ok_of_bind h
  obtain ⟨echo, -, h⟩ := ok_of_bind h
  obtain ⟨flags, -, h⟩ := ok_of_bind h
  injection h with h
  subst h
  have hlen := (expectArity_ok harity).1
  intro arg harg
  simp only [StaticChallenge.toDirective, List.cons_append, List.nil_append, List.mem_cons,
    Option.mem_toList, Option.map_eq_some_iff] at harg
  rcases harg with rfl | rfl | ⟨_, -, rfl⟩
  · exact argOk_getD hargs (by omega)
  · split <;> exact argOk_of_alphanum (by decide)
  · exact argOk_repr _

theorem keyword_ok {check : String → Except ValidationError Unit} {arg : Option String}
    {r : Option String} (h : onPresent (fun a => (check a).map fun _ => a) arg = .ok r) :
    r = arg := by
  rcases onPresent_ok h with ⟨rfl, rfl⟩ | ⟨a, x, rfl, hx, rfl⟩
  · rfl
  · obtain ⟨_, -, rfl⟩ := ok_of_map hx
    rfl

theorem argsOk_proxy {out : List String} (h : parseProxy ctx args = .ok out)
    (hargs : ∀ arg ∈ args, ArgOk arg) : ∀ arg ∈ out, ArgOk arg := by
  obtain ⟨_, harity, h⟩ := ok_of_bind h
  obtain ⟨host, hhost, h⟩ := ok_of_bind h
  obtain ⟨port, -, h⟩ := ok_of_bind h
  obtain ⟨third, hthird, h⟩ := ok_of_bind h
  obtain ⟨fourth, hfourth, h⟩ := ok_of_bind h
  injection h with h
  subst h
  have hlen := (expectArity_ok harity).1
  rw [keyword_ok hthird, keyword_ok hfourth]
  intro arg harg
  simp only [List.cons_append, List.nil_append, List.mem_cons, List.mem_append,
    Option.mem_toList] at harg
  rcases harg with rfl | rfl | hget | hget
  · exact argOk_host hhost (argOk_getD hargs (by omega))
  · exact argOk_repr _
  · exact hargs arg (List.mem_of_getElem? hget)
  · exact hargs arg (List.mem_of_getElem? hget)

/-! ## §3. One verdict. -/

structure DirectiveOk (d : EmittedDirective) : Prop where
  name_mem : d.name ∈ emittedNames
  args_ok : ∀ arg ∈ d.args, ArgOk arg

variable {d : EmittedDirective} {name : String} {count n : Nat}

theorem verdict_directiveOk {c : Classified} (h : Verdict ctx name args c)
    (hargs : ∀ arg ∈ args, ArgOk arg) (hd : c.emitted = some d) :
    DirectiveOk d ∧ d.name = name := by
  cases h with
  | verbatim hname _ =>
    injection hd with hd
    subst hd
    exact ⟨⟨by simp [emittedNames, hname], hargs⟩, rfl⟩
  | verb arg v hname _ _ =>
    injection hd with hd
    subst hd
    refine ⟨⟨by simp [emittedNames, hname], ?_⟩, rfl⟩
    simpa using argOk_repr _
  | fingerprint arg hname harg _ =>
    injection hd with hd
    subst hd
    refine ⟨⟨by simp [emittedNames, hname], ?_⟩, rfl⟩
    simpa using argOk_toAsciiUppercase (hargs arg (by simp [harg]))
  | proxy out hname hout =>
    injection hd with hd
    subst hd
    refine ⟨⟨?_, argsOk_proxy hout hargs⟩, rfl⟩
    rcases hname with rfl | rfl <;> simp [emittedNames]
  | remote r hname hr =>
    injection hd with hd
    subst hd
    exact ⟨⟨by simp [emittedNames, Remote.toDirective], argsOk_remote hr hargs⟩, hname.symm⟩
  | authUserPass hname _ =>
    injection hd with hd
    subst hd
    exact ⟨⟨by simp [emittedNames, EmittedDirective.bare], by simp [EmittedDirective.bare]⟩,
      hname.symm⟩
  | staticChallenge c hname hc =>
    injection hd with hd
    subst hd
    exact ⟨⟨by simp [emittedNames, StaticChallenge.toDirective],
      argsOk_staticChallenge hc hargs⟩, hname.symm⟩
  | retained c hc => simp [hc] at hd

theorem classify_directiveOk {raw : RawDirective} {scope : Scope} {c : Classified}
    (h : classify raw scope = .ok c) (hd : c.emitted = some d) :
    DirectiveOk d ∧ d.name = raw.name := by
  obtain ⟨-, hcharset, -, hhandle⟩ := classify_ok h
  exact verdict_directiveOk (handle_verdict hhandle) (checkCharset_ok_iff.mp hcharset) hd

/-! ## §4. Whole texts. -/

structure ProfileOk (p : Profile) : Prop where
  directives_ok : ∀ d ∈ p.directives, DirectiveOk d
  connections_ok : ∀ c ∈ p.connections, ∀ d ∈ c.directives,
    DirectiveOk d ∧ d.name ∈ connectionScoped
  tags_nodup : (p.inline.map InlineMaterial.tag).Nodup
  tags_mem : ∀ m ∈ p.inline, m.tag ∈ inlineMaterial

theorem parseConnection_ok {block : RawBlock} {conn : ConnectionBlock}
    (h : parseConnection block count = .ok (conn, n)) :
    ∀ d ∈ conn.directives, DirectiveOk d ∧ d.name ∈ connectionScoped := by
  obtain ⟨items, -, h⟩ := ok_of_bind h
  have hinv := connectionItems_invariant
    (P := fun b _ => ∀ d ∈ b.directives, DirectiveOk d ∧ d.name ∈ connectionScoped) ?_ items
    ⟨[], []⟩ count conn n (by simp) h
  · exact hinv
  · intro b m item b' n hb hitem
    obtain ⟨raw, c, d, -, -, -, hc, hd, -, rfl⟩ := connectionItem_ok hitem
    obtain ⟨hok, hname⟩ := classify_directiveOk hc hd
    intro e he
    rcases List.mem_append.mp he with he | he
    · exact hb e he
    · rw [List.mem_singleton.mp he]
      exact ⟨hok, hname ▸ (classify_ok hc).2.2.1 rfl⟩

theorem profileStep_profileOk {parts parts' : Profile} {item : Item} (hparts : ProfileOk parts)
    (h : ProfileStep parts count item parts' n) :
    ProfileOk parts' := by
  cases h with
  | directive raw c _ hc =>
    refine ⟨?_, by simpa using hparts.connections_ok, by simpa using hparts.tags_nodup,
      by simpa using hparts.tags_mem⟩
    intro d hd
    rw [absorb_directives, List.mem_append, Option.mem_toList] at hd
    rcases hd with hd | hd
    · exact hparts.directives_ok d hd
    · exact (classify_directiveOk hc hd).1
  | connection block conn m _ hconn =>
    refine ⟨hparts.directives_ok, ?_, hparts.tags_nodup, hparts.tags_mem⟩
    intro c hc
    rcases List.mem_append.mp hc with hc | hc
    · exact hparts.connections_ok c hc
    · rw [List.mem_singleton.mp hc]
      exact parseConnection_ok hconn
  | inline block _ htag hnew =>
    refine ⟨hparts.directives_ok, hparts.connections_ok, ?_, ?_⟩
    · rw [List.map_append, List.nodup_append]
      refine ⟨hparts.tags_nodup, by simp, ?_⟩
      intro t ht u hu
      obtain ⟨m, hm, rfl⟩ := List.mem_map.mp ht
      rw [List.map_singleton, List.mem_singleton] at hu
      rw [hu]
      exact hnew m hm
    · intro m hm
      rcases List.mem_append.mp hm with hm | hm
      · exact hparts.tags_mem m hm
      · rw [List.mem_singleton.mp hm]
        exact htag

theorem parseProfile_profileOk {input : List Char} {p : Profile}
    (h : parseProfile input = .ok p) : ProfileOk p := by
  obtain ⟨items, n, -, hitems, -⟩ := parseProfile_ok h
  exact profileItems_invariant (P := fun parts _ _ => ProfileOk parts)
    (fun _ _ _ _ _ _ hparts hstep => profileStep_profileOk hparts hstep) items {} 0 p n []
    ⟨by simp, by simp, by simp, by simp⟩ hitems

/-! ## §5. What the allowlist rules out. -/

def neverEmitted : List String :=
  ["setenv", "dns-updown", "route", "redirect-gateway", "dhcp-option", "script-security"]

/-- A handler names this directive: it answers whatever the arguments are. -/
def HandlerNames (name : String) : Prop :=
  ∃ handler ∈ handlers, ∀ ctx args, (handler ctx name args).isSome = true

theorem handler_isSome {handler : Handler} (h : handler ∈ handlers) (ctx ctx' : Ctx)
    (name : String) (args args' : List String) :
    (handler ctx name args).isSome = (handler ctx' name args').isSome := by
  simp only [handlers, List.mem_cons, List.not_mem_nil, or_false] at h
  rcases h with rfl | rfl | rfl | rfl | rfl
  · unfold asFlag
    split
    · split <;> split <;> rfl
    · split <;> rfl
  · unfold asNumber
    split
    all_goals try rfl
    cases ranges.find? fun entry => entry.1 == name <;> rfl
  · unfold asKeyword
    split
    all_goals try rfl
    cases choices.find? fun entry => entry.1 == name <;> rfl
  · unfold asCrypto
    split
    all_goals try rfl
    split <;> rfl
  · unfold asTyped
    split <;> rfl

def isHandled (name : String) : Bool :=
  handlers.any fun handler => (handler ⟨0, name⟩ name []).isSome

theorem handlerNames_of_isHandled (h : isHandled name = true) :
    HandlerNames name := by
  obtain ⟨handler, hmem, hsome⟩ := List.any_eq_true.mp h
  refine ⟨handler, hmem, fun ctx args => ?_⟩
  rw [handler_isSome hmem ctx ⟨0, name⟩ name args []]
  exact hsome

def isSafeName (name : String) : Bool :=
  isHandled name && toAsciiLowercase name.toList == name.toList
    && !(hardReject.map Prod.fst).contains name
    && !"management".toList.isPrefixOf name.toList && !neverEmitted.contains name

theorem emittedNames_safe : emittedNames.all isSafeName = true := by
  decide

/-- **ALLOWLIST SOUNDNESS.**  For every accepted text: each emitted directive, at the top level or
in a `<connection>` block, has a lower-case name that a handler names and that is none of the
dangerous ones, and arguments that pass the character check; `<connection>` directives are on their
own list; inline tags are known and distinct. -/
theorem parseProfile_allowlist_sound (input : List Char) (p : Profile)
    (h : parseProfile input = .ok p) :
    (∀ d, (d ∈ p.directives ∨ ∃ c ∈ p.connections, d ∈ c.directives) →
      toAsciiLowercase d.name.toList = d.name.toList
        ∧ HandlerNames d.name
        ∧ d.name ∉ hardReject.map Prod.fst
        ∧ ¬ "management".toList <+: d.name.toList
        ∧ d.name ∉ neverEmitted
        ∧ (∀ ctx, checkCharset ctx d.args = .ok ())
        ∧ ∀ arg ∈ d.args, ¬ ['.', '.'] <:+: arg.toList ∧ ∀ c ∈ arg.toList, isPermitted c = true)
      ∧ (∀ c ∈ p.connections, ∀ d ∈ c.directives, d.name ∈ connectionScoped)
      ∧ (p.inline.map InlineMaterial.tag).Nodup
      ∧ ∀ m ∈ p.inline, m.tag ∈ inlineMaterial := by
  have hp := parseProfile_profileOk h
  refine ⟨?_, fun c hc d hd => (hp.connections_ok c hc d hd).2, hp.tags_nodup, hp.tags_mem⟩
  intro d hd
  have hok : DirectiveOk d := by
    rcases hd with hd | ⟨c, hc, hd⟩
    · exact hp.directives_ok d hd
    · exact (hp.connections_ok c hc d hd).1
  have hsafe := List.all_eq_true.mp emittedNames_safe d.name hok.name_mem
  simp only [isSafeName, Bool.and_eq_true, beq_iff_eq, Bool.not_eq_true', ← Bool.not_eq_true,
    List.contains_iff_mem, List.isPrefixOf_iff_prefix] at hsafe
  obtain ⟨⟨⟨⟨hhandled, hlower⟩, hhard⟩, hmanagement⟩, hnever⟩ := hsafe
  exact ⟨hlower, handlerNames_of_isHandled hhandled, hhard, hmanagement, hnever,
    fun ctx => checkCharset_ok_iff.mpr hok.args_ok, hok.args_ok⟩

def sampleText : List Char :=
  "Verb 9\n<connection>\nremote ::1 22 tcp-client\n</connection>\n<ca>\nx\n</CA>\n".toList

def sampleProfile : Profile :=
  let remote : Remote := ⟨.ip (.v6 ⟨[0, 0, 0, 0, 0, 0, 0, 1], rfl⟩), 22, some .tcp⟩
  { directives := [⟨"verb", ["4"]⟩]
    connections := [⟨[⟨"remote", ["::1", "22", "tcp"]⟩], [remote]⟩]
    inline := [⟨"ca", ['x', '\n']⟩] }

theorem parseProfile_sampleText : parseProfile sampleText = .ok sampleProfile := by
  rfl

theorem parseProfile_allowlist_sound_sample :
    parseProfile sampleText = .ok sampleProfile ∧ "verb" ∉ neverEmitted
      ∧ checkCharset ⟨1, "remote"⟩ ["::1", "22", "tcp"] = .ok () := by
  have h := parseProfile_allowlist_sound sampleText sampleProfile parseProfile_sampleText
  have hverb := h.1 ⟨"verb", ["4"]⟩ (Or.inl (by decide))
  have hremote := h.1 ⟨"remote", ["::1", "22", "tcp"]⟩ (Or.inr (by decide))
  exact ⟨parseProfile_sampleText, hverb.2.2.2.2.1, hremote.2.2.2.2.2.1 _⟩

end ThisConnect.Ovpn
