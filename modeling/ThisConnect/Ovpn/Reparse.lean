/-
  ThisConnect.Ovpn.Reparse
  **AN EMITTED DIRECTIVE READS BACK AS ITSELF.**
-/
import ThisConnect.Ovpn.Emission

namespace ThisConnect.Ovpn

open Text Net Numeral

/-! ## §1. The tokenizer on a written line. -/

def isPlain (c : Char) : Bool :=
  c != '\\' && c != '\'' && c != '"' && c != '#' && c != ';' && !isWhitespace c

variable {c : Char} {w : List Char} {port : UInt16} {name : String}

theorem isPlain_of_isAlphanum (h : c.isAlphanum = true) : isPlain c = true := by
  have hrange : (65 ≤ c.toNat ∧ c.toNat ≤ 90) ∨ (97 ≤ c.toNat ∧ c.toNat ≤ 122)
      ∨ (48 ≤ c.toNat ∧ c.toNat ≤ 57) := by
    simp only [Char.isAlphanum, Char.isAlpha, Char.isUpper, Char.isLower, Char.isDigit,
      Bool.or_eq_true, Bool.and_eq_true, decide_eq_true_eq, UInt32.le_iff_toNat_le, ge_iff_le,
      or_assoc] at h
    exact h
  have hne : ∀ d : Char, d.isAlphanum = false → c ≠ d := by
    intro d hd hcd
    rw [hcd, hd] at h
    simp at h
  have hws : isWhitespace c = false := by
    simp only [isWhitespace, Bool.or_eq_false_iff, Bool.and_eq_false_iff, decide_eq_false_iff_not,
      beq_eq_false_iff_ne]
    omega
  simp [isPlain, hne '\\' (by decide), hne '\'' (by decide), hne '"' (by decide),
    hne '#' (by decide), hne ';' (by decide), hws]

theorem isPlain_of_isPermitted (h : isPermitted c = true) (hc : c ≠ ' ') :
    isPlain c = true := by
  rw [isPermitted, Bool.or_eq_true] at h
  rcases h with h | h
  · exact isPlain_of_isAlphanum h
  · rw [List.contains_iff_mem] at h
    have hall : allowedPunctuation.all (fun d => isPlain d || d == ' ') = true := by decide
    have := List.all_eq_true.mp hall c h
    simpa [hc] using this

theorem tokenizeLoop_plain (h : isPlain c = true) (ts : List String) (cur : List Char) (b : Bool)
    (rest : Line) :
    tokenizeLoop ⟨ts, cur, b, false, false, false⟩ (c :: rest)
      = tokenizeLoop ⟨ts, cur ++ [c], true, false, false, false⟩ rest := by
  simp only [isPlain, Bool.and_eq_true, bne_iff_ne, Bool.not_eq_true'] at h
  obtain ⟨⟨⟨⟨⟨hback, hsingle⟩, hdouble⟩, hhash⟩, hsemi⟩, hws⟩ := h
  simp [tokenizeLoop, hback, hsingle, hdouble, hhash, hsemi, hws]

theorem tokenizeLoop_word (h : ∀ c ∈ w, isPlain c = true) (ts : List String) (rest : Line) :
    ∀ cur b, tokenizeLoop ⟨ts, cur, b, false, false, false⟩ (w ++ rest)
      = tokenizeLoop ⟨ts, cur ++ w, b || !w.isEmpty, false, false, false⟩ rest := by
  induction w with
  | nil => intro cur b; simp
  | cons c w ih =>
    intro cur b
    rw [List.cons_append, tokenizeLoop_plain (h c (by simp)),
      ih fun d hd => h d (by simp [hd])]
    simp

theorem tokenizeLoop_quoted (h : ∀ c ∈ w, c ≠ '\\' ∧ c ≠ '"') (ts : List String) (rest : Line) :
    ∀ cur, tokenizeLoop ⟨ts, cur, true, false, true, false⟩ (w ++ '"' :: rest)
      = tokenizeLoop ⟨ts, cur ++ w, true, false, false, false⟩ rest := by
  induction w with
  | nil => intro cur; simp [tokenizeLoop]
  | cons c w ih =>
    intro cur
    obtain ⟨hback, hquote⟩ := h c (by simp)
    have hrest := ih (fun d hd => h d (by simp [hd])) (cur ++ [c])
    rw [List.append_assoc, List.singleton_append] at hrest
    rw [List.cons_append, ← hrest]
    simp [tokenizeLoop, hback, hquote]

theorem ne_of_isPermitted {d : Char} (h : isPermitted c = true) (hd : isPermitted d = false) :
    c ≠ d := by
  rintro rfl
  simp [hd] at h

variable {d : EmittedDirective} {arg : String} {args : List String} {ctx : Ctx} {lo hi v : Nat}

theorem tokenizeLoop_arg (h : ArgOk arg) (ts : List String) (cur : List Char) (rest : Line) :
    tokenizeLoop ⟨ts, cur, true, false, false, false⟩ (' ' :: (quoteArg arg ++ rest))
      = tokenizeLoop ⟨ts ++ [String.ofList cur], arg.toList, true, false, false, false⟩ rest := by
  have hspace : tokenizeLoop ⟨ts, cur, true, false, false, false⟩ (' ' :: (quoteArg arg ++ rest))
      = tokenizeLoop ⟨ts ++ [String.ofList cur], [], false, false, false, false⟩
          (quoteArg arg ++ rest) := by
    simp [tokenizeLoop, show isWhitespace ' ' = true by decide]
  rw [hspace, quoteArg]
  by_cases hquote : (arg.toList.isEmpty || arg.toList.contains ' ') = true
  · have hliteral : ∀ c ∈ arg.toList, c ≠ '\\' ∧ c ≠ '"' := fun c hc =>
      ⟨ne_of_isPermitted (h.2 c hc) (by decide), ne_of_isPermitted (h.2 c hc) (by decide)⟩
    have hopen : ∀ s, tokenizeLoop ⟨ts ++ [String.ofList cur], [], false, false, false, false⟩
        ('"' :: s) = tokenizeLoop ⟨ts ++ [String.ofList cur], [], true, false, true, false⟩ s := by
      intro s
      simp [tokenizeLoop]
    rw [if_pos hquote, List.cons_append, List.append_assoc, hopen, List.singleton_append,
      tokenizeLoop_quoted hliteral, List.nil_append]
  · rw [if_neg hquote]
    simp only [Bool.or_eq_true, not_or, Bool.not_eq_true, List.contains_iff_mem] at hquote
    have hplain : ∀ c ∈ arg.toList, isPlain c = true := fun c hc =>
      isPlain_of_isPermitted (h.2 c hc) fun hcs => hquote.2 (hcs ▸ hc)
    rw [tokenizeLoop_word hplain, hquote.1]
    simp

theorem tokenizeLoop_args (h : ∀ arg ∈ args, ArgOk arg) :
    ∀ (ts : List String) (cur : List Char), ∃ ts' cur',
      tokenizeLoop ⟨ts, cur, true, false, false, false⟩
          (args.flatMap fun arg => ' ' :: quoteArg arg)
        = ⟨ts', cur', true, false, false, false⟩
      ∧ ts' ++ [String.ofList cur'] = ts ++ String.ofList cur :: args := by
  induction args with
  | nil =>
    intro ts cur
    exact ⟨ts, cur, rfl, rfl⟩
  | cons arg args ih =>
    intro ts cur
    obtain ⟨ts', cur', hloop, htokens⟩ :=
      ih (fun a ha => h a (by simp [ha])) (ts ++ [String.ofList cur]) arg.toList
    refine ⟨ts', cur', ?_, ?_⟩
    · rw [List.flatMap_cons, List.cons_append, tokenizeLoop_arg (h arg (by simp)), hloop]
    · rw [htokens, String.ofList_toList]
      simp

theorem tokenize_display (h : DirectiveOk d) (line : Nat) :
    tokenize d.display line = .ok (d.name :: d.args) := by
  obtain ⟨⟨c, cs, hname, -⟩, hword⟩ := h.name_word
  have hplain : ∀ c ∈ d.name.toList, isPlain c = true := by
    intro c hc
    have := hword c hc
    rw [Bool.or_eq_true, beq_iff_eq] at this
    rcases this with halnum | rfl
    · exact isPlain_of_isAlphanum halnum
    · decide
  have hne : d.name.toList.isEmpty = false := by simp [hname]
  obtain ⟨ts, cur, hloop, htokens⟩ := tokenizeLoop_args h.args_ok [] d.name.toList
  have hall : tokenizeLoop {} d.display = ⟨ts, cur, true, false, false, false⟩ := by
    have hstart := tokenizeLoop_word hplain []
      (d.args.flatMap fun arg => ' ' :: quoteArg arg) [] false
    rw [hne] at hstart
    rw [EmittedDirective.display]
    exact hstart.trans hloop
  rw [tokenize, hall]
  show Except.ok (ts ++ [String.ofList cur]) = _
  rw [htokens, String.ofList_toList]
  rfl

/-! ## §2. Printed arguments parse back. -/

theorem parseU32In_ok (h : parseU32In ctx arg lo hi = .ok v) : lo ≤ v ∧ v ≤ hi := by
  rw [parseU32In] at h
  split at h
  · simp at h
  · obtain ⟨_, h⟩ := ok_of_unless h
    injection h with h
    omega

theorem parseU32In_repr (hlo : lo ≤ v) (hhi : v ≤ hi) (hbound : v < 2 ^ 32) :
    parseU32In ctx v.repr lo hi = .ok v := by
  rw [parseU32In, Nat.toList_repr, parseUnsigned_toDigits hbound]
  show (if v < lo ∨ hi < v then _ else _) = _
  rw [if_neg (by omega)]

theorem parseU32In_ctx (h : parseU32In ctx arg lo hi = .ok v) (ctx' : Ctx) :
    parseU32In ctx' arg lo hi = .ok v := by
  rw [parseU32In] at h ⊢
  split at h
  · simp at h
  · next hvalue =>
    obtain ⟨hrange, h⟩ := ok_of_unless h
    rw [if_neg hrange, h]

theorem parsePort_ok (h : parsePort ctx arg = .ok port) : 1 ≤ port.toNat := by
  obtain ⟨v, hv, h⟩ := ok_of_bind h
  have hrange := parseU32In_ok hv
  rw [if_pos (by omega)] at h
  injection h with h
  rw [← h, UInt16.toNat_ofNat']
  omega

theorem parsePort_repr (h : 1 ≤ port.toNat) :
    parsePort ctx port.toNat.repr = .ok port := by
  have hlt : port.toNat < 65536 := port.toNat_lt
  have hparse : parseU32In ctx port.toNat.repr 1 65535 = .ok port.toNat :=
    parseU32In_repr h (by omega) (by omega)
  rw [parsePort, hparse]
  show (if port.toNat < 65536 then _ else _) = _
  rw [if_pos hlt, UInt16.ofNat_toNat]

theorem parseHost_display {host : RemoteHost} (h : parseHost ctx arg = .ok host) (ctx' : Ctx) :
    parseHost ctx' host.display = .ok host := by
  rw [parseHost] at h
  split at h
  · injection h with h
    subst h
    rw [RemoteHost.display, parseHost, String.toList_ofList, parseIpAddr_display]
  · next hip =>
    obtain ⟨hname, ⟨⟩⟩ := ok_of_guard h
    rw [RemoteHost.display, parseHost, hip]
    show (if _ then _ else _) = _
    rw [if_pos hname]

theorem parseTransport_display (ctx : Ctx) (t : TransportProto) :
    parseTransport ctx t.display = .ok t := by
  cases t <;> rfl

theorem expectOneOf_ok {allowed : List String} (h : expectOneOf ctx arg allowed = .ok ())
    (ctx' : Ctx) : expectOneOf ctx' arg allowed = .ok () := by
  rw [expectOneOf] at h ⊢
  obtain ⟨hmem, h⟩ := ok_of_guard h
  rw [if_pos hmem]

theorem parseRemote_toDirective {r : Remote} (h : parseRemote ctx args = .ok r) (ctx' : Ctx) :
    parseRemote ctx' r.toDirective.args = .ok r := by
  obtain ⟨_, -, h⟩ := ok_of_bind h
  obtain ⟨host, hhost, h⟩ := ok_of_bind h
  obtain ⟨port, hport, h⟩ := ok_of_bind h
  obtain ⟨proto, -, h⟩ := ok_of_bind h
  injection h with h
  subst h
  have hpos : 1 ≤ (port.getD 1194).toNat := by
    rcases onPresent_ok hport with ⟨-, rfl⟩ | ⟨_, x, -, hx, rfl⟩
    · decide
    · exact parsePort_ok hx
  have hhost' := parseHost_display hhost ctx'
  have hport' : parsePort ctx' (port.getD 1194).toNat.repr = .ok (port.getD 1194) :=
    parsePort_repr hpos
  cases proto with
  | none =>
    simp [Remote.toDirective, parseRemote, expectArity, onPresent, hhost', hport', bind,
      Except.bind, Except.map]
  | some t =>
    simp [Remote.toDirective, parseRemote, expectArity, onPresent, hhost', hport', bind,
      Except.bind, Except.map, parseTransport_display]

theorem parseStaticChallenge_toDirective (ctx : Ctx) (c : StaticChallenge) :
    parseStaticChallenge ctx c.toDirective.args = .ok c := by
  have hecho : ∀ b : Bool, parseU32In ctx (if b then "1" else "0") 0 1 = .ok b.toNat := by
    intro b
    cases b <;> rfl
  have hflags : ∀ f : UInt8, parseU32In ctx f.toNat.repr 0 255 = .ok f.toNat := by
    intro f
    have hlt : f.toNat < 256 := f.toNat_lt
    exact parseU32In_repr (by omega) (by omega) (by omega)
  obtain ⟨prompt, echo, flags⟩ := c
  have hback : (echo.toNat == 1) = echo := by cases echo <;> rfl
  cases flags with
  | none =>
    simp [StaticChallenge.toDirective, parseStaticChallenge, expectArity, onPresent, hecho, bind,
      Except.bind, hback]
  | some f =>
    have hlt : f.toNat < 256 := f.toNat_lt
    simp [StaticChallenge.toDirective, parseStaticChallenge, expectArity, onPresent, hecho, bind,
      Except.bind, Except.map, hback, hflags, hlt]

theorem keyword_again {check check' : String → Except ValidationError Unit} {arg r : Option String}
    (h : onPresent (fun a => (check a).map fun _ => a) arg = .ok r)
    (hcheck : ∀ a, check a = .ok () → check' a = .ok ()) :
    onPresent (fun a => (check' a).map fun _ => a) r = .ok r := by
  rcases onPresent_ok h with ⟨rfl, rfl⟩ | ⟨a, x, rfl, hx, rfl⟩
  · rfl
  · obtain ⟨_, ha, rfl⟩ := ok_of_map hx
    rw [onPresent, hcheck _ ha]
    rfl

theorem parseProxy_again {out : List String} (h : parseProxy ctx args = .ok out) (ctx' : Ctx) :
    parseProxy ctx' out = .ok out := by
  obtain ⟨_, -, h⟩ := ok_of_bind h
  obtain ⟨host, hhost, h⟩ := ok_of_bind h
  obtain ⟨port, hport, h⟩ := ok_of_bind h
  obtain ⟨third, hthird, h⟩ := ok_of_bind h
  obtain ⟨fourth, hfourth, h⟩ := ok_of_bind h
  injection h with h
  subst h
  have hhost' := parseHost_display hhost ctx'
  have hport' : parsePort ctx' port.toNat.repr = .ok port := parsePort_repr (parsePort_ok hport)
  -- the method never stands without the keyword before it
  have horder : third = none → fourth = none := by
    rw [keyword_ok hthird, keyword_ok hfourth]
    intro hnone
    rw [List.getElem?_eq_none_iff] at hnone ⊢
    omega
  have hthird' : onPresent (fun third =>
      ((expectOneOf ctx' third ["auto", "auto-nct"]).mapError fun _ =>
        ctx'.invalid "proxy credentials must not be a file path").map fun _ => third) third
      = .ok third := by
    refine keyword_again hthird fun a ha => ?_
    have hone : expectOneOf ctx a ["auto", "auto-nct"] = .ok () := by
      cases hcheck : expectOneOf ctx a ["auto", "auto-nct"] with
      | ok _ => rfl
      | error e => simp [hcheck, Except.mapError] at ha
    rw [expectOneOf_ok hone ctx']
    rfl
  have hfourth' := keyword_again hfourth fun a ha => expectOneOf_ok ha ctx'
  have harity : expectArity ctx'
      ([host.display, port.toNat.repr] ++ third.toList ++ fourth.toList) 2 4 = .ok () := by
    cases third <;> cases fourth <;> simp [expectArity]
  have hget2 : ([host.display, port.toNat.repr] ++ third.toList ++ fourth.toList)[2]? = third := by
    cases third with
    | none => simp [horder rfl]
    | some t => simp
  have hget3 : ([host.display, port.toNat.repr] ++ third.toList ++ fourth.toList)[3]? = fourth := by
    cases third with
    | none => simp [horder rfl]
    | some t => cases fourth <;> simp
  simp only [parseProxy, harity, hget2, hget3, hthird', hfourth', bind, Except.bind]
  simp only [List.cons_append, List.nil_append, List.getD_cons_zero, List.getD_cons_succ, hhost',
    hport']

/-! ### Fingerprints. -/

theorem toNat_of_isLower (h : c.isLower = true) :
    97 ≤ c.toNat ∧ c.toNat ≤ 122 ∧ c.toUpper.toNat = c.toNat - 32 := by
  have hrange : 97 ≤ c.toNat ∧ c.toNat ≤ 122 := by
    simpa [Char.isLower, UInt32.le_iff_toNat_le] using h
  refine ⟨hrange.1, hrange.2, ?_⟩
  rw [Char.toUpper_eq_of_isLower h, Char.toNat_ofNat, if_pos]
  exact Or.inl (by omega)

theorem utf8Size_toUpper (c : Char) : c.toUpper.utf8Size = c.utf8Size := by
  by_cases hc : c.isLower
  · obtain ⟨hlo, hhi, hup⟩ := toNat_of_isLower hc
    have hone : ∀ d : Char, d.toNat ≤ 127 → d.utf8Size = 1 := by
      intro d hd
      rw [Char.utf8Size_eq_one_iff, UInt32.le_iff_toNat_le]
      exact hd
    rw [hone c (by omega), hone c.toUpper (by omega)]
  · rw [Char.toUpper_eq_of_not_isLower (by simpa using hc)]

theorem byteLen_toUpper (cs : List Char) : byteLen (cs.map Char.toUpper) = byteLen cs := by
  induction cs with
  | nil => rfl
  | cons c cs ih => rw [List.map_cons, byteLen_cons, byteLen_cons, utf8Size_toUpper, ih]

theorem isHexDigit_toUpper (h : isHexDigit c = true) : isHexDigit c.toUpper = true := by
  by_cases hc : c.isLower
  · obtain ⟨hlo, hhi, hup⟩ := toNat_of_isLower hc
    have hnodigit : ∀ d : Char, 58 ≤ d.toNat → d.isDigit = false := by
      intro d hd
      by_contra hdigit
      have hle : d.toNat ≤ 57 := by
        have : 48 ≤ d.toNat ∧ d.toNat ≤ 57 := by
          simpa [Char.isDigit, UInt32.le_iff_toNat_le] using hdigit
        exact this.2
      omega
    have hsmall : c.toNat - 87 < 16 := by
      by_contra hbig
      simp [isHexDigit, toDigit, hnodigit c (by omega), hc, hbig] at h
    have hupper : c.toUpper.isUpper = true := by simp [Char.isAlpha, hc]
    have hvalue : c.toUpper.toNat - 55 < 16 := by omega
    simp [isHexDigit, toDigit, hnodigit c.toUpper (by omega), hupper, hvalue]
  · rwa [Char.toUpper_eq_of_not_isLower (by simpa using hc)]

theorem splitOn_toUpper {sep : Char} (hsep : sep.isAlpha = false) (cs : List Char) :
    (cs.map Char.toUpper).splitOn sep = (cs.splitOn sep).map (List.map Char.toUpper) := by
  induction cs with
  | nil => rfl
  | cons c cs ih =>
    rw [List.map_cons, List.splitOn_cons_eq_if_modifyHead, List.splitOn_cons_eq_if_modifyHead,
      ih]
    by_cases hc : c = sep
    · rw [if_pos (by simp [hc, (toUpper_eq_iff hsep).mpr rfl]), if_pos (by simp [hc])]
      rfl
    · have hup : c.toUpper ≠ sep := fun h => hc ((toUpper_eq_iff hsep).mp h)
      rw [if_neg (by simp [hup]), if_neg (by simp [hc])]
      cases cs.splitOn sep <;> rfl

theorem looksHex_toUpper {cs : List Char} (h : looksHex cs = true) :
    looksHex (cs.map Char.toUpper) = true := by
  simp only [looksHex, Bool.and_eq_true, decide_eq_true_eq, List.all_eq_true] at h ⊢
  rw [splitOn_toUpper (by decide)]
  refine ⟨by simpa using h.1, ?_⟩
  intro upper hupper
  obtain ⟨b, hb, rfl⟩ := List.mem_map.mp hupper
  obtain ⟨hlen, hhex⟩ := h.2 b hb
  refine ⟨by rw [byteLen_toUpper, hlen], ?_⟩
  intro d hd
  obtain ⟨c, hc, rfl⟩ := List.mem_map.mp hd
  exact isHexDigit_toUpper (hhex c hc)

theorem parsePeerFingerprint_again (h : looksHex arg.toList = true) (ctx : Ctx) :
    parsePeerFingerprint ctx [toAsciiUppercase arg] = .ok (toAsciiUppercase arg) := by
  have hhex : looksHex (toAsciiUppercase arg).toList = true := by
    rw [toAsciiUppercase, String.toList_ofList]
    exact looksHex_toUpper h
  have htwice : toAsciiUppercase (toAsciiUppercase arg) = toAsciiUppercase arg := by
    simp [toAsciiUppercase, Function.comp_def]
  simp [parsePeerFingerprint, expectArity, bind, Except.bind, hhex, htwice]

/-! ## §3. The same verdict again.

The context of a check only names the directive in a rejection, so a check that passed passes in any
context. -/

section SameVerdict

variable {name : String} {c : Classified}

variable {max min : Nat}

theorem expectArity_ctx (h : expectArity ctx args min max = .ok ()) (ctx' : Ctx) :
    expectArity ctx' args min max = .ok () := by
  obtain ⟨hmin, hmax⟩ := expectArity_ok h
  rw [expectArity, if_neg (by omega)]

theorem checkEach_ctx (h : checkEach ctx lo hi args = .ok ()) (ctx' : Ctx) :
    checkEach ctx' lo hi args = .ok () := by
  induction args with
  | nil => rfl
  | cons arg args ih =>
    obtain ⟨v, hv, h⟩ := ok_of_bind h
    rw [checkEach, parseU32In_ctx hv ctx']
    exact ih h

theorem checkInfiniteOr_ctx (h : checkInfiniteOr ctx arg lo hi = .ok ()) (ctx' : Ctx) :
    checkInfiniteOr ctx' arg lo hi = .ok () := by
  rw [checkInfiniteOr] at h ⊢
  split at h
  · next hfinite =>
    obtain ⟨v, hv, -⟩ := ok_of_map h
    rw [if_pos hfinite, parseU32In_ctx hv ctx']
    rfl
  · next hinfinite => rw [if_neg hinfinite]

theorem arity_then_ctx {rest rest' : Except ValidationError Unit}
    (h : (do expectArity ctx args min max; rest) = .ok ()) (ctx' : Ctx)
    (hrest : rest = .ok () → rest' = .ok ()) :
    (do expectArity ctx' args min max; rest') = .ok () := by
  obtain ⟨_, harity, h⟩ := ok_of_bind h
  rw [expectArity_ctx harity ctx']
  exact hrest h

theorem emitAfter_again {check check' : Except ValidationError Unit}
    (h : emitAfter check name args = some (.ok c)) (hcheck : check = .ok () → check' = .ok ()) :
    emitAfter check' name args = some (.ok c) := by
  obtain ⟨hok, rfl⟩ := emitAfter_ok h
  rw [hcheck hok]
  rfl

theorem optional_oneOf_ctx {arg : Option String} {allowed : List String}
    (h : (match arg with
      | some a => expectOneOf ctx a allowed
      | none => .ok ()) = .ok ()) (ctx' : Ctx) :
    (match arg with
      | some a => expectOneOf ctx' a allowed
      | none => .ok ()) = .ok () := by
  cases arg with
  | none => rfl
  | some a => exact expectOneOf_ok h ctx'

theorem asFlag_ctx (h : asFlag ctx name args = some (.ok c)) (ctx' : Ctx) :
    asFlag ctx' name args = some (.ok c) := by
  rw [asFlag] at h ⊢
  split at h
  · next hname =>
    rw [if_pos hname]
    split at h
    · simp at h
    · next hargs => rw [if_neg hargs, h]
  · next hname =>
    rw [if_neg hname]
    obtain ⟨hflag, h⟩ := some_of_unless h
    rw [if_neg hflag]
    refine emitAfter_again h fun hcheck => ?_
    rw [expectNoArgs] at hcheck ⊢
    obtain ⟨hempty, hcheck⟩ := ok_of_guard hcheck
    rw [if_pos hempty]

theorem asNumber_ctx (h : asNumber ctx name args = some (.ok c)) (ctx' : Ctx) :
    asNumber ctx' name args = some (.ok c) := by
  unfold asNumber at h ⊢
  split at h
  · injection h with h
    obtain ⟨_, harity, h⟩ := ok_of_bind h
    obtain ⟨v, hv, h⟩ := ok_of_bind h
    simp only [expectArity_ctx harity ctx', parseU32In_ctx hv ctx', bind, Except.bind]
    rw [h]
  · exact emitAfter_again h fun hcheck => arity_then_ctx hcheck ctx' fun hrest =>
      checkEach_ctx hrest ctx'
  · exact emitAfter_again h fun hcheck => arity_then_ctx hcheck ctx' fun hrest =>
      checkEach_ctx hrest ctx'
  · exact emitAfter_again h fun hcheck => arity_then_ctx hcheck ctx' fun hrest =>
      checkInfiniteOr_ctx hrest ctx'
  · exact emitAfter_again h fun hcheck => arity_then_ctx hcheck ctx' fun hrest =>
      checkEach_ctx hrest ctx'
  · obtain ⟨⟨n, lo, hi⟩, hfind, h⟩ := Option.bind_eq_some_iff.mp h
    rw [hfind]
    exact emitAfter_again h fun hcheck => arity_then_ctx hcheck ctx' fun hrest =>
      checkInfiniteOr_ctx hrest ctx'

theorem asKeyword_ctx (h : asKeyword ctx name args = some (.ok c)) (ctx' : Ctx) :
    asKeyword ctx' name args = some (.ok c) := by
  unfold asKeyword at h ⊢
  split at h
  · exact h
  · exact h
  · injection h with h
    obtain ⟨p, hp, rfl⟩ := ok_of_map h
    obtain ⟨_, harity, hp⟩ := ok_of_bind hp
    obtain ⟨_, hone, hp⟩ := ok_of_bind hp
    simp only [parseProto, expectArity_ctx harity ctx', expectOneOf_ok hone ctx', bind,
      Except.bind]
    rw [hp]
    rfl
  · injection h with h
    obtain ⟨d, hd, rfl⟩ := ok_of_map h
    obtain ⟨_, harity, hd⟩ := ok_of_bind hd
    dsimp only at hd
    obtain ⟨hdev, hd⟩ := ok_of_guard hd
    simp only [parseDev, expectArity_ctx harity ctx', bind, Except.bind]
    rw [if_pos hdev, hd]
    rfl
  · obtain ⟨⟨n, allowed⟩, hfind, h⟩ := Option.bind_eq_some_iff.mp h
    rw [hfind]
    refine emitAfter_again h fun hcheck => arity_then_ctx hcheck ctx' fun hrest => ?_
    obtain ⟨_, hone, hrest⟩ := ok_of_bind hrest
    rw [expectOneOf_ok hone ctx']
    exact optional_oneOf_ctx hrest ctx'

theorem asCrypto_ctx (h : asCrypto ctx name args = some (.ok c)) (ctx' : Ctx) :
    asCrypto ctx' name args = some (.ok c) := by
  unfold asCrypto at h ⊢
  split at h
  · injection h with h
    obtain ⟨fp, hfp, rfl⟩ := ok_of_map h
    obtain ⟨_, harity, hfp⟩ := ok_of_bind hfp
    dsimp only at hfp
    obtain ⟨hhex, hfp⟩ := ok_of_guard hfp
    simp only [parsePeerFingerprint, expectArity_ctx harity ctx', bind, Except.bind]
    rw [if_pos hhex, hfp]
    rfl
  · exact emitAfter_again h fun hcheck => arity_then_ctx hcheck ctx' fun hrest =>
      optional_oneOf_ctx hrest ctx'
  · obtain ⟨hlist, h⟩ := some_of_unless h
    rw [if_neg hlist]
    exact emitAfter_again h fun hcheck => expectArity_ctx hcheck ctx'

theorem handler_ctx {handler : Handler} (hmem : handler ∈ [asFlag, asNumber, asKeyword, asCrypto])
    (h : handler ctx name args = some (.ok c)) (ctx' : Ctx) :
    handler ctx' name args = some (.ok c) := by
  simp only [List.mem_cons, List.not_mem_nil, or_false] at hmem
  rcases hmem with rfl | rfl | rfl | rfl
  · exact asFlag_ctx h ctx'
  · exact asNumber_ctx h ctx'
  · exact asKeyword_ctx h ctx'
  · exact asCrypto_ctx h ctx'

theorem asTyped_verbatim (hname : name ∈ verbatimNames) : asTyped ctx name args = none := by
  have hall : verbatimNames.all (fun n => (asTyped ⟨0, n⟩ n []).isNone) = true := by decide
  have hnone := List.all_eq_true.mp hall name hname
  have hsame :=
    handler_isSome (show asTyped ∈ handlers by simp [handlers]) ctx ⟨0, name⟩ name args []
  rw [Option.isNone_iff_eq_none] at hnone
  rw [hnone] at hsame
  simpa using hsame

theorem handle_verbatim_again (hname : name ∈ verbatimNames)
    (h : handle ctx name args = some (.ok c)) (ctx' : Ctx) :
    handle ctx' name args = some (.ok c) := by
  obtain ⟨before, handler, after, hsplit, hsome, hnone⟩ := List.findSome?_eq_some_iff.mp h
  refine List.findSome?_eq_some_iff.mpr ⟨before, handler, after, hsplit, ?_, ?_⟩
  · have hmem : handler ∈ handlers := by simp [hsplit]
    by_cases htyped : handler = asTyped
    · rw [htyped, asTyped_verbatim hname] at hsome
      simp at hsome
    · refine handler_ctx ?_ hsome ctx'
      simpa [handlers, htyped] using hmem
  · intro other hother
    have hmem : other ∈ handlers := by simp [hsplit, hother]
    have hsame := handler_isSome hmem ctx' ctx name args args
    rw [hnone other hother] at hsame
    simpa using hsame

end SameVerdict

theorem dangerReason_typed (args : List String)
    (h : name ∈ ["verb", "peer-fingerprint", "http-proxy", "socks-proxy", "remote",
      "auth-user-pass", "static-challenge"]) : dangerReason name args = none := by
  simp only [List.mem_cons, List.not_mem_nil, or_false] at h
  rcases h with rfl | rfl | rfl | rfl | rfl | rfl | rfl <;> rfl

theorem handle_again {c : Classified} (h : handle ctx name args = some (.ok c))
    (hd : c.emitted = some d) (hdanger : dangerReason name args = none) (ctx' : Ctx) :
    handle ctx' d.name d.args = some (.ok c) ∧ dangerReason d.name d.args = none := by
  cases handle_verdict h with
  | verbatim hname _ =>
    injection hd with hd
    subst hd
    exact ⟨handle_verbatim_again hname h ctx', hdanger⟩
  | verb arg v hname _ hv =>
    injection hd with hd
    subst hd hname
    refine ⟨?_, dangerReason_typed _ (by simp)⟩
    have hparse : parseU32In ctx' (min v 4).repr 0 11 = .ok (min v 4) :=
      parseU32In_repr (by omega) (by omega) (by omega)
    show some ((parseU32In ctx' (min v 4).repr 0 11).bind
      fun raw => .ok (Classified.emit ⟨"verb", [(min raw 4).repr]⟩)) = _
    rw [hparse]
    show some (Except.ok (Classified.emit ⟨"verb", [(min (min v 4) 4).repr]⟩)) = _
    rw [min_assoc, min_self]
  | fingerprint arg hname _ hhex =>
    injection hd with hd
    subst hd hname
    refine ⟨?_, dangerReason_typed _ (by simp)⟩
    show some ((parsePeerFingerprint ctx' [toAsciiUppercase arg]).map _) = _
    rw [parsePeerFingerprint_again hhex]
    rfl
  | proxy out hname hout =>
    injection hd with hd
    subst hd
    have hagain := parseProxy_again hout ctx'
    rcases hname with rfl | rfl
    · refine ⟨?_, dangerReason_typed _ (by simp)⟩
      show some ((parseProxy ctx' out).map _) = _
      rw [hagain]
      rfl
    · refine ⟨?_, dangerReason_typed _ (by simp)⟩
      show some ((parseProxy ctx' out).map _) = _
      rw [hagain]
      rfl
  | remote r hname hr =>
    injection hd with hd
    subst hd
    refine ⟨?_, dangerReason_typed _ (by simp [Remote.toDirective])⟩
    show some ((parseRemote ctx' r.toDirective.args).map _) = _
    rw [parseRemote_toDirective hr]
    rfl
  | authUserPass hname hargs =>
    injection hd with hd
    subst hd
    exact ⟨rfl, dangerReason_typed _ (by simp [EmittedDirective.bare])⟩
  | staticChallenge ch hname hc =>
    injection hd with hd
    subst hd
    refine ⟨?_, dangerReason_typed _ (by simp [StaticChallenge.toDirective])⟩
    show some ((parseStaticChallenge ctx' ch.toDirective.args).map _) = _
    rw [parseStaticChallenge_toDirective]
    rfl
  | retained c hc => simp [hc] at hd

theorem classify_again {raw : RawDirective} {scope : Scope} {c : Classified}
    (h : classify raw scope = .ok c) (hd : c.emitted = some d) (line : Nat) :
    classify ⟨line, d.name, d.args⟩ scope = .ok c := by
  obtain ⟨hok, hname⟩ := classify_directiveOk h hd
  obtain ⟨hdanger, -, hscope, hhandle⟩ := classify_ok h
  obtain ⟨hagain, hdanger'⟩ := handle_again hhandle hd hdanger ⟨line, d.name⟩
  have hreject : rejectDangerous ⟨line, d.name⟩ d.name d.args = .ok () := by
    rw [rejectDangerous, hdanger']
  have hcharset : checkCharset ⟨line, d.name⟩ d.args = .ok () :=
    checkCharset_ok_iff.mpr hok.args_ok
  have hallowed : ¬ (scope = .connection ∧ (!connectionScoped.contains d.name) = true) := by
    rintro ⟨hconn, hnot⟩
    have hmem := hscope hconn
    rw [← hname] at hmem
    simp [hmem] at hnot
  simp only [classify, hreject, hcharset, bind, Except.bind]
  rw [if_neg hallowed, hagain]

end ThisConnect.Ovpn
