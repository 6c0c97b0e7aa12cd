/-
  ThisConnect.Ovpn.Inline
  **CAN AN INLINE BODY BREAK OUT OF ITS BLOCK?**
-/
import ThisConnect.Ovpn.Emission

namespace ThisConnect.Ovpn

open Text

/-! ## §1. The stock reader. -/

def endsBlock (tag : String) (l : Line) : Bool := (closingLine tag).isPrefixOf (trimStart l)

def readerOpens (l : Line) : Option String :=
  (((trim l).dropPrefix? ['<']).bind (·.dropSuffix? ['>'])).map String.ofList

def configLines : Option String → List Line → List Line
  | _, [] => []
  | none, l :: ls => l :: configLines (readerOpens l) ls
  | some tag, l :: ls =>
    if endsBlock tag l then l :: configLines none ls
    else if tag = connectionTag then l :: configLines (some tag) ls
    else configLines (some tag) ls

def Profile.skeleton (p : Profile) : List Line :=
  p.directives.map EmittedDirective.display
    ++ p.connections.flatMap ConnectionBlock.emittedLines
    ++ p.inline.flatMap fun m => [openingLine m.tag, closingLine m.tag]

/-- **Inline bodies are sealed**: no body line starts with its closing tag, and what the stock
reader takes for configuration is exactly the emitted directives and tag lines. -/
def Sealed (p : Profile) : Prop :=
  (∀ m ∈ p.inline, ∀ l ∈ physicalLines m.body, endsBlock m.tag l = false)
    ∧ configLines none (physicalLines p.toCanonicalConfig) = p.skeleton

/-! ## §2. The condition on the input. -/

def openedBy (l : Line) : Option String :=
  match openTag (trim l) 0 with
  | .ok tag => tag
  | .error _ => none

def scanLine : Option String → Line → Option String
  | none, l => openedBy l
  | some tag, l => if closeTag l = some tag then none else some tag

def openAfter (pre : List Line) : Option String := pre.foldl scanLine none

/-- Inside an inline block, a line that starts with the closing tag has nothing but white space
after it. -/
def NoTextAfterCloser (input : List Char) : Prop :=
  ∀ pre l post tag rest, lines input = pre ++ l :: post → openAfter pre = some tag →
    tag ∈ inlineMaterial → trimStart l = closingLine tag ++ rest → rest.all isWhitespace = true

theorem openAfter_append (pre : List Line) (l : Line) :
    openAfter (pre ++ [l]) = scanLine (openAfter pre) l := by
  simp [openAfter]

variable {l : Line} {tag : String} {input : List Char}

variable {n : Nat} {d : EmittedDirective} {p : Profile}

theorem openedBy_eq_some (h : openTag (trim l) n = .ok (some tag)) :
    openedBy l = some tag := by
  rw [openedBy, openTag_ok_line h 0]

theorem openedBy_eq_none (h : ∀ tag, openTag (trim l) n ≠ .ok (some tag)) :
    openedBy l = none := by
  rw [openedBy]
  split
  · next tag htag =>
    cases tag with
    | none => rfl
    | some tag => exact absurd (openTag_ok_line htag n) (h tag)
  · rfl

/-! ## §3. Body lines and input lines.

`Q tag l` is any property of a line in a block that the empty line does not have. -/

section Scan

variable {Q : String → Line → Prop}

def ScanMeets (Q : String → Line → Prop) (done : List Line) : Prop :=
  ∃ pre l post tag, done = pre ++ l :: post ∧ openAfter pre = some tag ∧ closeTag l ≠ some tag
    ∧ Q tag l

theorem scanMeets_append (done : List Line) (l : Line) :
    ScanMeets Q (done ++ [l]) ↔ ScanMeets Q done
      ∨ ∃ tag, openAfter done = some tag ∧ closeTag l ≠ some tag ∧ Q tag l := by
  constructor
  · rintro ⟨pre, m, post, tag, hsplit, hopen, hclose, hQ⟩
    rcases List.eq_nil_or_concat post with rfl | ⟨post, last, rfl⟩
    · obtain ⟨rfl, hlast⟩ := List.append_inj' hsplit rfl
      injection hlast with hlast
      subst hlast
      exact Or.inr ⟨tag, hopen, hclose, hQ⟩
    · have hsnoc : done ++ [l] = (pre ++ m :: post) ++ [last] := by simpa using hsplit
      have hinit : done = pre ++ m :: post := (List.append_inj' hsnoc rfl).1
      exact Or.inl ⟨pre, m, post, tag, hinit, hopen, hclose, hQ⟩
  · rintro (⟨pre, m, post, tag, rfl, hopen, hclose, hQ⟩ | ⟨tag, hopen, hclose, hQ⟩)
    · exact ⟨pre, m, post ++ [l], tag, by simp, hopen, hclose, hQ⟩
    · exact ⟨done, l, [], tag, rfl, hopen, hclose, hQ⟩

def BlockMeets (Q : String → Line → Prop) (st : LexState) : Prop :=
  (∃ b, Item.block b ∈ st.items ∧ ∃ l ∈ physicalLines b.body, Q b.tag l)
    ∨ ∃ b, st.open? = some b ∧ ∃ l ∈ b.body, Q b.tag l

structure ScanAgrees (Q : String → Line → Prop) (st : LexState) (done : List Line) : Prop where
  open_eq : openAfter done = st.open?.map OpenBlock.tag
  body_newline : ∀ b, st.open? = some b → ∀ l ∈ b.body, '\n' ∉ l
  meets_iff : ScanMeets Q done ↔ BlockMeets Q st

theorem exists_physicalLines_finishBody {ls : List Line} (hQ : ¬ Q tag [])
    (h : ∀ l ∈ ls, '\n' ∉ l) :
    (∃ l ∈ physicalLines (finishBody ls), Q tag l) ↔ ∃ l ∈ ls, Q tag l := by
  rw [physicalLines_finishBody h]
  split
  · next hempty => simp [hempty, hQ]
  · rfl

theorem scanAgrees_step (hQ : ∀ tag, ¬ Q tag []) {st st' : LexState} {line : Nat} {done : List Line}
    (hst : ScanAgrees Q st done) (hl : '\n' ∉ l) (h : LexStep st line l st') :
    ScanAgrees Q st' (done ++ [l]) := by
  obtain ⟨hopenEq, hnewline, hmeets⟩ := hst
  cases h with
  | close b hopen hclose _ =>
    rw [hopen, Option.map_some] at hopenEq
    refine ⟨by simp [openAfter_append, hopenEq, scanLine, hclose], by simp, ?_⟩
    have hnew : ¬ ∃ tag, openAfter done = some tag ∧ closeTag l ≠ some tag ∧ Q tag l := by
      rintro ⟨tag, htag, hne, -⟩
      rw [hopenEq, Option.some.injEq] at htag
      exact hne (htag ▸ hclose)
    have hfinish := exists_physicalLines_finishBody (hQ b.tag) (hnewline b hopen)
    rw [scanMeets_append, or_iff_left hnew, hmeets, BlockMeets, BlockMeets]
    simp only [hopen, Option.some.injEq, exists_eq_left', List.mem_append, List.mem_singleton,
      Item.block.injEq, or_and_right, exists_or, exists_eq_left, reduceCtorEq, false_and,
      exists_false, or_false, finishBlock, hfinish]
  | body b hopen hclose _ =>
    rw [hopen, Option.map_some] at hopenEq
    refine ⟨by simp [openAfter_append, hopenEq, scanLine, hclose], ?_, ?_⟩
    · intro b' hb' m hm
      injection hb' with hb'
      subst hb'
      rcases List.mem_append.mp hm with hm | hm
      · exact hnewline b hopen m hm
      · exact List.mem_singleton.mp hm ▸ hl
    · rw [scanMeets_append, hmeets, BlockMeets, BlockMeets]
      simp [hopen, hopenEq, hclose, or_and_right, exists_or, or_assoc]
  | skip hopen htag =>
    rw [hopen, Option.map_none] at hopenEq
    refine ⟨by simp [openAfter_append, hopenEq, scanLine, openedBy_eq_none htag, hopen],
      by simp [hopen], ?_⟩
    rw [scanMeets_append, hmeets]
    simp [hopenEq]
  | enter tag hopen htag =>
    rw [hopen, Option.map_none] at hopenEq
    refine ⟨by simp [openAfter_append, hopenEq, scanLine, openedBy_eq_some htag], ?_, ?_⟩
    · intro b hb
      injection hb with hb
      subst hb
      simp
    · rw [scanMeets_append, hmeets, BlockMeets, BlockMeets]
      simp [hopenEq, hopen]
  | emit name args hopen htag _ _ =>
    rw [hopen, Option.map_none] at hopenEq
    have hnone : openedBy l = none := openedBy_eq_none (n := line) (by simp [htag])
    refine ⟨by simp [openAfter_append, hopenEq, scanLine, hnone, hopen], by simp [hopen], ?_⟩
    rw [scanMeets_append, hmeets, BlockMeets, BlockMeets]
    simp [hopenEq, hopen]

theorem lex_meets_iff (hQ : ∀ tag, ¬ Q tag []) {firstLine : Nat} {items : List Item}
    (h : lex input firstLine = .ok items) :
    ScanMeets Q (lines input)
      ↔ ∃ b, Item.block b ∈ items ∧ ∃ l ∈ physicalLines b.body, Q b.tag l := by
  obtain ⟨blocks, hlex⟩ := lex_ok h
  have hstart : ScanAgrees Q {} [] := by
    refine ⟨rfl, by simp, ?_⟩
    simp [ScanMeets, BlockMeets]
  have hagrees := lexLines_invariant
    (P := fun st done => (∀ l ∈ done, '\n' ∉ l) → ScanAgrees Q st done) ?_ (lines input)
    firstLine {} _ [] (fun _ => hstart) hlex (fun l hl => newline_not_mem_lines hl)
  · have hmeets := hagrees.meets_iff
    simpa [BlockMeets] using hmeets
  · intro st line l st' done hst _ hstep hdone
    exact scanAgrees_step hQ (hst fun m hm => hdone m (by simp [hm])) (hdone l (by simp)) hstep

end Scan

/-! ## §4. Closing lines. -/

theorem inlineMaterial_lower (h : tag ∈ inlineMaterial) :
    toAsciiLowercase tag.toList = tag.toList := by
  have hall : inlineMaterial.all
      (fun t => toAsciiLowercase t.toList == t.toList) = true := by decide
  simpa using List.all_eq_true.mp hall tag h

theorem closeTag_of_trim (h : trim l = closingLine tag) :
    closeTag l = some (String.ofList (toAsciiLowercase tag.toList)) := by
  have hopen : (closingLine tag).dropPrefix? ['<', '/'] = some (tag.toList ++ ['>']) := by
    rw [List.dropPrefix?_eq_some_iff]
    exact ⟨['<', '/'], rfl, by simp⟩
  have hclose : (tag.toList ++ ['>']).dropSuffix? ['>'] = some tag.toList := by
    rw [List.dropSuffix?_eq_some_iff]
    exact ⟨['>'], rfl, by simp⟩
  rw [closeTag, h, hopen, Option.bind_some, hclose]
  rfl

theorem length_of_closeTag (h : closeTag l = some tag) :
    (trim l).length = (closingLine tag).length := by
  rw [closeTag, Option.map_eq_some_iff] at h
  obtain ⟨name, hname, rfl⟩ := h
  obtain ⟨rest, hrest, hname⟩ := Option.bind_eq_some_iff.mp hname
  obtain ⟨pre, hpre, heq⟩ := List.dropPrefix?_eq_some_iff.mp hrest
  obtain ⟨suf, hsuf, heq'⟩ := List.dropSuffix?_eq_some_iff.mp hname
  rw [hpre, hsuf, beq_iff_eq.mp heq, beq_iff_eq.mp heq']
  simp [closingLine, toAsciiLowercase]

theorem closeTag_iff_blank {rest : Line} (htag : tag ∈ inlineMaterial)
    (h : trimStart l = closingLine tag ++ rest) :
    closeTag l = some tag ↔ rest.all isWhitespace = true := by
  have htrim : trim l = if rest.all isWhitespace then (closingLine tag).rdropWhile isWhitespace
      else closingLine tag ++ rest.rdropWhile isWhitespace := by
    rw [trim, h, rdropWhile_append]
  constructor
  · intro hclose
    by_contra hblank
    rw [if_neg hblank] at htrim
    -- the text after the tag makes the line longer than any closing line
    have hlen := length_of_closeTag hclose
    rw [htrim, List.length_append, Nat.add_eq_left, List.length_eq_zero_iff,
      List.rdropWhile_eq_nil_iff] at hlen
    exact hblank (List.all_eq_true.mpr hlen)
  · intro hblank
    have hself : (closingLine tag).rdropWhile isWhitespace = closingLine tag := by
      rw [List.rdropWhile_eq_self_iff]
      intro hne
      have hlast : (closingLine tag).getLast hne = '>' := by simp [closingLine]
      rw [hlast]
      decide
    rw [if_pos hblank, hself] at htrim
    rw [closeTag_of_trim htrim, inlineMaterial_lower htag, String.ofList_toList]

/-! ## §5. The stock reader on the emitted lines. -/

theorem readerOpens_openingLine (tag : String) : readerOpens (openingLine tag) = some tag := by
  have htrim : trim (openingLine tag) = openingLine tag := by
    refine trim_eq_self ?_ ?_
    · intro c hc
      rw [openingLine, List.head?_cons, Option.mem_some_iff] at hc
      rw [← hc]
      decide
    · intro c hc
      rw [openingLine, ← List.cons_append, List.getLast?_append] at hc
      simp only [List.getLast?_singleton, Option.some_or, Option.mem_some_iff] at hc
      rw [← hc]
      decide
  have hopen : (openingLine tag).dropPrefix? ['<'] = some (tag.toList ++ ['>']) := by
    rw [List.dropPrefix?_eq_some_iff]
    exact ⟨['<'], rfl, by simp⟩
  have hclose : (tag.toList ++ ['>']).dropSuffix? ['>'] = some tag.toList := by
    rw [List.dropSuffix?_eq_some_iff]
    exact ⟨['>'], rfl, by simp⟩
  rw [readerOpens, htrim, hopen, Option.bind_some, hclose, Option.map_some, String.ofList_toList]

theorem endsBlock_closingLine (tag : String) : endsBlock tag (closingLine tag) = true := by
  have hstart : trimStart (closingLine tag) = closingLine tag := by
    simp [trimStart, closingLine, show isWhitespace '<' = false by decide]
  rw [endsBlock, hstart, List.isPrefixOf_iff_prefix]

theorem ne_of_isLower {c : Char} (h : c.isLower = true) : c ≠ '<' := by
  rintro rfl
  exact absurd h (by decide)

theorem readerOpens_display (h : DirectiveOk d) :
    readerOpens d.display = none := by
  obtain ⟨c, cs, hd, hc⟩ := h.display_head
  have hhead := trim_head cs (isWhitespace_of_isLower hc)
  rw [readerOpens, hd]
  cases hstrip : (trim (c :: cs)).dropPrefix? ['<'] with
  | none => rfl
  | some rest =>
    obtain ⟨pre, hpre, heq⟩ := List.dropPrefix?_eq_some_iff.mp hstrip
    rw [hpre, beq_iff_eq.mp heq] at hhead
    simp only [List.cons_append, List.head?_cons, Option.some.injEq] at hhead
    exact absurd hhead.symm (ne_of_isLower hc)

theorem endsBlock_display (h : DirectiveOk d) (tag : String) :
    endsBlock tag d.display = false := by
  obtain ⟨c, cs, hd, hc⟩ := h.display_head
  have hstart : trimStart d.display = c :: cs := by
    rw [hd]
    simp [trimStart, isWhitespace_of_isLower hc]
  rw [endsBlock, hstart, closingLine, List.isPrefixOf_cons_cons]
  simp [(ne_of_isLower hc).symm]

theorem configLines_directives {ds : List EmittedDirective} (h : ∀ d ∈ ds, DirectiveOk d)
    (rest : List Line) :
    configLines none (ds.map EmittedDirective.display ++ rest)
      = ds.map EmittedDirective.display ++ configLines none rest := by
  induction ds with
  | nil => rfl
  | cons d ds ih =>
    rw [List.map_cons, List.cons_append, configLines, readerOpens_display (h d (by simp)),
      ih fun e he => h e (by simp [he])]
    rfl

theorem configLines_connection {c : ConnectionBlock} (h : ∀ d ∈ c.directives, DirectiveOk d)
    (rest : List Line) :
    configLines none (c.emittedLines ++ rest) = c.emittedLines ++ configLines none rest := by
  have hinside : ∀ ds : List EmittedDirective, (∀ d ∈ ds, DirectiveOk d) →
      configLines (some connectionTag)
          (ds.map EmittedDirective.display ++ (closingLine connectionTag :: rest))
        = ds.map EmittedDirective.display ++
          (closingLine connectionTag :: configLines none rest) := by
    intro ds
    induction ds with
    | nil =>
      intro _
      simp [configLines, endsBlock_closingLine]
    | cons d ds ih =>
      intro hds
      have hd := endsBlock_display (hds d (by simp)) connectionTag
      simp [configLines, hd, ih fun e he => hds e (by simp [he])]
  rw [ConnectionBlock.emittedLines, List.cons_append, List.append_assoc, configLines,
    readerOpens_openingLine, List.singleton_append, hinside c.directives h]
  simp

theorem configLines_inline {m : InlineMaterial} (htag : m.tag ≠ connectionTag)
    (h : ∀ l ∈ m.bodyLines, endsBlock m.tag l = false) (rest : List Line) :
    configLines none (m.emittedLines ++ rest)
      = [openingLine m.tag, closingLine m.tag] ++ configLines none rest := by
  have hinside : ∀ ls : List Line, (∀ l ∈ ls, endsBlock m.tag l = false) →
      configLines (some m.tag) (ls ++ (closingLine m.tag :: rest))
        = closingLine m.tag :: configLines none rest := by
    intro ls
    induction ls with
    | nil =>
      intro _
      simp [configLines, endsBlock_closingLine]
    | cons l ls ih =>
      intro hls
      simp [configLines, hls l (by simp), htag, ih fun k hk => hls k (by simp [hk])]
  rw [InlineMaterial.emittedLines, List.cons_append, List.append_assoc, configLines,
    readerOpens_openingLine, List.singleton_append, hinside m.bodyLines h]
  rfl

theorem configLines_flatMap {α : Type} {f g : α → List Line} {xs : List α}
    (h : ∀ x ∈ xs, ∀ rest, configLines none (f x ++ rest) = g x ++ configLines none rest)
    (rest : List Line) :
    configLines none (xs.flatMap f ++ rest) = xs.flatMap g ++ configLines none rest := by
  induction xs with
  | nil => rfl
  | cons x xs ih =>
    rw [List.flatMap_cons, List.append_assoc, h x (by simp),
      ih fun y hy => h y (by simp [hy]), List.flatMap_cons, List.append_assoc]

/-! ## §6. The exact condition. -/

def Loose (tag : String) (l : Line) : Prop := tag ∈ inlineMaterial ∧ endsBlock tag l = true

theorem not_loose_nil (tag : String) : ¬ Loose tag [] := by
  simp [Loose, endsBlock, trimStart, closingLine]

theorem noTextAfterCloser_iff (input : List Char) :
    NoTextAfterCloser input ↔ ¬ ScanMeets Loose (lines input) := by
  constructor
  · rintro hno ⟨pre, l, post, tag, hsplit, hopen, hclose, htag, hends⟩
    rw [endsBlock, List.isPrefixOf_iff_prefix] at hends
    obtain ⟨rest, hrest⟩ := hends
    have hblank := hno pre l post tag rest hsplit hopen htag hrest.symm
    exact hclose ((closeTag_iff_blank htag hrest.symm).mpr hblank)
  · intro hmeets pre l post tag rest hsplit hopen htag hrest
    by_contra hblank
    refine hmeets ⟨pre, l, post, tag, hsplit, hopen, ?_, htag, ?_⟩
    · rw [Ne, closeTag_iff_blank htag hrest]
      exact hblank
    · rw [endsBlock, List.isPrefixOf_iff_prefix, hrest]
      exact ⟨rest, rfl⟩

theorem bodies_sealed_iff (h : parseProfile input = .ok p) :
    (∀ m ∈ p.inline, ∀ l ∈ physicalLines m.body, endsBlock m.tag l = false)
      ↔ NoTextAfterCloser input := by
  obtain ⟨items, n, hlex, hitems, -⟩ := parseProfile_ok h
  have hread := profileItems_inlineRead hitems
  have htags := (parseProfile_profileOk h).tags_mem
  rw [noTextAfterCloser_iff, lex_meets_iff not_loose_nil hlex]
  constructor
  · rintro hsealed ⟨b, hb, l, hl, htag, hends⟩
    have hm := (hread ⟨b.tag, b.body⟩).mpr ⟨b, hb, ne_connectionTag htag, rfl⟩
    simpa [hends] using hsealed _ hm l hl
  · intro hmeets m hm l hl
    obtain ⟨b, hb, -, rfl⟩ := (hread m).mp hm
    by_contra hends
    exact hmeets ⟨b, hb, l, hl, htags _ hm, by simpa using hends⟩

theorem configLines_canonical (h : parseProfile input = .ok p)
    (hsealed : ∀ m ∈ p.inline, ∀ l ∈ physicalLines m.body, endsBlock m.tag l = false) :
    configLines none (physicalLines p.toCanonicalConfig) = p.skeleton := by
  have hp := parseProfile_profileOk h
  have hlines : physicalLines p.toCanonicalConfig = p.emittedLines := by
    rw [toCanonicalConfig_eq h, physicalLines_unlines _ (newline_not_mem_emittedLines h)]
  have hinline : ∀ m ∈ p.inline, ∀ rest, configLines none (m.emittedLines ++ rest)
      = [openingLine m.tag, closingLine m.tag] ++ configLines none rest := by
    intro m hm
    refine configLines_inline (ne_connectionTag (hp.tags_mem m hm)) ?_
    intro l hl
    rw [InlineMaterial.bodyLines] at hl
    split at hl
    · rw [List.mem_singleton.mp hl]
      simp [endsBlock, trimStart, closingLine]
    · exact hsealed m hm l hl
  have hconn : ∀ c ∈ p.connections, ∀ rest, configLines none (c.emittedLines ++ rest)
      = c.emittedLines ++ configLines none rest := fun c hc =>
    configLines_connection fun d hd => (hp.connections_ok c hc d hd).1
  rw [hlines, Profile.emittedLines, Profile.skeleton, List.append_assoc,
    configLines_directives hp.directives_ok, configLines_flatMap hconn,
    ← List.append_nil (p.inline.flatMap InlineMaterial.emittedLines), configLines_flatMap hinline]
  simp [configLines]

/-- **THE EXACT CONDITION.**  For every accepted text, its inline bodies are sealed if and only if
no closing tag of an open inline block has text after it on its line. -/
theorem sealed_iff_noTextAfterCloser (input : List Char) (p : Profile)
    (h : parseProfile input = .ok p) : Sealed p ↔ NoTextAfterCloser input := by
  rw [← bodies_sealed_iff h]
  constructor
  · intro hsealed
    exact hsealed.1
  · intro hbodies
    exact ⟨hbodies, configLines_canonical h hbodies⟩

/-- An ordinary profile meets the condition. -/
theorem noTextAfterCloser_sampleText :
    Sealed sampleProfile ∧ NoTextAfterCloser sampleText := by
  have hsealed : Sealed sampleProfile := ⟨by decide, by decide⟩
  exact ⟨hsealed,
    (sealed_iff_noTextAfterCloser sampleText sampleProfile parseProfile_sampleText).mp hsealed⟩

def breakoutText : List Char := "remote a 1\n<ca>\n</ca>x\nup /tmp/x\n</ca>\n".toList

def breakoutProfile : Profile :=
  { directives := [⟨"remote", ["a", "1"]⟩]
    inline := [⟨"ca", "</ca>x\nup /tmp/x\n".toList⟩]
    remotes := [⟨.name "a", 1, none⟩] }

/-- **The breakout**: the text is accepted, its body holds a line that starts with `</ca>`, and the
stock reader takes the `up` line of the body for configuration, where it is no emitted line. -/
theorem breakout_not_sealed :
    parseProfile breakoutText = .ok breakoutProfile ∧ ¬ Sealed breakoutProfile
      ∧ "up /tmp/x".toList ∈ configLines none (physicalLines breakoutProfile.toCanonicalConfig)
      ∧ "up /tmp/x".toList ∉ breakoutProfile.skeleton := by
  refine ⟨rfl, ?_, by decide, by decide⟩
  intro hsealed
  have hline := hsealed.1 ⟨"ca", "</ca>x\nup /tmp/x\n".toList⟩ (by decide) "</ca>x".toList
    (by decide)
  exact absurd hline (by decide)

end ThisConnect.Ovpn
