/-
  ThisConnect.Ovpn.Emission
  **THE CANONICAL CONFIG, LINE BY LINE.**
-/
import ThisConnect.Ovpn.Allowlist

namespace ThisConnect.Ovpn

open Text

/-! ## §1. The body of a block. -/

theorem finishBody_eq (ls : List Line) :
    finishBody ls = if ls = [] ∨ ls = [[]] then [] else unlines ls := by
  match ls with
  | [] => rfl
  | [[]] => rfl
  | [c :: l] => simp [finishBody, List.intercalate]
  | l :: m :: ls =>
    have hne : ¬ (List.intercalate ['\n'] (l :: m :: ls)).isEmpty = true := by
      simp [List.intercalate]
    rw [finishBody, if_neg hne, intercalate_newline]
    simp

variable {ls : List Line} {input : List Char} {d : EmittedDirective} {c : Char} {p : Profile}
variable {tag : String}

theorem physicalLines_finishBody (h : ∀ l ∈ ls, '\n' ∉ l) :
    physicalLines (finishBody ls) = if ls = [[]] then [] else ls := by
  rw [finishBody_eq]
  by_cases hempty : ls = [] ∨ ls = [[]]
  · rw [if_pos hempty]
    rcases hempty with rfl | rfl <;> rfl
  · rw [if_neg hempty, physicalLines_unlines ls h, if_neg fun h => hempty (Or.inr h)]

structure BlockLines (tag : String) (ls : List Line) : Prop where
  no_nul : ∀ l ∈ ls, '\x00' ∉ l
  no_close : ∀ l ∈ ls, closeTag l ≠ some tag
  bytes_le : bodyBytes ls ≤ maxInlineBytes

structure BlocksRead (st : LexState) (done : List Line) : Prop where
  finished : ∀ b, Item.block b ∈ st.items →
    ∃ ls, b.body = finishBody ls ∧ BlockLines b.tag ls ∧ ∀ l ∈ ls, l ∈ done
  unfinished : ∀ b, st.open? = some b → BlockLines b.tag b.body ∧ ∀ l ∈ b.body, l ∈ done

theorem blocksRead_step {st st' : LexState} {line : Nat} {l : Line} {done : List Line}
    (hst : BlocksRead st done) (hnul : '\x00' ∉ l) (h : LexStep st line l st') :
    BlocksRead st' (done ++ [l]) := by
  have hfinished : ∀ b, Item.block b ∈ st.items →
      ∃ ls, b.body = finishBody ls ∧ BlockLines b.tag ls ∧ ∀ m ∈ ls, m ∈ done ++ [l] := by
    intro b hb
    obtain ⟨ls, hbody, hlines, hdone⟩ := hst.finished b hb
    exact ⟨ls, hbody, hlines, fun m hm => List.mem_append_left _ (hdone m hm)⟩
  cases h with
  | close b hopen _ _ =>
    obtain ⟨hlines, hdone⟩ := hst.unfinished b hopen
    refine ⟨?_, by simp⟩
    intro b' hb'
    rcases List.mem_append.mp hb' with hb' | hb'
    · exact hfinished b' hb'
    · rw [List.mem_singleton, Item.block.injEq] at hb'
      subst hb'
      exact ⟨b.body, rfl, hlines, fun m hm => List.mem_append_left _ (hdone m hm)⟩
  | body b hopen hclose hbytes =>
    obtain ⟨hlines, hdone⟩ := hst.unfinished b hopen
    refine ⟨hfinished, ?_⟩
    intro b' hb'
    injection hb' with hb'
    subst hb'
    refine ⟨⟨?_, ?_, hbytes⟩, ?_⟩
    · intro m hm
      rcases List.mem_append.mp hm with hm | hm
      · exact hlines.no_nul m hm
      · exact List.mem_singleton.mp hm ▸ hnul
    · intro m hm
      rcases List.mem_append.mp hm with hm | hm
      · exact hlines.no_close m hm
      · exact List.mem_singleton.mp hm ▸ hclose
    · intro m hm
      rcases List.mem_append.mp hm with hm | hm
      · exact List.mem_append_left _ (hdone m hm)
      · exact List.mem_append_right _ hm
  | skip hopen _ => exact ⟨hfinished, by simp [hopen]⟩
  | enter tag hopen _ =>
    refine ⟨hfinished, ?_⟩
    intro b hb
    injection hb with hb
    subst hb
    exact ⟨⟨by simp, by simp, by simp [bodyBytes]⟩, by simp⟩
  | emit name args hopen _ _ _ =>
    refine ⟨fun b hb => hfinished b (by simpa using hb), by simp [hopen]⟩

variable {items : List Item} {α : Type} {m : InlineMaterial} {n : Nat}

theorem lex_block_body {firstLine : Nat} (h : lex input firstLine = .ok items) {b : RawBlock}
    (hb : Item.block b ∈ items) :
    ∃ ls, b.body = finishBody ls ∧ BlockLines b.tag ls ∧ ∀ l ∈ ls, l ∈ lines input := by
  obtain ⟨blocks, hlex⟩ := lex_ok h
  have hread := lexLines_invariant (P := BlocksRead)
    (fun st line l st' done hst hnul hstep => blocksRead_step hst hnul hstep) (lines input)
    firstLine {} _ [] ⟨by simp, by simp⟩ hlex
  exact hread.finished b hb

/-! ## §2. Directive lines. -/

def isLineChar (c : Char) : Bool := isPermitted c || c == '"'

theorem quoteArg_char {arg : String} (h : ArgOk arg) : ∀ c ∈ quoteArg arg, isLineChar c = true := by
  intro c hc
  rw [quoteArg] at hc
  split at hc
  · simp only [List.mem_cons, List.mem_append, List.not_mem_nil, or_false] at hc
    rcases hc with rfl | hc | rfl
    · decide
    · simp [isLineChar, h.2 c hc]
    · decide
  · simp [isLineChar, h.2 c hc]

def isWordName (name : String) : Bool :=
  (name.toList.head?.map Char.isLower).getD false
    && name.toList.all fun c => c.isAlphanum || c == '-'

theorem emittedNames_word : emittedNames.all isWordName = true := by
  decide

theorem DirectiveOk.name_word (h : DirectiveOk d) :
    (∃ c cs, d.name.toList = c :: cs ∧ c.isLower = true)
      ∧ ∀ c ∈ d.name.toList, (c.isAlphanum || c == '-') = true := by
  have hword := List.all_eq_true.mp emittedNames_word d.name h.name_mem
  rw [isWordName, Bool.and_eq_true] at hword
  refine ⟨?_, List.all_eq_true.mp hword.2⟩
  cases hname : d.name.toList with
  | nil => simp [hname] at hword
  | cons c cs => exact ⟨c, cs, rfl, by simpa [hname] using hword.1⟩

theorem DirectiveOk.display_head (h : DirectiveOk d) :
    ∃ c cs, d.display = c :: cs ∧ c.isLower = true := by
  obtain ⟨⟨c, cs, hname, hc⟩, -⟩ := h.name_word
  exact ⟨c, _, by rw [EmittedDirective.display, hname]; rfl, hc⟩

theorem DirectiveOk.display_char (h : DirectiveOk d) : ∀ c ∈ d.display, isLineChar c = true := by
  intro c hc
  rw [EmittedDirective.display, List.mem_append, List.mem_flatMap] at hc
  rcases hc with hc | ⟨arg, harg, hc⟩
  · have hword := h.name_word.2 c hc
    rw [Bool.or_eq_true, beq_iff_eq] at hword
    rcases hword with hword | rfl
    · simp [isLineChar, isPermitted, hword]
    · decide
  · rcases List.mem_cons.mp hc with rfl | hc
    · decide
    · exact quoteArg_char (h.args_ok arg harg) c hc

theorem DirectiveOk.not_mem_display (h : DirectiveOk d) (hc : isLineChar c = false) :
    c ∉ d.display := fun hmem => by
  simpa [hc] using h.display_char c hmem

/-! ## §3. The whole text. -/

def InlineMaterial.bodyLines (m : InlineMaterial) : List Line :=
  if m.body.isEmpty then [[]] else physicalLines m.body

def InlineMaterial.emittedLines (m : InlineMaterial) : List Line :=
  openingLine m.tag :: (m.bodyLines ++ [closingLine m.tag])

def ConnectionBlock.emittedLines (c : ConnectionBlock) : List Line :=
  openingLine connectionTag ::
    (c.directives.map EmittedDirective.display ++ [closingLine connectionTag])

/-- The lines of the canonical config. -/
def Profile.emittedLines (p : Profile) : List Line :=
  p.directives.map EmittedDirective.display
    ++ p.connections.flatMap ConnectionBlock.emittedLines
    ++ p.inline.flatMap InlineMaterial.emittedLines

theorem flatMap_unlines (f : α → List Char) (xs : List α) :
    xs.flatMap (fun x => f x ++ ['\n']) = unlines (xs.map f) := by
  rw [unlines, List.flatMap_map]

theorem flatMap_unlines_of {f : α → List Char} {g : α → List Line} {xs : List α}
    (h : ∀ x ∈ xs, f x = unlines (g x)) : xs.flatMap f = unlines (xs.flatMap g) := by
  induction xs with
  | nil => rfl
  | cons x xs ih =>
    rw [List.flatMap_cons, List.flatMap_cons, unlines_append, h x (by simp),
      ih fun y hy => h y (by simp [hy])]

theorem ConnectionBlock.emit_eq (c : ConnectionBlock) : c.emit = unlines c.emittedLines := by
  rw [ConnectionBlock.emit, ConnectionBlock.emittedLines, flatMap_unlines]
  simp [connectionTag]

theorem bodyLines_eq (hbody : m.body = finishBody ls) (h : ∀ l ∈ ls, '\n' ∉ l) :
    m.bodyLines = if ls = [] then [[]] else ls := by
  rw [InlineMaterial.bodyLines, hbody]
  by_cases hempty : ls = [] ∨ ls = [[]]
  · rw [finishBody_eq, if_pos hempty]
    rcases hempty with rfl | rfl <;> rfl
  · have hne : unlines ls ≠ [] := by
      cases ls with
      | nil => exact absurd (Or.inl rfl) hempty
      | cons l ls => simp
    rw [finishBody_eq, if_neg hempty, if_neg (by simpa using hne), physicalLines_unlines ls h,
      if_neg fun h => hempty (Or.inl h)]

theorem InlineMaterial.emit_eq (hbody : m.body = finishBody ls) (h : ∀ l ∈ ls, '\n' ∉ l) :
    m.emit = unlines m.emittedLines := by
  rw [InlineMaterial.emittedLines, bodyLines_eq hbody h, InlineMaterial.emit, hbody]
  by_cases hempty : ls = [] ∨ ls = [[]]
  · rw [finishBody_eq, if_pos hempty]
    rcases hempty with rfl | rfl <;> simp
  · have hlast : (unlines ls).getLast? = some '\n' := by
      have hne : ls ≠ [] := fun h => hempty (Or.inl h)
      rw [← List.dropLast_append_getLast hne, unlines_append]
      simp
    rw [finishBody_eq, if_neg hempty, if_pos hlast, if_neg fun h => hempty (Or.inl h)]
    simp

def InlineRead (parts : Profile) (done : List Item) : Prop :=
  ∀ m, m ∈ parts.inline ↔
    ∃ b, Item.block b ∈ done ∧ b.tag ≠ connectionTag ∧ m = ⟨b.tag, b.body⟩

theorem inlineRead_step {parts parts' : Profile} {count : Nat} {item : Item} {done : List Item}
    (hparts : InlineRead parts done) (h : ProfileStep parts count item parts' n) :
    InlineRead parts' (done ++ [item]) := by
  intro m
  cases h with
  | directive raw c _ _ => simp [hparts m]
  | connection block conn n htag _ =>
    show m ∈ parts.inline ↔ _
    rw [hparts m]
    constructor
    · rintro ⟨b, hb, htag', hm⟩
      exact ⟨b, List.mem_append_left _ hb, htag', hm⟩
    · rintro ⟨b, hb, htag', hm⟩
      rcases List.mem_append.mp hb with hb | hb
      · exact ⟨b, hb, htag', hm⟩
      · rw [List.mem_singleton, Item.block.injEq] at hb
        exact absurd (hb ▸ htag) htag'
  | inline block hconn _ _ =>
    show m ∈ parts.inline ++ [_] ↔ _
    rw [List.mem_append, hparts m, List.mem_singleton]
    constructor
    · rintro (⟨b, hb, htag, hm⟩ | hm)
      · exact ⟨b, List.mem_append_left _ hb, htag, hm⟩
      · exact ⟨block, by simp, hconn, hm⟩
    · rintro ⟨b, hb, htag, hm⟩
      rcases List.mem_append.mp hb with hb | hb
      · exact Or.inl ⟨b, hb, htag, hm⟩
      · rw [List.mem_singleton, Item.block.injEq] at hb
        exact Or.inr (hb ▸ hm)

theorem profileItems_inlineRead (h : profileItems {} 0 items = .ok (p, n)) : InlineRead p items :=
  profileItems_invariant (P := fun parts _ done => InlineRead parts done)
    (fun _ _ _ _ _ _ hparts hstep => inlineRead_step hparts hstep) items {} 0 p n []
    (by simp [InlineRead]) h

theorem parseProfile_body (h : parseProfile input = .ok p) :
    ∀ m ∈ p.inline,
      ∃ ls, m.body = finishBody ls ∧ BlockLines m.tag ls ∧ ∀ l ∈ ls, l ∈ lines input := by
  obtain ⟨items, n, hlex, hitems, -⟩ := parseProfile_ok h
  intro m hm
  obtain ⟨b, hb, -, rfl⟩ := (profileItems_inlineRead hitems m).mp hm
  exact lex_block_body hlex hb

theorem toCanonicalConfig_eq (h : parseProfile input = .ok p) :
    p.toCanonicalConfig = unlines p.emittedLines := by
  have hinline : p.inline.flatMap InlineMaterial.emit
      = unlines (p.inline.flatMap InlineMaterial.emittedLines) := by
    refine flatMap_unlines_of fun m hm => ?_
    obtain ⟨ls, hbody, -, hlines⟩ := parseProfile_body h m hm
    exact InlineMaterial.emit_eq hbody fun l hl => newline_not_mem_lines (hlines l hl)
  rw [Profile.toCanonicalConfig, Profile.emittedLines, unlines_append, unlines_append,
    flatMap_unlines, flatMap_unlines_of fun c _ => ConnectionBlock.emit_eq c, hinline]

/-! ### Characters that no emitted line holds. -/

theorem tag_char (h : tag ∈ connectionTag :: inlineMaterial) :
    ∀ c ∈ tag.toList, isLineChar c = true := by
  have hall : (connectionTag :: inlineMaterial).all (fun t => t.toList.all isLineChar) = true := by
    decide
  exact List.all_eq_true.mp (List.all_eq_true.mp hall tag h)

theorem ne_connectionTag (h : tag ∈ inlineMaterial) : tag ≠ connectionTag := by
  rintro rfl
  exact absurd h (by decide)

theorem not_mem_tagLine (h : tag ∈ connectionTag :: inlineMaterial) (hc : isLineChar c = false)
    (hl : c ≠ '<') (hr : c ≠ '>') : c ∉ openingLine tag ∧ c ∉ closingLine tag := by
  have htag : c ∉ tag.toList := fun hmem => by simpa [hc] using tag_char h c hmem
  have hslash : c ≠ '/' := by
    rintro rfl
    exact absurd hc (by decide)
  simp [openingLine, closingLine, htag, hl, hr, hslash]

theorem not_mem_emittedLines (h : parseProfile input = .ok p) (hc : isLineChar c = false)
    (hl : c ≠ '<') (hr : c ≠ '>') (hinput : ∀ l ∈ lines input, '\x00' ∉ l → c ∉ l) :
    ∀ l ∈ p.emittedLines, c ∉ l := by
  have hp := parseProfile_profileOk h
  intro l hmem
  simp only [Profile.emittedLines, List.mem_append, List.mem_map, List.mem_flatMap] at hmem
  rcases hmem with (⟨d, hd, rfl⟩ | ⟨b, hb, hmem⟩) | ⟨m, hm, hmem⟩
  · exact (hp.directives_ok d hd).not_mem_display hc
  · obtain ⟨hopening, hclosing⟩ := not_mem_tagLine (show connectionTag ∈ _ by simp) hc hl hr
    simp only [ConnectionBlock.emittedLines, List.mem_cons, List.mem_append, List.mem_map,
      List.not_mem_nil, or_false] at hmem
    rcases hmem with rfl | ⟨d, hd, rfl⟩ | rfl
    · exact hopening
    · exact (hp.connections_ok b hb d hd).1.not_mem_display hc
    · exact hclosing
  · obtain ⟨hopening, hclosing⟩ :=
      not_mem_tagLine (List.mem_cons_of_mem _ (hp.tags_mem m hm)) hc hl hr
    obtain ⟨ls, hbody, hlines, hfrom⟩ := parseProfile_body h m hm
    rw [InlineMaterial.emittedLines,
      bodyLines_eq hbody fun l hl => newline_not_mem_lines (hfrom l hl)] at hmem
    simp only [List.mem_cons, List.mem_append, List.not_mem_nil, or_false] at hmem
    rcases hmem with rfl | hmem | rfl
    · exact hopening
    · split at hmem
      · rw [List.mem_singleton.mp hmem]
        simp
      · exact hinput l (hfrom l hmem) (hlines.no_nul l hmem)
    · exact hclosing

theorem newline_not_mem_emittedLines (h : parseProfile input = .ok p) :
    ∀ l ∈ p.emittedLines, '\n' ∉ l :=
  not_mem_emittedLines h (by decide) (by decide) (by decide)
    fun _ hl _ => newline_not_mem_lines hl

end ThisConnect.Ovpn
