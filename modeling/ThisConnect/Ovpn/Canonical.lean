/-
  ThisConnect.Ovpn.Canonical
  **THE CANONICAL CONFIG IS A FIXED POINT OF THE IMPORTER.**
-/
import ThisConnect.Ovpn.Reparse

namespace ThisConnect.Ovpn

open Text

/-! ## §1. Backwards: what the first import knows. -/

/-- A verdict with the directive it emitted, reached again from that directive. -/
structure Settled (scope : Scope) (c : Classified) (d : EmittedDirective) : Prop where
  emitted : c.emitted = some d
  again : ∀ line, classify ⟨line, d.name, d.args⟩ scope = .ok c
  directive_ok : DirectiveOk d
  args_le : d.args.length ≤ maxArgs

variable {c : Classified} {d : EmittedDirective} {items : List Item} {count n : Nat} {p : Profile}
variable {input : List Char} {st : LexState} {ds : List EmittedDirective} {tag : String}
variable {ls : List Line} {m : InlineMaterial}

theorem verdict_args_le {ctx : Ctx} {name : String} {args : List String}
    (h : Verdict ctx name args c) (hd : c.emitted = some d) : d.args.length ≤ maxArgs := by
  have hopt : ∀ {α : Type} (o : Option α), o.toList.length ≤ 1 := by
    intro α o
    cases o <;> simp
  have hmax : maxArgs = 16 := rfl
  cases h with
  | verbatim _ hlen =>
    injection hd with hd
    subst hd
    exact hlen
  | verb arg v _ _ _ =>
    injection hd with hd
    subst hd
    simp [hmax]
  | fingerprint arg _ _ _ =>
    injection hd with hd
    subst hd
    simp [hmax]
  | proxy out _ hout =>
    injection hd with hd
    subst hd
    obtain ⟨_, -, hout⟩ := ok_of_bind hout
    obtain ⟨host, -, hout⟩ := ok_of_bind hout
    obtain ⟨port, -, hout⟩ := ok_of_bind hout
    obtain ⟨third, -, hout⟩ := ok_of_bind hout
    obtain ⟨fourth, -, hout⟩ := ok_of_bind hout
    injection hout with hout
    have h3 := hopt third
    have h4 := hopt fourth
    rw [← hout, List.length_append, List.length_append, List.length_cons, List.length_cons,
      List.length_nil]
    omega
  | remote r _ _ =>
    injection hd with hd
    subst hd
    have hproto := hopt (r.proto.map TransportProto.display)
    rw [Remote.toDirective, List.length_append, List.length_cons, List.length_cons,
      List.length_nil]
    omega
  | authUserPass _ _ =>
    injection hd with hd
    subst hd
    simp [EmittedDirective.bare]
  | staticChallenge ch _ _ =>
    injection hd with hd
    subst hd
    have hflags := hopt (ch.formatFlags.map fun flags => flags.toNat.repr)
    rw [StaticChallenge.toDirective, List.length_append, List.length_cons, List.length_cons,
      List.length_nil]
    omega
  | retained c hc => simp [hc] at hd

theorem settled_of_classify {raw : RawDirective} {scope : Scope} (h : classify raw scope = .ok c)
    (hd : c.emitted = some d) : Settled scope c d :=
  ⟨hd, classify_again h hd, (classify_directiveOk h hd).1,
    verdict_args_le (handle_verdict (classify_ok h).2.2.2) hd⟩

def SettledConnection (b : ConnectionBlock) : Prop :=
  ∃ cds : List (Classified × EmittedDirective),
    (∀ cd ∈ cds, Settled .connection cd.1 cd.2 ∧ (cd.1 = .emit cd.2 ∨ ∃ r, cd.1 = .remote r))
      ∧ b = ⟨cds.map Prod.snd, cds.filterMap fun cd => cd.1.remote?⟩

def Profile.core (p : Profile) : Profile :=
  { p with connections := [], inline := [], routes := [], redirectGateway := [], dhcpOptions := [] }

def connectionDirectives (p : Profile) : Nat := (p.connections.map fun c => c.directives.length).sum

structure Provenance (p : Profile) (count : Nat) : Prop where
  verdicts : ∃ cds : List (Classified × EmittedDirective),
    (∀ cd ∈ cds, Settled .topLevel cd.1 cd.2) ∧ p.directives = cds.map Prod.snd
      ∧ p.core = (cds.map Prod.fst).foldl absorb {}
  connections : ∀ c ∈ p.connections, SettledConnection c
  count_ge : p.directives.length + connectionDirectives p ≤ count
  count_le : count ≤ maxDirectives

variable {parts : Profile} {blocks start : Nat} {l : Line}
  {cds : List (Classified × EmittedDirective)}

theorem core_absorb_of_emitted (h : c.emitted = some d) :
    (absorb parts c).core = absorb parts.core c := by
  cases c <;> first | rfl | simp [Classified.emitted] at h

theorem core_absorb_of_not_emitted (h : c.emitted = none) :
    (absorb parts c).core = parts.core := by
  cases c <;> first | rfl | simp [Classified.emitted] at h

theorem connectionItems_settled {b : ConnectionBlock}
    (h : connectionItems ⟨[], []⟩ count items = .ok (b, n)) (hcount : count ≤ maxDirectives) :
    SettledConnection b ∧ n = count + b.directives.length ∧ n ≤ maxDirectives := by
  refine connectionItems_invariant
    (P := fun b m => SettledConnection b ∧ m = count + b.directives.length ∧ m ≤ maxDirectives)
    ?_ items ⟨[], []⟩ count b n ⟨⟨[], by simp, rfl⟩, by simp, hcount⟩ h
  rintro b m item b' n ⟨⟨cds, hcds, rfl⟩, hm, -⟩ hitem
  obtain ⟨raw, c, d, -, hle, rfl, hc, hd, hkind, rfl⟩ := connectionItem_ok hitem
  refine ⟨⟨cds ++ [(c, d)], ?_, ?_⟩, ?_, hle⟩
  · intro cd hcd
    rcases List.mem_append.mp hcd with hcd | hcd
    · exact hcds cd hcd
    · rw [List.mem_singleton.mp hcd]
      exact ⟨settled_of_classify hc hd, hkind⟩
  · rw [List.map_append, List.filterMap_append]
    cases hr : c.remote? <;> simp [hr]
  · simp only [List.length_append, List.length_singleton] at hm ⊢
    omega

theorem provenance_step {parts' : Profile} {item : Item} (hparts : Provenance parts count)
    (h : ProfileStep parts count item parts' n) : Provenance parts' n := by
  obtain ⟨⟨cds, hcds, hdirectives, hcore⟩, hconns, hge, hle⟩ := hparts
  cases h with
  | directive raw c hcount hc =>
    have hconnDirectives :
        connectionDirectives (absorb parts c) = connectionDirectives parts := by
      simp [connectionDirectives]
    cases hd : c.emitted with
    | none =>
      refine ⟨⟨cds, hcds, by simp [hd, hdirectives], ?_⟩, by simpa using hconns, ?_, hcount⟩
      · rw [core_absorb_of_not_emitted hd, hcore]
      · rw [hconnDirectives, absorb_directives, hd]
        simp only [Option.toList_none, List.append_nil]
        omega
    | some d =>
      refine ⟨⟨cds ++ [(c, d)], ?_, by simp [hd, hdirectives], ?_⟩, by simpa using hconns, ?_,
        hcount⟩
      · intro cd hcd
        rcases List.mem_append.mp hcd with hcd | hcd
        · exact hcds cd hcd
        · rw [List.mem_singleton.mp hcd]
          exact settled_of_classify hc hd
      · rw [core_absorb_of_emitted hd, hcore]
        simp
      · rw [hconnDirectives, absorb_directives, hd]
        simp only [Option.toList_some, List.length_append, List.length_singleton]
        omega
  | connection block conn m _ hconn =>
    obtain ⟨items, -, hitems⟩ := ok_of_bind hconn
    obtain ⟨hsettled, rfl, hmax⟩ := connectionItems_settled hitems hle
    refine ⟨⟨cds, hcds, hdirectives, hcore⟩, ?_, ?_, hmax⟩
    · intro c hc
      rcases List.mem_append.mp hc with hc | hc
      · exact hconns c hc
      · exact List.mem_singleton.mp hc ▸ hsettled
    · simp only [connectionDirectives, List.map_append, List.sum_append, List.map_singleton,
        List.sum_singleton] at hge ⊢
      omega
  | inline block _ _ _ => exact ⟨⟨cds, hcds, hdirectives, hcore⟩, hconns, hge, hle⟩

theorem Provenance.directive (h : Provenance p count) (hd : d ∈ p.directives) :
    DirectiveOk d ∧ d.args.length ≤ maxArgs := by
  obtain ⟨cds, hcds, heq, -⟩ := h.verdicts
  rw [heq] at hd
  obtain ⟨cd, hcd, rfl⟩ := List.mem_map.mp hd
  exact ⟨(hcds cd hcd).directive_ok, (hcds cd hcd).args_le⟩

theorem profileItems_provenance (h : profileItems {} 0 items = .ok (p, n)) : Provenance p n :=
  profileItems_invariant (P := fun parts count _ => Provenance parts count)
    (fun _ _ _ _ _ _ hparts hstep => provenance_step hparts hstep) items {} 0 p n []
    ⟨⟨[], by simp, rfl, rfl⟩, by simp, by simp [connectionDirectives], by simp⟩ h

/-! ### The number of blocks. -/

def Item.isBlock : Item → Bool
  | .directive _ => false
  | .block _ => true

theorem lex_blocks_le {firstLine : Nat} (h : lex input firstLine = .ok items) :
    items.countP Item.isBlock ≤ maxInlineBlocks := by
  obtain ⟨blocks, hlex⟩ := lex_ok h
  have hinv := lexLines_invariant
    (P := fun st _ => st.items.countP Item.isBlock = st.blocks ∧ st.blocks ≤ maxInlineBlocks) ?_
    (lines input) firstLine {} _ [] (by simp) hlex
  · exact hinv.1 ▸ hinv.2
  · rintro st line l st' done ⟨hcount, hle⟩ - hstep
    cases hstep with
    | close b _ _ hblocks =>
      refine ⟨?_, hblocks⟩
      simp [List.countP_append, hcount, Item.isBlock]
    | body b _ _ _ => exact ⟨hcount, hle⟩
    | skip _ _ => exact ⟨hcount, hle⟩
    | enter tag _ _ => exact ⟨hcount, hle⟩
    | emit name args _ _ _ _ =>
      refine ⟨?_, hle⟩
      simp [List.countP_append, hcount, Item.isBlock]

theorem profileItems_blocks_eq (h : profileItems {} 0 items = .ok (p, n)) :
    p.connections.length + p.inline.length = items.countP Item.isBlock := by
  refine profileItems_invariant (P := fun parts _ done =>
    parts.connections.length + parts.inline.length = done.countP Item.isBlock) ?_ items {} 0 p n []
    (by simp) h
  intro parts count item parts' n done hparts hstep
  rw [List.countP_append]
  cases hstep with
  | directive raw c _ _ => simpa [Item.isBlock] using hparts
  | connection block conn m _ _ =>
    simp only [List.length_append, List.length_singleton, List.countP_singleton, Item.isBlock]
    simp only [if_true]
    omega
  | inline block _ _ _ =>
    simp only [List.length_append, List.length_singleton, List.countP_singleton, Item.isBlock]
    simp only [if_true]
    omega

/-! ## §2. Forwards: the lexer on the canonical lines. -/

def DirectiveItem (d : EmittedDirective) (item : Item) : Prop :=
  ∃ line, item = .directive ⟨line, d.name, d.args⟩

def BlockItem (block : String × List Line) (item : Item) : Prop :=
  ∃ line, item = .block ⟨line, block.1, finishBody block.2⟩

theorem toAsciiLowercase_name (h : DirectiveOk d) :
    String.ofList (toAsciiLowercase d.name.toList) = d.name := by
  have hsafe := List.all_eq_true.mp emittedNames_safe d.name h.name_mem
  simp only [isSafeName, Bool.and_eq_true, beq_iff_eq] at hsafe
  rw [hsafe.1.1.1.2, String.ofList_toList]

theorem trim_display (h : DirectiveOk d) :
    ∃ c, (trim d.display).head? = some c ∧ c.isLower = true := by
  obtain ⟨c, cs, hd, hc⟩ := h.display_head
  exact ⟨c, by rw [hd, trim_head cs (isWhitespace_of_isLower hc)], hc⟩

theorem lexLine_display_eq (h : DirectiveOk d) (hargs : d.args.length ≤ maxArgs)
    (hopen : st.open? = none) (line : Nat) :
    lexLine st line d.display
      = if byteLen d.display > maxLineBytes then .error (.lineTooLong line maxLineBytes)
        else .ok { st with items := st.items ++ [.directive ⟨line, d.name, d.args⟩] } := by
  obtain ⟨c, hhead, hc⟩ := trim_display h
  have hne : ∀ x : Char, x.isLower = false → c ≠ x := by
    intro x hx hcx
    rw [hcx, hx] at hc
    simp at hc
  have hnul : d.display.contains '\x00' = false := by
    simpa using h.not_mem_display (show isLineChar '\x00' = false by decide)
  have hskip : ((trim d.display).isEmpty || isComment (trim d.display)) = false := by
    have hempty : (trim d.display).isEmpty = false := by
      cases htrim : trim d.display with
      | nil => simp [htrim] at hhead
      | cons x xs => rfl
    simp [hempty, isComment, hhead, hne '#' (by decide), hne ';' (by decide)]
  have htag : openTag (trim d.display) line = .ok none := by
    rw [openTag, if_pos (by simp [hhead, hne '<' (by decide)])]
  rw [lexLine, hnul, hopen]
  simp only [Bool.false_eq_true, if_false, hskip, htag, tokenize_display h line,
    toAsciiLowercase_name h]
  rw [if_neg (show ¬ d.args.length > maxArgs by omega)]

theorem lexLine_display (h : DirectiveOk d) (hargs : d.args.length ≤ maxArgs)
    (hlen : byteLen d.display ≤ maxLineBytes) (hopen : st.open? = none) (line : Nat) :
    lexLine st line d.display
      = .ok { st with items := st.items ++ [.directive ⟨line, d.name, d.args⟩] } := by
  rw [lexLine_display_eq h hargs hopen, if_neg (by omega)]

theorem lexLines_directives
    (h : ∀ d ∈ ds, DirectiveOk d ∧ d.args.length ≤ maxArgs ∧ byteLen d.display ≤ maxLineBytes) :
    ∀ (line : Nat) (st : LexState), st.open? = none →
      ∃ items, List.Forall₂ DirectiveItem ds items
        ∧ ∀ rest, lexLines line st (ds.map EmittedDirective.display ++ rest)
          = lexLines (line + ds.length) { st with items := st.items ++ items } rest := by
  induction ds with
  | nil =>
    intro line st hopen
    exact ⟨[], .nil, by simp⟩
  | cons d ds ih =>
    intro line st hopen
    obtain ⟨hok, hargs, hlen⟩ := h d (by simp)
    obtain ⟨items, hitems, hlex⟩ := ih (fun e he => h e (by simp [he])) (line + 1)
      { st with items := st.items ++ [.directive ⟨line, d.name, d.args⟩] } hopen
    refine ⟨.directive ⟨line, d.name, d.args⟩ :: items, .cons ⟨line, rfl⟩ hitems, ?_⟩
    intro rest
    rw [List.map_cons, List.cons_append, lexLines, lexLine_display hok hargs hlen hopen]
    show lexLines (line + 1) _ _ = _
    rw [hlex, List.length_cons]
    simp [Nat.add_comm, Nat.add_left_comm]

def blockLines (block : String × List Line) : List Line :=
  openingLine block.1 :: (block.2 ++ [closingLine block.1])

theorem openTag_openingLine (h : tag ∈ connectionTag :: inlineMaterial) (line : Nat) :
    openTag (trim (openingLine tag)) line = .ok (some tag) := by
  have hall : (connectionTag :: inlineMaterial).all
      (fun t => (openTag (trim (openingLine t)) 0).toOption == some (some t)) = true := by decide
  have htag := List.all_eq_true.mp hall tag h
  rw [beq_iff_eq] at htag
  cases hopen : openTag (trim (openingLine tag)) 0 with
  | error e => simp [hopen, Except.toOption] at htag
  | ok found =>
    rw [hopen] at htag
    injection htag with htag
    exact htag ▸ openTag_ok_line hopen line

theorem lexLine_openingLine (h : tag ∈ connectionTag :: inlineMaterial) (hopen : st.open? = none)
    (line : Nat) :
    lexLine st line (openingLine tag) = .ok { st with open? := some ⟨line, tag, []⟩ } := by
  have hall : (connectionTag :: inlineMaterial).all (fun t =>
      !(openingLine t).contains '\x00'
        && !((trim (openingLine t)).isEmpty || isComment (trim (openingLine t)))
        && decide (byteLen (openingLine t) ≤ maxLineBytes)) = true := by decide
  have htag := List.all_eq_true.mp hall tag h
  simp only [Bool.and_eq_true, Bool.not_eq_true', decide_eq_true_eq] at htag
  obtain ⟨⟨hnul, hskip⟩, hlen⟩ := htag
  rw [lexLine, hnul, hopen]
  simp only [Bool.false_eq_true, if_false, hskip, openTag_openingLine h line]
  rw [if_neg (by omega)]

theorem lexLine_closingLine (h : tag ∈ connectionTag :: inlineMaterial) {b : OpenBlock}
    (hopen : st.open? = some b) (htag : b.tag = tag) (hblocks : st.blocks + 1 ≤ maxInlineBlocks)
    (line : Nat) :
    lexLine st line (closingLine tag)
      = .ok ⟨st.items ++ [.block (finishBlock b)], none, st.blocks + 1⟩ := by
  have hall : (connectionTag :: inlineMaterial).all (fun t =>
      !(closingLine t).contains '\x00' && closeTag (closingLine t) == some t) = true := by decide
  have hclose := List.all_eq_true.mp hall tag h
  simp only [Bool.and_eq_true, Bool.not_eq_true', beq_iff_eq] at hclose
  rw [lexLine, hclose.1, hopen]
  simp only [Bool.false_eq_true, if_false, hclose.2, htag, if_true]
  rw [if_neg (by omega)]

theorem bodyBytes_append (xs ys : List Line) :
    bodyBytes (xs ++ ys) = bodyBytes xs + bodyBytes ys := by
  simp [bodyBytes]

theorem lexLine_body_eq (hnul : '\x00' ∉ l) (hclose : closeTag l ≠ some tag) (line : Nat)
    (done : List Line) :
    lexLine ⟨items, some ⟨start, tag, done⟩, blocks⟩ line l
      = if bodyBytes (done ++ [l]) > maxInlineBytes then
          .error (.inlineBlockTooLarge start tag maxInlineBytes)
        else .ok ⟨items, some ⟨start, tag, done ++ [l]⟩, blocks⟩ := by
  have hno : l.contains '\x00' = false := by simpa using hnul
  rw [lexLine, hno]
  simp only [Bool.false_eq_true, if_false]
  rw [if_neg hclose]

theorem lexLines_body (hnul : ∀ l ∈ ls, '\x00' ∉ l) (hclose : ∀ l ∈ ls, closeTag l ≠ some tag) :
    ∀ (line : Nat) (done rest : List Line), bodyBytes (done ++ ls) ≤ maxInlineBytes →
      lexLines line ⟨items, some ⟨start, tag, done⟩, blocks⟩ (ls ++ rest)
        = lexLines (line + ls.length) ⟨items, some ⟨start, tag, done ++ ls⟩, blocks⟩ rest := by
  induction ls with
  | nil => intro line done rest _; simp
  | cons l ls ih =>
    intro line done rest hbytes
    have hsnoc : done ++ l :: ls = (done ++ [l]) ++ ls := by simp
    rw [hsnoc] at hbytes
    have hpre : bodyBytes (done ++ [l]) ≤ maxInlineBytes := by
      rw [bodyBytes_append] at hbytes
      omega
    rw [List.cons_append, lexLines, lexLine_body_eq (hnul l (by simp)) (hclose l (by simp)),
      if_neg (by omega)]
    show lexLines (line + 1) _ (ls ++ rest) = _
    rw [ih (fun m hm => hnul m (by simp [hm])) (fun m hm => hclose m (by simp [hm])) (line + 1)
      (done ++ [l]) rest hbytes, hsnoc, List.length_cons]
    congr 1
    omega

theorem lexLines_block {block : String × List Line}
    (htag : block.1 ∈ connectionTag :: inlineMaterial) (hlines : BlockLines block.1 block.2)
    (hopen : st.open? = none) (hblocks : st.blocks + 1 ≤ maxInlineBlocks) (line : Nat)
    (rest : List Line) :
    lexLines line st (blockLines block ++ rest)
      = lexLines (line + block.2.length + 2)
          ⟨st.items ++ [.block ⟨line, block.1, finishBody block.2⟩], none, st.blocks + 1⟩ rest := by
  obtain ⟨tag, ls⟩ := block
  obtain ⟨items, _, blocks⟩ := st
  simp only at hopen hblocks htag hlines ⊢
  subst hopen
  rw [blockLines, List.cons_append, lexLines, lexLine_openingLine htag rfl, List.append_assoc]
  show lexLines (line + 1) ⟨items, some ⟨line, tag, []⟩, blocks⟩ _ = _
  rw [lexLines_body hlines.no_nul hlines.no_close (line + 1) [] _ hlines.bytes_le,
    List.singleton_append, lexLines, lexLine_closingLine htag rfl rfl hblocks]
  show lexLines (line + 1 + ls.length + 1) _ rest = _
  rw [show line + 1 + ls.length + 1 = line + ls.length + 2 by omega]
  rfl

theorem lexLines_blocks {blocks : List (String × List Line)}
    (h : ∀ b ∈ blocks, b.1 ∈ connectionTag :: inlineMaterial ∧ BlockLines b.1 b.2) :
    ∀ (line : Nat) (st : LexState), st.open? = none →
      st.blocks + blocks.length ≤ maxInlineBlocks →
      ∃ items line', List.Forall₂ BlockItem blocks items
        ∧ ∀ rest, lexLines line st (blocks.flatMap blockLines ++ rest)
          = lexLines line' ⟨st.items ++ items, none, st.blocks + blocks.length⟩ rest := by
  induction blocks with
  | nil =>
    intro line st hopen _
    obtain ⟨items, _, count⟩ := st
    simp only at hopen
    subst hopen
    exact ⟨[], line, .nil, by simp⟩
  | cons b blocks ih =>
    intro line st hopen hle
    rw [List.length_cons] at hle
    obtain ⟨htag, hlines⟩ := h b (by simp)
    obtain ⟨items, line', hitems, hlex⟩ := ih (fun c hc => h c (by simp [hc]))
      (line + b.2.length + 2)
      ⟨st.items ++ [.block ⟨line, b.1, finishBody b.2⟩], none, st.blocks + 1⟩ rfl
      (by show st.blocks + 1 + blocks.length ≤ _; omega)
    refine ⟨.block ⟨line, b.1, finishBody b.2⟩ :: items, line', .cons ⟨line, rfl⟩ hitems, ?_⟩
    intro rest
    rw [List.flatMap_cons, List.append_assoc,
      lexLines_block htag hlines hopen (by omega) line _, hlex, List.length_cons]
    simp [Nat.add_comm, Nat.add_left_comm]

/-! ## §3. Forwards: the importer on the lexed items. -/

theorem countDirective_of_le (h : count + 1 ≤ maxDirectives) :
    countDirective count = .ok (count + 1) := by
  rw [countDirective, if_neg (by omega)]

theorem profileItems_directives (h : ∀ cd ∈ cds, Settled .topLevel cd.1 cd.2) :
    ∀ (items : List Item) (parts : Profile) (count : Nat),
      List.Forall₂ DirectiveItem (cds.map Prod.snd) items → count + cds.length ≤ maxDirectives →
      ∀ rest, profileItems parts count (items ++ rest)
        = profileItems ((cds.map Prod.fst).foldl absorb parts) (count + cds.length) rest := by
  induction cds with
  | nil =>
    intro items parts count hitems _ rest
    cases hitems
    rfl
  | cons cd cds ih =>
    intro items parts count hitems hle rest
    rw [List.map_cons] at hitems
    rw [List.length_cons] at hle
    cases hitems with
    | cons hitem hitems =>
      obtain ⟨line, rfl⟩ := hitem
      have hstep : profileItem parts count (.directive ⟨line, cd.2.name, cd.2.args⟩)
          = .ok (absorb parts cd.1, count + 1) := by
        simp only [profileItem, countDirective_of_le (show count + 1 ≤ maxDirectives by omega),
          (h cd (by simp)).again line, bind, Except.bind]
      rw [List.cons_append, profileItems, hstep]
      show profileItems (absorb parts cd.1) (count + 1) _ = _
      rw [ih (fun e he => h e (by simp [he])) _ _ _ hitems (by omega), List.length_cons,
        List.map_cons, List.foldl_cons]
      congr 1
      omega

theorem connectionItems_directives
    (h : ∀ cd ∈ cds, Settled .connection cd.1 cd.2 ∧ (cd.1 = .emit cd.2 ∨ ∃ r, cd.1 = .remote r)) :
    ∀ (items : List Item) (b : ConnectionBlock) (count : Nat),
      List.Forall₂ DirectiveItem (cds.map Prod.snd) items → count + cds.length ≤ maxDirectives →
      connectionItems b count items
        = .ok (⟨b.directives ++ cds.map Prod.snd,
            b.remotes ++ cds.filterMap fun cd => cd.1.remote?⟩, count + cds.length) := by
  induction cds with
  | nil =>
    intro items b count hitems _
    cases hitems
    simp [connectionItems]
  | cons cd cds ih =>
    intro items b count hitems hle
    rw [List.map_cons] at hitems
    rw [List.length_cons] at hle
    cases hitems with
    | cons hitem hitems =>
      obtain ⟨line, rfl⟩ := hitem
      obtain ⟨hsettled, hkind⟩ := h cd (by simp)
      have hstep : connectionItem b count (.directive ⟨line, cd.2.name, cd.2.args⟩)
          = .ok (⟨b.directives ++ [cd.2], b.remotes ++ cd.1.remote?.toList⟩, count + 1) := by
        have hemitted := hsettled.emitted
        simp only [connectionItem,
          countDirective_of_le (show count + 1 ≤ maxDirectives by omega),
          hsettled.again line, bind, Except.bind]
        rcases hkind with hc | ⟨r, hc⟩
        · rw [hc]
          simp [Classified.remote?]
        · rw [hc] at hemitted ⊢
          injection hemitted with hemitted
          simp [Classified.remote?, hemitted]
      rw [connectionItems, hstep]
      show connectionItems _ (count + 1) _ = _
      rw [ih (fun e he => h e (by simp [he])) _ _ _ hitems (by omega)]
      cases hr : cd.1.remote? <;> simp [hr, Nat.add_comm, Nat.add_left_comm]

theorem lines_connectionBody (h : ∀ d ∈ ds, DirectiveOk d) :
    lines (finishBody (ds.map EmittedDirective.display)) = ds.map EmittedDirective.display := by
  rw [finishBody_eq]
  by_cases hempty : ds.map EmittedDirective.display = []
  · rw [if_pos (Or.inl hempty), hempty]
    rfl
  · have hone : ds.map EmittedDirective.display ≠ [[]] := by
      intro hone
      have hmem : [] ∈ ds.map EmittedDirective.display := by simp [hone]
      obtain ⟨d, hd, hnil⟩ := List.mem_map.mp hmem
      obtain ⟨c, cs, hcons, -⟩ := (h d hd).display_head
      simp [hcons] at hnil
    have hno : ∀ c : Char, isLineChar c = false →
        ∀ l ∈ ds.map EmittedDirective.display, c ∉ l := by
      intro c hc l hl
      obtain ⟨d, hd, rfl⟩ := List.mem_map.mp hl
      exact (h d hd).not_mem_display hc
    rw [if_neg (by simp [hempty, hone]),
      lines_unlines _ (hno '\n' (by decide)) (hno '\r' (by decide))]

theorem lex_connection
    (h : ∀ d ∈ ds, DirectiveOk d ∧ d.args.length ≤ maxArgs ∧ byteLen d.display ≤ maxLineBytes)
    (line : Nat) :
    ∃ items, List.Forall₂ DirectiveItem ds items
      ∧ lex (finishBody (ds.map EmittedDirective.display)) line = .ok items := by
  obtain ⟨items, hitems, hlex⟩ := lexLines_directives h line {} rfl
  refine ⟨items, hitems, ?_⟩
  have hrun := hlex []
  rw [List.append_nil] at hrun
  rw [lex, lines_connectionBody fun d hd => (h d hd).1, hrun]
  rfl

def ConnectionBlock.block (c : ConnectionBlock) : String × List Line :=
  (connectionTag, c.directives.map EmittedDirective.display)

/-- Inline material as tag and lines. -/
def InlineMaterial.block (m : InlineMaterial) : String × List Line := (m.tag, m.bodyLines)

theorem parseConnection_block {c : ConnectionBlock} (hc : SettledConnection c)
    (hlen : ∀ d ∈ c.directives, byteLen d.display ≤ maxLineBytes)
    (hle : count + c.directives.length ≤ maxDirectives) (line : Nat) :
    parseConnection ⟨line, connectionTag, finishBody c.block.2⟩ count
      = .ok (c, count + c.directives.length) := by
  obtain ⟨cds, hcds, rfl⟩ := hc
  have hdirectives : ∀ d ∈ cds.map Prod.snd,
      DirectiveOk d ∧ d.args.length ≤ maxArgs ∧ byteLen d.display ≤ maxLineBytes := by
    intro d hd
    obtain ⟨cd, hcd, rfl⟩ := List.mem_map.mp hd
    have hsettled := (hcds cd hcd).1
    exact ⟨hsettled.directive_ok, hsettled.args_le, hlen _ hd⟩
  obtain ⟨items, hitems, hlex⟩ := lex_connection hdirectives (line + 1)
  simp only [List.length_map] at hle ⊢
  rw [parseConnection, ConnectionBlock.block, hlex]
  show connectionItems ⟨[], []⟩ count items = _
  rw [connectionItems_directives hcds items ⟨[], []⟩ count hitems hle]
  rfl

theorem profileItems_connections {conns : List ConnectionBlock}
    (h : ∀ c ∈ conns, SettledConnection c ∧ ∀ d ∈ c.directives, byteLen d.display ≤ maxLineBytes) :
    ∀ (items : List Item) (parts : Profile) (count : Nat),
      List.Forall₂ BlockItem (conns.map ConnectionBlock.block) items →
      count + (conns.map fun c => c.directives.length).sum ≤ maxDirectives →
      ∀ rest, profileItems parts count (items ++ rest)
        = profileItems { parts with connections := parts.connections ++ conns }
            (count + (conns.map fun c => c.directives.length).sum) rest := by
  induction conns with
  | nil =>
    intro items parts count hitems _ rest
    cases hitems
    simp
  | cons c conns ih =>
    intro items parts count hitems hle rest
    rw [List.map_cons] at hitems
    rw [List.map_cons, List.sum_cons] at hle
    cases hitems with
    | cons hitem hitems =>
      obtain ⟨line, rfl⟩ := hitem
      obtain ⟨hc, hlen⟩ := h c (by simp)
      have hstep : profileItem parts count
          (.block ⟨line, c.block.1, finishBody c.block.2⟩)
          = .ok ({ parts with connections := parts.connections ++ [c] },
              count + c.directives.length) := by
        have hparse := parseConnection_block hc hlen
          (show count + c.directives.length ≤ maxDirectives by omega) line
        rw [profileItem, if_pos (show c.block.1 = connectionTag from rfl)]
        show (parseConnection ⟨line, connectionTag, finishBody c.block.2⟩ count).bind _ = _
        rw [hparse]
        rfl
      rw [List.cons_append, profileItems, hstep]
      show profileItems _ (count + c.directives.length) _ = _
      rw [ih (fun e he => h e (by simp [he])) _ _ _ hitems (by omega), List.map_cons,
        List.sum_cons, Nat.add_assoc]
      simp

theorem profileItems_inline {blocks : List (String × List Line)}
    (h : ∀ b ∈ blocks, b.1 ∈ inlineMaterial) :
    ∀ (items : List Item) (parts : Profile) (count : Nat), List.Forall₂ BlockItem blocks items →
      (parts.inline.map InlineMaterial.tag ++ blocks.map Prod.fst).Nodup →
      profileItems parts count items
        = .ok ({ parts with
            inline := parts.inline ++ blocks.map fun b => ⟨b.1, finishBody b.2⟩ }, count) := by
  induction blocks with
  | nil =>
    intro items parts count hitems _
    cases hitems
    simp [profileItems]
  | cons b blocks ih =>
    intro items parts count hitems hnodup
    cases hitems with
    | cons hitem hitems =>
      obtain ⟨line, rfl⟩ := hitem
      have htag := h b (by simp)
      have hnew : ∀ k ∈ parts.inline, k.tag ≠ b.1 := by
        intro k hk heq
        rw [List.nodup_append] at hnodup
        exact hnodup.2.2 k.tag (List.mem_map_of_mem hk) b.1 (by simp) heq
      have hstep : profileItem parts count (.block ⟨line, b.1, finishBody b.2⟩)
          = .ok ({ parts with inline := parts.inline ++ [⟨b.1, finishBody b.2⟩] }, count) := by
        rw [profileItem, if_neg (show b.1 ≠ connectionTag from ne_connectionTag htag),
          if_neg (by simpa [isInlineMaterial] using htag), if_neg (by simpa using hnew)]
      rw [profileItems, hstep]
      show profileItems _ count _ = _
      rw [ih (fun e he => h e (by simp [he])) _ _ _ hitems (by simpa using hnodup)]
      simp

/-! ## §4. The fixed point. -/

/-- The canonical text exceeds no size cap: the file, each directive line, each block.  (Inline
material keeps the size it was imported with.) -/
structure WithinCaps (p : Profile) : Prop where
  file : byteLen p.toCanonicalConfig ≤ maxFileBytes
  line : ∀ d ∈ p.directives, byteLen d.display ≤ maxLineBytes
  connection_line : ∀ c ∈ p.connections, ∀ d ∈ c.directives, byteLen d.display ≤ maxLineBytes
  connection : ∀ c ∈ p.connections,
    bodyBytes (c.directives.map EmittedDirective.display) ≤ maxInlineBytes

def Profile.kept (p : Profile) : Profile :=
  { p with routes := [], redirectGateway := [], dhcpOptions := [] }

def InlineMaterial.rereadBlock (m : InlineMaterial) : String × List Line :=
  (m.tag, m.bodyLines.map dropCr)

def InlineMaterial.reread (m : InlineMaterial) : InlineMaterial :=
  ⟨m.tag, finishBody (m.bodyLines.map dropCr)⟩

/-- What is read back of it. -/
def Profile.reread (p : Profile) : Profile :=
  { p.kept with inline := p.inline.map InlineMaterial.reread }

theorem emittedLines_eq_blocks (p : Profile) :
    p.emittedLines = p.directives.map EmittedDirective.display
      ++ ((p.connections.map ConnectionBlock.block).flatMap blockLines
        ++ ((p.inline.map InlineMaterial.block).flatMap blockLines ++ [])) := by
  rw [Profile.emittedLines, List.append_nil, List.flatMap_map, List.flatMap_map, List.append_assoc]
  rfl

theorem connectionLines_plain {c : ConnectionBlock} (h : ∀ d ∈ c.directives, DirectiveOk d) :
    (∀ l ∈ c.block.2, '\x00' ∉ l) ∧ ∀ l ∈ c.block.2, closeTag l ≠ some c.block.1 := by
  constructor
  · intro l hl
    obtain ⟨d, hd, rfl⟩ := List.mem_map.mp hl
    exact (h d hd).not_mem_display (by decide)
  · intro l hl
    obtain ⟨d, hd, rfl⟩ := List.mem_map.mp hl
    obtain ⟨c, hhead, hc⟩ := trim_display (h d hd)
    -- a directive line starts with a letter, a closing line with `<`
    have hnone : (trim d.display).dropPrefix? ['<', '/'] = none := by
      cases hstrip : (trim d.display).dropPrefix? ['<', '/'] with
      | none => rfl
      | some rest =>
        obtain ⟨pre, hpre, heq⟩ := List.dropPrefix?_eq_some_iff.mp hstrip
        rw [hpre, beq_iff_eq.mp heq] at hhead
        simp only [List.cons_append, List.head?_cons, Option.some.injEq] at hhead
        rw [← hhead] at hc
        exact absurd hc (by decide)
    simp [closeTag, hnone]

/-! ### Carriage returns. -/

-- `str::lines` takes one carriage return off every line, so a body line that still ends in one
-- loses it each time it is written out and read again.

theorem trim_append_whitespace {c : Char} (hc : isWhitespace c = true) (s : List Char) :
    trim (s ++ [c]) = trim s := by
  rw [trim, trim, trimStart, trimStart, List.dropWhile_append]
  split
  · next hempty => simp [List.isEmpty_iff.mp hempty, hc]
  · rw [List.rdropWhile_concat_pos _ _ _ hc]

theorem dropCr_cases (l : Line) : dropCr l = l ∨ l = dropCr l ++ ['\r'] := by
  rw [dropCr]
  split
  · next hlast => exact Or.inr (List.dropLast_append_getLast? '\r' hlast).symm
  · exact Or.inl rfl

theorem closeTag_dropCr (l : Line) : closeTag (dropCr l) = closeTag l := by
  have htrim : trim (dropCr l) = trim l := by
    rcases dropCr_cases l with h | h
    · rw [h]
    · conv_rhs => rw [h]
      rw [trim_append_whitespace (by decide)]
  rw [closeTag, closeTag, htrim]

theorem byteLen_dropCr_le (l : Line) : byteLen (dropCr l) ≤ byteLen l := by
  rcases dropCr_cases l with h | h
  · rw [h]
  · conv_rhs => rw [h]
    rw [byteLen_append]
    exact Nat.le_add_right _ _

theorem mem_of_mem_dropCr {c : Char} (h : c ∈ dropCr l) : c ∈ l := by
  rcases dropCr_cases l with hl | hl
  · rwa [hl] at h
  · rw [hl]
    exact List.mem_append_left _ h

theorem bodyBytes_dropCr_le (ls : List Line) : bodyBytes (ls.map dropCr) ≤ bodyBytes ls := by
  rw [bodyBytes, bodyBytes, List.map_map]
  exact List.sum_le_sum fun l _ => Nat.succ_le_succ (byteLen_dropCr_le l)

theorem BlockLines.dropCr (h : BlockLines tag ls) : BlockLines tag (ls.map Text.dropCr) := by
  refine ⟨?_, ?_, (bodyBytes_dropCr_le ls).trans h.bytes_le⟩
  · intro l hl
    obtain ⟨raw, hraw, rfl⟩ := List.mem_map.mp hl
    exact fun hmem => h.no_nul raw hraw (mem_of_mem_dropCr hmem)
  · intro l hl
    obtain ⟨raw, hraw, rfl⟩ := List.mem_map.mp hl
    rw [closeTag_dropCr]
    exact h.no_close raw hraw

theorem blockLines_inline (hbody : m.body = finishBody ls) (hlines : BlockLines m.tag ls)
    (hnewline : ∀ l ∈ ls, '\n' ∉ l) : BlockLines m.rereadBlock.1 m.rereadBlock.2 := by
  have hempty : closeTag [] = none := by decide
  refine BlockLines.dropCr ?_
  rw [bodyLines_eq hbody hnewline]
  split
  · exact ⟨by simp, by simp [hempty], by simp [bodyBytes, maxInlineBytes]⟩
  · exact hlines

theorem finishBody_bodyLines (hbody : m.body = finishBody ls) (hnewline : ∀ l ∈ ls, '\n' ∉ l) :
    finishBody m.bodyLines = m.body := by
  rw [bodyLines_eq hbody hnewline, hbody]
  split
  · next hnil =>
    subst hnil
    rfl
  · rfl

theorem lines_unlines_dropCr (ls : List Line) (h : ∀ l ∈ ls, '\n' ∉ l) :
    lines (unlines ls) = ls.map dropCr := by
  have hall := linesWith_unlines_append dropCr ls [] h
  rw [List.append_nil] at hall
  rw [lines, hall]
  simp [linesWith]

theorem lines_toCanonicalConfig (h : parseProfile input = .ok p) :
    lines p.toCanonicalConfig = p.directives.map EmittedDirective.display
      ++ ((p.connections.map ConnectionBlock.block).flatMap blockLines
        ++ (p.inline.map InlineMaterial.rereadBlock).flatMap blockLines) := by
  have hp := parseProfile_profileOk h
  have hdisplay : ∀ ds : List EmittedDirective, (∀ d ∈ ds, DirectiveOk d) →
      (ds.map EmittedDirective.display).map dropCr = ds.map EmittedDirective.display := by
    intro ds hds
    rw [List.map_map]
    exact List.map_congr_left fun d hd =>
      dropCr_of_not_mem ((hds d hd).not_mem_display (by decide))
  have htags : ∀ tag ∈ connectionTag :: inlineMaterial,
      dropCr (openingLine tag) = openingLine tag ∧ dropCr (closingLine tag) = closingLine tag := by
    intro tag htag
    obtain ⟨hopening, hclosing⟩ := not_mem_tagLine htag (show isLineChar '\r' = false by decide)
      (by decide) (by decide)
    exact ⟨dropCr_of_not_mem hopening, dropCr_of_not_mem hclosing⟩
  rw [toCanonicalConfig_eq h, lines_unlines_dropCr _ (newline_not_mem_emittedLines h),
    emittedLines_eq_blocks, List.append_nil, List.map_append, List.map_append,
    hdisplay _ hp.directives_ok, List.map_flatMap, List.map_flatMap]
  congr 2
  · refine List.flatMap_congr fun b hb => ?_
    obtain ⟨c, hc, rfl⟩ := List.mem_map.mp hb
    obtain ⟨hopening, hclosing⟩ := htags connectionTag (by simp)
    simp only [blockLines, ConnectionBlock.block, List.map_cons, List.map_append, List.map_nil,
      hopening, hclosing, hdisplay _ fun d hd => (hp.connections_ok c hc d hd).1]
  · rw [List.flatMap_map, List.flatMap_map]
    refine List.flatMap_congr fun m hm => ?_
    obtain ⟨hopening, hclosing⟩ := htags m.tag (List.mem_cons_of_mem _ (hp.tags_mem m hm))
    simp only [blockLines, InlineMaterial.block, InlineMaterial.rereadBlock, List.map_cons,
      List.map_append, List.map_nil, hopening, hclosing]

theorem lex_canonical (h : parseProfile input = .ok p)
    (hline : ∀ d ∈ p.directives, byteLen d.display ≤ maxLineBytes)
    (hconnection : ∀ c ∈ p.connections,
      bodyBytes (c.directives.map EmittedDirective.display) ≤ maxInlineBytes) :
    ∃ ds cs ms, List.Forall₂ DirectiveItem p.directives ds
      ∧ List.Forall₂ BlockItem (p.connections.map ConnectionBlock.block) cs
      ∧ List.Forall₂ BlockItem (p.inline.map InlineMaterial.rereadBlock) ms
      ∧ lex p.toCanonicalConfig 1 = .ok (ds ++ (cs ++ ms)) := by
  obtain ⟨items, n, hlex, hitems, -⟩ := parseProfile_ok h
  have hp := parseProfile_profileOk h
  have hprov := profileItems_provenance hitems
  have hblocks := lex_blocks_le hlex
  rw [← profileItems_blocks_eq hitems] at hblocks
  have hdirectives : ∀ d ∈ p.directives,
      DirectiveOk d ∧ d.args.length ≤ maxArgs ∧ byteLen d.display ≤ maxLineBytes := by
    intro d hd
    obtain ⟨hok, hargs⟩ := hprov.directive hd
    exact ⟨hok, hargs, hline d hd⟩
  have hconns : ∀ b ∈ p.connections.map ConnectionBlock.block,
      b.1 ∈ connectionTag :: inlineMaterial ∧ BlockLines b.1 b.2 := by
    intro b hb
    obtain ⟨c, hc, rfl⟩ := List.mem_map.mp hb
    obtain ⟨hnul, hclose⟩ := connectionLines_plain fun d hd => (hp.connections_ok c hc d hd).1
    exact ⟨by simp [ConnectionBlock.block], hnul, hclose, hconnection c hc⟩
  have hinline : ∀ b ∈ p.inline.map InlineMaterial.rereadBlock,
      b.1 ∈ connectionTag :: inlineMaterial ∧ BlockLines b.1 b.2 := by
    intro b hb
    obtain ⟨m, hm, rfl⟩ := List.mem_map.mp hb
    obtain ⟨ls, hbody, hls, hfrom⟩ := parseProfile_body h m hm
    exact ⟨List.mem_cons_of_mem _ (hp.tags_mem m hm),
      blockLines_inline hbody hls fun l hl => newline_not_mem_lines (hfrom l hl)⟩
  obtain ⟨ds, hds, hlex1⟩ := lexLines_directives hdirectives 1 {} rfl
  obtain ⟨cs, line2, hcs, hlex2⟩ := lexLines_blocks hconns (1 + p.directives.length)
    ⟨[] ++ ds, none, 0⟩ rfl (by simp only [List.length_map]; omega)
  obtain ⟨ms, line3, hms, hlex3⟩ := lexLines_blocks hinline line2
    ⟨[] ++ ds ++ cs, none, 0 + (p.connections.map ConnectionBlock.block).length⟩ rfl
    (by simp only [List.length_map]; omega)
  refine ⟨ds, cs, ms, hds, hcs, hms, ?_⟩
  have hrun : lexLines 1 {} (lines p.toCanonicalConfig) = .ok ⟨[] ++ ds ++ cs ++ ms, none,
      0 + (p.connections.map ConnectionBlock.block).length
        + (p.inline.map InlineMaterial.rereadBlock).length⟩ := by
    have hall := hlex3 []
    rw [List.append_nil] at hall
    rw [lines_toCanonicalConfig h, hlex1, hlex2, hall]
    rfl
  rw [lex, hrun]
  show Except.ok ([] ++ ds ++ cs ++ ms) = _
  simp

theorem directives_pos_of_hasRemote (hprov : Provenance p count) (h : p.hasRemote = true) :
    0 < p.directives.length + connectionDirectives p := by
  obtain ⟨cds, -, hdirectives, hcore⟩ := hprov.verdicts
  rw [Profile.hasRemote, Bool.or_eq_true] at h
  rcases h with h | h
  · cases cds with
    | nil =>
      have hremotes : p.core.remotes = [] := by rw [hcore]; rfl
      have : p.remotes = [] := hremotes
      simp [this] at h
    | cons cd cds =>
      rw [hdirectives, List.map_cons, List.length_cons]
      omega
  · obtain ⟨c, hc, hremotes⟩ := List.any_eq_true.mp h
    obtain ⟨cds', -, rfl⟩ := hprov.connections c hc
    have hpos : 0 < (cds'.map Prod.snd).length := by
      cases cds' with
      | nil => simp at hremotes
      | cons cd cds' => simp
    have hle := List.single_le_sum (l := p.connections.map fun c => c.directives.length)
      (by simp) _ (List.mem_map_of_mem (f := fun c : ConnectionBlock => c.directives.length) hc)
    simp only [connectionDirectives] at hle ⊢
    omega

theorem profileItems_canonical (h : parseProfile input = .ok p) (hcaps : WithinCaps p)
    {ds cs ms : List Item} (hds : List.Forall₂ DirectiveItem p.directives ds)
    (hcs : List.Forall₂ BlockItem (p.connections.map ConnectionBlock.block) cs)
    (hms : List.Forall₂ BlockItem (p.inline.map InlineMaterial.rereadBlock) ms) :
    ∃ count, profileItems {} 0 (ds ++ (cs ++ ms)) = .ok (p.reread, count) ∧ 0 < count := by
  obtain ⟨items, n, -, hitems, hremote⟩ := parseProfile_ok h
  have hp := parseProfile_profileOk h
  have hprov := profileItems_provenance hitems
  have hpos := directives_pos_of_hasRemote hprov hremote
  have hge := hprov.count_ge
  have hle := hprov.count_le
  obtain ⟨cds, hcds, hdirectives, hcore⟩ := hprov.verdicts
  have hlength : cds.length = p.directives.length := by rw [hdirectives, List.length_map]
  rw [hdirectives] at hds
  have hconns : ∀ c ∈ p.connections,
      SettledConnection c ∧ ∀ d ∈ c.directives, byteLen d.display ≤ maxLineBytes :=
    fun c hc => ⟨hprov.connections c hc, hcaps.connection_line c hc⟩
  have hinline : ∀ b ∈ p.inline.map InlineMaterial.rereadBlock, b.1 ∈ inlineMaterial := by
    intro b hb
    obtain ⟨m, hm, rfl⟩ := List.mem_map.mp hb
    exact hp.tags_mem m hm
  have hnodup : (p.core.inline.map InlineMaterial.tag ++
      (p.inline.map InlineMaterial.rereadBlock).map Prod.fst).Nodup := by
    rw [List.map_map]
    exact hp.tags_nodup
  refine ⟨0 + cds.length + connectionDirectives p, ?_, by omega⟩
  rw [connectionDirectives] at hge ⊢
  rw [profileItems_directives hcds ds {} 0 hds (by omega), ← hcore,
    profileItems_connections hconns cs p.core _ hcs (by omega),
    profileItems_inline hinline ms _ _ hms (by exact hnodup), List.map_map]
  rfl

theorem parseProfile_canonical (h : parseProfile input = .ok p) (hcaps : WithinCaps p) :
    parseProfile p.toCanonicalConfig = .ok p.reread := by
  obtain ⟨ds, cs, ms, hds, hcs, hms, hlex⟩ := lex_canonical h hcaps.line hcaps.connection
  obtain ⟨count, hitems, hpos⟩ := profileItems_canonical h hcaps hds hcs hms
  have hremote : p.reread.hasRemote = true := (parseProfile_ok h).choose_spec.choose_spec.2.2
  have hfile := hcaps.file
  rw [parseProfile, if_neg (by omega)]
  simp only [hlex, hitems, bind, Except.bind]
  rw [if_neg (by omega), if_neg (by simp [hremote])]

theorem reread_eq_self (hbody : m.body = finishBody ls) (hnewline : ∀ l ∈ ls, '\n' ∉ l)
    (hcr : ∀ l ∈ m.bodyLines, dropCr l = l) : m.reread = m := by
  rw [InlineMaterial.reread, List.map_congr_left hcr, List.map_id',
    finishBody_bodyLines hbody hnewline]

/-- **THE CANONICAL CONFIG IS A FIXED POINT.**  An accepted text without carriage returns, whose
canonical config exceeds no size cap, has its canonical config accepted with the same emitted
directives, connections, material, remotes, credentials flag and challenge, no retained directive,
and the same canonical config again. -/
theorem parseProfile_toCanonicalConfig (input : List Char) (p : Profile) (hcr : '\r' ∉ input)
    (h : parseProfile input = .ok p) (hcaps : WithinCaps p) :
    ∃ q, parseProfile p.toCanonicalConfig = .ok q
      ∧ q.directives = p.directives
      ∧ q.connections = p.connections
      ∧ q.inline = p.inline
      ∧ q.remotes = p.remotes
      ∧ q.needsAuthUserPass = p.needsAuthUserPass
      ∧ q.staticChallenge = p.staticChallenge
      ∧ q.routes = [] ∧ q.redirectGateway = [] ∧ q.dhcpOptions = []
      ∧ q.toCanonicalConfig = p.toCanonicalConfig := by
  have hinline : p.inline.map InlineMaterial.reread = p.inline := by
    refine (List.map_congr_left fun m hm => ?_).trans (List.map_id p.inline)
    obtain ⟨ls, hbody, -, hfrom⟩ := parseProfile_body h m hm
    have hnewline : ∀ l ∈ ls, '\n' ∉ l := fun l hl => newline_not_mem_lines (hfrom l hl)
    refine reread_eq_self hbody hnewline fun l hl => dropCr_of_not_mem ?_
    rw [bodyLines_eq hbody hnewline] at hl
    split at hl
    · rw [List.mem_singleton.mp hl]
      simp
    · exact fun hmem => hcr (mem_of_mem_lines (hfrom l hl) hmem)
  have hreread : p.reread = p.kept := by
    rw [Profile.reread, hinline]
    rfl
  refine ⟨p.kept, ?_, rfl, rfl, rfl, rfl, rfl, rfl, rfl, rfl, rfl, rfl⟩
  rw [← hreread]
  exact parseProfile_canonical h hcaps

def rewrittenText : List Char :=
  "remote ::0001\nroute 10.0.0.0\nstatic-challenge 'a b' +1\n<CA>\n\n</ca>\n".toList

def rewrittenProfile : Profile :=
  let remote : Remote := ⟨.ip (.v6 (.new 0 0 0 0 0 0 0 1)), 1194, none⟩
  { directives := [⟨"remote", ["::1", "1194"]⟩, ⟨"static-challenge", ["a b", "1"]⟩]
    inline := [⟨"ca", []⟩]
    remotes := [remote]
    routes := [⟨"10.0.0.0", none, none, none⟩]
    staticChallenge := some ⟨"a b", true, none⟩ }

theorem parseProfile_toCanonicalConfig_rewritten :
    rewrittenProfile.routes.length = 1
      ∧ ∃ q, parseProfile rewrittenProfile.toCanonicalConfig = .ok q ∧ q.routes = []
        ∧ q.toCanonicalConfig = rewrittenProfile.toCanonicalConfig := by
  have hcaps : WithinCaps rewrittenProfile :=
    ⟨by decide, by decide, by decide, by decide⟩
  obtain ⟨q, hparse, -, -, -, -, -, -, hroutes, -, -, hcanonical⟩ :=
    parseProfile_toCanonicalConfig rewrittenText rewrittenProfile (by decide) rfl hcaps
  exact ⟨rfl, q, hparse, hroutes, hcanonical⟩

end ThisConnect.Ovpn
