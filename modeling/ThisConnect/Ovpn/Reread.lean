/-
  ThisConnect.Ovpn.Reread
  **WHEN THE CANONICAL CONFIG CAN BE READ BACK.**

  Main results:
    • `parseProfile_canonical_iff` — it is read back exactly when it is within
      the caps, and always as the same profile,
    • `reread_inline_iff` — when the inline material is what it was.
-/
import ThisConnect.Ovpn.Canonical

namespace ThisConnect.Ovpn

open Text

/-! ## §1. What an accepted canonical config shows of the caps. -/

variable {final : LexState} {items : List Item} {input : List Char} {p : Profile} {c : Classified}

variable {rest ls : List Line} {α : Type} {args : List String} {name : String}

theorem line_le_of_lexLines {ds : List EmittedDirective}
    (h : ∀ d ∈ ds, DirectiveOk d ∧ d.args.length ≤ maxArgs) :
    ∀ (line : Nat) (st : LexState), st.open? = none →
      lexLines line st (ds.map EmittedDirective.display ++ rest) = .ok final →
      (∀ d ∈ ds, byteLen d.display ≤ maxLineBytes) ∧
        ∃ line' st', st'.open? = none ∧ st'.blocks = st.blocks ∧
          lexLines line' st' rest = .ok final := by
  induction ds with
  | nil =>
    intro line st hopen hlex
    exact ⟨by simp, line, st, hopen, rfl, hlex⟩
  | cons d ds ih =>
    intro line st hopen hlex
    obtain ⟨hok, hargs⟩ := h d (by simp)
    rw [List.map_cons, List.cons_append, lexLines, lexLine_display_eq hok hargs hopen] at hlex
    by_cases hlong : byteLen d.display > maxLineBytes
    · rw [if_pos hlong] at hlex
      cases hlex
    · rw [if_neg hlong] at hlex
      obtain ⟨hds, hrest⟩ := ih (fun e he => h e (by simp [he])) (line + 1)
        { st with items := st.items ++ [.directive ⟨line, d.name, d.args⟩] } hopen hlex
      refine ⟨?_, hrest⟩
      intro e he
      rcases List.mem_cons.mp he with rfl | he
      · omega
      · exact hds e he

theorem body_le_of_lexLines {tag : String} {start blocks : Nat} (hnul : ∀ l ∈ ls, '\x00' ∉ l)
    (hclose : ∀ l ∈ ls, closeTag l ≠ some tag) :
    ∀ (line : Nat) (done : List Line), bodyBytes done ≤ maxInlineBytes →
      lexLines line ⟨items, some ⟨start, tag, done⟩, blocks⟩ (ls ++ rest) = .ok final →
      bodyBytes (done ++ ls) ≤ maxInlineBytes := by
  induction ls with
  | nil =>
    intro line done hdone _
    rwa [List.append_nil]
  | cons l ls ih =>
    intro line done _ hlex
    rw [List.cons_append, lexLines,
      lexLine_body_eq (hnul l (by simp)) (hclose l (by simp))] at hlex
    by_cases hlarge : bodyBytes (done ++ [l]) > maxInlineBytes
    · rw [if_pos hlarge] at hlex
      cases hlex
    · rw [if_neg hlarge] at hlex
      have hall := ih (fun m hm => hnul m (by simp [hm])) (fun m hm => hclose m (by simp [hm]))
        (line + 1) (done ++ [l]) (by omega) hlex
      rwa [List.append_assoc] at hall

theorem block_le_of_lexLines {blocks : List (String × List Line)}
    (h : ∀ b ∈ blocks, b.1 ∈ connectionTag :: inlineMaterial ∧ (∀ l ∈ b.2, '\x00' ∉ l) ∧
      ∀ l ∈ b.2, closeTag l ≠ some b.1) :
    ∀ (line : Nat) (st : LexState), st.open? = none →
      st.blocks + blocks.length ≤ maxInlineBlocks →
      lexLines line st (blocks.flatMap blockLines ++ rest) = .ok final →
      ∀ b ∈ blocks, bodyBytes b.2 ≤ maxInlineBytes := by
  induction blocks with
  | nil =>
    intro line st _ _ _ b hb
    cases hb
  | cons b blocks ih =>
    intro line st hopen hcount hlex
    obtain ⟨items, _, count⟩ := st
    simp only at hopen hcount
    subst hopen
    obtain ⟨htag, hnul, hclose⟩ := h b (by simp)
    have hbody : bodyBytes b.2 ≤ maxInlineBytes := by
      have hrun := hlex
      rw [List.flatMap_cons, List.append_assoc, blockLines, List.cons_append, lexLines,
        lexLine_openingLine htag rfl, List.append_assoc] at hrun
      exact body_le_of_lexLines hnul hclose (line + 1) [] (by simp [bodyBytes]) hrun
    rw [List.length_cons] at hcount
    rw [List.flatMap_cons, List.append_assoc,
      lexLines_block htag ⟨hnul, hclose, hbody⟩ rfl
        (show count + 1 ≤ maxInlineBlocks by omega) line] at hlex
    intro e he
    rcases List.mem_cons.mp he with rfl | he
    · exact hbody
    · exact ih (fun c hc => h c (by simp [hc])) _ _ rfl
        (show count + 1 + blocks.length ≤ maxInlineBlocks by omega) hlex e he

theorem parseConnection_of_profileItems {parts : Profile} {count : Nat} {result : Profile × Nat}
    (h : profileItems parts count items = .ok result) {b : RawBlock} (hb : Item.block b ∈ items)
    (htag : b.tag = connectionTag) : ∃ n conn, parseConnection b n = .ok conn := by
  induction items generalizing parts count with
  | nil => cases hb
  | cons item items ih =>
    obtain ⟨⟨mid, m⟩, hitem, hrest⟩ := ok_of_bind h
    rcases List.mem_cons.mp hb with rfl | hb
    · cases profileItem_ok hitem with
      | connection _ conn _ _ hconn => exact ⟨count, _, hconn⟩
      | inline _ hother _ _ => exact absurd htag hother
    · exact ih hrest hb

theorem exists_mem_of_forall₂ {β : Type} {R : α → β → Prop} {xs : List α} {ys : List β}
    (h : List.Forall₂ R xs ys) {x : α} (hx : x ∈ xs) : ∃ y ∈ ys, R x y := by
  induction h with
  | nil => cases hx
  | cons hR _ ih =>
    rcases List.mem_cons.mp hx with rfl | hx
    · exact ⟨_, List.mem_cons_self, hR⟩
    · obtain ⟨y, hy, hRy⟩ := ih hx
      exact ⟨y, List.mem_cons_of_mem _ hy, hRy⟩

theorem parseProfile_size (h : parseProfile input = .ok p) : byteLen input ≤ maxFileBytes := by
  rw [parseProfile] at h
  obtain ⟨_, h⟩ := ok_of_unless h
  omega

theorem withinCaps_of_parse {q : Profile} (h : parseProfile input = .ok p)
    (hq : parseProfile p.toCanonicalConfig = .ok q) : WithinCaps p := by
  obtain ⟨items, n, hlex, hitems, -⟩ := parseProfile_ok h
  obtain ⟨items', n', hlex', hitems', -⟩ := parseProfile_ok hq
  have hp := parseProfile_profileOk h
  have hprov := profileItems_provenance hitems
  have hblocks := lex_blocks_le hlex
  rw [← profileItems_blocks_eq hitems] at hblocks
  obtain ⟨blocks', hlines'⟩ := lex_ok hlex'
  rw [lines_toCanonicalConfig h] at hlines'
  obtain ⟨hline, line, st, hopen, hst, hrest⟩ :=
    line_le_of_lexLines (fun d hd => hprov.directive hd) 1 {} rfl hlines'
  have hcount : st.blocks + (p.connections.map ConnectionBlock.block).length ≤ maxInlineBlocks := by
    rw [hst, List.length_map]
    show 0 + _ ≤ _
    omega
  have hconnection : ∀ c ∈ p.connections,
      bodyBytes (c.directives.map EmittedDirective.display) ≤ maxInlineBytes := by
    intro c hc
    refine block_le_of_lexLines ?_ line st hopen hcount hrest c.block (List.mem_map_of_mem hc)
    intro b hb
    obtain ⟨e, he, rfl⟩ := List.mem_map.mp hb
    obtain ⟨hnul, hclose⟩ := connectionLines_plain fun d hd => (hp.connections_ok e he d hd).1
    exact ⟨by simp [ConnectionBlock.block], hnul, hclose⟩
  refine ⟨parseProfile_size hq, hline, ?_, hconnection⟩
  -- the body of a connection is lexed once more when the block is parsed
  intro c hc
  obtain ⟨ds, cs, ms, -, hcs, -, hcanonical⟩ := lex_canonical h hline hconnection
  rw [hlex'] at hcanonical
  injection hcanonical with hcanonical
  obtain ⟨item, hitem, number, rfl⟩ := exists_mem_of_forall₂ hcs
    (List.mem_map_of_mem (f := ConnectionBlock.block) hc)
  obtain ⟨m, conn, hconn⟩ := parseConnection_of_profileItems hitems'
    (hcanonical ▸ List.mem_append_right ds (List.mem_append_left ms hitem)) rfl
  obtain ⟨inner, hinner, -⟩ := ok_of_bind hconn
  obtain ⟨count, hinnerLines⟩ := lex_ok hinner
  obtain ⟨cds, hcds, hceq⟩ := hprov.connections c hc
  have hsettled : ∀ d ∈ c.directives, DirectiveOk d ∧ d.args.length ≤ maxArgs := by
    intro d hd
    rw [hceq] at hd
    obtain ⟨cd, hcd, rfl⟩ := List.mem_map.mp hd
    exact ⟨(hcds cd hcd).1.directive_ok, (hcds cd hcd).1.args_le⟩
  have hbody : lines (finishBody c.block.2) = c.directives.map EmittedDirective.display ++ [] := by
    rw [List.append_nil]
    exact lines_connectionBody fun d hd => (hsettled d hd).1
  rw [show (RawBlock.mk number c.block.1 (finishBody c.block.2)).body = finishBody c.block.2
    from rfl, hbody] at hinnerLines
  exact (line_le_of_lexLines hsettled _ {} rfl hinnerLines).1

theorem parseProfile_canonical_iff (h : parseProfile input = .ok p) (q : Profile) :
    parseProfile p.toCanonicalConfig = .ok q ↔ WithinCaps p ∧ q = p.reread := by
  constructor
  · intro hq
    have hcaps := withinCaps_of_parse h hq
    rw [parseProfile_canonical h hcaps] at hq
    injection hq with hq
    exact ⟨hcaps, hq.symm⟩
  · rintro ⟨hcaps, rfl⟩
    exact parseProfile_canonical h hcaps

/-! ## §2. When the inline material is what it was. -/

theorem map_eq_self_iff {f : α → α} {xs : List α} :
    xs.map f = xs ↔ ∀ x ∈ xs, f x = x := by
  have hid := List.map_inj_left (l := xs) (f := f) (g := id)
  rwa [List.map_id] at hid

theorem dropCr_eq_self_iff (l : Line) : dropCr l = l ↔ l.getLast? ≠ some '\r' := by
  constructor
  · intro h hlast
    have hsplit := List.dropLast_append_getLast? '\r' hlast
    rw [dropCr, if_pos hlast] at h
    have hlength := congrArg List.length hsplit
    rw [List.length_append, List.length_singleton, h] at hlength
    omega
  · intro h
    rw [dropCr, if_neg h]

theorem reread_eq_self_iff {m : InlineMaterial} (hbody : m.body = finishBody ls)
    (hnewline : ∀ l ∈ ls, '\n' ∉ l) :
    m.reread = m ↔ ∀ l ∈ physicalLines m.body, l.getLast? ≠ some '\r' := by
  have hlines : ∀ l ∈ m.bodyLines, '\n' ∉ l := by
    rw [bodyLines_eq hbody hnewline]
    split
    · simp
    · exact hnewline
  have hphysical : physicalLines m.body = if m.bodyLines = [[]] then [] else m.bodyLines := by
    rw [← finishBody_bodyLines hbody hnewline, physicalLines_finishBody hlines]
  have hsame : (∀ l ∈ physicalLines m.body, l.getLast? ≠ some '\r') ↔
      ∀ l ∈ m.bodyLines, dropCr l = l := by
    simp only [dropCr_eq_self_iff, hphysical]
    split
    · next hempty => simp [hempty]
    · rfl
  rw [hsame]
  constructor
  · intro h
    have hbodies : finishBody (m.bodyLines.map dropCr) = finishBody m.bodyLines := by
      rw [finishBody_bodyLines hbody hnewline]
      exact congrArg InlineMaterial.body h
    have hnone : ∀ l ∈ m.bodyLines.map dropCr, '\n' ∉ l := by
      intro l hl
      obtain ⟨raw, hraw, rfl⟩ := List.mem_map.mp hl
      exact fun hmem => hlines raw hraw (mem_of_mem_dropCr hmem)
    have hread := congrArg physicalLines hbodies
    rw [physicalLines_finishBody hnone, physicalLines_finishBody hlines] at hread
    by_cases hempty : m.bodyLines = [[]]
    · simp [hempty, dropCr]
    · rw [if_neg hempty] at hread
      split at hread
      · simp [← hread]
      · exact fun l hl => map_eq_self_iff.mp hread l hl
  · exact reread_eq_self hbody hnewline

def PlainBodies (items : List Item) : Prop :=
  ∀ b, Item.block b ∈ items → b.tag ≠ connectionTag →
    ∀ l ∈ physicalLines b.body, l.getLast? ≠ some '\r'

theorem reread_inline_iff (h : parseProfile input = .ok p) (hlex : lex input 1 = .ok items) :
    p.reread.inline = p.inline ↔ PlainBodies items := by
  obtain ⟨items', n, hlex', hitems, -⟩ := parseProfile_ok h
  rw [hlex] at hlex'
  injection hlex' with hlex'
  subst hlex'
  have hread := profileItems_inlineRead hitems
  have heach : ∀ m ∈ p.inline,
      (m.reread = m ↔ ∀ l ∈ physicalLines m.body, l.getLast? ≠ some '\r') := by
    intro m hm
    obtain ⟨ls, hbody, -, hfrom⟩ := parseProfile_body h m hm
    exact reread_eq_self_iff hbody fun l hl => newline_not_mem_lines (hfrom l hl)
  show p.inline.map InlineMaterial.reread = p.inline ↔ _
  rw [map_eq_self_iff]
  constructor
  · intro hall b hb htag
    have hm := (hread ⟨b.tag, b.body⟩).mpr ⟨b, hb, htag, rfl⟩
    exact (heach _ hm).mp (hall _ hm)
  · intro hplain m hm
    obtain ⟨b, hb, htag, rfl⟩ := (hread m).mp hm
    exact (heach _ hm).mpr (hplain b hb htag)

/-! ## §3. The options that are not written out. -/

def dhcpOption? : Item → Option DhcpOption
  | .directive raw =>
    if raw.name = "dhcp-option" then
      some ⟨toAsciiUppercase (raw.args.getD 0 ""), raw.args.drop 1⟩
    else none
  | .block _ => none

def Classified.dhcp? : Classified → Option DhcpOption
  | .dhcpOption o => some o
  | _ => none

theorem absorb_dhcpOptions (parts : Profile) (c : Classified) :
    (absorb parts c).dhcpOptions = parts.dhcpOptions ++ c.dhcp?.toList := by
  cases c <;> simp [absorb, Classified.dhcp?]

theorem dhcp?_of_emitAfter {check : Except ValidationError Unit}
    (h : emitAfter check name args = some (.ok c)) : c.dhcp? = none := by
  obtain ⟨-, rfl⟩ := emitAfter_ok h
  rfl

theorem dhcp?_of_map {parsed : Except ValidationError α} {f : α → Classified}
    (hf : ∀ a, (f a).dhcp? = none) (h : (some (parsed.map f) : Outcome) = some (.ok c)) :
    c.dhcp? = none := by
  injection h with h
  obtain ⟨a, -, rfl⟩ := ok_of_map h
  exact hf a

theorem handle_dhcp?_of_ne {ctx : Ctx} (hname : name ≠ "dhcp-option")
    (h : handle ctx name args = some (.ok c)) : c.dhcp? = none := by
  obtain ⟨handler, hmem, h⟩ := List.exists_of_findSome?_eq_some h
  simp only [handlers, List.mem_cons, List.not_mem_nil, or_false] at hmem
  rcases hmem with rfl | rfl | rfl | rfl | rfl
  · unfold asFlag at h
    split at h
    · split at h
      · cases h
      · cases h
        rfl
    · obtain ⟨_, h⟩ := some_of_unless h
      exact dhcp?_of_emitAfter h
  · unfold asNumber at h
    split at h
    · injection h with h
      obtain ⟨_, -, h⟩ := ok_of_bind h
      obtain ⟨_, -, h⟩ := ok_of_bind h
      cases h
      rfl
    · exact dhcp?_of_emitAfter h
    · exact dhcp?_of_emitAfter h
    · exact dhcp?_of_emitAfter h
    · exact dhcp?_of_emitAfter h
    · obtain ⟨_, -, h⟩ := Option.bind_eq_some_iff.mp h
      exact dhcp?_of_emitAfter h
  · unfold asKeyword at h
    split at h
    · cases h
      rfl
    · cases h
      rfl
    · exact dhcp?_of_map (fun _ => rfl) h
    · exact dhcp?_of_map (fun _ => rfl) h
    · obtain ⟨_, -, h⟩ := Option.bind_eq_some_iff.mp h
      exact dhcp?_of_emitAfter h
  · unfold asCrypto at h
    split at h
    · exact dhcp?_of_map (fun _ => rfl) h
    · exact dhcp?_of_emitAfter h
    · obtain ⟨_, h⟩ := some_of_unless h
      exact dhcp?_of_emitAfter h
  · unfold asTyped at h
    split at h
    · exact dhcp?_of_map (fun _ => rfl) h
    · exact dhcp?_of_map (fun _ => rfl) h
    · cases h
      rfl
    · exact absurd rfl hname
    · exact dhcp?_of_map (fun _ => rfl) h
    · exact dhcp?_of_map (fun _ => rfl) h
    · exact dhcp?_of_map (fun _ => rfl) h
    · cases h

theorem classify_dhcp? {raw : RawDirective} (h : classify raw .topLevel = .ok c) :
    c.dhcp? = dhcpOption? (.directive raw) := by
  have hhandle := (classify_ok h).2.2.2
  rw [dhcpOption?]
  by_cases hname : raw.name = "dhcp-option"
  · rw [hname] at hhandle
    rw [if_pos hname]
    injection hhandle with hhandle
    obtain ⟨o, ho, rfl⟩ := ok_of_map hhandle
    obtain ⟨_, -, ho⟩ := ok_of_bind ho
    injection ho with ho
    rw [← ho]
    rfl
  · rw [if_neg hname]
    exact handle_dhcp?_of_ne hname hhandle

theorem parseProfile_dhcpOptions (h : parseProfile input = .ok p) (hlex : lex input 1 = .ok items) :
    p.dhcpOptions = items.filterMap dhcpOption? := by
  obtain ⟨items', n, hlex', hitems, -⟩ := parseProfile_ok h
  rw [hlex] at hlex'
  injection hlex' with hlex'
  subst hlex'
  refine profileItems_invariant
    (P := fun parts _ done => parts.dhcpOptions = done.filterMap dhcpOption?)
    ?_ items {} 0 p n [] rfl hitems
  intro parts count item parts' n done hdone hstep
  rw [List.filterMap_append, ← hdone]
  cases hstep with
  | directive raw c _ hc =>
    rw [absorb_dhcpOptions, classify_dhcp? hc]
    cases hitem : dhcpOption? (.directive raw) <;> simp [hitem]
  | connection block _ _ _ _ => simp [dhcpOption?]
  | inline block _ _ _ => simp [dhcpOption?]

def NamesServer (raw : RawDirective) : Prop :=
  raw.name = "dhcp-option" ∧ 2 ≤ raw.args.length ∧
    (toAsciiUppercase (raw.args.getD 0 "") = "DNS" ∨ toAsciiUppercase (raw.args.getD 0 "") = "DNS6")

def NoServers (items : List Item) : Prop := ∀ raw, Item.directive raw ∈ items → ¬ NamesServer raw

theorem dhcpDnsServers_eq_nil_iff (h : parseProfile input = .ok p)
    (hlex : lex input 1 = .ok items) :
    p.dhcpDnsServers = [] ↔ NoServers items := by
  rw [Profile.dhcpDnsServers, parseProfile_dhcpOptions h hlex, List.filterMap_eq_nil_iff]
  constructor
  · rintro hnone raw hraw ⟨hname, hargs, hkind⟩
    have hoption : (⟨toAsciiUppercase (raw.args.getD 0 ""), raw.args.drop 1⟩ : DhcpOption) ∈
        (items.filterMap dhcpOption?).filter fun o => o.kind == "DNS" || o.kind == "DNS6" := by
      rw [List.mem_filter, List.mem_filterMap]
      exact ⟨⟨_, hraw, by rw [dhcpOption?, if_pos hname]⟩, by simpa using hkind⟩
    have hempty : (raw.args.drop 1).head? = none := hnone _ hoption
    rw [List.head?_eq_none_iff, List.drop_eq_nil_iff] at hempty
    omega
  · intro hnone o ho
    rw [List.mem_filter, List.mem_filterMap] at ho
    obtain ⟨⟨item, hitem, hoption⟩, hkind⟩ := ho
    cases item with
    | block b => cases hoption
    | directive raw =>
      rw [dhcpOption?] at hoption
      obtain ⟨hname, ⟨⟩⟩ := some_of_guard hoption
      rw [List.head?_eq_none_iff, List.drop_eq_nil_iff]
      by_contra hlong
      exact hnone raw hitem ⟨hname, by omega, by simpa using hkind⟩

end ThisConnect.Ovpn
