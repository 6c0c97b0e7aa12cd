/-
  ThisConnect.Base.Text
  **TEXT AS A SEQUENCE OF UNICODE SCALARS.**
-/
import Mathlib
import ThisConnect.Base.Framing

namespace ThisConnect.Text

variable {c sep : Char} {s l x y word more : List Char}

/-! ## §1. Character classes and trimming. -/

def isWhitespace (c : Char) : Bool :=
  (9 ≤ c.toNat && c.toNat ≤ 13) || c.toNat == 0x20 || c.toNat == 0x85 || c.toNat == 0xA0
    || c.toNat == 0x1680 || (0x2000 ≤ c.toNat && c.toNat ≤ 0x200A) || c.toNat == 0x2028
    || c.toNat == 0x2029 || c.toNat == 0x202F || c.toNat == 0x205F || c.toNat == 0x3000

theorem isWhitespace_of_isLower (h : c.isLower = true) : isWhitespace c = false := by
  have hrange : 97 ≤ c.toNat ∧ c.toNat ≤ 122 := by
    simpa [Char.isLower, UInt32.le_iff_toNat_le] using h
  simp only [isWhitespace, Bool.or_eq_false_iff, Bool.and_eq_false_iff, decide_eq_false_iff_not,
    beq_eq_false_iff_ne]
  omega

/-- `str::trim_start`. -/
def trimStart (s : List Char) : List Char := s.dropWhile isWhitespace

/-- `str::trim`. -/
def trim (s : List Char) : List Char := (trimStart s).rdropWhile isWhitespace

def byteLen (s : List Char) : Nat := (s.map Char.utf8Size).sum

@[simp] theorem byteLen_nil : byteLen [] = 0 := rfl

@[simp] theorem byteLen_cons (c : Char) (s : List Char) :
    byteLen (c :: s) = c.utf8Size + byteLen s := by
  simp [byteLen]

@[simp] theorem byteLen_append (s t : List Char) :
    byteLen (s ++ t) = byteLen s + byteLen t := by
  simp [byteLen]

theorem trim_eq_self (hhead : ∀ c ∈ s.head?, isWhitespace c = false)
    (hlast : ∀ c ∈ s.getLast?, isWhitespace c = false) : trim s = s := by
  have hstart : trimStart s = s := by
    cases s with
    | nil => rfl
    | cons c cs =>
      have hc : isWhitespace c = false := hhead c (by simp)
      simp [trimStart, hc]
  rw [trim, hstart, List.rdropWhile_eq_self_iff]
  intro hne
  rw [hlast (s.getLast hne) (by simp [List.getLast?_eq_some_getLast hne])]
  decide

theorem trimStart_head {cs : List Char} (h : trimStart s = c :: cs) : isWhitespace c = false := by
  have := List.head?_dropWhile_not isWhitespace s
  rw [← trimStart, h] at this
  simpa using this

theorem trim_head (cs : List Char) (hc : isWhitespace c = false) :
    (trim (c :: cs)).head? = some c := by
  have hstart : trimStart (c :: cs) = c :: cs := by simp [trimStart, hc]
  rw [trim, hstart]
  have hne : (c :: cs).rdropWhile isWhitespace ≠ [] := by
    rw [Ne, List.rdropWhile_eq_nil_iff]
    intro hall
    simpa [hc] using hall c (by simp)
  obtain ⟨d, ds, hd⟩ := List.exists_cons_of_ne_nil hne
  obtain ⟨rest, hrest⟩ := List.rdropWhile_prefix isWhitespace (c :: cs)
  rw [hd] at hrest ⊢
  rw [List.cons_append] at hrest
  injection hrest with hhead
  rw [hhead]
  rfl

theorem rdropWhile_append (p : Char → Bool) (xs ys : List Char) :
    (xs ++ ys).rdropWhile p
      = if ys.all p then xs.rdropWhile p else xs ++ ys.rdropWhile p := by
  rw [List.rdropWhile, List.rdropWhile, List.rdropWhile, List.reverse_append,
    List.dropWhile_append]
  by_cases hall : ys.all p = true
  · have hnil : ys.reverse.dropWhile p = [] := by
      rw [List.dropWhile_eq_nil_iff]
      intro c hc
      exact List.all_eq_true.mp hall c (List.mem_reverse.mp hc)
    rw [if_pos (by simp [hnil]), if_pos hall]
  · have hne : ys.reverse.dropWhile p ≠ [] := by
      rw [Ne, List.dropWhile_eq_nil_iff]
      intro hnil
      exact hall (List.all_eq_true.mpr fun c hc => hnil c (List.mem_reverse.mpr hc))
    rw [if_neg (by simpa using hne), if_neg hall, List.reverse_append, List.reverse_reverse]

variable {p : Char → Bool} {f : List Char → List Char} {needle : List Char}

theorem rdropWhile_after (hc : p c = false) (xs ys : List Char) :
    (xs ++ c :: ys).rdropWhile p = xs ++ c :: ys.rdropWhile p := by
  have hcons : xs ++ c :: ys = (xs ++ [c]) ++ ys := by simp
  rw [hcons, rdropWhile_append]
  split
  · next hall =>
    have hnil : ys.rdropWhile p = [] :=
      List.rdropWhile_eq_nil_iff.mpr fun d hd => List.all_eq_true.mp hall d hd
    rw [List.rdropWhile_concat_neg p xs c (by simp [hc]), hnil]
  · simp

/-! ## §2. Lines. -/

def linesWith (f : List Char → List Char) : List Char → List Char → List (List Char)
  | cur, [] => if cur.isEmpty then [] else [cur]
  | cur, c :: cs =>
    if c = '\n' then f cur :: linesWith f [] cs else linesWith f (cur ++ [c]) cs

def dropCr (l : List Char) : List Char :=
  if l.getLast? = some '\r' then l.dropLast else l

def lines (s : List Char) : List (List Char) := linesWith dropCr [] s

def physicalLines (s : List Char) : List (List Char) := linesWith id [] s

def unlines (ls : List (List Char)) : List Char := ls.flatMap (· ++ ['\n'])

@[simp] theorem unlines_nil : unlines [] = [] := rfl

@[simp] theorem unlines_cons (l : List Char) (ls : List (List Char)) :
    unlines (l :: ls) = l ++ '\n' :: unlines ls := by
  simp [unlines]

@[simp] theorem unlines_append (ls ms : List (List Char)) :
    unlines (ls ++ ms) = unlines ls ++ unlines ms := by
  simp [unlines]

theorem intercalate_newline (l : List Char) (ls : List (List Char)) :
    List.intercalate ['\n'] (l :: ls) ++ ['\n'] = unlines (l :: ls) := by
  induction ls generalizing l with
  | nil => simp [List.intercalate]
  | cons m ls ih =>
    have hrest := ih m
    simp only [List.intercalate, List.intersperse_cons_cons, List.flatten_cons,
      List.append_assoc] at hrest ⊢
    rw [hrest]
    simp

theorem dropCr_of_not_mem (h : '\r' ∉ l) : dropCr l = l := by
  rw [dropCr, if_neg]
  intro hlast
  exact h (List.mem_of_getLast? hlast)

theorem linesWith_line (f : List Char → List Char) (l rest : List Char) (hl : '\n' ∉ l) :
    ∀ cur, linesWith f cur (l ++ '\n' :: rest) = f (cur ++ l) :: linesWith f [] rest := by
  induction l with
  | nil => intro cur; simp [linesWith]
  | cons c l ih =>
    intro cur
    have hc : c ≠ '\n' := fun h => hl (by simp [h])
    rw [List.cons_append, linesWith, if_neg hc, ih (fun h => hl (by simp [h]))]
    simp

theorem linesWith_unlines_append (f : List Char → List Char) (ls : List (List Char))
    (rest : List Char) (h : ∀ l ∈ ls, '\n' ∉ l) :
    linesWith f [] (unlines ls ++ rest) = ls.map f ++ linesWith f [] rest := by
  induction ls with
  | nil => rfl
  | cons l ls ih =>
    rw [unlines_cons, List.append_assoc, List.cons_append,
      linesWith_line f l _ (h l (by simp)), ih (fun m hm => h m (by simp [hm]))]
    simp

theorem physicalLines_unlines (ls : List (List Char)) (h : ∀ l ∈ ls, '\n' ∉ l) :
    physicalLines (unlines ls) = ls := by
  have := linesWith_unlines_append id ls [] h
  simpa [physicalLines, linesWith] using this

theorem lines_unlines (ls : List (List Char)) (h : ∀ l ∈ ls, '\n' ∉ l)
    (hcr : ∀ l ∈ ls, '\r' ∉ l) : lines (unlines ls) = ls := by
  have := linesWith_unlines_append dropCr ls [] h
  rw [List.append_nil] at this
  rw [lines, this, List.map_congr_left (fun l hl => dropCr_of_not_mem (hcr l hl))]
  simp [linesWith]

theorem newline_not_mem_linesWith (hf : ∀ l, '\n' ∉ l → '\n' ∉ f l) (s : List Char) :
    ∀ cur, '\n' ∉ cur → ∀ l ∈ linesWith f cur s, '\n' ∉ l := by
  induction s with
  | nil =>
    intro cur hcur l hl
    rw [linesWith] at hl
    split at hl
    · simp at hl
    · rw [List.mem_singleton.mp hl]
      exact hcur
  | cons c s ih =>
    intro cur hcur l hl
    rw [linesWith] at hl
    split at hl
    · rcases List.mem_cons.mp hl with h | h
      · exact h ▸ hf cur hcur
      · exact ih [] (by simp) l h
    · next hc => exact ih (cur ++ [c]) (by simp [hcur, Ne.symm hc]) l hl

theorem newline_not_mem_lines (h : l ∈ lines s) : '\n' ∉ l := by
  refine newline_not_mem_linesWith (fun l hl hm => hl ?_) s [] (by simp) l h
  rw [dropCr] at hm
  split at hm
  · exact List.dropLast_subset l hm
  · exact hm

theorem mem_of_mem_linesWith (hf : ∀ l, ∀ c ∈ f l, c ∈ l) (s : List Char) :
    ∀ cur, ∀ l ∈ linesWith f cur s, ∀ c ∈ l, c ∈ cur ∨ c ∈ s := by
  induction s with
  | nil =>
    intro cur l hl c hc
    rw [linesWith] at hl
    split at hl
    · simp at hl
    · exact Or.inl (List.mem_singleton.mp hl ▸ hc)
  | cons d s ih =>
    intro cur l hl c hc
    rw [linesWith] at hl
    split at hl
    · rcases List.mem_cons.mp hl with h | h
      · exact Or.inl (hf cur c (h ▸ hc))
      · rcases ih [] l h c hc with h' | h'
        · simp at h'
        · exact Or.inr (List.mem_cons_of_mem d h')
    · rcases ih (cur ++ [d]) l hl c hc with h' | h'
      · rcases List.mem_append.mp h' with h'' | h''
        · exact Or.inl h''
        · exact Or.inr (by simp [List.mem_singleton.mp h''])
      · exact Or.inr (List.mem_cons_of_mem d h')

theorem mem_of_mem_lines (h : l ∈ lines s) (hc : c ∈ l) : c ∈ s := by
  have hf : ∀ m, ∀ d ∈ dropCr m, d ∈ m := by
    intro m d hd
    rw [dropCr] at hd
    split at hd
    · exact List.dropLast_subset m hd
    · exact hd
  rcases mem_of_mem_linesWith hf s [] l h c hc with h' | h'
  · simp at h'
  · exact h'

/-! ## §3. Substrings of separated text.

A substring that itself contains the separator can only sit at word boundaries, which is what
makes looking for `from 10.8.0.2 unreachable` in a listing conclusive. -/

theorem infix_append_sep (hc : c ∉ needle) (h : needle <:+: x ++ c :: y) :
    needle <:+: x ∨ needle <:+: y := by
  obtain ⟨u, v, huv⟩ := h
  rw [List.append_assoc] at huv
  rcases List.append_eq_append_iff.mp huv with ⟨m, hx, hm⟩ | ⟨m, hu, hm⟩
  · -- the needle starts inside `x`, so it must end there as well
    rcases List.append_eq_append_iff.mp hm with ⟨m', rfl, -⟩ | ⟨m', rfl, hm'⟩
    · exact .inl ⟨u, m', by rw [hx, List.append_assoc]⟩
    · cases m' with
      | nil => exact .inl ⟨u, [], by simp [hx]⟩
      | cons d m' =>
        rw [List.cons_append] at hm'
        injection hm' with hd _
        exact absurd (by simp [hd]) hc
  · cases m with
    | nil =>
      cases needle with
      | nil => exact .inl List.nil_infix
      | cons d needle =>
        rw [List.nil_append, List.cons_append] at hm
        injection hm with hd _
        exact absurd (by simp [hd]) hc
    | cons d m =>
      rw [List.cons_append] at hm
      injection hm with _ hm
      exact .inr ⟨m, v, by rw [List.append_assoc]; exact hm.symm⟩

theorem infix_unlines (hne : needle ≠ []) (hc : '\n' ∉ needle) (ls : List (List Char)) :
    needle <:+: unlines ls ↔ ∃ l ∈ ls, needle <:+: l := by
  induction ls with
  | nil =>
    unfold unlines
    simp [hne]
  | cons l ls ih =>
    have hcons : unlines (l :: ls) = l ++ '\n' :: unlines ls := by
      unfold unlines
      simp
    rw [hcons]
    constructor
    · intro h
      rcases infix_append_sep hc h with h | h
      · exact ⟨l, by simp, h⟩
      · obtain ⟨l', hl', h'⟩ := ih.mp h
        exact ⟨l', by simp [hl'], h'⟩
    · intro h
      obtain ⟨l', hl', h'⟩ := h
      rcases List.mem_cons.mp hl' with rfl | hl'
      · exact h'.trans (List.infix_append' [] l' _)
      · have := ih.mpr ⟨l', hl', h'⟩
        exact this.trans ((List.suffix_cons _ _).isInfix.trans (List.suffix_append _ _).isInfix)

theorem infix_word (hx : c ∉ x) (hword : c ∉ word) (h : word ++ c :: more <:+: x ++ c :: y) :
    (word <:+ x ∧ more <+: y) ∨ word ++ c :: more <:+: y := by
  obtain ⟨u, v, huv⟩ := h
  by_cases hu : c ∈ u
  · obtain ⟨u₁, u₂, rfl, hu₁⟩ := List.eq_append_cons_of_mem hu
    have hcut : u₁ ++ c :: (u₂ ++ (word ++ c :: more) ++ v) = x ++ c :: y := by
      rw [← huv]
      simp
    obtain ⟨-, hy⟩ := Framing.append_sep_inj hu₁ hx hcut
    exact .inr ⟨u₂, v, hy⟩
  · have hcut : (u ++ word) ++ c :: (more ++ v) = x ++ c :: y := by
      rw [← huv]
      simp
    obtain ⟨hxx, hyy⟩ := Framing.append_sep_inj (by simp [hu, hword]) hx hcut
    exact .inl ⟨⟨u, hxx⟩, ⟨v, hyy⟩⟩

theorem prefix_word (hword : c ∉ word) (hx : c ∉ x) (h : word ++ c :: more <+: x ++ c :: y) :
    word = x ∧ more <+: y := by
  obtain ⟨v, hv⟩ := h
  rw [List.append_assoc, List.cons_append] at hv
  obtain ⟨hw, hm⟩ := Framing.append_sep_inj hword hx hv
  exact ⟨hw, v, hm⟩

theorem not_infix_of_sep (hy : c ∉ y) : ¬ word ++ c :: more <:+: y :=
  fun h => hy (h.subset (by simp))

/-! ## §4. Cutting text. -/

/-- `str::split_once` at a character. -/
def splitOnce (sep : Char) : List Char → Option (List Char × List Char)
  | [] => none
  | c :: cs =>
    if c = sep then some ([], cs) else (splitOnce sep cs).map fun (x, y) => (c :: x, y)

/-- `str::rsplit_once` at a character. -/
def rsplitOnce (sep : Char) (s : List Char) : Option (List Char × List Char) :=
  (splitOnce sep s.reverse).map fun (x, y) => (y.reverse, x.reverse)

/-- `str::split_once` at a text. -/
def splitOnceAt (sep : List Char) : List Char → Option (List Char × List Char)
  | [] => if sep.isEmpty then some ([], []) else none
  | c :: cs =>
    if sep.isPrefixOf (c :: cs) then some ([], (c :: cs).drop sep.length)
    else (splitOnceAt sep cs).map fun (x, y) => (c :: x, y)

/-- `str::splitn` at a character. -/
def splitn : Nat → Char → List Char → List (List Char)
  | 0, _, _ => []
  | 1, _, s => [s]
  | n + 2, sep, s =>
    match splitOnce sep s with
    | none => [s]
    | some (x, y) => x :: splitn (n + 1) sep y

/-- `str::contains` at a text. -/
def containsText (needle s : List Char) : Bool := decide (needle <:+: s)

/-- `str::split` at `\r\n`. -/
def splitCrlf : List Char → List (List Char)
  | [] => [[]]
  | '\r' :: '\n' :: cs => [] :: splitCrlf cs
  | c :: cs => (splitCrlf cs).modifyHead (c :: ·)

/-- `str::trim_matches`. -/
def trimMatches (p : Char → Bool) (s : List Char) : List Char := (s.dropWhile p).rdropWhile p

/-- `str::eq_ignore_ascii_case`. -/
def eqIgnoreAsciiCase (s t : List Char) : Bool := s.map Char.toLower == t.map Char.toLower

/-- `str::as_bytes`. -/
def bytes (s : List Char) : List UInt8 := s.flatMap String.utf8EncodeChar

theorem splitOnce_eq_some : splitOnce sep s = some (x, y) ↔ s = x ++ sep :: y ∧ sep ∉ x := by
  induction s generalizing x with
  | nil => simp [splitOnce]
  | cons c s ih =>
    rw [splitOnce]
    by_cases hc : c = sep
    · rw [if_pos hc]
      constructor
      · rintro ⟨⟩
        simp [hc]
      · rintro ⟨hs, hx⟩
        cases x with
        | nil => simp_all
        | cons d x =>
          rw [List.cons_append] at hs
          injection hs with hd _
          exact absurd (by simp [← hd, hc]) hx
    · rw [if_neg hc, Option.map_eq_some_iff]
      constructor
      · rintro ⟨⟨x', y'⟩, h, heq⟩
        cases heq
        obtain ⟨hs, hx⟩ := ih.mp h
        refine ⟨by rw [hs, List.cons_append], ?_⟩
        simp [hx, Ne.symm hc]
      · rintro ⟨hs, hx⟩
        cases x with
        | nil =>
          injection hs with hd _
          exact absurd hd hc
        | cons d x =>
          rw [List.cons_append] at hs
          injection hs with hd hs
          exact ⟨(x, y), ih.mpr ⟨hs, fun h => hx (by simp [h])⟩, by rw [hd]⟩

theorem splitOnce_eq_none : splitOnce sep s = none ↔ sep ∉ s := by
  constructor
  · intro h hmem
    obtain ⟨x, y, rfl, hx⟩ := List.eq_append_cons_of_mem hmem
    rw [splitOnce_eq_some.mpr ⟨rfl, hx⟩] at h
    cases h
  · intro h
    cases hsplit : splitOnce sep s with
    | none => rfl
    | some pair =>
      obtain ⟨x, y⟩ := pair
      obtain ⟨rfl, -⟩ := splitOnce_eq_some.mp hsplit
      exact absurd (by simp) h

theorem rsplitOnce_last (hy : sep ∉ y) : rsplitOnce sep (x ++ sep :: y) = some (x, y) := by
  have hsplit : splitOnce sep (x ++ sep :: y).reverse = some (y.reverse, x.reverse) :=
    splitOnce_eq_some.mpr ⟨by simp, by simpa using hy⟩
  rw [rsplitOnce, hsplit]
  simp

theorem rsplitOnce_eq_some (h : rsplitOnce sep s = some (x, y)) : s = x ++ sep :: y := by
  obtain ⟨⟨y', x'⟩, hsplit, heq⟩ := Option.map_eq_some_iff.mp h
  obtain ⟨hs, -⟩ := splitOnce_eq_some.mp hsplit
  cases heq
  have hrev := congrArg List.reverse hs
  simpa using hrev

theorem dropPrefix_append (sep rest : List Char) : (sep ++ rest).dropPrefix? sep = some rest :=
  List.dropPrefix?_eq_some_iff.mpr ⟨sep, rfl, beq_self_eq_true sep⟩

theorem dropPrefix_eq_some {sep rest : List Char} (h : s.dropPrefix? sep = some rest) :
    s = sep ++ rest := by
  obtain ⟨start, rfl, hstart⟩ := List.dropPrefix?_eq_some_iff.mp h
  rw [eq_of_beq hstart]

theorem splitn_field (hx : sep ∉ x) (n : Nat) (y : List Char) :
    splitn (n + 2) sep (x ++ sep :: y) = x :: splitn (n + 1) sep y := by
  rw [splitn, splitOnce_eq_some.mpr ⟨rfl, hx⟩]

theorem splitCrlf_ne_nil (s : List Char) : splitCrlf s ≠ [] := by
  induction s using splitCrlf.induct with
  | case1 => simp [splitCrlf]
  | case2 cs ih => simp [splitCrlf]
  | case3 c cs h ih => rw [splitCrlf.eq_3 _ _ h]; simp [ih]

theorem intercalate_splitCrlf (s : List Char) :
    List.intercalate ['\r', '\n'] (splitCrlf s) = s := by
  induction s using splitCrlf.induct with
  | case1 => rfl
  | case2 cs ih =>
    obtain ⟨l, ls, hls⟩ := List.exists_cons_of_ne_nil (splitCrlf_ne_nil cs)
    rw [splitCrlf, hls]
    rw [hls] at ih
    simp only [List.intercalate, List.intersperse_cons_cons, List.flatten_cons] at ih ⊢
    rw [ih]
    rfl
  | case3 c cs h ih =>
    obtain ⟨l, ls, hls⟩ := List.exists_cons_of_ne_nil (splitCrlf_ne_nil cs)
    rw [splitCrlf.eq_3 _ _ h, hls]
    rw [hls] at ih
    cases ls with
    | nil => simpa [List.intercalate] using ih
    | cons m ls =>
      simp only [List.modifyHead_cons, List.intercalate, List.intersperse_cons_cons,
        List.flatten_cons] at ih ⊢
      rw [List.cons_append, ih]

theorem trimMatches_spec (p : Char → Bool) (s : List Char) :
    ∃ a b, s = a ++ trimMatches p s ++ b ∧ a.all p = true ∧ b.all p = true := by
  refine ⟨s.takeWhile p, (s.dropWhile p).rtakeWhile p, ?_, ?_, ?_⟩
  · rw [trimMatches, List.append_assoc, List.rdropWhile_append_rtakeWhile,
      List.takeWhile_append_dropWhile]
  · exact List.all_eq_true.mpr fun c hc => List.mem_takeWhile_imp hc
  · exact List.all_eq_true.mpr fun c hc => List.mem_rtakeWhile_imp hc

theorem trimMatches_eq_self (h : ∀ c ∈ s, p c = false) : trimMatches p s = s := by
  obtain ⟨a, b, hs, ha, hb⟩ := trimMatches_spec p s
  have hnil : ∀ t : List Char, (∀ c ∈ t, c ∈ s) → t.all p = true → t = [] := fun t hmem hall => by
    refine List.eq_nil_iff_forall_not_mem.mpr fun c hc => ?_
    have hp := List.all_eq_true.mp hall c hc
    rw [h c (hmem c hc)] at hp
    cases hp
  have ha' := hnil a (fun c hc => by rw [hs]; simp [hc]) ha
  have hb' := hnil b (fun c hc => by rw [hs]; simp [hc]) hb
  rw [ha', hb', List.nil_append, List.append_nil] at hs
  exact hs.symm

theorem trim_eq_trimMatches (s : List Char) : trim s = trimMatches isWhitespace s := rfl

end ThisConnect.Text
