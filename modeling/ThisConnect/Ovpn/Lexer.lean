/-
  ThisConnect.Ovpn.Lexer
  **THE TOKENIZER: COMMENTS, QUOTING AND INLINE BLOCKS.**
-/
import ThisConnect.Base.Text
import ThisConnect.Ovpn.Error

namespace ThisConnect.Ovpn

open Text

abbrev Line := List Char

/-! ## §1. What the lexer produces. -/

structure RawDirective where
  line : Nat
  name : String
  args : List String
  deriving DecidableEq, Repr

structure RawBlock where
  line : Nat
  tag : String
  body : List Char
  deriving DecidableEq, Repr

inductive Item where
  | directive (raw : RawDirective)
  | block (block : RawBlock)
  deriving DecidableEq, Repr

/-! ## §2. Tags. -/

/-- `str::to_ascii_lowercase`. -/
def toAsciiLowercase (s : List Char) : List Char := s.map Char.toLower

def isComment (trimmed : Line) : Bool :=
  trimmed.head? == some '#' || trimmed.head? == some ';'

/-- A character of a tag name. -/
def isTagChar (c : Char) : Bool := c.isAlphanum || c == '-'

def openTag (trimmed : Line) (line : Nat) : Except ValidationError (Option String) :=
  if trimmed.head? != some '<' then .ok none
  else
    let inner := ((trimmed.dropPrefix? ['<']).bind (·.dropSuffix? ['>'])).getD []
    match inner.dropPrefix? ['/'] with
    | some closing =>
      .error (.unexpectedInlineClose line (String.ofList (toAsciiLowercase closing)))
    | none =>
      let tag := toAsciiLowercase inner
      if tag.isEmpty || !tag.all isTagChar then
        .error (.forbiddenInlineTag line (String.ofList trimmed))
      else .ok (some (String.ofList tag))

def closeTag (rawLine : Line) : Option String :=
  (((trim rawLine).dropPrefix? ['<', '/']).bind (·.dropSuffix? ['>'])).map
    fun name => String.ofList (toAsciiLowercase name)

/-! ## §3. Tokens. -/

/-- The mutable locals of `tokenize`. -/
structure TokenState where
  tokens : List String := []
  current : List Char := []
  hasToken : Bool := false
  inSingle : Bool := false
  inDouble : Bool := false
  escaped : Bool := false
  deriving DecidableEq, Repr

def tokenizeLoop : TokenState → Line → TokenState
  | s, [] => s
  | s, c :: cs =>
    if s.escaped then
      tokenizeLoop { s with current := s.current ++ [c], escaped := false } cs
    else if c == '\\' && !s.inSingle then
      tokenizeLoop { s with escaped := true } cs
    else if c == '\'' && !s.inDouble then
      tokenizeLoop { s with inSingle := !s.inSingle, hasToken := true } cs
    else if c == '"' && !s.inSingle then
      tokenizeLoop { s with inDouble := !s.inDouble, hasToken := true } cs
    else if (c == '#' || c == ';') && !s.inSingle && !s.inDouble then s
    else if isWhitespace c && !s.inSingle && !s.inDouble then
      if s.hasToken then
        tokenizeLoop { s with
          tokens := s.tokens ++ [String.ofList s.current], current := [], hasToken := false } cs
      else tokenizeLoop s cs
    else tokenizeLoop { s with current := s.current ++ [c], hasToken := true } cs

/-- Split one line into tokens. -/
def tokenize (line : Line) (lineNo : Nat) : Except ValidationError (List String) :=
  let s := tokenizeLoop {} line
  if s.inSingle || s.inDouble || s.escaped then .error (.unterminatedQuote lineNo)
  else if s.hasToken then .ok (s.tokens ++ [String.ofList s.current])
  else .ok s.tokens

/-! ## §4. Lines. -/

structure OpenBlock where
  start : Nat
  tag : String
  body : List Line
  deriving DecidableEq, Repr

/-- The mutable locals of `lex`. -/
structure LexState where
  items : List Item := []
  open? : Option OpenBlock := none
  blocks : Nat := 0
  deriving DecidableEq, Repr

def finishBody (body : List Line) : List Char :=
  let text := List.intercalate ['\n'] body
  if text.isEmpty then text else text ++ ['\n']

def finishBlock (b : OpenBlock) : RawBlock := ⟨b.start, b.tag, finishBody b.body⟩

def bodyBytes (body : List Line) : Nat := (body.map fun l => byteLen l + 1).sum

/-- One turn of the loop of `lex`. -/
def lexLine (st : LexState) (line : Nat) (rawLine : Line) : Except ValidationError LexState :=
  if rawLine.contains '\x00' then .error (.nulByte line)
  else
    match st.open? with
    | some b =>
      if closeTag rawLine = some b.tag then
        if st.blocks + 1 > maxInlineBlocks then .error (.tooManyInlineBlocks maxInlineBlocks)
        else .ok ⟨st.items ++ [.block (finishBlock b)], none, st.blocks + 1⟩
      else
        let body := b.body ++ [rawLine]
        if bodyBytes body > maxInlineBytes then
          .error (.inlineBlockTooLarge b.start b.tag maxInlineBytes)
        else .ok { st with open? := some { b with body := body } }
    | none =>
      let trimmed := trim rawLine
      if trimmed.isEmpty || isComment trimmed then .ok st
      else if byteLen rawLine > maxLineBytes then .error (.lineTooLong line maxLineBytes)
      else
        match openTag trimmed line with
        | .error e => .error e
        | .ok (some tag) => .ok { st with open? := some ⟨line, tag, []⟩ }
        | .ok none =>
          match tokenize rawLine line with
          | .error e => .error e
          | .ok [] => .ok st
          | .ok (name :: args) =>
            if args.length > maxArgs then .error (.tooManyArguments line maxArgs)
            else
              let raw : RawDirective :=
                ⟨line, String.ofList (toAsciiLowercase name.toList), args⟩
              .ok { st with items := st.items ++ [.directive raw] }

def lexLines : Nat → LexState → List Line → Except ValidationError LexState
  | _, st, [] => .ok st
  | line, st, l :: ls => (lexLine st line l).bind fun st => lexLines (line + 1) st ls

def lex (input : List Char) (firstLine : Nat) : Except ValidationError (List Item) :=
  (lexLines firstLine {} (lines input)).bind fun st =>
    match st.open? with
    | some b => .error (.unterminatedInlineBlock b.start b.tag)
    | none => .ok st.items

/-! ## §5. What an accepted line does. -/

inductive LexStep (st : LexState) (line : Nat) (rawLine : Line) : LexState → Prop where
  | close (b : OpenBlock) (hopen : st.open? = some b) (hclose : closeTag rawLine = some b.tag)
      (hblocks : st.blocks + 1 ≤ maxInlineBlocks) :
      LexStep st line rawLine ⟨st.items ++ [.block (finishBlock b)], none, st.blocks + 1⟩
  | body (b : OpenBlock) (hopen : st.open? = some b) (hclose : closeTag rawLine ≠ some b.tag)
      (hbytes : bodyBytes (b.body ++ [rawLine]) ≤ maxInlineBytes) :
      LexStep st line rawLine { st with open? := some { b with body := b.body ++ [rawLine] } }
  | skip (hopen : st.open? = none) (htag : ∀ tag, openTag (trim rawLine) line ≠ .ok (some tag)) :
      LexStep st line rawLine st
  | enter (tag : String) (hopen : st.open? = none)
      (htag : openTag (trim rawLine) line = .ok (some tag)) :
      LexStep st line rawLine { st with open? := some ⟨line, tag, []⟩ }
  | emit (name : String) (args : List String) (hopen : st.open? = none)
      (htag : openTag (trim rawLine) line = .ok none)
      (htokens : tokenize rawLine line = .ok (name :: args)) (hargs : args.length ≤ maxArgs) :
      LexStep st line rawLine { st with
        items := st.items ++
          [.directive ⟨line, String.ofList (toAsciiLowercase name.toList), args⟩] }

theorem openTag_of_skipped {trimmed : Line} (line : Nat)
    (h : (trimmed.isEmpty || isComment trimmed) = true) : openTag trimmed line = .ok none := by
  have hhead : (trimmed.head? != some '<') = true := by
    rw [Bool.or_eq_true, List.isEmpty_iff, isComment, Bool.or_eq_true, beq_iff_eq,
      beq_iff_eq] at h
    rcases h with h | h | h <;> simp [h]
  rw [openTag, if_pos hhead]

theorem openTag_ok_line {trimmed : Line} {tag : Option String} {n : Nat}
    (h : openTag trimmed n = .ok tag) (k : Nat) : openTag trimmed k = .ok tag := by
  rw [openTag] at h ⊢
  split
  · next hhead => rwa [if_pos hhead] at h
  · next hhead =>
    rw [if_neg hhead] at h
    dsimp only at h ⊢
    split at h
    · simp at h
    · obtain ⟨htag, h⟩ := ok_of_unless h
      rw [if_neg htag, h]

theorem lexLine_ok {st st' : LexState} {line : Nat} {rawLine : Line}
    (h : lexLine st line rawLine = .ok st') :
    '\x00' ∉ rawLine ∧ LexStep st line rawLine st' := by
  rw [lexLine] at h
  split at h
  · simp at h
  next hnul =>
  refine ⟨by simpa using hnul, ?_⟩
  split at h
  · next b hopen =>
    split at h
    · next hclose =>
      obtain ⟨_, ⟨⟩⟩ := ok_of_unless h
      exact .close b hopen hclose (by omega)
    · next hclose =>
      dsimp only at h
      obtain ⟨_, ⟨⟩⟩ := ok_of_unless h
      exact .body b hopen hclose (by omega)
  · next hopen =>
    dsimp only at h
    split at h
    · next hskip =>
      injection h with h
      subst h
      exact .skip hopen (fun tag => by simp [openTag_of_skipped line hskip])
    split at h
    · simp at h
    split at h
    · simp at h
    · next tag htag =>
      injection h with h
      subst h
      exact .enter tag hopen htag
    · next htag =>
      split at h
      · simp at h
      · injection h with h
        subst h
        exact .skip hopen (fun tag => by simp [htag])
      · next name args htokens =>
        obtain ⟨_, ⟨⟩⟩ := ok_of_unless h
        exact .emit name args hopen htag htokens (by omega)

theorem lexLines_invariant {P : LexState → List Line → Prop}
    (hstep : ∀ st line l st' done, P st done → '\x00' ∉ l → LexStep st line l st' →
      P st' (done ++ [l])) (ls : List Line) :
    ∀ line st st' done, P st done → lexLines line st ls = .ok st' → P st' (done ++ ls) := by
  induction ls with
  | nil =>
    intro line st st' done hP h
    injection h with h
    subst h
    simpa using hP
  | cons l ls ih =>
    intro line st st' done hP h
    obtain ⟨mid, hmid, hrest⟩ := ok_of_bind h
    obtain ⟨hnul, hline⟩ := lexLine_ok hmid
    have := ih (line + 1) mid st' (done ++ [l]) (hstep st line l mid done hP hnul hline) hrest
    simpa using this

theorem lex_ok {input : List Char} {firstLine : Nat} {items : List Item}
    (h : lex input firstLine = .ok items) :
    ∃ blocks, lexLines firstLine {} (lines input) = .ok ⟨items, none, blocks⟩ := by
  obtain ⟨st, hst, hfinish⟩ := ok_of_bind h
  split at hfinish
  · simp at hfinish
  · next hopen =>
    injection hfinish with hfinish
    obtain ⟨items', open', blocks⟩ := st
    simp only at hopen hfinish
    exact ⟨blocks, by rw [hst, hopen, hfinish]⟩

end ThisConnect.Ovpn
