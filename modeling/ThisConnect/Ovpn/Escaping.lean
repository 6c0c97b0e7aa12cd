/-
  ThisConnect.Ovpn.Escaping
  **TOKENS WRITTEN WITH BACKSLASHES.**

  Main results:
    • `tokenize_written` — a line in which every token has a bare character
      reads back,
    • `length_tokens_written` — otherwise as many tokens are missing as there
      are tokens without one,
    • `tokenize_written_iff` — the two together.
-/
import ThisConnect.Ovpn.Reparse

namespace ThisConnect.Ovpn

open Text

/-! ## §1. How a token is written. -/

abbrev Mark := Char × Bool

structure Spelling where
  marks : List Mark
  nonempty : marks ≠ []
  covered : ∀ mark ∈ marks, mark.2 = false → isPlain mark.1 = true

namespace Spelling

def token (spelling : Spelling) : String := String.ofList (spelling.marks.map Prod.fst)

def written (spelling : Spelling) : Line :=
  spelling.marks.flatMap fun mark => if mark.2 then ['\\', mark.1] else [mark.1]

def hasBare (spelling : Spelling) : Bool := spelling.marks.any fun mark => !mark.2

end Spelling

/-- The tokens, joined by single spaces. -/
def writtenLine : List Spelling → Line
  | [] => []
  | [spelling] => spelling.written
  | spelling :: next :: rest => spelling.written ++ ' ' :: writtenLine (next :: rest)

/-! ## §2. One token. -/

theorem tokenizeLoop_escaped (c : Char) (ts : List String) (cur : List Char) (b : Bool)
    (rest : Line) :
    tokenizeLoop ⟨ts, cur, b, false, false, false⟩ ('\\' :: c :: rest)
      = tokenizeLoop ⟨ts, cur ++ [c], b, false, false, false⟩ rest := by
  simp [tokenizeLoop]

theorem tokenizeLoop_marks {marks : List Mark}
    (hcovered : ∀ mark ∈ marks, mark.2 = false → isPlain mark.1 = true) (ts : List String)
    (rest : Line) :
    ∀ cur b, tokenizeLoop ⟨ts, cur, b, false, false, false⟩
        ((marks.flatMap fun mark => if mark.2 then ['\\', mark.1] else [mark.1]) ++ rest)
      = tokenizeLoop ⟨ts, cur ++ marks.map Prod.fst, b || marks.any fun mark => !mark.2,
          false, false, false⟩ rest := by
  induction marks with
  | nil => intro cur b; simp
  | cons mark marks ih =>
    intro cur b
    have hrest := ih fun m hm => hcovered m (by simp [hm])
    rw [List.flatMap_cons, List.append_assoc]
    cases hmark : mark.2 with
    | true =>
      rw [if_pos rfl, List.cons_append, List.cons_append, List.nil_append,
        tokenizeLoop_escaped, hrest]
      simp [hmark]
    | false =>
      rw [if_neg (by simp), List.cons_append, List.nil_append,
        tokenizeLoop_plain (hcovered mark (by simp) hmark), hrest]
      simp [hmark]

theorem tokenizeLoop_spelling (spelling : Spelling) (ts : List String) (cur : List Char)
    (rest : Line) :
    tokenizeLoop ⟨ts, cur, false, false, false, false⟩ (spelling.written ++ rest)
      = tokenizeLoop ⟨ts, cur ++ spelling.marks.map Prod.fst, spelling.hasBare,
          false, false, false⟩ rest := by
  rw [Spelling.written, tokenizeLoop_marks spelling.covered, Bool.false_or]
  rfl

theorem tokenizeLoop_space (ts : List String) (cur : List Char) (b : Bool) (rest : Line) :
    tokenizeLoop ⟨ts, cur, b, false, false, false⟩ (' ' :: rest)
      = if b then tokenizeLoop ⟨ts ++ [String.ofList cur], [], false, false, false, false⟩ rest
        else tokenizeLoop ⟨ts, cur, false, false, false, false⟩ rest := by
  cases b with
  | true => simp [tokenizeLoop, show isWhitespace ' ' = true by decide]
  | false => simp [tokenizeLoop, show isWhitespace ' ' = true by decide]

/-! ## §3. A line. -/

def TokenState.finished (s : TokenState) : List String :=
  if s.hasToken then s.tokens ++ [String.ofList s.current] else s.tokens

theorem tokenizeLoop_line (spellings : List Spelling) : ∀ (ts : List String) (cur : List Char),
    ∃ ts' cur' b', tokenizeLoop ⟨ts, cur, false, false, false, false⟩ (writtenLine spellings)
      = ⟨ts', cur', b', false, false, false⟩ := by
  induction spellings with
  | nil => intro ts cur; exact ⟨ts, cur, false, rfl⟩
  | cons spelling rest ih =>
    intro ts cur
    have hone := tokenizeLoop_spelling spelling ts cur
    cases rest with
    | nil =>
      have hlast := hone []
      rw [List.append_nil] at hlast
      exact ⟨_, _, _, hlast⟩
    | cons next rest =>
      rw [writtenLine, hone, tokenizeLoop_space]
      split
      · exact ih _ _
      · exact ih _ _

theorem tokenize_eq_finished (spellings : List Spelling) (lineNo : Nat) :
    tokenize (writtenLine spellings) lineNo
      = .ok (tokenizeLoop {} (writtenLine spellings)).finished := by
  obtain ⟨ts, cur, b, hloop⟩ := tokenizeLoop_line spellings [] []
  have hstart : tokenizeLoop {} (writtenLine spellings) = ⟨ts, cur, b, false, false, false⟩ := hloop
  rw [tokenize, hstart]
  cases b with
  | true => rfl
  | false => rfl

theorem finished_written {spellings : List Spelling}
    (hbare : ∀ spelling ∈ spellings, spelling.hasBare = true) : ∀ ts : List String,
    (tokenizeLoop ⟨ts, [], false, false, false, false⟩ (writtenLine spellings)).finished
      = ts ++ spellings.map Spelling.token := by
  induction spellings with
  | nil => intro ts; simp [writtenLine, tokenizeLoop, TokenState.finished]
  | cons spelling rest ih =>
    intro ts
    have hone := tokenizeLoop_spelling spelling ts []
    rw [List.nil_append, hbare spelling (by simp)] at hone
    cases rest with
    | nil =>
      have hlast := hone []
      rw [List.append_nil] at hlast
      rw [writtenLine, hlast]
      rfl
    | cons next rest =>
      rw [writtenLine, hone, tokenizeLoop_space, if_pos rfl,
        ih fun s hs => hbare s (by simp [hs])]
      simp [Spelling.token]

theorem tokenize_written {spellings : List Spelling}
    (hbare : ∀ spelling ∈ spellings, spelling.hasBare = true) (lineNo : Nat) :
    tokenize (writtenLine spellings) lineNo = .ok (spellings.map Spelling.token) := by
  rw [tokenize_eq_finished]
  exact congrArg Except.ok (finished_written hbare [])

theorem length_tokens_written (spellings : List Spelling) : ∀ (ts : List String) (cur : List Char),
    (tokenizeLoop ⟨ts, cur, false, false, false, false⟩ (writtenLine spellings)).finished.length
      = ts.length + spellings.countP Spelling.hasBare := by
  induction spellings with
  | nil => intro ts cur; simp [writtenLine, tokenizeLoop, TokenState.finished]
  | cons spelling rest ih =>
    intro ts cur
    have hone := tokenizeLoop_spelling spelling ts cur
    cases rest with
    | nil =>
      have hlast := hone []
      rw [List.append_nil] at hlast
      rw [writtenLine, hlast]
      cases hbare : spelling.hasBare with
      | true => simp [tokenizeLoop, TokenState.finished, hbare]
      | false => simp [tokenizeLoop, TokenState.finished, hbare]
    | cons next rest =>
      rw [writtenLine, hone, tokenizeLoop_space, List.countP_cons]
      cases hbare : spelling.hasBare with
      | true =>
        rw [if_pos rfl, if_pos rfl, ih, List.length_append, List.length_singleton]
        omega
      | false =>
        rw [if_neg Bool.false_ne_true, if_neg Bool.false_ne_true, ih]
        omega

/-- **Escaped tokens read back exactly if each of them has a character without a backslash.** -/
theorem tokenize_written_iff (spellings : List Spelling) (lineNo : Nat) :
    tokenize (writtenLine spellings) lineNo = .ok (spellings.map Spelling.token) ↔
      ∀ spelling ∈ spellings, ∃ mark ∈ spelling.marks, mark.2 = false := by
  have hbare : ∀ spelling : Spelling, spelling.hasBare = true ↔
      ∃ mark ∈ spelling.marks, mark.2 = false := fun spelling => by
    simp [Spelling.hasBare]
  constructor
  · intro h spelling hmem
    rw [tokenize_eq_finished] at h
    injection h with h
    -- every token is there, so every token was counted
    have hcount := length_tokens_written spellings [] []
    have hlength : (tokenizeLoop ⟨[], [], false, false, false, false⟩
        (writtenLine spellings)).finished.length = spellings.length := by
      rw [← List.length_map Spelling.token, ← h]
    rw [hlength, List.length_nil, Nat.zero_add] at hcount
    exact (hbare spelling).mp (List.countP_eq_length.mp hcount.symm spelling hmem)
  · intro h
    exact tokenize_written (fun spelling hmem => (hbare spelling).mpr (h spelling hmem)) lineNo

def numberSign : Spelling where
  marks := [('#', true)]
  nonempty := by simp
  covered := by simp

/-- The tokenizer loses it. -/
theorem tokenize_numberSign :
    [numberSign].map Spelling.token = ["#"] ∧ writtenLine [numberSign] = ['\\', '#'] ∧
      tokenize (writtenLine [numberSign]) 1 = .ok [] := by
  decide

end ThisConnect.Ovpn
