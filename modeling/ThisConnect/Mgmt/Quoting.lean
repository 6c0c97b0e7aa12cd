/-
  ThisConnect.Mgmt.Quoting
  **A COMMAND READS BACK AS IT WAS MEANT.**

  Main result:
    • `buildCommand_tokenize` — the tokens of a built line are the verb and the
      parameters, and the line is one line of bounded length.
-/
import ThisConnect.Mgmt.Escape
import ThisConnect.Ovpn.Reparse

namespace ThisConnect.Mgmt

open Ovpn Text

/-! ## §1. What is written for a parameter. -/

/-- The body of a quoted parameter. -/
def escapeBody (raw : List Char) : List Char :=
  raw.flatMap fun c => if c = '"' ∨ c = '\\' then ['\\', c] else [c]

/-- What a parameter adds to a line. -/
def written (param : List Char) : List Char := ' ' :: '"' :: (escapeBody param ++ ['"'])

theorem escapeParam_ok {raw out : List Char} (h : escapeParam raw = .ok out) :
    ' ' :: out = written raw := by
  unfold escapeParam at h
  obtain ⟨_, ⟨⟩⟩ := ok_of_unless h
  simp [written, escapeBody]

theorem foldParams_ok {params : List (List Char)} :
    ∀ {acc line : List Char},
      params.foldlM (fun acc param => (escapeParam param).map (acc ++ ' ' :: ·)) acc =
        (.ok line : Except MgmtError _) → line = acc ++ params.flatMap written := by
  induction params with
  | nil =>
    intro acc line h
    injection h with h
    simp [h]
  | cons param params ih =>
    intro acc line h
    rw [List.foldlM_cons] at h
    obtain ⟨acc', hparam, hrest⟩ := ok_of_bind h
    obtain ⟨out, hout, hacc⟩ := ok_of_map hparam
    rw [ih hrest, ← hacc, escapeParam_ok hout]
    simp

theorem buildCommand_ok {verb line : List Char} {params : List (List Char)}
    (h : buildCommand verb params = .ok line) :
    verb ≠ [] ∧ (∀ c ∈ verb, isVerbChar c = true) ∧ line = verb ++ params.flatMap written ∧
      checkLineLength line = .ok () := by
  unfold buildCommand at h
  obtain ⟨hverb, h⟩ := ok_of_unless h
  simp only [Bool.or_eq_true, not_or, Bool.not_eq_true, Bool.not_eq_false',
    List.isEmpty_eq_false_iff, List.all_eq_true] at hverb
  obtain ⟨line', hfold, hcheck⟩ := ok_of_bind h
  obtain ⟨_, hlength, hline⟩ := ok_of_map hcheck
  subst hline
  exact ⟨hverb.1, hverb.2, foldParams_ok hfold, hlength⟩

/-! ## §2. What the tokenizer makes of it. -/

theorem tokenizeLoop_escapeBody (raw : List Char) (ts : List String) (rest : Line) :
    ∀ cur, tokenizeLoop ⟨ts, cur, true, false, true, false⟩ (escapeBody raw ++ rest) =
      tokenizeLoop ⟨ts, cur ++ raw, true, false, true, false⟩ rest := by
  induction raw with
  | nil => intro cur; simp [escapeBody]
  | cons c raw ih =>
    intro cur
    have hone : ∀ more, tokenizeLoop ⟨ts, cur, true, false, true, false⟩
        ((if c = '"' ∨ c = '\\' then ['\\', c] else [c]) ++ more) =
          tokenizeLoop ⟨ts, cur ++ [c], true, false, true, false⟩ more := by
      intro more
      split
      · simp [tokenizeLoop]
      · next hplain =>
        simp only [not_or] at hplain
        simp [tokenizeLoop, hplain.1, hplain.2]
    show tokenizeLoop _ ((if c = '"' ∨ c = '\\' then ['\\', c] else [c]) ++ escapeBody raw ++ rest)
      = _
    rw [List.append_assoc, hone, ih]
    simp

theorem tokenizeLoop_written (param : List Char) (ts : List String) (cur : List Char)
    (rest : Line) :
    tokenizeLoop ⟨ts, cur, true, false, false, false⟩ (written param ++ rest) =
      tokenizeLoop ⟨ts ++ [String.ofList cur], param, true, false, false, false⟩ rest := by
  have hopen : tokenizeLoop ⟨ts, cur, true, false, false, false⟩ (written param ++ rest) =
      tokenizeLoop ⟨ts ++ [String.ofList cur], [], true, false, true, false⟩
        (escapeBody param ++ ('"' :: rest)) := by
    simp [written, tokenizeLoop, show isWhitespace ' ' = true by decide]
  rw [hopen, tokenizeLoop_escapeBody, List.nil_append]
  simp [tokenizeLoop]

theorem tokenizeLoop_params (params : List (List Char)) :
    ∀ (ts : List String) (cur : List Char), ∃ ts' cur',
      tokenizeLoop ⟨ts, cur, true, false, false, false⟩ (params.flatMap written) =
          ⟨ts', cur', true, false, false, false⟩ ∧
        ts' ++ [String.ofList cur'] = ts ++ String.ofList cur :: params.map String.ofList := by
  induction params with
  | nil => intro ts cur; exact ⟨ts, cur, rfl, rfl⟩
  | cons param params ih =>
    intro ts cur
    obtain ⟨ts', cur', hloop, htokens⟩ := ih (ts ++ [String.ofList cur]) param
    refine ⟨ts', cur', ?_, ?_⟩
    · rw [List.flatMap_cons, tokenizeLoop_written, hloop]
    · rw [htokens]
      simp

theorem isPlain_of_isVerbChar {c : Char} (h : isVerbChar c = true) : isPlain c = true := by
  simp only [isVerbChar, Bool.or_eq_true, decide_eq_true_eq] at h
  rcases h with (halnum | rfl) | rfl
  · exact isPlain_of_isAlphanum halnum
  · decide
  · decide

/-! ## §3. The round trip. -/

theorem checkLineLength_ok {line : List Char} (h : checkLineLength line = .ok ()) :
    byteLen line ≤ maxLineBytes ∧ ∀ c ∈ line, isFramingHazard c = false := by
  unfold checkLineLength at h
  obtain ⟨hlength, h⟩ := ok_of_unless h
  obtain ⟨hfree, h⟩ := ok_of_unless h
  refine ⟨Nat.le_of_not_lt hlength, fun c hc => ?_⟩
  simp only [List.any_eq_true, not_exists, not_and, Bool.not_eq_true] at hfree
  exact hfree c hc

/-- **A built command is the verb and the parameters, and nothing else**: that is what the
    tokenizer reads, in a single line that openvpn does not truncate. -/
theorem buildCommand_tokenize {verb line : List Char} {params : List (List Char)}
    (h : buildCommand verb params = .ok line) (lineNo : Nat) :
    tokenize line lineNo = .ok (String.ofList verb :: params.map String.ofList) ∧
      (∀ c ∈ line, c ≠ '\r' ∧ c ≠ '\n' ∧ c ≠ '\x00') ∧ (bytes line).length ≤ maxLineBytes := by
  obtain ⟨hne, hverb, hline, hcheck⟩ := buildCommand_ok h
  obtain ⟨hlength, hfree⟩ := checkLineLength_ok hcheck
  refine ⟨?_, fun c hc => ?_, ?_⟩
  · obtain ⟨ts, cur, hloop, htokens⟩ := tokenizeLoop_params params [] verb
    have hword := tokenizeLoop_word (fun c hc => isPlain_of_isVerbChar (hverb c hc)) []
      (params.flatMap written) [] false
    have hempty : verb.isEmpty = false := by simpa using hne
    rw [hempty] at hword
    have hall : tokenizeLoop {} line = ⟨ts, cur, true, false, false, false⟩ := by
      rw [hline]
      exact hword.trans hloop
    rw [tokenize, hall]
    show Except.ok (ts ++ [String.ofList cur]) = _
    rw [htokens]
    rfl
  · have hsafe := hfree c hc
    simp only [isFramingHazard, Bool.or_eq_false_iff, decide_eq_false_iff_not] at hsafe
    exact ⟨hsafe.1.2, hsafe.1.1, hsafe.2⟩
  · have hbytes : (bytes line).length = byteLen line := by
      simp [bytes, byteLen, List.length_flatMap]
    omega

/-- A password with a quote, a comment character, a trailing space; an empty one. -/
theorem buildCommand_tokenize_sample :
    ∃ line, buildCommand "password".toList ["Auth".toList, "a\"b #c\\ ".toList, []] = .ok line ∧
      tokenize line 1 = .ok ["password", "Auth", "a\"b #c\\ ", ""] := by
  have hbuilt : buildCommand "password".toList ["Auth".toList, "a\"b #c\\ ".toList, []] =
      .ok "password \"Auth\" \"a\\\"b #c\\\\ \" \"\"".toList := by decide
  exact ⟨_, hbuilt, (buildCommand_tokenize hbuilt 1).1⟩

end ThisConnect.Mgmt
