/-
  ThisConnect.Base.Json
  **COMPACT JSON TEXT.**

  Main results:
    • `Value.render_cancel` — the text of a value determines the value and
      where it ends, so `Value.render` is injective.
    • `Value.le_of_mem_render` — the text holds no control character.
-/
import ThisConnect.Base.Numeral

namespace ThisConnect.Json

/-! ## §1. Writing. -/

/-- A control character's escape. -/
def escapeControl (c : Char) : List Char :=
  if c = '\x08' then ['\\', 'b']
  else if c = '\t' then ['\\', 't']
  else if c = '\n' then ['\\', 'n']
  else if c = '\x0c' then ['\\', 'f']
  else if c = '\r' then ['\\', 'r']
  else ['\\', 'u', '0', '0', (c.toNat / 16).digitChar, (c.toNat % 16).digitChar]

def escapeChar (c : Char) : List Char :=
  if c = '"' then ['\\', '"']
  else if c = '\\' then ['\\', '\\']
  else if c.toNat < 32 then escapeControl c
  else [c]

def escape (s : List Char) : List Char := s.flatMap escapeChar

theorem escape_cons (c : Char) (s : List Char) : escape (c :: s) = escapeChar c ++ escape s := rfl

def quote (s : List Char) : List Char := '"' :: (escape s ++ ['"'])

mutual
inductive Value where
  | text (s : List Char)
  | number (n : Nat)
  | object (fields : Fields)

inductive Fields where
  | nil
  | cons (key : List Char) (value : Value) (rest : Fields)

end

mutual
def Value.render : Value → List Char
  | .text s => quote s
  | .number n => Nat.toDigits 10 n
  | .object fields => '{' :: (fields.render [] ++ ['}'])

def Fields.render (sep : List Char) : Fields → List Char
  | .nil => []
  | .cons key value rest => sep ++ (quote key ++ ':' :: (value.render ++ rest.render [',']))

end

/-! ## §2. Escapes read back. -/

def unescapeLetter (c : Char) : Char :=
  if c = 'b' then '\x08'
  else if c = 't' then '\t'
  else if c = 'n' then '\n'
  else if c = 'f' then '\x0c'
  else if c = 'r' then '\r'
  else c

/-- What follows a backslash. -/
def unescapeTail : List Char → Option (Char × List Char)
  | 'u' :: '0' :: '0' :: high :: low :: rest =>
    (Numeral.digitsValue 16 0 [high, low]).map fun n => (Char.ofNat n, rest)
  | c :: rest => some (unescapeLetter c, rest)
  | [] => none

def unescape : List Char → Option (Char × List Char)
  | [] => none
  | c :: rest => if c = '\\' then unescapeTail rest else some (c, rest)

variable {n : Nat} {s s' t t' : List Char} {c : Char} {v v' : Value}

theorem unescape_escapeControl (hn : n < 32) (rest : List Char) :
    unescape (escapeControl (Char.ofNat n) ++ rest) = some (Char.ofNat n, rest) := by
  interval_cases n <;> rfl

theorem unescape_escapeChar (c : Char) (rest : List Char) :
    unescape (escapeChar c ++ rest) = some (c, rest) := by
  unfold escapeChar
  split
  · next hquote => rw [hquote]; rfl
  · split
    · next hslash => rw [hslash]; rfl
    · next hslash =>
      split
      · next hcontrol =>
        rw [← Char.ofNat_toNat c]
        exact unescape_escapeControl hcontrol rest
      · exact if_neg hslash

theorem escapeChar_append_ne (c : Char) (rest rest' : List Char) :
    escapeChar c ++ rest ≠ '"' :: rest' := by
  intro h
  have hread := unescape_escapeChar c rest
  rw [h] at hread
  injection hread with hread
  injection hread with hc _
  subst hc
  exact absurd h (by simp [escapeChar])

theorem escape_cancel (h : escape s ++ '"' :: t = escape s' ++ '"' :: t') :
    s = s' ∧ t = t' := by
  induction s generalizing s' with
  | nil =>
    cases s' with
    | nil => exact ⟨rfl, List.cons.inj h |>.2⟩
    | cons c s' =>
      rw [escape_cons, List.append_assoc] at h
      exact absurd h.symm (escapeChar_append_ne c _ _)
  | cons c s ih =>
    rw [escape_cons, List.append_assoc] at h
    cases s' with
    | nil => exact absurd h (escapeChar_append_ne c _ _)
    | cons c' s' =>
      rw [escape_cons, List.append_assoc] at h
      have hread := congrArg unescape h
      rw [unescape_escapeChar, unescape_escapeChar] at hread
      injection hread with hread
      injection hread with hc hrest
      obtain ⟨hs, ht⟩ := ih hrest
      exact ⟨by rw [hc, hs], ht⟩

theorem quote_cancel (h : quote s ++ t = quote s' ++ t') :
    s = s' ∧ t = t' := by
  unfold quote at h
  rw [List.cons_append, List.cons_append] at h
  have hbody := (List.cons.inj h).2
  rw [List.append_assoc, List.append_assoc] at hbody
  exact escape_cancel hbody

/-! ## §3. Numbers read back. -/

/-- The text does not go on with a digit. -/
def Delimited (t : List Char) : Prop := ∀ c, t.head? = some c → c.isDigit = false

theorem isDigit_of_mem_toDigits (h : c ∈ Nat.toDigits 10 n) :
    c.isDigit = true := Nat.isDigit_of_mem_toDigits (by decide) (by decide) h

theorem takeWhile_digits {ds : List Char} (hds : ∀ c ∈ ds, c.isDigit = true) (ht : Delimited t) :
    (ds ++ t).takeWhile Char.isDigit = ds := by
  rw [List.takeWhile_append_of_pos hds]
  cases t with
  | nil => simp
  | cons c t => simp [ht c rfl]

theorem digits_cancel {m : Nat} (ht : Delimited t) (ht' : Delimited t')
    (h : Nat.toDigits 10 m ++ t = Nat.toDigits 10 n ++ t') : m = n ∧ t = t' := by
  have hdigits := congrArg (List.takeWhile Char.isDigit) h
  rw [takeWhile_digits (fun _ => isDigit_of_mem_toDigits) ht,
    takeWhile_digits (fun _ => isDigit_of_mem_toDigits) ht'] at hdigits
  rw [hdigits] at h
  exact ⟨Numeral.toDigits_injective (by decide) (by decide) hdigits, List.append_cancel_left h⟩

/-! ## §4. Values read back. -/

theorem Value.render_head (v : Value) : ∃ c rest, v.render = c :: rest ∧
    (c = '"' ↔ ∃ s, v = .text s) ∧ (c = '{' ↔ ∃ fields, v = .object fields) := by
  cases v with
  | text s => exact ⟨'"', _, rfl, by simp, by simp⟩
  | number n =>
    cases hdigits : Nat.toDigits 10 n with
    | nil => exact absurd hdigits Nat.toDigits_ne_nil
    | cons c rest =>
      have hc : c.isDigit = true := isDigit_of_mem_toDigits (n := n) (by simp [hdigits])
      refine ⟨c, rest, hdigits, ?_, ?_⟩
      · simp only [reduceCtorEq, exists_false, iff_false]
        rintro rfl
        exact absurd hc (by decide)
      · simp only [reduceCtorEq, exists_false, iff_false]
        rintro rfl
        exact absurd hc (by decide)
  | object fields => exact ⟨'{', _, rfl, by simp, by simp⟩

theorem Fields.delimited_render (fields : Fields) (t : List Char) :
    Delimited (fields.render [','] ++ '}' :: t) := by
  cases fields with
  | nil =>
    intro c hc
    injection hc with hc
    exact hc ▸ rfl
  | cons key value rest =>
    intro c hc
    injection hc with hc
    exact hc ▸ rfl

theorem Value.same_kind (h : v.render ++ t = v'.render ++ t') :
    ((∃ s, v = .text s) ↔ ∃ s, v' = .text s) ∧
      ((∃ fields, v = .object fields) ↔ ∃ fields, v' = .object fields) := by
  obtain ⟨c, rest, hrender, htext, hobject⟩ := v.render_head
  obtain ⟨c', rest', hrender', htext', hobject'⟩ := v'.render_head
  rw [hrender, hrender', List.cons_append, List.cons_append] at h
  have hc := (List.cons.inj h).1
  rw [← htext, ← htext', ← hobject, ← hobject', hc]
  exact ⟨Iff.rfl, Iff.rfl⟩

mutual
theorem Value.render_cancel : ∀ (v v' : Value) (t t' : List Char), Delimited t → Delimited t' →
    v.render ++ t = v'.render ++ t' → v = v' ∧ t = t'
  | .text s, v', t, t', _, _, h => by
      obtain ⟨s', rfl⟩ := (Value.same_kind h).1.mp ⟨s, rfl⟩
      obtain ⟨hs, ht⟩ := quote_cancel h
      exact ⟨by rw [hs], ht⟩
  | .number n, v', t, t', ht, ht', h => by
      cases v' with
      | text s => exact absurd ((Value.same_kind h).1.mpr ⟨s, rfl⟩) (by simp)
      | object fields => exact absurd ((Value.same_kind h).2.mpr ⟨fields, rfl⟩) (by simp)
      | number n' =>
        obtain ⟨hn, htail⟩ := digits_cancel ht ht' h
        exact ⟨by rw [hn], htail⟩
  | .object fields, v', t, t', _, _, h => by
      obtain ⟨fields', rfl⟩ := (Value.same_kind h).2.mp ⟨fields, rfl⟩
      simp only [Value.render, List.cons_append, List.append_assoc, List.nil_append,
        List.cons.injEq, true_and] at h
      obtain ⟨hfields, ht⟩ := Fields.render_cancel fields fields' [] t t' (.inl rfl) h
      exact ⟨by rw [hfields], ht⟩

theorem Fields.render_cancel : ∀ (fs fs' : Fields) (sep t t' : List Char), sep = [] ∨ sep = [','] →
    fs.render sep ++ '}' :: t = fs'.render sep ++ '}' :: t' → fs = fs' ∧ t = t'
  | .nil, .nil, _, t, t', _, h => ⟨rfl, (List.cons.inj h).2⟩
  | .nil, .cons key value rest, sep, t, t', hsep, h => by
      rcases hsep with rfl | rfl
      all_goals exact absurd (List.cons.inj h).1 (by decide)
  | .cons key value rest, .nil, sep, t, t', hsep, h => by
      rcases hsep with rfl | rfl
      all_goals exact absurd (List.cons.inj h).1 (by decide)
  | .cons key value rest, .cons key' value' rest', sep, t, t', _, h => by
      simp only [Fields.render, List.append_assoc, List.append_cancel_left_eq] at h
      obtain ⟨hkey, htail⟩ := quote_cancel h
      simp only [List.cons_append, List.append_assoc, List.cons.injEq, true_and] at htail
      obtain ⟨hvalue, hmore⟩ := Value.render_cancel value value' _ _
        (rest.delimited_render t) (rest'.delimited_render t') htail
      obtain ⟨hrest, ht⟩ := Fields.render_cancel rest rest' [','] t t' (.inr rfl) hmore
      exact ⟨by rw [hkey, hvalue, hrest], ht⟩

end

theorem Value.render_injective (h : v.render = v'.render) : v = v' :=
  (Value.render_cancel v v' [] [] (fun _ hc => by cases hc) (fun _ hc => by cases hc)
    (by rw [h])).1

/-! ## §5. No control characters. -/

theorem le_of_mem_escapeControl (hn : n < 32) (h : c ∈ escapeControl (Char.ofNat n)) :
    32 ≤ c.toNat := by
  have hall : (escapeControl (Char.ofNat n)).all (fun c => decide (32 ≤ c.toNat)) = true := by
    interval_cases n <;> rfl
  exact of_decide_eq_true (List.all_eq_true.mp hall c h)

theorem le_of_mem_escapeChar {c' : Char} (h : c' ∈ escapeChar c) : 32 ≤ c'.toNat := by
  unfold escapeChar at h
  split at h
  · simp only [List.mem_cons, List.not_mem_nil, or_false] at h
    rcases h with rfl | rfl <;> decide
  · split at h
    · simp only [List.mem_cons, List.not_mem_nil, or_false] at h
      rcases h with rfl | rfl <;> decide
    · split at h
      · next hcontrol =>
        rw [← Char.ofNat_toNat c] at h
        exact le_of_mem_escapeControl hcontrol h
      · next hplain =>
        rw [List.mem_singleton.mp h]
        omega

theorem le_of_mem_quote (h : c ∈ quote s) : 32 ≤ c.toNat := by
  simp only [quote, escape, List.mem_cons, List.mem_append, List.mem_flatMap,
    List.not_mem_nil, or_false] at h
  rcases h with rfl | ⟨c', _, hmem⟩ | rfl
  · decide
  · exact le_of_mem_escapeChar hmem
  · decide

mutual
theorem Value.le_of_mem_render : ∀ (v : Value) (c : Char), c ∈ v.render → 32 ≤ c.toNat
  | .text _, _, h => le_of_mem_quote h
  | .number _, c, h => by
      have hdigit := isDigit_of_mem_toDigits h
      simp only [Char.isDigit, ge_iff_le, Bool.and_eq_true, decide_eq_true_eq,
        UInt32.le_iff_toNat_le] at hdigit
      exact Nat.le_trans (by decide) hdigit.1
  | .object fields, c, h => by
      simp only [Value.render, List.mem_cons, List.mem_append, List.not_mem_nil, or_false] at h
      rcases h with rfl | h | rfl
      · decide
      · exact Fields.le_of_mem_render fields [] (by simp) c h
      · decide

theorem Fields.le_of_mem_render : ∀ (fs : Fields) (sep : List Char),
    (∀ c ∈ sep, 32 ≤ c.toNat) → ∀ c, c ∈ fs.render sep → 32 ≤ c.toNat
  | .nil, _, _, c, h => absurd h (by simp [Fields.render])
  | .cons key value rest, sep, hsep, c, h => by
      simp only [Fields.render, List.mem_append, List.mem_cons] at h
      rcases h with h | h | rfl | h | h
      · exact hsep c h
      · exact le_of_mem_quote h
      · decide
      · exact Value.le_of_mem_render value c h
      · exact Fields.le_of_mem_render rest [','] (by simp) c h

end

end ThisConnect.Json
