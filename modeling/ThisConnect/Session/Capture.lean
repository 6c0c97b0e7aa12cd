/-
  ThisConnect.Session.Capture
  **THE TAP ON THE MANAGEMENT STREAM.**

  Main results:
    • `observed_iff_plain` — for every stream and every way of cutting it that
      the client's splitter accepts, the tap hands on the log lines the client
      sees exactly when each of them is plain.
    • `push_reply_missed` — a resolver the client reads about and the tap does
      not.
-/
import ThisConnect.Base.Interaction
import ThisConnect.Base.Utf8
import ThisConnect.Mgmt.Codec

namespace ThisConnect.Session.Capture

open Codec Mgmt

/-! ## §1. The scanner. -/

def logPrefix : List UInt8 := [0x3E, 0x4C, 0x4F, 0x47, 0x3A]

structure LineScanner where
  line : List UInt8 := []
  skipping : Bool := false
  deriving DecidableEq, Repr

namespace LineScanner

def absorb (scanner : LineScanner) (byte : UInt8) : LineScanner :=
  let line := scanner.line ++ [byte]
  let stillPossible :=
    if line.length ≤ logPrefix.length then line.isPrefixOf logPrefix
    else decide (line.length ≤ maxInboundLineBytes)
  if stillPossible then { scanner with line } else ⟨[], true⟩

def finish (scanner : LineScanner) : Option (List Char) :=
  if !scanner.skipping && logPrefix.isPrefixOf scanner.line then
    (fromUtf8 scanner.line).map fun text => text.rdropWhile (· == '\r')
  else none

def push : LineScanner → List UInt8 → LineScanner × List (List Char)
  | scanner, [] => (scanner, [])
  | scanner, byte :: rest =>
    if byte = lineFeed then
      let (next, lines) := push {} rest
      (next, scanner.finish.toList ++ lines)
    else push (if scanner.skipping then scanner else scanner.absorb byte) rest

end LineScanner

def tapLines : LineScanner → List (List UInt8) → List (List Char)
  | _, [] => []
  | scanner, chunk :: rest =>
    let (next, lines) := scanner.push chunk
    lines ++ tapLines next rest

def clientLines : LineSplitter → List (List UInt8) → Except MgmtError (List (List Char))
  | _, [] => .ok []
  | splitter, chunk :: rest =>
    (splitter.push chunk).bind fun (next, lines) =>
      (clientLines next rest).map fun later => lines ++ later

def isLogLine (line : List Char) : Bool := ">LOG:".toList.isPrefixOf line

/-- A log line both read alike: UTF-8, within the limit, and with at most one carriage return at
    its end. -/
structure Plain (raw : List UInt8) : Prop where
  utf8 : (fromUtf8 raw).isSome = true
  short : raw.length ≤ maxInboundLineBytes
  single : ¬ [carriageReturn, carriageReturn] <:+ raw

/-! ## §2. The scanner, line by line. -/

/-- What the tap hands on of one line. -/
def observed (raw : List UInt8) : Option (List Char) :=
  if logPrefix <+: raw ∧ raw.length ≤ maxInboundLineBytes then
    (fromUtf8 raw).map fun text => text.rdropWhile (· == '\r')
  else none

def Possible (raw : List UInt8) : Prop :=
  raw.length ≤ maxInboundLineBytes ∧ (raw <+: logPrefix ∨ logPrefix <+: raw)

instance (raw : List UInt8) : Decidable (Possible raw) :=
  inferInstanceAs (Decidable (_ ∧ (_ ∨ _)))

/-- The scanner in the middle of a line. -/
def scanned (raw : List UInt8) : LineScanner := if Possible raw then ⟨raw, false⟩ else ⟨[], true⟩

theorem logPrefix_length_le : logPrefix.length ≤ maxInboundLineBytes := by decide

variable {raw : List UInt8}

theorem possible_of_concat {byte : UInt8} (h : Possible (raw ++ [byte])) : Possible raw := by
  obtain ⟨hlength, hlog⟩ := h
  rw [List.length_append, List.length_singleton] at hlength
  refine ⟨by omega, ?_⟩
  rcases hlog with hlog | hlog
  · exact .inl ((List.prefix_append raw [byte]).trans hlog)
  · rcases List.prefix_concat_iff.mp hlog with hlog | hlog
    · exact .inl (hlog ▸ List.prefix_append raw [byte])
    · exact .inr hlog

theorem absorb_possible (h : Possible raw) (byte : UInt8) :
    LineScanner.absorb ⟨raw, false⟩ byte = scanned (raw ++ [byte]) := by
  have hiff : (if (raw ++ [byte]).length ≤ logPrefix.length then
      (raw ++ [byte]).isPrefixOf logPrefix
      else decide ((raw ++ [byte]).length ≤ maxInboundLineBytes)) = true ↔
        Possible (raw ++ [byte]) := by
    have hlimit := logPrefix_length_le
    unfold Possible
    by_cases hlength : (raw ++ [byte]).length ≤ logPrefix.length
    · rw [if_pos hlength, List.isPrefixOf_iff_prefix]
      refine ⟨fun hlog => ⟨by omega, .inl hlog⟩, fun hlog => ?_⟩
      rcases hlog.2 with hlog | hlog
      · exact hlog
      · rw [hlog.eq_of_length_le hlength]
    · rw [if_neg hlength, decide_eq_true_iff]
      refine ⟨fun hle => ⟨hle, .inr ?_⟩, fun hlog => hlog.1⟩
      rw [List.length_append, List.length_singleton] at hlength
      -- the line before was at least as long as the mark
      rcases h.2 with hlog | hlog
      · rw [hlog.eq_of_length_le (by omega)]
        exact List.prefix_append _ _
      · exact hlog.trans (List.prefix_append _ _)
  unfold LineScanner.absorb scanned
  by_cases hpossible : Possible (raw ++ [byte])
  · simp only [hiff.mpr hpossible, hpossible, ↓reduceIte]
  · simp only [Bool.not_eq_true _ ▸ mt hiff.mp hpossible, hpossible]
    rfl

theorem scanned_concat (raw : List UInt8) (byte : UInt8) :
    (if (scanned raw).skipping then scanned raw else (scanned raw).absorb byte) =
      scanned (raw ++ [byte]) := by
  by_cases h : Possible raw
  · have hraw : scanned raw = ⟨raw, false⟩ := if_pos h
    rw [hraw]
    exact absorb_possible h byte
  · have hraw : scanned raw = ⟨[], true⟩ := if_neg h
    rw [hraw, scanned, if_neg (mt possible_of_concat h)]
    rfl

theorem finish_scanned (raw : List UInt8) : (scanned raw).finish = observed raw := by
  unfold observed
  by_cases h : Possible raw
  · have hraw : scanned raw = ⟨raw, false⟩ := if_pos h
    rw [hraw]
    unfold LineScanner.finish
    by_cases hlog : logPrefix <+: raw
    · rw [if_pos (by simpa using hlog), if_pos ⟨hlog, h.1⟩]
    · rw [if_neg (by simpa using hlog), if_neg (fun habsurd => hlog habsurd.1)]
  · have hraw : scanned raw = ⟨[], true⟩ := if_neg h
    rw [hraw, if_neg (fun hlog => h ⟨hlog.2, .inr hlog.1⟩)]
    rfl

theorem push_scanned (stream : List UInt8) : ∀ {raw : List UInt8}, lineFeed ∉ raw →
    ((scanned raw).push stream).2 =
      (Framing.frames lineFeed (raw ++ stream)).1.filterMap observed := by
  induction stream with
  | nil =>
    intro raw hraw
    rw [List.append_nil, Framing.frames_of_not_mem lineFeed hraw]
    rfl
  | cons byte rest ih =>
    intro raw hraw
    unfold LineScanner.push
    by_cases hbyte : byte = lineFeed
    · rw [if_pos hbyte, hbyte, Framing.frames_cons_sep lineFeed hraw, List.filterMap_cons]
      have hrest := @ih [] (by simp)
      rw [List.nil_append] at hrest
      dsimp only
      rw [finish_scanned, ← hrest]
      cases observed raw <;> rfl
    · rw [if_neg hbyte, scanned_concat, @ih (raw ++ [byte])]
      · rw [List.append_assoc, List.singleton_append]
      · simp [hraw, Ne.symm hbyte]

theorem push_append (first second : List UInt8) : ∀ scanner : LineScanner,
    (scanner.push (first ++ second)) =
      (((scanner.push first).1.push second).1,
        (scanner.push first).2 ++ ((scanner.push first).1.push second).2) := by
  induction first with
  | nil => intro scanner; rfl
  | cons byte rest ih =>
    intro scanner
    rw [List.cons_append, LineScanner.push, LineScanner.push]
    by_cases hbyte : byte = lineFeed
    · rw [if_pos hbyte, if_pos hbyte, ih]
      simp only [List.append_assoc]
    · rw [if_neg hbyte, if_neg hbyte, ih]

theorem tapLines_flatten (chunks : List (List UInt8)) : ∀ scanner : LineScanner,
    tapLines scanner chunks = (scanner.push chunks.flatten).2 := by
  induction chunks with
  | nil => intro scanner; rfl
  | cons chunk rest ih =>
    intro scanner
    show (scanner.push chunk).2 ++ tapLines (scanner.push chunk).1 rest = _
    rw [List.flatten_cons, push_append, ih]

theorem tapLines_eq (chunks : List (List UInt8)) :
    tapLines {} chunks = (Framing.frames lineFeed chunks.flatten).1.filterMap observed := by
  rw [tapLines_flatten]
  exact @push_scanned chunks.flatten [] (by simp)

theorem clientLines_eq (chunks : List (List UInt8)) :
    ∀ {splitter : LineSplitter} {lines : List (List Char)},
      clientLines splitter chunks = .ok lines → lineFeed ∉ splitter.buffered →
      lines = (Framing.frames lineFeed (splitter.buffered ++ chunks.flatten)).1.map decodeLine := by
  induction chunks with
  | nil =>
    intro splitter lines h hbuffered
    injection h with h
    rw [List.flatten_nil, List.append_nil, Framing.frames_of_not_mem lineFeed hbuffered, ← h]
    rfl
  | cons chunk rest ih =>
    intro splitter lines h hbuffered
    obtain ⟨⟨next, first⟩, hpush, h⟩ := ok_of_bind h
    obtain ⟨later, hlater, rfl⟩ := ok_of_map h
    unfold LineSplitter.push at hpush
    dsimp only at hpush
    obtain ⟨_, hpush⟩ := ok_of_unless hpush
    injection hpush with hpush
    injection hpush with hnext hfirst
    have hkept : next.buffered =
        (Framing.frames lineFeed (splitter.buffered ++ chunk)).2 := by rw [← hnext]
    have htail : lineFeed ∉ next.buffered := by
      rw [hkept]
      exact Framing.not_mem_frames_tail lineFeed _
    rw [List.flatten_cons, ← List.append_assoc, Framing.frames_append, List.map_append, hfirst,
      ← hkept, ← ih hlater htail]

/-! ## §3. One line, read by both. -/

def trimmed (raw : List UInt8) : List UInt8 :=
  if raw.getLast? = some carriageReturn then raw.dropLast else raw

theorem trimmed_concat (init : List UInt8) : trimmed (init ++ [carriageReturn]) = init := by
  simp [trimmed]

theorem trimmed_of_not_last (h : raw.getLast? ≠ some carriageReturn) : trimmed raw = raw := if_neg h

theorem isLogLine_decodeLine (raw : List UInt8) :
    isLogLine (decodeLine raw) = true ↔ logPrefix <+: raw := by
  have hmark : Ascii logPrefix := by simp [Ascii, logPrefix]
  have hlog : isLogLine (decodeLine raw) = true ↔ logPrefix <+: trimmed raw := by
    rw [isLogLine, List.isPrefixOf_iff_prefix]
    exact mark_prefix_iff hmark (trimmed raw)
  rw [hlog]
  by_cases hlast : raw.getLast? = some carriageReturn
  · obtain ⟨init, rfl⟩ := List.getLast?_eq_some_iff.mp hlast
    rw [trimmed_concat]
    refine ⟨fun h => h.trans (List.prefix_append _ _), fun h => ?_⟩
    -- the mark itself does not end in a carriage return
    rcases List.prefix_concat_iff.mp h with h | h
    · have := congrArg List.getLast? h
      exact absurd this (by simp [logPrefix, carriageReturn])
    · exact h
  · rw [trimmed_of_not_last hlast]

theorem return_last_iff {text : List Char} (h : fromUtf8 raw = some text) :
    text.getLast? = some '\r' ↔ raw.getLast? = some carriageReturn :=
  getLast_ascii_iff (b := carriageReturn) (by decide) h

theorem rdropWhile_eq_self_iff (text : List Char) :
    text.rdropWhile (· == '\r') = text ↔ text.getLast? ≠ some '\r' := by
  rw [List.rdropWhile_eq_self_iff]
  constructor
  · intro h hlast
    obtain ⟨init, rfl⟩ := List.getLast?_eq_some_iff.mp hlast
    exact h (by simp) (by simp)
  · intro h hne habsurd
    refine h ?_
    rw [List.getLast?_eq_getLast_of_ne_nil hne]
    simpa using habsurd

theorem observed_iff (hlog : logPrefix <+: raw) :
    observed raw = some (decodeLine raw) ↔ Plain raw := by
  by_cases hshort : raw.length ≤ maxInboundLineBytes
  swap
  · refine iff_of_false ?_ (fun hplain => hshort hplain.short)
    rw [observed, if_neg (fun h => hshort h.2)]
    simp
  rw [observed, if_pos ⟨hlog, hshort⟩]
  cases htext : fromUtf8 raw with
  | none => exact iff_of_false (by simp) (fun hplain => by simpa [htext] using hplain.utf8)
  | some text =>
    have hplain : Plain raw ↔ ¬ [carriageReturn, carriageReturn] <:+ raw :=
      ⟨fun h => h.single, fun h => ⟨by rw [htext]; rfl, hshort, h⟩⟩
    rw [hplain, Option.map_some, Option.some_inj]
    by_cases hlast : raw.getLast? = some carriageReturn
    · obtain ⟨init, rfl⟩ := List.getLast?_eq_some_iff.mp hlast
      -- one carriage return is cut off by both
      rw [fromUtf8_append_ascii (by decide : carriageReturn < 0x80)] at htext
      obtain ⟨left, hleft, htext⟩ := Option.bind_eq_some_iff.mp htext
      injection htext with htext
      have hdecoded : decodeLine (init ++ [carriageReturn]) = left := by
        show fromUtf8Lossy (trimmed (init ++ [carriageReturn])) = left
        rw [trimmed_concat]
        exact fromUtf8Lossy_eq hleft
      have hdropped : text.rdropWhile (· == '\r') = left.rdropWhile (· == '\r') := by
        rw [← htext]
        exact List.rdropWhile_concat_pos _ _ _ rfl
      rw [hdecoded, hdropped, rdropWhile_eq_self_iff, Ne, return_last_iff hleft, not_iff_not]
      constructor
      · intro h
        obtain ⟨front, rfl⟩ := List.getLast?_eq_some_iff.mp h
        exact ⟨front, by simp⟩
      · rintro ⟨front, h⟩
        refine List.getLast?_eq_some_iff.mpr ⟨front, ?_⟩
        have : (front ++ [carriageReturn]) ++ [carriageReturn] = init ++ [carriageReturn] := by
          rw [← h]
          simp
        exact (List.append_cancel_right this).symm
    · have hdecoded : decodeLine raw = text := by
        show fromUtf8Lossy (trimmed raw) = text
        rw [trimmed_of_not_last hlast]
        exact fromUtf8Lossy_eq htext
      rw [hdecoded, rdropWhile_eq_self_iff, Ne, return_last_iff htext]
      refine iff_of_true hlast (fun hdouble => hlast ?_)
      obtain ⟨front, rfl⟩ := hdouble
      simp

/-! ## §4. Whole streams. -/

section

variable {α β : Type} {f g : α → Option β}

theorem length_filterMap_le (hsub : ∀ a, (f a).isSome → (g a).isSome) (l : List α) :
    (l.filterMap f).length ≤ (l.filterMap g).length := by
  induction l with
  | nil => exact Nat.le_refl _
  | cons a rest ih =>
    have ha := hsub a
    cases hf : f a with
    | none =>
      rw [List.filterMap_cons_none hf]
      exact ih.trans (List.Sublist.filterMap g (List.sublist_cons_self a rest)).length_le
    | some x =>
      obtain ⟨y, hg⟩ := Option.isSome_iff_exists.mp (ha (by rw [hf]; rfl))
      rw [List.filterMap_cons_some hf, List.filterMap_cons_some hg, List.length_cons,
        List.length_cons]
      omega

theorem filterMap_eq_iff (hsub : ∀ a, (f a).isSome → (g a).isSome) (l : List α) :
    l.filterMap f = l.filterMap g ↔ ∀ a ∈ l, f a = g a := by
  induction l with
  | nil => simp
  | cons a rest ih =>
    rw [List.forall_mem_cons, ← ih, List.filterMap_cons, List.filterMap_cons]
    have ha := hsub a
    have hlength := length_filterMap_le hsub rest
    cases hf : f a with
    | some x =>
      obtain ⟨y, hg⟩ := Option.isSome_iff_exists.mp (ha (by rw [hf]; rfl))
      simp [hg]
    | none =>
      cases hg : g a with
      | none => simp
      | some y =>
        refine iff_of_false (fun h => ?_) (by simp)
        have := congrArg List.length h
        simp only [List.length_cons] at this
        omega

end

/-- The client's log line, if it is one. -/
def clientLog (raw : List UInt8) : Option (List Char) :=
  if isLogLine (decodeLine raw) then some (decodeLine raw) else none

theorem clientLog_of_observed (raw : List UInt8) (h : (observed raw).isSome) :
    (clientLog raw).isSome := by
  have hlog : logPrefix <+: raw := by
    by_contra hlog
    rw [observed, if_neg (fun habsurd => hlog habsurd.1)] at h
    exact absurd h (by simp)
  rw [clientLog, if_pos ((isLogLine_decodeLine raw).mpr hlog)]
  rfl

theorem filter_isLogLine (raws : List (List UInt8)) :
    (raws.map decodeLine).filter isLogLine = raws.filterMap clientLog := by
  induction raws with
  | nil => rfl
  | cons raw rest ih =>
    rw [List.map_cons, List.filter_cons, List.filterMap_cons, ih, clientLog]
    split <;> rfl

/-- **The tap and the client read the same log exactly when every log line is plain**: over every
    stream and every way of cutting it into chunks that the client's splitter accepts. -/
theorem observed_iff_plain {chunks : List (List UInt8)} {lines : List (List Char)}
    (h : clientLines {} chunks = .ok lines) :
    tapLines {} chunks = lines.filter isLogLine ↔
      ∀ raw ∈ (Framing.frames lineFeed chunks.flatten).1, logPrefix <+: raw → Plain raw := by
  have hlines := clientLines_eq chunks h (by simp)
  rw [hlines, List.nil_append, tapLines_eq, filter_isLogLine,
    filterMap_eq_iff clientLog_of_observed]
  refine forall₂_congr fun raw _ => ?_
  by_cases hlog : logPrefix <+: raw
  · rw [clientLog, if_pos ((isLogLine_decodeLine raw).mpr hlog), observed_iff hlog]
    exact ⟨fun hplain _ => hplain, fun hplain => hplain hlog⟩
  · refine iff_of_true ?_ (fun habsurd => absurd habsurd hlog)
    rw [clientLog, if_neg (mt (isLogLine_decodeLine raw).mp hlog), observed,
      if_neg (fun habsurd => hlog habsurd.1)]

instance (raw : List UInt8) : Decidable (Plain raw) :=
  decidable_of_iff ((fromUtf8 raw).isSome = true ∧ raw.length ≤ maxInboundLineBytes ∧
      ¬ [carriageReturn, carriageReturn] <:+ raw)
    ⟨fun ⟨utf8, short, single⟩ => ⟨utf8, short, single⟩, fun ⟨utf8, short, single⟩ =>
      ⟨utf8, short, single⟩⟩

def pushText : List Char :=
  ">LOG:0,,PUSH: Received control message: 'PUSH_REPLY,dhcp-option DNS 10.8.0.1'".toList

def plainChunks : List (List UInt8) :=
  [Text.bytes ">STATE:1,WAIT\r\n>LO".toList, Text.bytes (pushText.drop 3 ++ ['\r', '\n'])]

theorem observed_iff_plain_push :
    clientLines {} plainChunks = .ok [">STATE:1,WAIT".toList, pushText] ∧
      tapLines {} plainChunks = [">STATE:1,WAIT".toList, pushText].filter isLogLine := by
  have hclient : clientLines {} plainChunks = .ok [">STATE:1,WAIT".toList, pushText] := by
    decide +kernel
  exact ⟨hclient, (observed_iff_plain hclient).mpr (by decide +kernel)⟩

def brokenChunks : List (List UInt8) :=
  [Text.bytes pushText ++ [0xFF] ++ Text.bytes ['\r', '\n']]

/-- **The client reads of a resolver, and the tap does not.** -/
theorem push_reply_missed :
    clientLines {} brokenChunks = .ok [pushText ++ ['�']] ∧ tapLines {} brokenChunks = [] ∧
      tapLines {} brokenChunks ≠ [pushText ++ ['�']].filter isLogLine := by
  refine ⟨by decide +kernel, by decide +kernel, by decide +kernel⟩

end ThisConnect.Session.Capture
