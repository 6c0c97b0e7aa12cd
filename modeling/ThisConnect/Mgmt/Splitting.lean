/-
  ThisConnect.Mgmt.Splitting
  **THE LINES OF A STREAM DO NOT DEPEND ON ITS PIECES.**

  Main result: `splitting_independent_of_pieces`.
-/
import ThisConnect.Base.Interaction
import ThisConnect.Mgmt.Codec

namespace ThisConnect.Mgmt

open Framing

namespace LineSplitter

/-! ## §1. Pieces in a row. -/

def pushAll : LineSplitter → List (List UInt8) → Except MgmtError (LineSplitter × List (List Char))
  | splitter, [] => .ok (splitter, [])
  | splitter, chunk :: chunks =>
    (splitter.push chunk).bind fun (next, lines) =>
    (pushAll next chunks).map fun (last, more) => (last, lines ++ more)

variable {chunk : List UInt8} {lines : List (List Char)} {next splitter : LineSplitter}

theorem push_ok_iff :
    splitter.push chunk = .ok (next, lines) ↔
      next.buffered = (frames lineFeed (splitter.buffered ++ chunk)).2 ∧
      next.buffered.length ≤ maxInboundLineBytes ∧
      lines = (frames lineFeed (splitter.buffered ++ chunk)).1.map decodeLine := by
  obtain ⟨kept⟩ := next
  unfold push
  dsimp only
  split
  · next hlong =>
    refine ⟨fun h => (by cases h), fun ⟨hkept, hshort, _⟩ => ?_⟩
    rw [hkept] at hshort
    omega
  · next hshort =>
    constructor
    · intro h
      injection h with h
      injection h with hkept hlines
      injection hkept with hkept
      subst hkept
      exact ⟨rfl, by omega, hlines.symm⟩
    · rintro ⟨hkept, -, rfl⟩
      rw [← hkept]

theorem push_kept (h : splitter.push chunk = .ok (next, lines)) :
    lineFeed ∉ next.buffered ∧ next.buffered.length ≤ maxInboundLineBytes := by
  obtain ⟨hkept, hshort, -⟩ := push_ok_iff.mp h
  rw [hkept] at hshort ⊢
  exact ⟨not_mem_frames_tail lineFeed _, hshort⟩

/-! ## §2. The whole stream. -/

theorem pushAll_frames (chunks : List (List UInt8)) :
    ∀ {splitter last : LineSplitter} {lines : List (List Char)},
      lineFeed ∉ splitter.buffered → pushAll splitter chunks = .ok (last, lines) →
      last.buffered = (frames lineFeed (splitter.buffered ++ chunks.flatten)).2 ∧
      lines = (frames lineFeed (splitter.buffered ++ chunks.flatten)).1.map decodeLine := by
  induction chunks with
  | nil =>
    intro splitter last lines hbuffered h
    injection h with h
    injection h with hlast hlines
    rw [List.flatten_nil, List.append_nil, frames_of_not_mem lineFeed hbuffered, ← hlast,
      ← hlines]
    exact ⟨rfl, rfl⟩
  | cons chunk chunks ih =>
    intro splitter last lines hbuffered h
    obtain ⟨⟨next, first⟩, hpush, h⟩ := ok_of_bind h
    obtain ⟨⟨last', later⟩, hrest, h⟩ := ok_of_map h
    injection h with hlast hlines
    subst hlast
    obtain ⟨hkept, -, rfl⟩ := push_ok_iff.mp hpush
    obtain ⟨hbuffer, rfl⟩ := ih (push_kept hpush).1 hrest
    rw [List.flatten_cons, ← List.append_assoc, frames_append, ← hkept, List.map_append]
    exact ⟨hbuffer, hlines.symm⟩

theorem pushAll_short {tail : List UInt8} (htail : lineFeed ∉ tail)
    (hshort : tail.length ≤ maxInboundLineBytes) (chunks : List (List UInt8)) :
    ∀ {splitter : LineSplitter} {segments : List (List UInt8)},
      lineFeed ∉ splitter.buffered →
      (∀ segment ∈ segments, lineFeed ∉ segment ∧ segment.length ≤ maxInboundLineBytes) →
      splitter.buffered ++ chunks.flatten = stream lineFeed segments ++ tail →
      pushAll splitter chunks = .ok (⟨tail⟩, segments.map decodeLine) := by
  induction chunks with
  | nil =>
    intro splitter segments hbuffered hsegments h
    rw [List.flatten_nil, List.append_nil] at h
    cases segments with
    | nil =>
      obtain ⟨buffered⟩ := splitter
      dsimp only at h
      rw [h]
      rfl
    | cons segment segments => exact absurd (by rw [h]; simp) hbuffered
  | cons chunk chunks ih =>
    intro splitter segments hbuffered hsegments h
    -- the lines the chunk completes are the first ones, and the rest is a stream of the others
    have hcut : stream lineFeed (frames lineFeed (splitter.buffered ++ chunk)).1 ++
        ((frames lineFeed (splitter.buffered ++ chunk)).2 ++ chunks.flatten) =
          stream lineFeed segments ++ tail := by
      rw [← List.append_assoc, stream_frames, List.append_assoc, ← List.flatten_cons, h]
    obtain ⟨later, hlater, hmore⟩ := stream_cancel lineFeed
      (fun frame hframe => not_mem_of_mem_frames lineFeed hframe)
      (fun segment hsegment => (hsegments segment hsegment).1) htail hcut
    have hfree := not_mem_frames_tail lineFeed (splitter.buffered ++ chunk)
    have hfits : (frames lineFeed (splitter.buffered ++ chunk)).2.length
        ≤ maxInboundLineBytes := by
      cases later with
      | nil =>
        have hle := congrArg List.length hmore
        rw [stream_nil, List.nil_append, List.length_append] at hle
        omega
      | cons segment later =>
        rw [stream_cons, List.append_assoc] at hmore
        have hle := length_le_of_append_sep lineFeed hfree hmore
        have hsegment := (hsegments segment (by rw [hlater]; simp)).2
        omega
    have hpush : splitter.push chunk = .ok (⟨(frames lineFeed (splitter.buffered ++ chunk)).2⟩,
        (frames lineFeed (splitter.buffered ++ chunk)).1.map decodeLine) :=
      push_ok_iff.mpr ⟨rfl, hfits, rfl⟩
    have hrest := @ih ⟨(frames lineFeed (splitter.buffered ++ chunk)).2⟩ later hfree
      (fun segment hsegment => hsegments segment (by rw [hlater]; simp [hsegment])) hmore
    rw [pushAll, hpush, hlater, List.map_append]
    exact congrArg (Except.map _) hrest

/-! ## §3. The law. -/

/-- **Splitting does not depend on the pieces**: two ways of cutting a stream that both get through
    give the same lines and leave the same buffer; both do get through if every line and the tail
    are short; and a buffer is always short and holds no line feed. -/
theorem splitting_independent_of_pieces :
    (∀ {chunks chunks' : List (List UInt8)} {last last' : LineSplitter}
        {lines lines' : List (List Char)}, chunks.flatten = chunks'.flatten →
      pushAll {} chunks = .ok (last, lines) → pushAll {} chunks' = .ok (last', lines') →
      lines = lines' ∧ last.buffered = last'.buffered) ∧
    (∀ {segments : List (List UInt8)} {tail : List UInt8} {chunks : List (List UInt8)},
      (∀ segment ∈ segments, lineFeed ∉ segment ∧ segment.length ≤ maxInboundLineBytes) →
      lineFeed ∉ tail → tail.length ≤ maxInboundLineBytes →
      chunks.flatten = stream lineFeed segments ++ tail →
      pushAll {} chunks = .ok (⟨tail⟩, segments.map decodeLine)) ∧
    (∀ {splitter next : LineSplitter} {chunk : List UInt8} {lines : List (List Char)},
      splitter.push chunk = .ok (next, lines) →
      lineFeed ∉ next.buffered ∧ next.buffered.length ≤ maxInboundLineBytes) := by
  have hempty : lineFeed ∉ ({} : LineSplitter).buffered := List.not_mem_nil
  refine ⟨?_, ?_, push_kept⟩
  · intro chunks chunks' last last' lines lines' hsame h h'
    obtain ⟨hlast, hlines⟩ := pushAll_frames chunks hempty h
    obtain ⟨hlast', hlines'⟩ := pushAll_frames chunks' hempty h'
    rw [hsame] at hlast hlines
    exact ⟨hlines.trans hlines'.symm, hlast.trans hlast'.symm⟩
  · intro segments tail chunks hsegments htail hshort h
    exact pushAll_short htail hshort chunks hempty hsegments h

/-- `>H` with its terminator cut in the middle, and in one piece. -/
theorem splitting_line_in_two :
    pushAll {} [[0x3E, 0x48, 13], [10, 0x3E]] = .ok (⟨[0x3E]⟩, [['>', 'H']]) ∧
      ∃ last lines, pushAll {} [[0x3E, 0x48, 13, 10, 0x3E]] = .ok (last, lines) ∧
        lines = [['>', 'H']] ∧ last.buffered = [0x3E] := by
  have hpieces : pushAll {} [[0x3E, 0x48, 13], [10, 0x3E]] = .ok (⟨[0x3E]⟩, [['>', 'H']]) :=
    splitting_independent_of_pieces.2.1 (by decide : ∀ segment ∈ [([0x3E, 0x48, 13] : List UInt8)],
      lineFeed ∉ segment ∧ segment.length ≤ maxInboundLineBytes) (by decide) (by decide) rfl
  have hwhole : pushAll {} [[0x3E, 0x48, 13, 10, 0x3E]] = .ok (⟨[0x3E]⟩, [['>', 'H']]) := by
    decide +kernel
  exact ⟨hpieces, _, _, hwhole, splitting_independent_of_pieces.1 rfl hwhole hpieces⟩

end LineSplitter

end ThisConnect.Mgmt
