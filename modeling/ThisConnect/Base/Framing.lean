/-
  ThisConnect.Base.Framing
  **CUTTING A STREAM AT A SEPARATOR.**

  Main result:
    • `frames_of_stream` — whatever has arrived of a stream of frames, the
      complete frames are the first ones sent, and what is kept together with
      what is to come is the stream of the others.
-/
import Mathlib.Data.List.Basic
import ThisConnect.Base.Outcome

namespace ThisConnect.Framing

variable {α : Type} (sep : α)

def stream (frames : List (List α)) : List α := frames.flatMap (· ++ [sep])

@[simp] theorem stream_nil : stream sep [] = [] := rfl

@[simp] theorem stream_cons (frame : List α) (rest : List (List α)) :
    stream sep (frame :: rest) = frame ++ sep :: stream sep rest := by
  simp [stream]

@[simp] theorem stream_append (first second : List (List α)) :
    stream sep (first ++ second) = stream sep first ++ stream sep second := by
  simp [stream]

variable [DecidableEq α]

def frames : List α → List (List α) × List α
  | [] => ([], [])
  | a :: rest =>
    if a = sep then ([] :: (frames rest).1, (frames rest).2)
    else
      match frames rest with
      | ([], tail) => ([], a :: tail)
      | (frame :: more, tail) => ((a :: frame) :: more, tail)

theorem stream_frames (s : List α) : stream sep (frames sep s).1 ++ (frames sep s).2 = s := by
  induction s with
  | nil => rfl
  | cons a rest ih =>
    unfold frames
    split
    · next hsep =>
      subst hsep
      simpa using ih
    · split
      · next tail hrest =>
        rw [hrest] at ih
        simpa using ih
      · next frame more tail hrest =>
        rw [hrest] at ih
        simpa using ih

theorem not_mem_of_mem_frames {s frame : List α} (h : frame ∈ (frames sep s).1) : sep ∉ frame := by
  induction s generalizing frame with
  | nil => exact absurd h (by simp [frames])
  | cons a rest ih =>
    unfold frames at h
    split at h
    · rcases List.mem_cons.mp h with rfl | hmem
      · simp
      · exact ih hmem
    · next hne =>
      split at h
      · exact absurd h (by simp)
      · next first more tail hrest =>
        rw [hrest] at ih
        rcases List.mem_cons.mp h with rfl | hmem
        · have hfirst : sep ∉ first := ih (by simp)
          simp [hfirst, Ne.symm hne]
        · exact ih (by simp [hmem])

theorem not_mem_frames_tail (s : List α) : sep ∉ (frames sep s).2 := by
  induction s with
  | nil => exact List.not_mem_nil
  | cons a rest ih =>
    unfold frames
    split
    · exact ih
    · next hne =>
      split
      · next tail hrest =>
        rw [hrest] at ih
        simp [ih, Ne.symm hne]
      · next frame more tail hrest =>
        rw [hrest] at ih
        exact ih

theorem frames_of_not_mem {s : List α} (h : sep ∉ s) : frames sep s = ([], s) := by
  induction s with
  | nil => rfl
  | cons a rest ih =>
    simp only [List.mem_cons, not_or] at h
    unfold frames
    rw [if_neg (Ne.symm h.1), ih h.2]

theorem frames_cons_sep {s : List α} (h : sep ∉ s) (rest : List α) :
    frames sep (s ++ sep :: rest) = (s :: (frames sep rest).1, (frames sep rest).2) := by
  induction s with
  | nil =>
    rw [List.nil_append, frames, if_pos rfl]
  | cons a s ih =>
    simp only [List.mem_cons, not_or] at h
    rw [List.cons_append, frames, if_neg (Ne.symm h.1), ih h.2]

theorem frames_append (s t : List α) :
    frames sep (s ++ t) = ((frames sep s).1 ++ (frames sep ((frames sep s).2 ++ t)).1,
      (frames sep ((frames sep s).2 ++ t)).2) := by
  induction s with
  | nil => rfl
  | cons a rest ih =>
    by_cases ha : a = sep
    · simp [frames, ha, ih]
    · rw [List.cons_append, frames, if_neg ha, ih]
      cases hrest : frames sep rest with
      | mk complete tail =>
        cases complete with
        | nil => simp [frames, ha, hrest]
        | cons frame more => simp [frames, ha, hrest]

omit [DecidableEq α] in
/-- Two texts cut at their first separator agree piece by piece. -/
theorem append_sep_inj {c : α} {x x' y y' : List α} (hx : c ∉ x) (hx' : c ∉ x')
    (h : x ++ c :: y = x' ++ c :: y') : x = x' ∧ y = y' := by
  induction x generalizing x' with
  | nil =>
    cases x' with
    | nil => simpa using h
    | cons d x' =>
      rw [List.nil_append, List.cons_append] at h
      injection h with hd _
      exact absurd (by simp [hd]) hx'
  | cons d x ih =>
    cases x' with
    | nil =>
      rw [List.nil_append, List.cons_append] at h
      injection h with hd _
      exact absurd (by simp [hd]) hx
    | cons d' x' =>
      rw [List.cons_append, List.cons_append] at h
      injection h with hd h
      obtain ⟨hxx, hyy⟩ := ih (by simp_all) (by simp_all) h
      exact ⟨by rw [hd, hxx], hyy⟩

omit [DecidableEq α] in
/-- Frames at the front of a stream of frames are the first of them, whatever is left over at its
    end. -/
theorem stream_cancel {cut sent : List (List α)} {more tail : List α}
    (hcut : ∀ frame ∈ cut, sep ∉ frame) (hsent : ∀ frame ∈ sent, sep ∉ frame) (htail : sep ∉ tail)
    (h : stream sep cut ++ more = stream sep sent ++ tail) :
    ∃ rest, sent = cut ++ rest ∧ more = stream sep rest ++ tail := by
  induction cut generalizing sent with
  | nil => exact ⟨sent, rfl, h⟩
  | cons frame cut ih =>
    cases sent with
    | nil =>
      rw [stream_nil, List.nil_append] at h
      exact absurd (by rw [← h]; simp) htail
    | cons first sent =>
      simp only [stream_cons, List.append_assoc, List.cons_append] at h
      obtain ⟨hfirst, hstream⟩ := append_sep_inj (hcut frame (by simp))
        (hsent first (by simp)) h
      obtain ⟨rest, hrest, hmore⟩ := ih (fun f hf => hcut f (by simp [hf]))
        (fun f hf => hsent f (by simp [hf])) hstream
      exact ⟨rest, by rw [hfirst, hrest]; rfl, hmore⟩

omit [DecidableEq α] in
/-- What holds no separator ends before the first one. -/
theorem length_le_of_append_sep {x y frame rest : List α} (hx : sep ∉ x)
    (h : x ++ y = frame ++ sep :: rest) : x.length ≤ frame.length := by
  by_contra hlonger
  have hlt : frame.length < x.length := Nat.lt_of_not_le hlonger
  have hat : x[frame.length] = sep := by
    have hget := congrArg (fun l : List α => l[frame.length]?) h
    simpa [List.getElem?_append_left hlt, List.getElem?_eq_getElem hlt] using hget
  exact hx (hat ▸ List.getElem_mem hlt)

theorem frames_of_stream {arrived coming : List α} {sent : List (List α)}
    (hsent : ∀ frame ∈ sent, sep ∉ frame) (h : arrived ++ coming = stream sep sent) :
    ∃ rest, sent = (frames sep arrived).1 ++ rest ∧
      (frames sep arrived).2 ++ coming = stream sep rest := by
  have hcut : stream sep (frames sep arrived).1 ++ ((frames sep arrived).2 ++ coming) =
      stream sep sent ++ [] := by
    rw [← List.append_assoc, stream_frames, h, List.append_nil]
  obtain ⟨rest, hrest, hmore⟩ := stream_cancel sep
    (fun frame hframe => not_mem_of_mem_frames sep hframe) hsent List.not_mem_nil hcut
  exact ⟨rest, hrest, hmore.trans (List.append_nil _)⟩

example : frames 0 [1, 2, 0, 0, 3] = ([[1, 2], []], [3]) := by decide

end ThisConnect.Framing
