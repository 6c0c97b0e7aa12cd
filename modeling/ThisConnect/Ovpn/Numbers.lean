/-
  ThisConnect.Ovpn.Numbers
  **WHAT THE RANGE TABLE LETS THROUGH.**
-/
import ThisConnect.Ovpn.Allowlist

namespace ThisConnect.Ovpn

open Numeral

/-! ## §1. Where an emitted directive comes from. -/

def Classifies (d : EmittedDirective) : Prop :=
  ∃ raw scope c, classify raw scope = .ok c ∧ c.emitted = some d

theorem parseConnection_classifies {block : RawBlock} {count n : Nat} {conn : ConnectionBlock}
    (h : parseConnection block count = .ok (conn, n)) : ∀ d ∈ conn.directives, Classifies d := by
  obtain ⟨items, -, h⟩ := ok_of_bind h
  refine connectionItems_invariant (P := fun b _ => ∀ d ∈ b.directives, Classifies d) ?_ items
    ⟨[], []⟩ count conn n (by simp) h
  intro b m item b' n hb hitem
  obtain ⟨raw, c, d, -, -, -, hc, hd, -, rfl⟩ := connectionItem_ok hitem
  intro e he
  rcases List.mem_append.mp he with he | he
  · exact hb e he
  · rw [List.mem_singleton.mp he]
    exact ⟨raw, .connection, c, hc, hd⟩

theorem parseProfile_classifies {input : List Char} {p : Profile} (h : parseProfile input = .ok p)
    {d : EmittedDirective} (hd : d ∈ p.directives ∨ ∃ c ∈ p.connections, d ∈ c.directives) :
    Classifies d := by
  obtain ⟨items, n, -, hitems, -⟩ := parseProfile_ok h
  have hinv := profileItems_invariant
    (P := fun parts _ _ => ∀ d,
      (d ∈ parts.directives ∨ ∃ c ∈ parts.connections, d ∈ c.directives) → Classifies d)
    ?_ items {} 0 p n [] (by simp) hitems
  · exact hinv d hd
  intro parts count item parts' n done hparts hstep d hd
  cases hstep with
  | directive raw c _ hc =>
    rw [absorb_directives, absorb_connections, List.mem_append, Option.mem_toList] at hd
    rcases hd with (hd | hd) | hd
    · exact hparts d (Or.inl hd)
    · exact ⟨raw, .topLevel, c, hc, hd⟩
    · exact hparts d (Or.inr hd)
  | connection block conn m _ hconn =>
    rcases hd with hd | ⟨c, hc, hd⟩
    · exact hparts d (Or.inl hd)
    rcases List.mem_append.mp hc with hc | hc
    · exact hparts d (Or.inr ⟨c, hc, hd⟩)
    · rw [List.mem_singleton.mp hc] at hd
      exact parseConnection_classifies hconn d hd
  | inline block _ _ _ => exact hparts d hd

/-! ## §2. Numbers. -/

/-- The word `infinite`, or a number in the range. -/
def Numeric (lo hi : Nat) (arg : String) : Prop :=
  arg = "infinite" ∨ ∃ v, parseUnsigned (2 ^ 32) arg.toList = some v ∧ lo ≤ v ∧ v ≤ hi

theorem checkInfiniteOr_ok_iff {ctx : Ctx} {arg : String} {lo hi : Nat} :
    checkInfiniteOr ctx arg lo hi = .ok () ↔ Numeric lo hi arg := by
  unfold checkInfiniteOr Numeric parseU32In
  by_cases hword : arg = "infinite"
  · simp [hword]
  generalize parseUnsigned (2 ^ 32) arg.toList = parsed
  cases parsed with
  | none => simp [hword, Except.map]
  | some v =>
    by_cases hrange : v < lo ∨ hi < v
    · have hout : ¬ (lo ≤ v ∧ v ≤ hi) := by omega
      simp [hword, hrange, hout, Except.map]
    · have hin : lo ≤ v ∧ v ≤ hi := by omega
      simp [hword, hrange, hin, Except.map]

theorem handle_ranged {ctx : Ctx} {name : String} {lo hi : Nat} {args : List String}
    (h : (name, lo, hi) ∈ ranges) :
    handle ctx name args = emitAfter (do
      expectArity ctx args 1 2
      checkInfiniteOr ctx (args.getD 0 "") lo hi) name args := by
  simp only [ranges, List.mem_cons, Prod.mk.injEq, List.not_mem_nil, or_false] at h
  rcases h with ⟨rfl, rfl, rfl⟩ | ⟨rfl, rfl, rfl⟩ | ⟨rfl, rfl, rfl⟩ | ⟨rfl, rfl, rfl⟩ |
    ⟨rfl, rfl, rfl⟩ | ⟨rfl, rfl, rfl⟩ | ⟨rfl, rfl, rfl⟩ | ⟨rfl, rfl, rfl⟩ | ⟨rfl, rfl, rfl⟩ |
    ⟨rfl, rfl, rfl⟩ | ⟨rfl, rfl, rfl⟩ | ⟨rfl, rfl, rfl⟩ | ⟨rfl, rfl, rfl⟩ | ⟨rfl, rfl, rfl⟩ |
    ⟨rfl, rfl, rfl⟩ <;> rfl

/-- A port that is followed by a word. -/
def wordAfterPort : List Char := "remote a\nport 1194 any/word\n".toList

end ThisConnect.Ovpn
