/-
  ThisConnect.Ovpn.Parse
  **IMPORT: LEX, CLASSIFY, COLLECT.**
-/
import ThisConnect.Ovpn.Directive

namespace ThisConnect.Ovpn

open Text

/-! ## §1. The import loop. -/

def connectionTag : String := "connection"

def absorb (parts : Profile) : Classified → Profile
  | .emit d => { parts with directives := parts.directives ++ [d] }
  | .remote r =>
    { parts with
      directives := parts.directives ++ [r.toDirective], remotes := parts.remotes ++ [r] }
  | .authUserPass =>
    { parts with
      needsAuthUserPass := true
      directives := parts.directives ++ [EmittedDirective.bare "auth-user-pass"] }
  | .staticChallenge c =>
    { parts with directives := parts.directives ++ [c.toDirective], staticChallenge := some c }
  | .route r => { parts with routes := parts.routes ++ [r] }
  | .redirectGateway r => { parts with redirectGateway := parts.redirectGateway ++ [r] }
  | .dhcpOption o => { parts with dhcpOptions := parts.dhcpOptions ++ [o] }
  | .ignored => parts

def countDirective (count : Nat) : Except ValidationError Nat :=
  if count + 1 > maxDirectives then .error (.tooManyDirectives maxDirectives) else .ok (count + 1)

/-- One item of a `<connection>` body. -/
def connectionItem (c : ConnectionBlock) (count : Nat) :
    Item → Except ValidationError (ConnectionBlock × Nat)
  | .block inner => .error (.nestedInlineBlock inner.line inner.tag)
  | .directive raw => do
      let count ← countDirective count
      match ← classify raw .connection with
      | .emit d => .ok ({ c with directives := c.directives ++ [d] }, count)
      | .remote r =>
        .ok (⟨c.directives ++ [r.toDirective], c.remotes ++ [r]⟩, count)
      | _ =>
        .error (.forbiddenDirective raw.line raw.name "not valid inside a <connection> block")

/-- The loop of `parse_connection`. -/
def connectionItems : ConnectionBlock → Nat → List Item →
    Except ValidationError (ConnectionBlock × Nat)
  | c, count, [] => .ok (c, count)
  | c, count, item :: items =>
    (connectionItem c count item).bind fun (c, count) => connectionItems c count items

def parseConnection (block : RawBlock) (count : Nat) :
    Except ValidationError (ConnectionBlock × Nat) :=
  (lex block.body (block.line + 1)).bind fun items => connectionItems ⟨[], []⟩ count items

def profileItem (parts : Profile) (count : Nat) :
    Item → Except ValidationError (Profile × Nat)
  | .directive raw => do
      let count ← countDirective count
      let classified ← classify raw .topLevel
      .ok (absorb parts classified, count)
  | .block block =>
    if block.tag = connectionTag then do
      let (connection, count) ← parseConnection block count
      .ok ({ parts with connections := parts.connections ++ [connection] }, count)
    else if !isInlineMaterial block.tag then
      .error (.forbiddenInlineTag block.line block.tag)
    else if parts.inline.any fun m => m.tag == block.tag then
      .error (.duplicateInlineTag block.line block.tag)
    else .ok ({ parts with inline := parts.inline ++ [⟨block.tag, block.body⟩] }, count)

/-- The loop of `parse_profile`. -/
def profileItems : Profile → Nat → List Item → Except ValidationError (Profile × Nat)
  | parts, count, [] => .ok (parts, count)
  | parts, count, item :: items =>
    (profileItem parts count item).bind fun (parts, count) => profileItems parts count items

def Profile.hasRemote (p : Profile) : Bool :=
  !p.remotes.isEmpty || p.connections.any fun c => !c.remotes.isEmpty

def parseProfile (input : List Char) : Except ValidationError Profile :=
  if byteLen input > maxFileBytes then .error (.fileTooLarge (byteLen input) maxFileBytes)
  else do
    let items ← lex input 1
    let (parts, count) ← profileItems {} 0 items
    if count = 0 ∧ parts.inline.isEmpty then .error .emptyProfile
    else if !parts.hasRemote then .error .missingRemote
    else .ok parts

/-! ## §2. What an accepted item does. -/

def Classified.emitted : Classified → Option EmittedDirective
  | .emit d => some d
  | .remote r => some r.toDirective
  | .authUserPass => some (EmittedDirective.bare "auth-user-pass")
  | .staticChallenge c => some c.toDirective
  | .route _ | .redirectGateway _ | .dhcpOption _ | .ignored => none

def Classified.remote? : Classified → Option Remote
  | .remote r => some r
  | _ => none

@[simp] theorem absorb_directives (parts : Profile) (c : Classified) :
    (absorb parts c).directives = parts.directives ++ c.emitted.toList := by
  cases c <;> simp [absorb, Classified.emitted]

@[simp] theorem absorb_remotes (parts : Profile) (c : Classified) :
    (absorb parts c).remotes = parts.remotes ++ c.remote?.toList := by
  cases c <;> simp [absorb, Classified.remote?]

@[simp] theorem absorb_connections (parts : Profile) (c : Classified) :
    (absorb parts c).connections = parts.connections := by
  cases c <;> rfl

@[simp] theorem absorb_inline (parts : Profile) (c : Classified) :
    (absorb parts c).inline = parts.inline := by
  cases c <;> rfl

variable {count n : Nat} {item : Item}

theorem countDirective_ok (h : countDirective count = .ok n) :
    count + 1 ≤ maxDirectives ∧ n = count + 1 := by
  rw [countDirective] at h
  obtain ⟨_, h⟩ := ok_of_unless h
  injection h with h
  exact ⟨by omega, h.symm⟩

inductive ProfileStep (parts : Profile) (count : Nat) : Item → Profile → Nat → Prop where
  | directive (raw : RawDirective) (c : Classified) (hcount : count + 1 ≤ maxDirectives)
      (hc : classify raw .topLevel = .ok c) :
      ProfileStep parts count (.directive raw) (absorb parts c) (count + 1)
  | connection (block : RawBlock) (conn : ConnectionBlock) (n : Nat)
      (htag : block.tag = connectionTag) (hconn : parseConnection block count = .ok (conn, n)) :
      ProfileStep parts count (.block block)
        { parts with connections := parts.connections ++ [conn] } n
  | inline (block : RawBlock) (hconn : block.tag ≠ connectionTag)
      (htag : block.tag ∈ inlineMaterial) (hnew : ∀ m ∈ parts.inline, m.tag ≠ block.tag) :
      ProfileStep parts count (.block block)
        { parts with inline := parts.inline ++ [⟨block.tag, block.body⟩] } count

theorem profileItem_ok {parts parts' : Profile}
    (h : profileItem parts count item = .ok (parts', n)) :
    ProfileStep parts count item parts' n := by
  cases item with
  | directive raw =>
    obtain ⟨m, hm, h⟩ := ok_of_bind h
    obtain ⟨c, hc, h⟩ := ok_of_bind h
    injection h with h
    injection h with hp hn
    obtain ⟨hcount, rfl⟩ := countDirective_ok hm
    subst hp hn
    exact .directive raw c hcount hc
  | block block =>
    rw [profileItem] at h
    split at h
    · next htag =>
      obtain ⟨⟨conn, m⟩, hconn, h⟩ := ok_of_bind h
      injection h with h
      injection h with hp hn
      subst hp hn
      exact .connection block conn m htag hconn
    · next hconn =>
      obtain ⟨htag, h⟩ := ok_of_unless h
      obtain ⟨hnew, h⟩ := ok_of_unless h
      injection h with h
      cases h
      exact .inline block hconn (by simpa [isInlineMaterial] using htag)
        (by simpa using hnew)

theorem profileItems_invariant {P : Profile → Nat → List Item → Prop}
    (hstep : ∀ parts count item parts' n done, P parts count done →
      ProfileStep parts count item parts' n → P parts' n (done ++ [item])) (items : List Item) :
    ∀ parts count parts' n done, P parts count done →
      profileItems parts count items = .ok (parts', n) → P parts' n (done ++ items) := by
  induction items with
  | nil =>
    intro parts count parts' n done hP h
    injection h with h
    injection h with hp hn
    subst hp hn
    simpa using hP
  | cons item items ih =>
    intro parts count parts' n done hP h
    obtain ⟨⟨mid, m⟩, hmid, hrest⟩ := ok_of_bind h
    have := ih mid m parts' n (done ++ [item])
      (hstep parts count item mid m done hP (profileItem_ok hmid)) hrest
    simpa using this

theorem connectionItem_ok {b b' : ConnectionBlock} (h : connectionItem b count item = .ok (b', n)) :
    ∃ raw c d, item = .directive raw ∧ count + 1 ≤ maxDirectives ∧ n = count + 1
      ∧ classify raw .connection = .ok c ∧ c.emitted = some d
      ∧ (c = .emit d ∨ ∃ r, c = .remote r)
      ∧ b' = ⟨b.directives ++ [d], b.remotes ++ c.remote?.toList⟩ := by
  cases item with
  | block inner => simp [connectionItem] at h
  | directive raw =>
    obtain ⟨m, hm, h⟩ := ok_of_bind h
    obtain ⟨hcount, rfl⟩ := countDirective_ok hm
    obtain ⟨c, hc, h⟩ := ok_of_bind h
    split at h
    · next d =>
      injection h with h
      injection h with hb hn
      subst hb hn
      exact ⟨raw, _, d, rfl, hcount, rfl, hc, rfl, Or.inl rfl, by simp [Classified.remote?]⟩
    · next r =>
      injection h with h
      injection h with hb hn
      subst hb hn
      exact ⟨raw, _, _, rfl, hcount, rfl, hc, rfl, Or.inr ⟨r, rfl⟩,
        by simp [Classified.remote?]⟩
    · simp at h

theorem connectionItems_invariant {P : ConnectionBlock → Nat → Prop}
    (hstep : ∀ b count item b' n, P b count → connectionItem b count item = .ok (b', n) →
      P b' n) (items : List Item) :
    ∀ b count b' n, P b count → connectionItems b count items = .ok (b', n) → P b' n := by
  induction items with
  | nil =>
    intro b count b' n hP h
    injection h with h
    injection h with hb hn
    subst hb hn
    exact hP
  | cons item items ih =>
    intro b count b' n hP h
    obtain ⟨⟨mid, m⟩, hmid, hrest⟩ := ok_of_bind h
    exact ih mid m b' n (hstep b count item mid m hP hmid) hrest

theorem parseProfile_ok {input : List Char} {p : Profile} (h : parseProfile input = .ok p) :
    ∃ items n, lex input 1 = .ok items ∧ profileItems {} 0 items = .ok (p, n)
      ∧ p.hasRemote = true := by
  rw [parseProfile] at h
  split at h
  · simp at h
  obtain ⟨items, hitems, h⟩ := ok_of_bind h
  obtain ⟨⟨parts, n⟩, hparts, h⟩ := ok_of_bind h
  dsimp only at h
  split at h
  · simp at h
  split at h
  · simp at h
  next hremote =>
  injection h with h
  subst h
  exact ⟨items, n, hitems, hparts, by simpa using hremote⟩

end ThisConnect.Ovpn
