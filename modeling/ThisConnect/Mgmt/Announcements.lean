/-
  ThisConnect.Mgmt.Announcements
  **WHAT THE PARSER MAKES OF AN UP BLOCK AND OF A DYNAMIC CHALLENGE.**

  Main results:
    • `observeAll_block_iff` — a completed block yields its identity exactly if
      every entry is an assignment or `BEGIN`: any other entry makes the
      collector forget that it is in a block, and the block ends in silence,
    • `parse_challenge_iff` — a challenge is read back with its text unchanged
      exactly if the text does not end in whitespace or in a quote, which the
      parser trims off.
-/
import ThisConnect.Mgmt.Event

namespace ThisConnect.Mgmt

open Text

/-! ## §1. A line with a tag. -/

theorem splitOnce_tag {tag : List Char} (htag : ':' ∉ tag) (payload : List Char) :
    splitOnce ':' ((('>' :: (tag ++ ':' :: payload)).dropPrefix? ['>']).getD
      ('>' :: (tag ++ ':' :: payload))) = some (tag, payload) := by
  have hdrop : ('>' :: (tag ++ ':' :: payload)).dropPrefix? ['>'] = some (tag ++ ':' :: payload) :=
    dropPrefix_append ['>'] _
  rw [hdrop]
  exact splitOnce_eq_some.mpr ⟨rfl, htag⟩

theorem parse_updown (payload : List Char) :
    Event.parse (">UPDOWN:".toList ++ payload) = .upDown (UpDown.parse payload) := by
  have hsplit := @splitOnce_tag "UPDOWN".toList (by decide) payload
  unfold Event.parse
  dsimp only
  rw [show ">UPDOWN:".toList ++ payload = '>' :: ("UPDOWN".toList ++ ':' :: payload) from rfl,
    hsplit]
  rfl

theorem parse_password (payload : List Char) :
    Event.parse (">PASSWORD:".toList ++ payload) = .password (PasswordEvent.parse payload) := by
  have hsplit := @splitOnce_tag "PASSWORD".toList (by decide) payload
  unfold Event.parse
  dsimp only
  rw [show ">PASSWORD:".toList ++ payload = '>' :: ("PASSWORD".toList ++ ':' :: payload) from rfl,
    hsplit]
  rfl

/-! ## §2. UP blocks. -/

namespace UpDownCollector

def observeLine (collector : UpDownCollector) (line : List Char) :
    UpDownCollector × Option (Except MgmtError UpDownOutcome) :=
  match Event.parse line with
  | .upDown line => collector.observe line
  | _ => (collector, none)

def observeAll : UpDownCollector → List (List Char) →
    UpDownCollector × List (Except MgmtError UpDownOutcome)
  | collector, [] => (collector, [])
  | collector, line :: lines =>
    let (next, outcome) := collector.observeLine line
    let (last, more) := observeAll next lines
    (last, outcome.toList ++ more)

end UpDownCollector

def envEntry (entry : List Char) : List Char := ">UPDOWN:ENV,".toList ++ entry

/-- A whole block. -/
def blockLines (entries : List (List Char)) : List (List Char) :=
  ">UPDOWN:UP".toList :: (entries.map envEntry ++ [">UPDOWN:ENV,END".toList])

def firstAssigned (entries : List (List Char)) (name : String) : Option String :=
  (entries.findSome? fun entry => entry.dropPrefix? (name.toList ++ ['='])).map String.ofList

def blockResult (entries : List (List Char)) : Except MgmtError UpDownOutcome :=
  let given name := (firstAssigned entries name).filter (· ≠ "")
  match given "dev" with
  | none => .error .missingDev
  | some dev =>
    .ok (.up ⟨dev, given "dev_type", given "ifconfig_local", given "ifconfig_ipv6_local"⟩)

section Entries

variable {entry : List Char}

theorem splitOnce_env (entry : List Char) :
    splitOnce ',' ("ENV,".toList ++ entry) = some (['E', 'N', 'V'], entry) :=
  splitOnce_eq_some.mpr ⟨rfl, by decide⟩

theorem parse_env_assignment {name value : List Char} (hname : '=' ∉ name) :
    UpDown.parse ("ENV,".toList ++ (name ++ '=' :: value))
      = .env (String.ofList name) (String.ofList value) := by
  have hassigns : '=' ∈ name ++ '=' :: value := by simp
  unfold UpDown.parse
  rw [splitOnce_env]
  split
  · next h =>
    injection h with h
    injection h with _ h
    exact absurd (h ▸ hassigns) (by decide)
  · next h =>
    injection h with h
    injection h with _ h
    exact absurd (h ▸ hassigns) (by decide)
  · next entry hother hbegin h =>
    injection h with h
    injection h with _ h
    rw [← h, splitOnce_eq_some.mpr ⟨rfl, hname⟩]
  · next h => exact absurd rfl (h _)

theorem parse_env_other (hend : entry ≠ "END".toList) (hbegin : entry ≠ "BEGIN".toList)
    (hnone : '=' ∉ entry) :
    UpDown.parse ("ENV,".toList ++ entry) = .other (String.ofList ("ENV,".toList ++ entry)) := by
  unfold UpDown.parse
  rw [splitOnce_env]
  split
  · next h =>
    injection h with h
    injection h with _ h
    exact absurd h hend
  · next h =>
    injection h with h
    injection h with _ h
    exact absurd h hbegin
  · next h =>
    injection h with h
    injection h with _ h
    rw [← h, splitOnce_eq_none.mpr hnone]
  · next h => exact absurd rfl (h _)

end Entries

/-- What an entry assigns. -/
def assigned (entry : List Char) : Option (String × String) :=
  (splitOnce '=' entry).map fun (name, value) => (String.ofList name, String.ofList value)

variable {name : List Char}

theorem dropPrefix_assigned (hname : '=' ∉ name) (entry : List Char) :
    (entry.dropPrefix? (name ++ ['='])).map String.ofList =
      ((assigned entry).filter (·.1 == String.ofList name)).map Prod.snd := by
  unfold assigned
  cases hsplit : splitOnce '=' entry with
  | none =>
    have hnone : entry.dropPrefix? (name ++ ['=']) = none := by
      cases hdrop : entry.dropPrefix? (name ++ ['=']) with
      | none => rfl
      | some value =>
        rw [dropPrefix_eq_some hdrop] at hsplit
        exact absurd (by simp) (splitOnce_eq_none.mp hsplit)
    rw [hnone]
    rfl
  | some pair =>
    obtain ⟨first, value⟩ := pair
    obtain ⟨rfl, hfirst⟩ := splitOnce_eq_some.mp hsplit
    by_cases hsame : first = name
    · subst hsame
      have hdrop := dropPrefix_append (first ++ ['=']) value
      rw [List.append_assoc] at hdrop
      rw [show first ++ '=' :: value = first ++ (['='] ++ value) from rfl, hdrop]
      simp
    · have hnone : (first ++ '=' :: value).dropPrefix? (name ++ ['=']) = none := by
        cases hdrop : (first ++ '=' :: value).dropPrefix? (name ++ ['=']) with
        | none => rfl
        | some rest =>
          have heq := dropPrefix_eq_some hdrop
          rw [List.append_assoc] at heq
          exact absurd (Framing.append_sep_inj hfirst hname heq).1 hsame
      have hne : String.ofList first ≠ String.ofList name := fun h =>
        hsame (by simpa using congrArg String.toList h)
      rw [hnone]
      simp [hne]

theorem find_assigned (hname : '=' ∉ name) (entries : List (List Char)) :
    ((entries.filterMap assigned).find? (·.1 == String.ofList name)).map Prod.snd =
      firstAssigned entries (String.ofList name) := by
  unfold firstAssigned
  rw [String.toList_ofList]
  induction entries with
  | nil => rfl
  | cons entry entries ih =>
    have hone := dropPrefix_assigned hname entry
    cases hassigned : assigned entry with
    | none =>
      rw [hassigned] at hone
      have hnone : entry.dropPrefix? (name ++ ['=']) = none := by simpa using hone
      rw [List.filterMap_cons_none hassigned, List.findSome?_cons, hnone, ih]
    | some pair =>
      rw [hassigned] at hone
      rw [List.filterMap_cons_some hassigned, List.findSome?_cons, List.find?_cons]
      by_cases hsame : (pair.1 == String.ofList name) = true
      · rw [Option.filter_some, if_pos hsame] at hone
        obtain ⟨value, hvalue, heq⟩ := Option.map_eq_some_iff.mp hone
        rw [hvalue, hsame]
        exact congrArg some heq.symm
      · rw [Option.filter_some, if_neg hsame] at hone
        have hnone : entry.dropPrefix? (name ++ ['=']) = none := by simpa using hone
        rw [hnone, Bool.eq_false_iff.mpr hsame, ih]

theorem finish_assigned (entries : List (List Char)) :
    (⟨true, entries.filterMap assigned⟩ : UpDownCollector).finish = blockResult entries := by
  have hget : ∀ name : String, '=' ∉ name.toList →
      (⟨true, entries.filterMap assigned⟩ : UpDownCollector).get name =
        (firstAssigned entries name).filter (· ≠ "") := fun name hname => by
    have hfind := find_assigned hname entries
    rw [String.ofList_toList] at hfind
    rw [← hfind]
    rfl
  unfold UpDownCollector.finish
  rw [hget "dev" (by decide), hget "dev_type" (by decide), hget "ifconfig_local" (by decide),
    hget "ifconfig_ipv6_local" (by decide)]
  rfl

namespace UpDownCollector

/-- An assignment, or the line that opens the environment. -/
def Proper (entry : List Char) : Prop := entry = "BEGIN".toList ∨ '=' ∈ entry

theorem observeLine_entry (collector : UpDownCollector) (entry : List Char) :
    collector.observeLine (envEntry entry) =
      collector.observe (UpDown.parse ("ENV,".toList ++ entry)) := by
  have hline : envEntry entry = ">UPDOWN:".toList ++ ("ENV,".toList ++ entry) := rfl
  rw [observeLine, hline, parse_updown]

theorem observeLine_end (collector : UpDownCollector) :
    collector.observeLine ">UPDOWN:ENV,END".toList = collector.observe .envEnd := by
  have hline : envEntry "END".toList = ">UPDOWN:ENV,END".toList := by decide
  have hparse : UpDown.parse ("ENV,".toList ++ "END".toList) = .envEnd := by decide
  rw [← hline, observeLine_entry, hparse]

variable {entry : List Char} {entries : List (List Char)}

theorem observeLine_proper (h : Proper entry) (collector : UpDownCollector) :
    collector.observeLine (envEntry entry) =
      ({ collector with env := collector.env ++ (assigned entry).toList }, none) := by
  rw [observeLine_entry]
  rcases h with rfl | hassigns
  · have hparse : UpDown.parse ("ENV,".toList ++ "BEGIN".toList) = .envBegin := by decide
    have hnone : assigned "BEGIN".toList = none := by decide
    rw [hparse, hnone, Option.toList_none, List.append_nil]
    rfl
  · obtain ⟨name, value, rfl, hname⟩ := List.eq_append_cons_of_mem hassigns
    rw [parse_env_assignment hname, assigned, splitOnce_eq_some.mpr ⟨rfl, hname⟩]
    rfl

theorem observeLine_stray (hend : entry ≠ "END".toList) (h : ¬ Proper entry)
    (collector : UpDownCollector) : collector.observeLine (envEntry entry) = ({}, none) := by
  rw [observeLine_entry, parse_env_other hend (fun hbegin => h (.inl hbegin))
    (fun hassigns => h (.inr hassigns))]
  rfl

theorem observeAll_proper (h : ∀ entry ∈ entries, Proper entry) (rest : List (List Char)) :
    ∀ collector : UpDownCollector,
    collector.observeAll (entries.map envEntry ++ rest) =
      observeAll { collector with env := collector.env ++ entries.filterMap assigned } rest := by
  induction entries with
  | nil => intro collector; simp
  | cons entry entries ih =>
    intro collector
    rw [List.map_cons, List.cons_append, observeAll, observeLine_proper (h entry (by simp))]
    dsimp only
    rw [ih fun e he => h e (by simp [he])]
    cases hassigned : assigned entry with
    | none => simp [hassigned]
    | some pair => simp [hassigned]

theorem observeAll_outside (hend : "END".toList ∉ entries) :
    ∀ {collector : UpDownCollector}, collector.inUpBlock = false →
    (collector.observeAll (entries.map envEntry ++ [">UPDOWN:ENV,END".toList])).2 = [] := by
  induction entries with
  | nil =>
    intro collector hout
    rw [List.map_nil, List.nil_append, observeAll, observeLine_end, observe, hout]
    rfl
  | cons entry entries ih =>
    intro collector hout
    have hrest : "END".toList ∉ entries := fun h => hend (List.mem_cons_of_mem _ h)
    rw [List.map_cons, List.cons_append, observeAll]
    by_cases hproper : Proper entry
    · rw [observeLine_proper hproper]
      exact ih hrest hout
    · rw [observeLine_stray (fun h => hend (by simp [h])) hproper]
      exact ih hrest rfl

theorem observeAll_stray (hend : "END".toList ∉ entries)
    (hstray : ∃ entry ∈ entries, ¬ Proper entry) : ∀ collector : UpDownCollector,
    (collector.observeAll (entries.map envEntry ++ [">UPDOWN:ENV,END".toList])).2 = [] := by
  induction entries with
  | nil =>
    obtain ⟨entry, hmem, -⟩ := hstray
    cases hmem
  | cons entry entries ih =>
    intro collector
    have hrest : "END".toList ∉ entries := fun h => hend (List.mem_cons_of_mem _ h)
    rw [List.map_cons, List.cons_append, observeAll]
    by_cases hproper : Proper entry
    · obtain ⟨other, hmem, hother⟩ := hstray
      rw [observeLine_proper hproper]
      rcases List.mem_cons.mp hmem with rfl | hmem
      · exact absurd hproper hother
      · exact ih hrest ⟨other, hmem, hother⟩ _
    · rw [observeLine_stray (fun h => hend (by simp [h])) hproper]
      exact observeAll_outside hrest rfl

/-- **A completed UP block yields its identity, or that it names no device, exactly if every entry
    is an assignment or `BEGIN`.** -/
theorem observeAll_block_iff (collector : UpDownCollector) {entries : List (List Char)}
    (hend : "END".toList ∉ entries) :
    (collector.observeAll (blockLines entries)).2 = [blockResult entries] ↔
      ∀ entry ∈ entries, entry = "BEGIN".toList ∨ '=' ∈ entry := by
  have hup : collector.observeLine ">UPDOWN:UP".toList = ({ inUpBlock := true }, none) := by
    have hparse := parse_updown "UP".toList
    rw [show UpDown.parse "UP".toList = .up by decide] at hparse
    rw [observeLine, show ">UPDOWN:UP".toList = ">UPDOWN:".toList ++ "UP".toList by decide, hparse]
    rfl
  have hblock : (collector.observeAll (blockLines entries)).2 =
      (observeAll { inUpBlock := true }
        (entries.map envEntry ++ [">UPDOWN:ENV,END".toList])).2 := by
    rw [blockLines, observeAll, hup]
    rfl
  rw [hblock]
  constructor
  · intro h
    by_contra hstray
    rw [observeAll_stray hend (by simpa [Proper] using hstray)] at h
    cases h
  · intro hproper
    rw [observeAll_proper hproper, observeAll, observeLine_end, ← finish_assigned]
    rfl

/-- An `UP` block with a device and an entry that is no assignment. -/
theorem observeAll_lost :
    (observeAll {} [">UPDOWN:UP".toList, ">UPDOWN:ENV,dev=tun0".toList, ">UPDOWN:ENV,orphan".toList,
      ">UPDOWN:ENV,END".toList]).2 = [] := by
  decide +kernel

/-- Without it the device comes out. -/
theorem observeAll_block_tun0 :
    (observeAll {} (blockLines ["BEGIN".toList, "dev=tun0".toList])).2 =
      [.ok (.up ⟨"tun0", none, none, none⟩)] :=
  ((observeAll_block_iff {} (by decide)).mpr (by decide)).trans (by decide +kernel)

end UpDownCollector

/-! ## §3. Dynamic challenges. -/

def crv1 (flags stateId usernameB64 text : String) : List Char :=
  "CRV1".toList ++ ':' :: (flags.toList ++ ':' :: (stateId.toList ++ ':' ::
    (usernameB64.toList ++ ':' :: text.toList)))

/-- A reason in quotes and brackets. -/
def bracketed (reason : List Char) : List Char :=
  " [".toList ++ '\'' :: (reason ++ '\'' :: [']'])

/-- The line that announces a challenge. -/
def challengeLine (kind flags stateId usernameB64 text : String) : List Char :=
  ">PASSWORD:".toList ++ ("Verification Failed:".toList ++ (' ' :: '\'' :: (kind.toList ++ '\'' ::
    bracketed (crv1 flags stateId usernameB64 text))))

def strippedText (text : List Char) : List Char :=
  (text.rdropWhile isWhitespace).rdropWhile (· = '\'')

theorem strippedText_eq_self_iff (text : List Char) :
    strippedText text = text ↔ ∀ c ∈ text.getLast?, isWhitespace c = false ∧ c ≠ '\'' := by
  constructor
  · intro h c hc
    -- the two trims take nothing off, so neither does
    have hinner : text.rdropWhile isWhitespace = text := by
      refine (List.rdropWhile_prefix _ _).eq_of_length_le ?_
      have hle := (List.rdropWhile_prefix (· = '\'') (text.rdropWhile isWhitespace)).length_le
      rw [← strippedText, h] at hle
      exact hle
    have houter : text.rdropWhile (· = '\'') = text := by
      rw [strippedText, hinner] at h
      exact h
    have hne : text ≠ [] := by
      intro hnil
      rw [hnil] at hc
      cases hc
    have hlast : text.getLast hne = c := by
      rw [List.getLast?_eq_some_getLast hne] at hc
      exact Option.some_inj.mp hc
    have hspace := List.rdropWhile_eq_self_iff.mp hinner hne
    have hquote := List.rdropWhile_eq_self_iff.mp houter hne
    rw [hlast] at hspace hquote
    exact ⟨by simpa using hspace, by simpa using hquote⟩
  · intro h
    have hkept : ∀ p : Char → Bool, (∀ c ∈ text.getLast?, p c = false) → text.rdropWhile p = text :=
      fun p hp => List.rdropWhile_eq_self_iff.mpr fun hne => by
        rw [hp _ (by simp [List.getLast?_eq_some_getLast hne])]
        exact Bool.false_ne_true
    rw [strippedText, hkept isWhitespace fun c hc => (h c hc).1,
      hkept (· = '\'') fun c hc => by simpa using (h c hc).2]

theorem trim_crv1 (flags stateId usernameB64 text : String) :
    trimMatches (· = '\'') (trim (crv1 flags stateId usernameB64 text)) =
      "CRV1".toList ++ ':' :: (flags.toList ++ ':' :: (stateId.toList ++ ':' ::
        (usernameB64.toList ++ ':' :: strippedText text.toList))) := by
  have hfront : ∀ (p : Char → Bool) (t : List Char), p 'C' = false → p ':' = false →
      trimMatches p ("CRV1".toList ++ ':' :: (flags.toList ++ ':' :: (stateId.toList ++ ':' ::
        (usernameB64.toList ++ ':' :: t)))) =
      "CRV1".toList ++ ':' :: (flags.toList ++ ':' :: (stateId.toList ++ ':' ::
        (usernameB64.toList ++ ':' :: t.rdropWhile p))) := by
    intro p t hC hcolon
    have hafter := rdropWhile_after hcolon ("CRV1".toList ++ ':' :: (flags.toList ++ ':' ::
      (stateId.toList ++ ':' :: usernameB64.toList))) t
    have hstart : ∀ s, ("CRV1".toList ++ s).dropWhile p = "CRV1".toList ++ s := fun s => by
      rw [show "CRV1".toList ++ s = 'C' :: ("RV1".toList ++ s) from rfl,
        List.dropWhile_cons_of_neg (by simp [hC])]
    rw [trimMatches, hstart]
    simpa using hafter
  rw [crv1, trim_eq_trimMatches, hfront isWhitespace _ (by decide) (by decide),
    hfront (· = '\'') _ (by decide) (by decide), strippedText]

section Fields

variable {kind flags stateId usernameB64 : String}

theorem parse_crv1 (hflags : ':' ∉ flags.toList) (hstate : ':' ∉ stateId.toList)
    (hne : stateId.toList ≠ []) (husername : ':' ∉ usernameB64.toList) (text : String) :
    DynamicChallenge.parse (crv1 flags stateId usernameB64 text) =
      .ok ⟨flags, stateId, usernameB64, String.ofList (strippedText text.toList)⟩ := by
  unfold DynamicChallenge.parse
  rw [trim_crv1, splitn_field (by decide), splitn_field hflags, splitn_field hstate,
    splitn_field husername, splitn]
  dsimp only
  rw [if_neg (by simp), if_neg (by simpa using hne)]
  simp

theorem extractQuoted_bracketed (reason : List Char) :
    extractQuoted (bracketed reason) = some reason := by
  unfold extractQuoted bracketed
  rw [splitOnce_eq_some.mpr ⟨rfl, by decide⟩]
  exact congrArg (Option.map Prod.fst) (rsplitOnce_last (by decide))

theorem parse_verificationFailed (hkind : '\'' ∉ kind.toList) (reason : List Char) :
    PasswordEvent.parse ("Verification Failed:".toList ++ (' ' :: '\'' :: (kind.toList ++ '\'' ::
      bracketed reason))) =
      .verificationFailed kind (some (String.ofList reason))
        (DynamicChallenge.parse reason).toOption := by
  have hneed : ∀ rest, ("Verification Failed:".toList ++ rest).dropPrefix? "Need ".toList = none :=
    fun rest => rfl
  have htrim : trim (' ' :: '\'' :: (kind.toList ++ '\'' :: bracketed reason)) =
      '\'' :: (kind.toList ++ '\'' :: bracketed reason) := by
    refine (trim_eq_self (fun c hc => ?_) (fun c hc => ?_) : trim ('\'' :: _) = _)
    · cases hc
      decide
    · have hconcat : '\'' :: (kind.toList ++ '\'' :: bracketed reason) =
          ('\'' :: (kind.toList ++ '\'' :: (" [".toList ++ '\'' :: (reason ++ ['\''])))) ++
            [']'] := by
        simp [bracketed]
      rw [hconcat, List.getLast?_concat] at hc
      cases hc
      decide
  have hquoted : splitQuoted ('\'' :: (kind.toList ++ '\'' :: bracketed reason)) =
      (kind.toList, bracketed reason) := by
    have hdrop : ∀ rest, (trimStart ('\'' :: rest)).dropPrefix? ['\''] = some rest :=
      fun rest => dropPrefix_append ['\''] rest
    rw [splitQuoted, hdrop, Option.bind_some, splitOnce_eq_some.mpr ⟨rfl, hkind⟩]
    rfl
  unfold PasswordEvent.parse
  rw [hneed, dropPrefix_append]
  dsimp only
  rw [htrim, PasswordEvent.parseVerificationFailed, hquoted]
  dsimp only
  rw [extractQuoted_bracketed]
  simp

theorem encodeDynamicResponse_splits (hstate : ':' ∉ stateId.toList) (hne : stateId.toList ≠ [])
    (response : String) :
    ∃ answer, encodeDynamicResponse stateId response = .ok answer ∧
      splitn 5 ':' answer.toList = ["CRV1".toList, [], stateId.toList, [], response.toList] := by
  refine ⟨"CRV1::" ++ stateId ++ "::" ++ response, ?_, ?_⟩
  · rw [encodeDynamicResponse, if_neg (by simp [hstate, hne])]
  · have hlist : ("CRV1::" ++ stateId ++ "::" ++ response).toList = "CRV1".toList ++ ':' ::
        ([] ++ ':' :: (stateId.toList ++ ':' :: ([] ++ ':' :: response.toList))) := by
      simp
    rw [hlist, splitn_field (by decide), splitn_field List.not_mem_nil, splitn_field hstate,
      splitn_field List.not_mem_nil, splitn]

/-- **A dynamic challenge is read back, and can be answered, exactly if its text ends neither in
    whitespace nor in a quote.** -/
theorem parse_challenge_iff (hkind : '\'' ∉ kind.toList) (hflags : ':' ∉ flags.toList)
    (hstate : ':' ∉ stateId.toList) (hne : stateId.toList ≠ [])
    (husername : ':' ∉ usernameB64.toList) (text : String) :
    (Event.parse (challengeLine kind flags stateId usernameB64 text) =
        .password (.verificationFailed kind
          (some (String.ofList (crv1 flags stateId usernameB64 text)))
          (some ⟨flags, stateId, usernameB64, text⟩)) ∧
      ∀ response, ∃ answer, encodeDynamicResponse stateId response = .ok answer ∧
        splitn 5 ':' answer.toList = ["CRV1".toList, [], stateId.toList, [], response.toList]) ↔
      ∀ c ∈ text.toList.getLast?, isWhitespace c = false ∧ c ≠ '\'' := by
  have hparse : Event.parse (challengeLine kind flags stateId usernameB64 text) =
      .password (.verificationFailed kind
        (some (String.ofList (crv1 flags stateId usernameB64 text)))
        (some ⟨flags, stateId, usernameB64, String.ofList (strippedText text.toList)⟩)) := by
    have hfields := parse_crv1 hflags hstate hne husername text
    have hfailed := parse_verificationFailed hkind (crv1 flags stateId usernameB64 text)
    rw [hfields] at hfailed
    exact (parse_password _).trans (congrArg Event.password hfailed)
  rw [← strippedText_eq_self_iff, hparse]
  constructor
  · rintro ⟨h, -⟩
    injection h with h
    injection h with _ _ h
    injection h with h
    injection h with _ _ _ h
    simpa using congrArg String.toList h
  · intro h
    rw [h, String.ofList_toList]
    exact ⟨rfl, encodeDynamicResponse_splits hstate hne⟩

end Fields

/-- The quote that closes a quoted word at the end of the text is lost. -/
theorem parse_challenge_quoted_word :
    Event.parse (challengeLine "Auth" "R,E" "s1" "dQ==" "Type 'yes'") =
      .password (.verificationFailed "Auth" (some "CRV1:R,E:s1:dQ==:Type 'yes'")
        (some ⟨"R,E", "s1", "dQ==", "Type 'yes"⟩)) := by
  decide +kernel

/-- A text with quotes, colons and brackets inside. -/
theorem parse_challenge_inner_marks :
    Event.parse (challengeLine "Auth" "R,E" "s1" "dQ==" "It's [1]: code?") =
      .password (.verificationFailed "Auth"
        (some (String.ofList (crv1 "R,E" "s1" "dQ==" "It's [1]: code?")))
        (some ⟨"R,E", "s1", "dQ==", "It's [1]: code?"⟩)) := by
  have hlast : "It's [1]: code?".toList.getLast? = some '?' := by decide
  refine ((parse_challenge_iff (by decide) (by decide) (by decide) (by decide) (by decide)
    "It's [1]: code?").mpr fun c hc => ?_).1
  rw [hlast] at hc
  cases hc
  decide

end ThisConnect.Mgmt
