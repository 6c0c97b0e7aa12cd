/-
  ThisConnect.Session.Store
  **THE FILE-BACKED PROFILE STORE.**

  Main result: `import_agrees_iff`, for which names, texts and directories
  `get` agrees with the import.
-/
import ThisConnect.Ipc.Message
import ThisConnect.Ovpn.Reread

namespace ThisConnect.Session.Store

open Text Ovpn
open Ipc (ProfileSummary RemoteSummary StaticChallengeSummary Transport)

/-! ## §1. Ids. -/

def collapseDashes (input : List Char) : List Char :=
  input.foldl (fun acc c => if c == '-' && acc.getLast? == some '-' then acc else acc ++ [c]) []

def deriveId (name : String) : String :=
  let slug := name.toList.map fun c => if c.isAlphanum then c.toLower else '-'
  let collapsed := collapseDashes (trimMatches (· == '-') slug)
  if collapsed.isEmpty then "profile" else String.ofList (collapsed.take 48)

/-- The `k`-th id that is tried. -/
def candidate (base : String) (k : Nat) : String :=
  if k = 0 then base else base ++ "-" ++ k.repr

inductive StoreError where
  | profileNotFound (id : String)
  | workspace (what detail : String)
  | profile (error : ValidationError)
  deriving DecidableEq, Repr

/-! ## §2. The directory. -/

inductive Entry where
  | file (body : List Char) (modified : Option UInt64)
  | special (reachable : Bool)
  deriving DecidableEq, Repr

abbrev Directory := String → Option Entry

/-- `Path::exists`, which follows links. -/
def Directory.reaches (dir : Directory) (id : String) : Bool :=
  match dir id with
  | some (.file _ _) => true
  | some (.special reachable) => reachable
  | none => false

def maxStoredBytes : Nat := maxFileBytes

structure Faults where
  createDir : Option String := none
  tightenDir : Option String := none
  create : Option String := none
  write : Option (String × List Char) := none
  read : Option String := none
  remove : Bool := false

def failed {α : Type} (what detail : String) : Except StoreError α :=
  .error (.workspace what detail)

def pathFor (id : String) : Except StoreError String :=
  let safe := !id.toList.isEmpty && decide (byteLen id.toList ≤ 64) &&
    id.toList.all fun c => c.isAlphanum || c == '-' || c == '_'
  if safe then .ok id else .error (.profileNotFound id)

def allocateFrom (dir : Directory) (base : String) : Nat → Nat → Except StoreError String
  | 0, _ => failed "could not find a free profile id" base
  | n + 1, k => do
      let path ← pathFor (candidate base k)
      if dir.reaches path then allocateFrom dir base n (k + 1) else .ok (candidate base k)

def allocateId (dir : Directory) (base : String) : Except StoreError String :=
  allocateFrom dir base 1000 0

/-! ## §3. Summaries. -/

section

-- the SHA-256 of a text, in hexadecimal
variable (canonicalDigest : List Char → String)

def summariseRemote (remote : Remote) : RemoteSummary :=
  { host := remote.host.display
    port := remote.port
    transport :=
      match remote.proto with
      | some proto => if proto.isTcp then .tcp else .udp
      | none => .udp }

def hasTag (profile : Profile) (tag : String) : Bool :=
  profile.inline.any fun material => material.tag == tag

def summarise (id name : String) (profile : Profile) (importedUnixSecs : UInt64) :
    ProfileSummary where
  id := id
  name := name
  remotes := profile.remotes.map summariseRemote
  requiresUsernamePassword := profile.needsAuthUserPass
  staticChallenge := profile.staticChallenge.map fun challenge => ⟨challenge.prompt, challenge.echo⟩
  hasInlineCa := hasTag profile "ca"
  hasInlineCert := hasTag profile "cert"
  hasInlineKey := hasTag profile "key"
  canonicalSha256 := canonicalDigest profile.toCanonicalConfig
  importedUnixSecs := importedUnixSecs

/-! ## §4. Import, get and delete. -/

def writePrivate (faults : Faults) (dir : Directory) (id : String) (body : List Char)
    (modified : Option UInt64) : Except StoreError Unit × Directory :=
  match dir id, faults.create with
  | some _, _ => (failed "create the profile file" "File exists (os error 17)", dir)
  | none, some detail => (failed "create the profile file" detail, dir)
  | none, none =>
    match faults.write with
    | some (detail, written) =>
      (failed "write the profile file" detail,
        Function.update dir id (some (.file written modified)))
    | none => (.ok (), Function.update dir id (some (.file body modified)))

def ensureDir (faults : Faults) : Except StoreError Unit :=
  match faults.createDir, faults.tightenDir with
  | some detail, _ => failed "create the profile directory" detail
  | none, some detail => failed "tighten the profile directory" detail
  | none, none => .ok ()

def admitted (faults : Faults) (dir : Directory) (name : String) (config : List Char) :
    Except StoreError (String × Profile) := do
  if byteLen config > maxStoredBytes then
    failed "the imported profile is larger than the parser's limit" s!"{byteLen config} bytes"
  let profile ← (parseProfile config).mapError .profile
  ensureDir faults
  let id ← allocateId dir (deriveId name)
  let path ← pathFor id
  .ok (path, profile)

def importProfile (faults : Faults) (dir : Directory) (name : String) (config : List Char)
    (now : UInt64) (modified : Option UInt64) : Except StoreError ProfileSummary × Directory :=
  match admitted faults dir name config with
  | .error error => (.error error, dir)
  | .ok (id, profile) =>
    match writePrivate faults dir id profile.toCanonicalConfig modified with
    | (.error error, dir) => (.error error, dir)
    | (.ok (), dir) => (.ok (summarise canonicalDigest id name profile now), dir)

def load (root : String) (faults : Faults) (dir : Directory) (id : String) :
    Except StoreError (List Char) := do
  let path ← pathFor id
  match dir path with
  | none => .error (.profileNotFound id)
  | some (.special _) => .error (.profileNotFound id)
  | some (.file body _) =>
    if byteLen body > maxStoredBytes then
      failed "the stored profile is larger than the import limit" s!"{root}/{path}.ovpn"
    else
      match faults.read with
      | some detail => failed "read the stored profile" detail
      | none => .ok body

/-- Asked for a regular file only. -/
def importedAt (dir : Directory) (id : String) : Option UInt64 :=
  match pathFor id with
  | .error _ => none
  | .ok path =>
    match dir path with
    | some (.file _ modified) => modified
    | _ => none

def get (root : String) (faults : Faults) (dir : Directory) (id : String) :
    Except StoreError ProfileSummary := do
  let raw ← load root faults dir id
  let profile ← (parseProfile raw).mapError .profile
  .ok (summarise canonicalDigest id id profile ((importedAt dir id).getD 0))

end

def delete (faults : Faults) (dir : Directory) (id : String) :
    Except StoreError Unit × Directory :=
  match pathFor id with
  | .error error => (.error error, dir)
  | .ok path =>
    if faults.remove || (dir path).isNone then (.error (.profileNotFound id), dir)
    else (.ok (), Function.update dir path none)

/-! ## §5. How an import ends. -/

variable {id : String} {dir : Directory}

section

variable {canonicalDigest : List Char → String} {faults : Faults} {name : String}
    {config : List Char} {now : UInt64} {modified : Option UInt64}

theorem pathFor_ok {path : String} (h : pathFor id = .ok path) : path = id := by
  unfold pathFor at h
  dsimp only at h
  obtain ⟨_, h⟩ := ok_of_guard h
  injection h with h
  exact h.symm

theorem admitted_ok {profile : Profile} (h : admitted faults dir name config = .ok (id, profile)) :
    parseProfile config = .ok profile ∧ allocateId dir (deriveId name) = .ok id ∧
      pathFor id = .ok id := by
  unfold admitted at h
  obtain ⟨_, h⟩ := ok_of_unless h
  obtain ⟨found, hfound, h⟩ := ok_of_bind h
  obtain ⟨_, -, h⟩ := ok_of_bind h
  obtain ⟨free, hfree, h⟩ := ok_of_bind h
  obtain ⟨path, hpath, h⟩ := ok_of_bind h
  injection h with h
  cases h
  have hsame := pathFor_ok hpath
  subst hsame
  refine ⟨?_, hfree, hpath⟩
  cases hparse : parseProfile config with
  | error error => rw [hparse] at hfound; cases hfound
  | ok parsed =>
    rw [hparse] at hfound
    injection hfound with hfound
    rw [hfound]

theorem writePrivate_cases (faults : Faults) (dir : Directory) (id : String) (body : List Char)
    (modified : Option UInt64) :
    (∃ error, writePrivate faults dir id body modified = (.error error, dir)) ∨
      dir id = none ∧
        ((∃ error detail written, faults.write = some (detail, written) ∧
            writePrivate faults dir id body modified =
              (.error error, Function.update dir id (some (.file written modified)))) ∨
          writePrivate faults dir id body modified =
            (.ok (), Function.update dir id (some (.file body modified)))) := by
  unfold writePrivate
  cases dir id with
  | some entry => exact Or.inl ⟨_, rfl⟩
  | none =>
    cases faults.create with
    | some detail => exact Or.inl ⟨_, rfl⟩
    | none =>
      cases faults.write with
      | some fault => exact Or.inr ⟨rfl, Or.inl ⟨_, fault.1, fault.2, rfl, rfl⟩⟩
      | none => exact Or.inr ⟨rfl, Or.inr rfl⟩

end

/-! ## §6. What `get` says of an import. -/

theorem allocateFrom_ok {base : String} : ∀ {n k : Nat},
    allocateFrom dir base n k = .ok id → ∃ j, k ≤ j ∧ j < k + n ∧ id = candidate base j ∧
      (∀ i, k ≤ i → i < j → dir.reaches (candidate base i) = true) ∧ dir.reaches id = false := by
  intro n
  induction n with
  | zero =>
    intro k h
    cases h
  | succ n ih =>
    intro k h
    obtain ⟨path, hpath, h⟩ := ok_of_bind h
    have hsame := pathFor_ok hpath
    subst hsame
    split at h
    · next htaken =>
      obtain ⟨j, hle, hlt, hid, hbefore, hfree⟩ := ih h
      refine ⟨j, by omega, by omega, hid, ?_, hfree⟩
      intro i hki hij
      rcases Nat.eq_or_lt_of_le hki with rfl | hlater
      · exact htaken
      · exact hbefore i hlater hij
    · next hfree =>
      injection h with h
      subst h
      exact ⟨k, le_refl k, by omega, rfl, fun i hki hik => absurd hik (by omega),
        by simpa using hfree⟩

/-- The name is the id the store comes to: one of the candidates derived from it, with all earlier
    ones taken and itself free. -/
def NameIsId (dir : Directory) (name : String) : Prop :=
  ∃ k < 1000, name = candidate (deriveId name) k ∧
    (∀ j < k, dir.reaches (candidate (deriveId name) j) = true) ∧ dir.reaches name = false

variable {name : String} {canonicalDigest : List Char → String} {modified : Option UInt64}

theorem allocateId_eq_name_iff (h : allocateId dir (deriveId name) = .ok id) :
    id = name ↔ NameIsId dir name := by
  obtain ⟨j, -, hlt, hid, hbefore, hfree⟩ := allocateFrom_ok h
  constructor
  · rintro rfl
    exact ⟨j, by omega, hid, fun i hi => hbefore i (Nat.zero_le i) hi, hfree⟩
  · rintro ⟨k, -, hname, hbefore', hfree'⟩
    -- both are the first free candidate
    rcases Nat.lt_trichotomy j k with hlt | rfl | hlt
    · rw [hid, hbefore' j hlt] at hfree
      cases hfree
    · rw [hid, ← hname]
    · rw [hname, hbefore k (Nat.zero_le k) hlt] at hfree'
      cases hfree'

theorem importProfile_ok {faults : Faults} {dir' : Directory} {config : List Char} {now : UInt64}
    {summary : ProfileSummary}
    (h : importProfile canonicalDigest faults dir name config now modified = (.ok summary, dir')) :
    ∃ id profile, parseProfile config = .ok profile ∧ allocateId dir (deriveId name) = .ok id ∧
      pathFor id = .ok id ∧ summary = summarise canonicalDigest id name profile now ∧
      dir' id = some (.file profile.toCanonicalConfig modified) ∧ dir id = none := by
  unfold importProfile at h
  cases hadmitted : admitted faults dir name config with
  | error error => rw [hadmitted] at h; cases h
  | ok result =>
    obtain ⟨id, profile⟩ := result
    obtain ⟨hparse, hid, hpath⟩ := admitted_ok hadmitted
    rw [hadmitted] at h
    dsimp only at h
    rcases writePrivate_cases faults dir id profile.toCanonicalConfig modified with
      ⟨error, hwrite⟩ | ⟨hnew, ⟨error, detail, written, hfault, hwrite⟩ | hwrite⟩
    · rw [hwrite] at h
      cases h
    · rw [hwrite] at h
      cases h
    · rw [hwrite] at h
      injection h with hsummary hdir
      injection hsummary with hsummary
      refine ⟨id, profile, hparse, hid, hpath, hsummary.symm, ?_, hnew⟩
      rw [← hdir, Function.update_self]

theorem get_ok_iff {root : String} {body : List Char} (hpath : pathFor id = .ok id)
    (hfile : dir id = some (.file body modified)) (got : ProfileSummary) :
    get canonicalDigest root {} dir id = .ok got ↔ ∃ restored, parseProfile body = .ok restored ∧
      got = summarise canonicalDigest id id restored (modified.getD 0) := by
  have himported : importedAt dir id = modified := by
    rw [importedAt, hpath]
    show (match dir id with
      | some (.file _ modified) => modified
      | _ => none) = modified
    rw [hfile]
  have hload : load root {} dir id = if byteLen body > maxStoredBytes then
      failed "the stored profile is larger than the import limit" s!"{root}/{id}.ovpn"
      else .ok body := by
    unfold load
    simp only [hpath, hfile, bind, Except.bind]
  unfold get
  rw [hload, himported]
  constructor
  · intro h
    obtain ⟨raw, hraw, hrest⟩ := ok_of_bind h
    obtain ⟨restored, hrestored, hsummary⟩ := ok_of_bind hrest
    injection hsummary with hsummary
    obtain ⟨_, ⟨⟩⟩ := ok_of_unless hraw
    cases hparse : parseProfile body with
    | error error => rw [hparse] at hrestored; cases hrestored
    | ok parsed =>
      rw [hparse] at hrestored
      injection hrestored with hrestored
      exact ⟨restored, by rw [hrestored], hsummary.symm⟩
  · rintro ⟨restored, hparse, rfl⟩
    have hsize : ¬ byteLen body > maxStoredBytes := Nat.not_lt.mpr (parseProfile_size hparse)
    rw [if_neg hsize]
    simp only [bind, Except.bind, hparse, Except.mapError]

def SameButTime (got summary : ProfileSummary) : Prop :=
  { got with importedUnixSecs := summary.importedUnixSecs } = summary

/-- Looking the import up succeeds with the same summary, and the stored text has the same inline
    material and names the same servers as the text that was imported. -/
def Agrees (canonicalDigest : List Char → String) (root : String) (dir' : Directory)
    (config : List Char) (summary : ProfileSummary) : Prop :=
  ∃ got imported stored modified restored,
    get canonicalDigest root {} dir' summary.id = .ok got ∧ SameButTime got summary ∧
    parseProfile config = .ok imported ∧ dir' summary.id = some (.file stored modified) ∧
    parseProfile stored = .ok restored ∧ restored.inline = imported.inline ∧
    restored.dhcpDnsServers = imported.dhcpDnsServers

/-- What a text must be like for its canonical config to stand in for it. -/
structure Keeps (config : List Char) : Prop where
  caps : ∀ profile, parseProfile config = .ok profile → WithinCaps profile
  bodies : ∀ items, lex config 1 = .ok items → PlainBodies items
  servers : ∀ items, lex config 1 = .ok items → NoServers items

/-- **When `get` agrees with the import.**  The name has to be the id itself, since nothing else is
    stored for it; no `dhcp-option` line may name a server, since such lines are not written out; no
    body line may end in a carriage return, since it loses it; and the canonical config has to stay
    within the caps, since it can be longer than the text it was made from. -/
theorem import_agrees_iff {canonicalDigest : List Char → String} {root : String} {faults : Faults}
    {dir dir' : Directory} {name : String} {config : List Char} {now : UInt64}
    {modified : Option UInt64} {summary : ProfileSummary}
    (h : importProfile canonicalDigest faults dir name config now modified =
      (.ok summary, dir')) :
    Agrees canonicalDigest root dir' config summary ↔ NameIsId dir name ∧ Keeps config := by
  obtain ⟨id, profile, hparse, hid, hpath, rfl, hfile, -⟩ := importProfile_ok h
  obtain ⟨items, n, hlex, -⟩ := parseProfile_ok hparse
  constructor
  · rintro ⟨got, imported, stored, time, restored, hgot, hsame, himported, hstored, hrestored,
      hinline, hservers⟩
    rw [hparse] at himported
    injection himported with himported
    subst himported
    have hfile' : dir' id = some (.file stored time) := hstored
    rw [hfile] at hfile'
    injection hfile' with hfile'
    injection hfile' with hbody htime
    subst hbody htime
    obtain ⟨hcaps, rfl⟩ := (parseProfile_canonical_iff hparse restored).mp hrestored
    obtain ⟨again, -, rfl⟩ := (get_ok_iff hpath hfile got).mp hgot
    refine ⟨(allocateId_eq_name_iff hid).mp (congrArg ProfileSummary.name hsame), ?_, ?_, ?_⟩
    · intro other hother
      rw [hparse] at hother
      injection hother with hother
      exact hother ▸ hcaps
    · intro items' hlex'
      exact (reread_inline_iff hparse hlex').mp hinline
    · intro items' hlex'
      exact (dhcpDnsServers_eq_nil_iff hparse hlex').mp hservers.symm
  · rintro ⟨hname, hcaps, hbodies, hservers⟩
    have hsame := (allocateId_eq_name_iff hid).mpr hname
    have hreread := parseProfile_canonical hparse (hcaps profile hparse)
    have hinline := (reread_inline_iff hparse hlex).mpr (hbodies items hlex)
    have hnone := (dhcpDnsServers_eq_nil_iff hparse hlex).mpr (hservers items hlex)
    have hkept : profile.reread = profile.kept := by
      rw [Profile.reread,
        show profile.inline.map InlineMaterial.reread = profile.inline from hinline]
      rfl
    refine ⟨_, profile, _, _, profile.reread, (get_ok_iff hpath hfile _).mpr ⟨_, hreread, rfl⟩, ?_,
      hparse, hfile, hreread, hinline, hnone.symm⟩
    rw [hkept, hsame]
    rfl

def serverText : List Char := "remote ::1 1194\ndhcp-option DNS 10.8.0.1\n".toList

def serverProfile : Profile :=
  { directives := [⟨"remote", ["::1", "1194"]⟩]
    remotes := [⟨.ip (.v6 (.new 0 0 0 0 0 0 0 1)), 1194, none⟩]
    dhcpOptions := [⟨"DNS", ["10.8.0.1"]⟩] }

def serverDirectory : Directory :=
  Function.update (fun _ => none) "work-vpn" (some (.file serverProfile.toCanonicalConfig none))

theorem importProfile_serverText (canonicalDigest : List Char → String) :
    importProfile canonicalDigest {} (fun _ => none) "Work VPN" serverText 0 none =
      (.ok (summarise canonicalDigest "work-vpn" "Work VPN" serverProfile 0), serverDirectory) := by
  have hadmitted : admitted {} (fun _ => none) "Work VPN" serverText =
      .ok ("work-vpn", serverProfile) := by
    rfl
  unfold importProfile
  rw [hadmitted]
  rfl

/-- The name comes back as the id, and the server is gone. -/
theorem import_name_and_server_lost :
    ∃ summary dir' got restored,
      importProfile (fun _ => "") {} (fun _ => none) "Work VPN" serverText 0 none =
        (.ok summary, dir') ∧
      get (fun _ => "") "/profiles" {} dir' summary.id = .ok got ∧
      summary.name = "Work VPN" ∧ got.name = "work-vpn" ∧
      serverProfile.dhcpDnsServers = ["10.8.0.1"] ∧
      parseProfile serverProfile.toCanonicalConfig = .ok restored ∧
      restored.dhcpDnsServers = [] := by
  have hrestored : parseProfile serverProfile.toCanonicalConfig =
      .ok { serverProfile with dhcpOptions := [] } := by
    rfl
  have hfile : serverDirectory "work-vpn" =
      some (.file serverProfile.toCanonicalConfig none) := by
    rfl
  exact ⟨_, _, _, _, importProfile_serverText _,
    (get_ok_iff (by decide) hfile _).mpr ⟨_, hrestored, rfl⟩, rfl, rfl, by decide, hrestored, rfl⟩

/-- A text that loses nothing, imported under a name that is its own id. -/
theorem import_agrees_iff_work :
    ∃ summary dir',
      importProfile (fun _ => "") {} (fun _ => none) "work" sampleText 0 none =
        (.ok summary, dir') ∧
      Agrees (fun _ => "") "/profiles" dir' sampleText summary := by
  have hadmitted : admitted {} (fun _ => none) "work" sampleText = .ok ("work", sampleProfile) := by
    rfl
  have himport : importProfile (fun _ => "") {} (fun _ => none) "work" sampleText 0 none =
      (.ok (summarise (fun _ => "") "work" "work" sampleProfile 0),
        Function.update (fun _ => none) "work"
          (some (.file sampleProfile.toCanonicalConfig none))) := by
    unfold importProfile
    rw [hadmitted]
    rfl
  have hlex : lex sampleText 1 = .ok [.directive ⟨1, "verb", ["9"]⟩,
      .block ⟨2, "connection", "remote ::1 22 tcp-client\n".toList⟩,
      .block ⟨5, "ca", ['x', '\n']⟩] := by
    rfl
  refine ⟨_, _, himport, (import_agrees_iff himport).mpr ⟨?_, ?_, ?_, ?_⟩⟩
  · exact ⟨0, by decide, by decide, fun j hj => absurd hj (Nat.not_lt_zero j), rfl⟩
  · intro profile hprofile
    rw [parseProfile_sampleText] at hprofile
    injection hprofile with hprofile
    subst hprofile
    exact ⟨by decide, by decide, by decide, by decide⟩
  · intro items hitems b hb htag l hl
    rw [hlex] at hitems
    injection hitems with hitems
    subst hitems
    simp only [List.mem_cons, List.not_mem_nil, or_false, reduceCtorEq, false_or,
      Item.block.injEq] at hb
    rcases hb with rfl | rfl
    · exact absurd rfl htag
    · revert l
      decide
  · rintro items hitems raw hraw ⟨hname, -⟩
    rw [hlex] at hitems
    injection hitems with hitems
    subst hitems
    simp only [List.mem_cons, List.not_mem_nil, or_false, reduceCtorEq,
      Item.directive.injEq] at hraw
    subst hraw
    exact absurd hname (by decide)

end ThisConnect.Session.Store
