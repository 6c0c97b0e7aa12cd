/-
  ThisConnect.Auth.Disclosure
  **WHICH PROMPTS ARE GIVEN THE ACCOUNT'S CREDENTIALS.**

  Main result:
    • `discreet_iff_proper` — over every attempt, the stored password and a
      remembered username stay with the account prompt exactly when no other
      kind of prompt is answered at a moment at which they are on offer.
-/
import ThisConnect.Auth.Flow

namespace ThisConnect.Auth

open Interaction Mgmt

variable {event : Event} {flow : FlowState}

/-! ## §1. The loop that answers prompts. -/

inductive AttemptError where
  | auth (error : AuthError)
  | mgmt (error : MgmtError)
  | authRejected (detail : String)
  | openvpnFatal (detail : String)
  deriving DecidableEq, Repr

/-- A rejected line ends the attempt. -/
def sendLines (answer : MgmtAnswer) :
    List (List Char) → Prog Call Call.Answer (Except AttemptError Unit)
  | [] => .ret (.ok ())
  | line :: rest => .call (.send answer line) fun
      | .error error => .ret (.error (.mgmt error))
      | .ok (isError, text) =>
        if isError then .ret (.error (.authRejected text)) else sendLines answer rest

def sendAnswer (answer : MgmtAnswer) : Prog Call Call.Answer (Except AttemptError Unit) :=
  match answer.commands with
  | .error error => .ret (.error (.mgmt error))
  | .ok lines => sendLines answer lines

def deliver : Except AuthError MgmtAnswer × FlowState →
    Prog Call Call.Answer (Except AttemptError FlowState)
  | (.error error, _) => .ret (.error (.auth error))
  | (.ok answer, flow) => sendAnswer answer >>= fun outcome => .ret (outcome.map fun () => flow)

variable (auth : AuthFlow) (format : StaticChallengeFormat)

def answerPassword (flow : FlowState) :
    PasswordEvent → Prog Call Call.Answer (Except AttemptError FlowState)
  | .need kind needsUsername needsPassword challenge =>
    auth.answerNeed kind needsUsername needsPassword challenge format flow >>= deliver
  | .verificationFailed kind _ (some dynamic) =>
    auth.answerDynamicChallenge kind dynamic flow >>= deliver
  | .verificationFailed _ reason none =>
    .ret (.error (.authRejected (reason.getD "openvpn rejected the credentials")))
  | .authToken | .other _ => .ret (.ok flow)

def handleEvent (flow : FlowState) : Event → Prog Call Call.Answer (Except AttemptError FlowState)
  | .password password => answerPassword auth format flow password
  | .infoMsg (.crText text) => auth.answerCrText text flow >>= deliver
  | .fatal text => .ret (.error (.openvpnFatal text))
  | _ => .ret (.ok flow)

def serve : Nat → FlowState → Prog Call Call.Answer (Except AttemptError FlowState)
  | 0, flow => .ret (.ok flow)
  | n + 1, flow => .call (.recv flow) fun event =>
    handleEvent auth format flow event >>= fun
      | .error error => .ret (.error error)
      | .ok flow => serve n flow

/-! ## §2. What is around it. -/

structure Handling where
  event : Event
  flow : FlowState
  stored : Except StoreError String
  sent : List MgmtAnswer

structure World where
  stored : Except StoreError String
  handled : List Handling := []

def record (answer : MgmtAnswer) : List Handling → List Handling
  | [] => []
  | handling :: rest => { handling with sent := handling.sent ++ [answer] } :: rest

def answers : Env Call Call.Answer World := fun s c r s' =>
  match c, r with
  | .recv flow, event => s'.handled = ⟨event, flow, s'.stored, []⟩ :: s.handled
  | .loadPassword, outcome => outcome = s.stored ∧ s'.handled = s.handled
  | .send answer _, _ => s'.handled = record answer s.handled
  | .loadSeed, _ | .ask _, _ | .announce _, _ | .now, _ => s'.handled = s.handled

/-- The stored password and a remembered username stay with the account prompt. -/
def MgmtAnswer.Discreet : MgmtAnswer → Prop
  | .credentials kind username password =>
    kind = "Auth" ∨
      (password.source ≠ .stored ∧ ∀ name ∈ username, name.source ≠ .remembered)
  | .crResponse _ => True

def offers (flow : FlowState) (stored : Except StoreError String) : Bool :=
  flow.username.isSome && !flow.storedPasswordOffered && stored.isOk

/-- Nothing of the account's is on offer to another kind of prompt when the event comes. -/
def Handling.Proper (decode : List Char → Option (List UInt8)) (handling : Handling) : Prop :=
  match handling.event with
  | .password (.need kind _ _ _) => kind = "Auth" ∨ offers handling.flow handling.stored = false
  | .password (.verificationFailed kind _ (some challenge)) =>
    kind = "Auth" ∨ (challenge.username decode).isSome = true ∨ handling.flow.username = none
  | _ => True

/-! ## §3. What each answer discloses. -/

/-- The calls of a flow step leave the record of what was sent alone. -/
abbrev Quiet (handled : List Handling) (s : World) : Prop := s.handled = handled

variable {s : World}

section

variable {auth format} {handled : List Handling}

theorem askForResponse_quiet (prompt : CredentialPrompt) (flow : FlowState) (hs : Quiet handled s) :
    Safe answers (Quiet handled) (fun _ _ => True) (AuthFlow.askForResponse prompt flow) s := by
  refine ⟨hs, fun r s' hanswer => ?_⟩
  have hs' : Quiet handled s' := hanswer.trans hs
  cases r with
  | error error => exact ⟨hs', trivial⟩
  | ok answer =>
    cases answer with
    | usernamePassword username password => exact ⟨hs', trivial⟩
    | challenge response => exact ⟨hs', trivial⟩

theorem warnAboutShortSeed_quiet (compliance : SeedCompliance) (flow : FlowState)
    (hs : Quiet handled s) :
    Safe answers (Quiet handled) (fun _ _ => True)
      (AuthFlow.warnAboutShortSeed compliance flow) s := by
  unfold AuthFlow.warnAboutShortSeed
  split
  · exact ⟨hs, trivial⟩
  · split
    · exact ⟨hs, trivial⟩
    · exact ⟨hs, fun _ s' hanswer => ⟨hanswer.trans hs, trivial⟩⟩

theorem generated_quiet (generator : TotpGenerator) (prompt : CredentialPrompt) (flow : FlowState)
    (hs : Quiet handled s) :
    Safe answers (Quiet handled) (fun _ _ => True) (auth.generated generator prompt flow) s := by
  refine ⟨hs, fun r s' hanswer => ?_⟩
  have hs' : Quiet handled s' := hanswer.trans hs
  cases r with
  | error error => exact ⟨hs', trivial⟩
  | ok now =>
    dsimp only
    split
    · exact ⟨hs', trivial⟩
    · exact ⟨hs', fun _ t hannounced =>
        askForResponse_quiet prompt flow (hannounced.trans hs')⟩
    · exact ⟨hs', trivial⟩

theorem secondFactor_quiet (prompt : CredentialPrompt) (flow : FlowState) (hs : Quiet handled s) :
    Safe answers (Quiet handled) (fun _ _ => True) (auth.secondFactor prompt flow) s := by
  unfold AuthFlow.secondFactor
  split
  · exact askForResponse_quiet prompt flow hs
  · refine ⟨hs, fun r s' hanswer => ?_⟩
    have hs' : Quiet handled s' := hanswer.trans hs
    dsimp only
    split
    · exact askForResponse_quiet prompt flow hs'
    · exact ⟨hs', trivial⟩
    · split
      · exact ⟨hs', trivial⟩
      · exact Safe.bind (fun flow' t ht _ => generated_quiet _ prompt flow' ht)
          (warnAboutShortSeed_quiet _ flow hs')

theorem usernamePassword_sources (flow : FlowState) (s : World) :
    Safe answers (Quiet s.handled)
      (fun r _ => ∀ username password, r.1 = .ok (username, password) →
        (offers flow s.stored = true ∧ username.source = .remembered ∧ password.source = .stored) ∨
        (offers flow s.stored = false ∧ username.source = .typed ∧ password.source = .typed))
      (auth.usernamePassword flow) s := by
  -- asking the user, whatever made it necessary
  have hask : ∀ t : World, Quiet s.handled t → offers flow s.stored = false →
      Safe answers (Quiet s.handled)
        (fun r _ => ∀ username password, r.1 = .ok (username, password) →
          (offers flow s.stored = true ∧ username.source = .remembered ∧
            password.source = .stored) ∨
          (offers flow s.stored = false ∧ username.source = .typed ∧ password.source = .typed))
        (auth.askPair flow.username flow) t := by
    intro t ht hoffers
    refine ⟨ht, fun r t' hanswer => ?_⟩
    have ht' : Quiet s.handled t' := hanswer.trans ht
    cases r with
    | error error => exact ⟨ht', fun _ _ h => by cases h⟩
    | ok answer =>
      cases answer with
      | challenge response => exact ⟨ht', fun _ _ h => by cases h⟩
      | usernamePassword username password =>
        refine ⟨ht', fun u p h => .inr ?_⟩
        injection h with h
        injection h with hu hp
        subst hu hp
        exact ⟨hoffers, rfl, rfl⟩
  unfold AuthFlow.usernamePassword
  split
  · next username husername hoffered =>
    refine ⟨rfl, fun r t hanswer => ?_⟩
    obtain ⟨hr, ht⟩ := hanswer
    subst hr
    dsimp only
    split
    · next password hstored =>
      refine ⟨ht, fun u p h => .inl ?_⟩
      injection h with h
      injection h with hu hp
      subst hu hp
      exact ⟨by simp [offers, husername, hoffered, hstored, Except.isOk, Except.toBool], rfl, rfl⟩
    · next hstored =>
      exact hask t ht (by simp [offers, hstored, Except.isOk, Except.toBool])
    · exact ⟨ht, fun _ _ h => by cases h⟩
  · next hnot =>
    refine hask s rfl ?_
    cases husername : flow.username with
    | none => simp [offers, husername]
    | some username =>
      cases hoffered : flow.storedPasswordOffered with
      | true => simp [offers, hoffered]
      | false => exact absurd hoffered (hnot username husername)

def Fits (decode : List Char → Option (List UInt8)) (event : Event) (flow : FlowState)
    (stored : Except StoreError String) (r : Except AuthError MgmtAnswer × FlowState) : Prop :=
  ∀ answer, r.1 = .ok answer →
    (answer.Discreet ↔ Handling.Proper decode ⟨event, flow, stored, []⟩)

theorem answerNeed_fits (kind : String) (needsUsername needsPassword : Bool)
    (challenge : Option StaticChallenge) (flow : FlowState) (s : World) :
    Safe answers (Quiet s.handled)
      (fun r _ => Fits auth.decode
        (.password (.need kind needsUsername needsPassword challenge)) flow s.stored r)
      (auth.answerNeed kind needsUsername needsPassword challenge format flow) s := by
  unfold AuthFlow.answerNeed
  split
  · exact ⟨rfl, fun _ h => by cases h⟩
  refine Safe.bind (fun pair t ht hpair => ?_) (usernamePassword_sources flow s)
  obtain ⟨outcome, flow'⟩ := pair
  cases outcome with
  | error error => exact ⟨ht, fun _ h => by cases h⟩
  | ok pair =>
    obtain ⟨username, password⟩ := pair
    have hsources := hpair username password rfl
    -- only the sources matter: encoding a response into the password keeps them
    have hfits : ∀ text : String,
        (MgmtAnswer.Discreet (.credentials kind (if needsUsername then some username else none)
          { password with text }) ↔
          Handling.Proper auth.decode
            ⟨.password (.need kind needsUsername needsPassword challenge), flow, s.stored,
              []⟩) := by
      intro text
      rcases hsources with ⟨hoffers, _, hp⟩ | ⟨hoffers, hu, hp⟩
      · simp [MgmtAnswer.Discreet, Handling.Proper, hoffers, hp]
      · cases needsUsername <;> simp [MgmtAnswer.Discreet, Handling.Proper, hoffers, hp, hu]
    cases challenge with
    | none =>
      refine ⟨ht, fun answer h => ?_⟩
      injection h with h
      subst h
      exact hfits password.text
    | some challenge =>
      refine Safe.bind (fun r t' ht' _ => ?_) (secondFactor_quiet _ flow' ht)
      obtain ⟨outcome, flow''⟩ := r
      cases outcome with
      | error error => exact ⟨ht', fun _ h => by cases h⟩
      | ok response =>
        refine ⟨ht', fun answer h => ?_⟩
        injection h with h
        subst h
        exact hfits _

theorem answerDynamicChallenge_fits (kind : String) (reason : Option String)
    (challenge : DynamicChallenge) (flow : FlowState) (s : World) :
    Safe answers (Quiet s.handled)
      (fun r _ => Fits auth.decode
        (.password (.verificationFailed kind reason (some challenge))) flow s.stored r)
      (auth.answerDynamicChallenge kind challenge flow) s := by
  unfold AuthFlow.answerDynamicChallenge
  split
  · exact ⟨rfl, fun _ h => by cases h⟩
  next username husername =>
  have hproper : Handling.Proper auth.decode
      ⟨.password (.verificationFailed kind reason (some challenge)), flow, s.stored, []⟩ ↔
      kind = "Auth" ∨ username.source ≠ .remembered := by
    unfold AuthFlow.accountFor at husername
    split at husername
    · next name hname =>
      injection husername with husername
      subst husername
      simp [Handling.Proper, hname]
    · next hname =>
      obtain ⟨name, hflow, rfl⟩ := Option.map_eq_some_iff.mp husername
      simp [Handling.Proper, hname, hflow]
  refine Safe.bind (fun r t ht _ => ?_) (secondFactor_quiet _ flow rfl)
  obtain ⟨outcome, flow'⟩ := r
  cases outcome with
  | error error => exact ⟨ht, fun _ h => by cases h⟩
  | ok response =>
    dsimp only
    split
    · exact ⟨ht, fun _ h => by cases h⟩
    · refine ⟨ht, fun answer h => ?_⟩
      injection h with h
      subst h
      rw [hproper]
      simp [MgmtAnswer.Discreet]

theorem answerCrText_fits (text : String) (flow : FlowState) (s : World) :
    Safe answers (Quiet s.handled)
      (fun r _ => Fits auth.decode (.infoMsg (.crText text)) flow s.stored r)
      (auth.answerCrText text flow) s := by
  unfold AuthFlow.answerCrText
  refine Safe.bind (fun r t ht _ => ?_) (secondFactor_quiet _ flow rfl)
  obtain ⟨outcome, flow'⟩ := r
  cases outcome with
  | error error => exact ⟨ht, fun _ h => by cases h⟩
  | ok response =>
    refine ⟨ht, fun answer h => ?_⟩
    injection h with h
    subst h
    exact ⟨fun _ => trivial, fun _ => trivial⟩

/-! ## §4. Whole attempts. -/

def Exact (decode : List Char → Option (List UInt8)) (s : World) : Prop :=
  ∀ handling ∈ s.handled, ∀ answer ∈ handling.sent,
    (answer.Discreet ↔ handling.Proper decode)

def Handles (event : Event) (flow : FlowState) (stored : Except StoreError String)
    (s : World) : Prop :=
  ∃ sent rest, s.handled = ⟨event, flow, stored, sent⟩ :: rest

theorem sendLines_exact {stored : Except StoreError String} {answer : MgmtAnswer}
    (hfits : answer.Discreet ↔ Handling.Proper auth.decode ⟨event, flow, stored, []⟩)
    (lines : List (List Char)) :
    ∀ {s : World}, Exact auth.decode s → Handles event flow stored s →
      Safe answers (Exact auth.decode) (fun _ _ => True) (sendLines answer lines) s := by
  induction lines with
  | nil => intro s hs _; exact ⟨hs, trivial⟩
  | cons line rest ih =>
    intro s hs hhandles
    refine ⟨hs, fun r s' hanswer => ?_⟩
    obtain ⟨sent, earlier, hhandled⟩ := hhandles
    have hrecorded : s'.handled = ⟨event, flow, stored, sent ++ [answer]⟩ :: earlier := by
      have := (hanswer : s'.handled = record answer s.handled)
      rw [this, hhandled]
      rfl
    have hs' : Exact auth.decode s' := by
      intro handling hmem a ha
      rw [hrecorded] at hmem
      rcases List.mem_cons.mp hmem with rfl | hmem
      · rcases List.mem_append.mp ha with ha | ha
        · exact hs ⟨event, flow, stored, sent⟩ (by rw [hhandled]; simp) a ha
        · rw [List.mem_singleton.mp ha]
          exact hfits
      · exact hs handling (by rw [hhandled]; exact List.mem_cons_of_mem _ hmem) a ha
    cases r with
    | error error => exact ⟨hs', trivial⟩
    | ok reply =>
      dsimp only
      split
      · exact ⟨hs', trivial⟩
      · exact ih hs' ⟨_, _, hrecorded⟩

theorem deliver_exact {stored : Except StoreError String}
    {r : Except AuthError MgmtAnswer × FlowState} (hfits : Fits auth.decode event flow stored r)
    (hs : Exact auth.decode s) (hhandles : Handles event flow stored s) :
    Safe answers (Exact auth.decode) (fun _ _ => True) (deliver r) s := by
  obtain ⟨outcome, flow'⟩ := r
  cases outcome with
  | error error => exact ⟨hs, trivial⟩
  | ok answer =>
    have hsend : Safe answers (Exact auth.decode) (fun _ _ => True) (sendAnswer answer) s := by
      unfold sendAnswer
      split
      · exact ⟨hs, trivial⟩
      · exact sendLines_exact (hfits answer rfl) _ hs hhandles
    unfold deliver
    refine Safe.bind ?_ hsend
    intro outcome t ht _
    exact ⟨ht, trivial⟩

theorem answer_exact {p : Prog Call Call.Answer (Except AuthError MgmtAnswer × FlowState)}
    (hs : Exact auth.decode s) (hhandles : Handles event flow s.stored s)
    (hp : Safe answers (Quiet s.handled) (fun r _ => Fits auth.decode event flow s.stored r) p s) :
    Safe answers (Exact auth.decode) (fun _ _ => True) (p >>= deliver) s := by
  have hquiet : ∀ t : World, Quiet s.handled t →
      Exact auth.decode t ∧ Handles event flow s.stored t := by
    intro t ht
    obtain ⟨sent, rest, hhandled⟩ := hhandles
    exact ⟨fun handling hmem => hs handling (ht ▸ hmem), sent, rest, ht.trans hhandled⟩
  have hstep : Safe answers (Exact auth.decode)
      (fun r t => Fits auth.decode event flow s.stored r ∧ Handles event flow s.stored t) p s :=
    hp.mono (fun t ht => (hquiet t ht).1) (fun r t ht hr => ⟨hr, (hquiet t ht).2⟩)
  exact Safe.bind (fun r t ht hr => deliver_exact hr.1 ht hr.2) hstep

theorem handleEvent_exact (hs : Exact auth.decode s) (hhandles : Handles event flow s.stored s) :
    Safe answers (Exact auth.decode) (fun _ _ => True) (handleEvent auth format flow event) s := by
  unfold handleEvent
  split
  · unfold answerPassword
    split
    · exact answer_exact hs hhandles (answerNeed_fits _ _ _ _ flow s)
    · exact answer_exact hs hhandles (answerDynamicChallenge_fits _ _ _ flow s)
    · exact ⟨hs, trivial⟩
    · exact ⟨hs, trivial⟩
    · exact ⟨hs, trivial⟩
  · exact answer_exact hs hhandles (answerCrText_fits _ flow s)
  · exact ⟨hs, trivial⟩
  · exact ⟨hs, trivial⟩

theorem serve_exact (n : Nat) : ∀ (flow : FlowState) {s : World}, Exact auth.decode s →
    Safe answers (Exact auth.decode) (fun _ _ => True) (serve auth format n flow) s := by
  induction n with
  | zero => intro flow s hs; exact ⟨hs, trivial⟩
  | succ n ih =>
    intro flow s hs
    refine ⟨hs, fun event s' hanswer => ?_⟩
    have hhandled : s'.handled = ⟨event, flow, s'.stored, []⟩ :: s.handled := hanswer
    have hs' : Exact auth.decode s' := by
      intro handling hmem a ha
      rw [hhandled] at hmem
      rcases List.mem_cons.mp hmem with rfl | hmem
      · exact absurd ha (by simp)
      · exact hs handling hmem a ha
    refine Safe.bind (fun outcome t ht _ => ?_) (handleEvent_exact hs' ⟨[], _, hhandled⟩)
    cases outcome with
    | error error => exact ⟨ht, trivial⟩
    | ok flow' => exact ih flow' ht

end

/-- **The account's credentials stay with the account prompt** exactly as long as no other kind of
    prompt is answered while they are on offer: over every attempt, for every keyring, user and
    openvpn. -/
theorem discreet_iff_proper (auth : AuthFlow) (format : StaticChallengeFormat) (n : Nat)
    (stored : Except StoreError String)
    {left : Prog Call Call.Answer (Except AttemptError FlowState)} {t : World}
    (hrun : Reaches answers (serve auth format n {}) { stored } left t) :
    (∀ handling ∈ t.handled, ∀ answer ∈ handling.sent, answer.Discreet) ↔
      ∀ handling ∈ t.handled, handling.sent ≠ [] → handling.Proper auth.decode := by
  have hexact : Exact auth.decode t :=
    (serve_exact n {} (fun _ hmem => absurd hmem (by simp))).inv_of_reaches hrun
  constructor
  · intro hdiscreet handling hmem hsent
    obtain ⟨answer, hanswer⟩ := List.exists_mem_of_ne_nil _ hsent
    exact (hexact handling hmem answer hanswer).mp (hdiscreet handling hmem answer hanswer)
  · intro hproper handling hmem answer hanswer
    exact (hexact handling hmem answer hanswer).mpr
      (hproper handling hmem (List.ne_nil_of_mem hanswer))

/-! ## §5. A proxy that asks. -/

def scripted (events : List Event) (s : World) : (c : Call) → c.Answer × World
  | .recv flow =>
    let event := events[s.handled.length]?.getD (.info "")
    (event, { s with handled := ⟨event, flow, s.stored, []⟩ :: s.handled })
  | .loadPassword => (s.stored, s)
  | .loadSeed => (.error .notFound, s)
  | .ask _ => (.ok (.usernamePassword "alice" "typed"), s)
  | .announce _ => ((), s)
  | .now => (.ok 0, s)
  | .send answer _ => (.ok (false, ""), { s with handled := record answer s.handled })

theorem scripted_answers (events : List Event) (s : World) (c : Call) :
    answers s c (scripted events s c).1 (scripted events s c).2 := by
  cases c with
  | loadPassword => exact ⟨rfl, rfl⟩
  | _ => rfl

def sampleAuth : AuthFlow where
  profileId := "work"
  totp := {}
  library := sampleLibrary
  decode := fun _ => none

def askedFor (kind : String) : Event := .password (.need kind true true none)

def attempt (kinds : List String) : World :=
  (Prog.exec (scripted (kinds.map askedFor)) (serve sampleAuth .scrv1 kinds.length {})
    { stored := .ok "hunter2" }).2

theorem attempt_reached (kinds : List String) :
    ∃ left, Reaches answers (serve sampleAuth .scrv1 kinds.length {}) { stored := .ok "hunter2" }
      left (attempt kinds) :=
  ⟨_, exec_reaches (scripted_answers _) _ _⟩

/-- Asked twice for the account, the second time with the stored password on offer. -/
theorem discreet_iff_proper_account :
    (attempt ["Auth", "Auth"]).handled.map Handling.sent =
        [[.credentials "Auth" (some ⟨"alice", .remembered⟩) ⟨"hunter2", .stored⟩,
          .credentials "Auth" (some ⟨"alice", .remembered⟩) ⟨"hunter2", .stored⟩],
         [.credentials "Auth" (some ⟨"alice", .typed⟩) ⟨"typed", .typed⟩,
          .credentials "Auth" (some ⟨"alice", .typed⟩) ⟨"typed", .typed⟩]] ∧
      ∀ handling ∈ (attempt ["Auth", "Auth"]).handled, ∀ answer ∈ handling.sent,
        answer.Discreet := by
  obtain ⟨left, hrun⟩ := attempt_reached ["Auth", "Auth"]
  have hevents : (attempt ["Auth", "Auth"]).handled.map Handling.event =
      [askedFor "Auth", askedFor "Auth"] := by decide +kernel
  refine ⟨by decide +kernel, (discreet_iff_proper _ _ _ _ hrun).mpr ?_⟩
  intro handling hmem _
  have hevent : handling.event = askedFor "Auth" := by
    have := List.mem_map_of_mem (f := Handling.event) hmem
    rw [hevents] at this
    simpa using this
  simp [Handling.Proper, hevent, askedFor]

/-- **A proxy is given the account's password.**  The user answers the account prompt, then openvpn
    asks for the credentials of an HTTP proxy. -/
theorem proxy_given_account_password :
    ∃ left t, Reaches answers (serve sampleAuth .scrv1 2 {}) { stored := .ok "hunter2" } left t ∧
      ∃ handling ∈ t.handled,
        .credentials "HTTP Proxy" (some ⟨"alice", .remembered⟩) ⟨"hunter2", .stored⟩ ∈
            handling.sent ∧
          ∃ answer ∈ handling.sent, ¬ answer.Discreet := by
  obtain ⟨left, hrun⟩ := attempt_reached ["Auth", "HTTP Proxy"]
  have hsent : (attempt ["Auth", "HTTP Proxy"]).handled.any (fun handling => decide
      (MgmtAnswer.credentials "HTTP Proxy" (some ⟨"alice", .remembered⟩) ⟨"hunter2", .stored⟩ ∈
        handling.sent)) = true := by decide +kernel
  obtain ⟨handling, hmem, hsent⟩ := List.any_eq_true.mp hsent
  have hsent := of_decide_eq_true hsent
  refine ⟨left, _, hrun, handling, hmem, hsent, _, hsent, ?_⟩
  simp [MgmtAnswer.Discreet]

end ThisConnect.Auth
