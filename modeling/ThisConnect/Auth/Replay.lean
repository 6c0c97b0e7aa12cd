/-
  ThisConnect.Auth.Replay
  **WHETHER A GENERATED CODE IS SENT TWICE.**

  Main results:
    • `codes_distinct_of_forward` — over every process lifetime in which the
      clock moves forward, no two codes sent belong to one time step.
    • `reconnect_repeats_code`, `clock_back_repeats_code` — the two ways in
      which they do.
-/
import ThisConnect.Auth.Disclosure

namespace ThisConnect.Auth

open Interaction Mgmt

/-! ## §1. What is seen of the codes. -/

structure Codes where
  earlier : List Nat := []
  shown : Option Nat := none
  fresh : Option Nat := none
  sent : List Nat := []
  deriving DecidableEq, Repr

/-- The clock is read. -/
def Codes.read (s : Codes) (step : Nat) : Codes :=
  { s with shown := some step, fresh := some step }

def Codes.settle (s : Codes) : Codes := { s with fresh := none }

def Codes.send (s : Codes) : Codes := { s with sent := s.sent ++ s.fresh.toList, fresh := none }

/-- A connect attempt starts. -/
def Codes.attempt (s : Codes) : Codes :=
  { earlier := s.earlier ++ s.shown.toList, sent := s.sent }

def watched (stepSeconds : Nat) (admitted : Codes → Nat → Prop) : Env Call Call.Answer Codes :=
  fun s c r s' =>
    match c, r with
    | .now, .ok now => admitted s (now / stepSeconds) ∧ s' = s.read (now / stepSeconds)
    | .now, .error _ => s' = s
    | .recv _, _ | .ask _, _ => s' = s.settle
    | .send _ _, _ => s' = s.send
    | .loadPassword, _ | .loadSeed, _ | .announce _, _ => s' = s

/-- A process lifetime: any number of attempts for one profile, each with a flow of its own and
    each left at any point. -/
inductive Lifetime (auth : AuthFlow) (admitted : Codes → Nat → Prop) : Codes → Prop where
  | start : Lifetime auth admitted {}
  | attempt {s t : Codes} {format : StaticChallengeFormat} {n : Nat}
      {left : Prog Call Call.Answer (Except AttemptError FlowState)}
      (before : Lifetime auth admitted s)
      (run : Reaches (watched auth.totp.stepSeconds admitted) (serve auth format n {})
        s.attempt left t) :
      Lifetime auth admitted t

/-- Whatever the clock shows. -/
def anyReading : Codes → Nat → Prop := fun _ _ => True

/-- The clock does not fall back to a step before this attempt's last reading, and has left the
    steps in which the attempts before took theirs. -/
def Forward (s : Codes) (step : Nat) : Prop :=
  (∀ last ∈ s.earlier, last < step) ∧ ∀ last ∈ s.shown, last ≤ step

/-! ## §2. What one answer does. -/

structure Distinct (s : Codes) : Prop where
  nodup : s.sent.Nodup
  seen : ∀ step ∈ s.sent, (∃ last ∈ s.earlier, step ≤ last) ∨ ∃ last ∈ s.shown, step ≤ last

def Guarded (flow : FlowState) (s : Codes) : Prop := flow.replay.lastStep = s.shown

/-- A fresh code was not sent before. -/
def Unsent (s : Codes) : Prop := ∀ step ∈ s.fresh, s.shown = some step ∧ step ∉ s.sent

variable {s : Codes} {step : Nat}

theorem Distinct.settle (h : Distinct s) : Distinct s.settle := ⟨h.nodup, h.seen⟩

theorem Distinct.attempt (h : Distinct s) : Distinct s.attempt := by
  refine ⟨h.nodup, fun step hmem => .inl ?_⟩
  rcases h.seen step hmem with ⟨last, hlast, hle⟩ | ⟨last, hlast, hle⟩
  · exact ⟨last, List.mem_append_left _ hlast, hle⟩
  · exact ⟨last, List.mem_append_right _ (by simpa using hlast), hle⟩

theorem unsent_settle (s : Codes) : Unsent s.settle := fun _ h => absurd h (by simp [Codes.settle])

theorem Distinct.read (h : Distinct s) (hforward : Forward s step) :
    Distinct (s.read step) := by
  refine ⟨h.nodup, fun old hmem => ?_⟩
  rcases h.seen old hmem with hearlier | ⟨last, hlast, hle⟩
  · exact .inl hearlier
  · have := hforward.2 last hlast
    exact .inr ⟨step, rfl, by omega⟩

theorem Distinct.unsent_read (h : Distinct s) (hforward : Forward s step)
    (hother : s.shown ≠ some step) : Unsent (s.read step) := by
  intro step' hstep'
  obtain rfl : step = step' := Option.some.inj hstep'
  refine ⟨rfl, fun hmem => ?_⟩
  rcases h.seen step hmem with ⟨last, hlast, hle⟩ | ⟨last, hlast, hle⟩
  · have := hforward.1 last hlast
    omega
  · have hle' := hforward.2 last hlast
    have : last = step := by omega
    exact hother (this ▸ hlast)

theorem Distinct.send (h : Distinct s) (hunsent : Unsent s) : Distinct s.send := by
  cases hfresh : s.fresh with
  | none =>
    refine ⟨?_, fun step hmem => h.seen step ?_⟩
    · simpa [Codes.send, hfresh] using h.nodup
    · simpa [Codes.send, hfresh] using hmem
  | some step =>
    obtain ⟨hshown, hnew⟩ := hunsent step hfresh
    refine ⟨?_, fun old hmem => ?_⟩
    · simp only [Codes.send, hfresh, Option.toList_some]
      exact List.nodup_append.mpr ⟨h.nodup, List.nodup_singleton _, fun a ha b hb hab =>
        hnew (by rw [← List.mem_singleton.mp hb, ← hab]; exact ha)⟩
    · simp only [Codes.send, hfresh, Option.toList_some, List.mem_append,
        List.mem_singleton] at hmem
      rcases hmem with hmem | rfl
      · exact h.seen old hmem
      · exact .inr ⟨old, hshown, Nat.le_refl _⟩

/-! ## §3. The flow's steps. -/

def GeneratedFor (auth : AuthFlow) (response : String) (step : Nat) : Prop :=
  ∃ generator : TotpGenerator, ∃ now : Nat,
    generator.stepAt now = step ∧ response = generator.codeAt auth.library now

def Cleared {α : Type} (r : Except AuthError α × FlowState) (s : Codes) : Prop :=
  ∀ a, r.1 = .ok a → Guarded r.2 s ∧ Unsent s

section

variable {auth : AuthFlow} {format : StaticChallengeFormat} {flow : FlowState} {s : Codes}

abbrev Steps {α : Type} (auth : AuthFlow) (Q : α → Codes → Prop) (p : Prog Call Call.Answer α)
    (s : Codes) : Prop :=
  Safe (watched auth.totp.stepSeconds Forward) Distinct Q p s

variable {α : Type} {generator : TotpGenerator}

theorem cleared_error {error : AuthError} :
    Cleared ((.error error, flow) : Except AuthError α × FlowState) s := fun _ h => by cases h

theorem askForResponse_cleared (prompt : CredentialPrompt) (hs : Distinct s)
    (hguard : Guarded flow s) :
    Steps auth Cleared (AuthFlow.askForResponse prompt flow) s := by
  refine ⟨hs, fun r s' hanswer => ?_⟩
  obtain rfl : s' = s.settle := hanswer
  cases r with
  | error error => exact ⟨hs.settle, cleared_error⟩
  | ok answer =>
    cases answer with
    | usernamePassword username password => exact ⟨hs.settle, cleared_error⟩
    | challenge response => exact ⟨hs.settle, fun _ _ => ⟨hguard, unsent_settle s⟩⟩

theorem warnAboutShortSeed_guarded (compliance : SeedCompliance) (hs : Distinct s)
    (hguard : Guarded flow s) :
    Steps auth Guarded (AuthFlow.warnAboutShortSeed compliance flow) s := by
  unfold AuthFlow.warnAboutShortSeed
  split
  · exact ⟨hs, hguard⟩
  · split
    · exact ⟨hs, hguard⟩
    · refine ⟨hs, fun _ s' hanswer => ?_⟩
      obtain rfl : s' = s := hanswer
      exact ⟨hs, hguard⟩

theorem generated_cleared (hstep : generator.stepSeconds = auth.totp.stepSeconds)
    (prompt : CredentialPrompt) (hs : Distinct s) (hguard : Guarded flow s) :
    Steps auth Cleared (auth.generated generator prompt flow) s := by
  refine ⟨hs, fun r s' hanswer => ?_⟩
  cases r with
  | error error =>
    obtain rfl : s' = s := hanswer
    exact ⟨hs, cleared_error⟩
  | ok now =>
    obtain ⟨hforward, rfl⟩ : Forward s (now / auth.totp.stepSeconds) ∧
      s' = s.read (now / auth.totp.stepSeconds) := hanswer
    have hs' := hs.read hforward
    have hat : generator.stepAt now = now / auth.totp.stepSeconds := by
      rw [TotpGenerator.stepAt, hstep]
    dsimp only
    rw [hat]
    unfold ReplayGuard.admits
    by_cases hlast : flow.replay.lastStep = some (now / auth.totp.stepSeconds)
    · -- the user is asked instead, which settles the reading
      rw [if_pos hlast]
      refine ⟨hs', fun _ t hannounced => ?_⟩
      obtain rfl : t = s.read (now / auth.totp.stepSeconds) := hannounced
      exact askForResponse_cleared prompt hs' hlast
    · rw [if_neg hlast]
      refine ⟨hs', fun _ _ => ⟨rfl, hs.unsent_read hforward ?_⟩⟩
      rw [← hguard]
      exact hlast

theorem stepSeconds_of_fromBase32Seed {library : TotpLibrary} {seed : String}
    {settings : TotpSettings}
    (h : TotpGenerator.fromBase32Seed library seed settings = .ok generator) :
    generator.stepSeconds = settings.stepSeconds := by
  unfold TotpGenerator.fromBase32Seed at h
  repeat' split at h
  all_goals cases h <;> rfl

theorem secondFactor_cleared (prompt : CredentialPrompt) (hs : Distinct s)
    (hguard : Guarded flow s) : Steps auth Cleared (auth.secondFactor prompt flow) s := by
  unfold AuthFlow.secondFactor
  split
  · exact askForResponse_cleared prompt hs hguard
  · refine ⟨hs, fun r s' hanswer => ?_⟩
    obtain rfl : s' = s := hanswer
    dsimp only
    split
    · exact askForResponse_cleared prompt hs hguard
    · exact ⟨hs, cleared_error⟩
    · split
      · exact ⟨hs, cleared_error⟩
      · next generator hgenerator =>
        exact Safe.bind (fun flow' t ht hguard' =>
            generated_cleared (stepSeconds_of_fromBase32Seed hgenerator) prompt ht hguard')
          (warnAboutShortSeed_guarded _ hs hguard)

theorem secondFactor_fresh (auth : AuthFlow) (admitted : Codes → Nat → Prop)
    (prompt : CredentialPrompt) (flow : FlowState) (s : Codes) :
    Safe (watched auth.totp.stepSeconds admitted) (fun _ => True)
      (fun r t => ∀ response, r.1 = .ok response →
        ∀ step ∈ t.fresh, GeneratedFor auth response step)
      (auth.secondFactor prompt flow) s := by
  -- a question settles the reading, so a typed response is never taken for a code
  have hask : ∀ flow' (t : Codes), Safe (watched auth.totp.stepSeconds admitted) (fun _ => True)
      (fun r t => ∀ response, r.1 = .ok response →
        ∀ step ∈ t.fresh, GeneratedFor auth response step)
      (AuthFlow.askForResponse prompt flow') t := by
    intro flow' t
    refine ⟨trivial, fun r t' hanswer => ?_⟩
    obtain rfl : t' = t.settle := hanswer
    cases r with
    | error error => exact ⟨trivial, fun _ h => by cases h⟩
    | ok answer =>
      cases answer with
      | usernamePassword username password => exact ⟨trivial, fun _ h => by cases h⟩
      | challenge response =>
        exact ⟨trivial, fun _ _ step hstep => absurd hstep (by simp [Codes.settle])⟩
  unfold AuthFlow.secondFactor
  split
  · exact hask flow s
  refine ⟨trivial, fun r s' _ => ?_⟩
  dsimp only
  split
  · exact hask flow s'
  · exact ⟨trivial, fun _ h => by cases h⟩
  split
  · exact ⟨trivial, fun _ h => by cases h⟩
  next generator hgenerator =>
  have hwarned : Safe (watched auth.totp.stepSeconds admitted) (fun _ => True) (fun _ _ => True)
      (AuthFlow.warnAboutShortSeed generator.compliance flow) s' :=
    Safe.of_forall (fun _ _ => trivial) _ _
  refine Safe.bind (fun flow' t _ _ => ?_) hwarned
  refine ⟨trivial, fun r t' hanswer => ?_⟩
  cases r with
  | error error => exact ⟨trivial, fun _ h => by cases h⟩
  | ok now =>
    dsimp only
    split
    · refine ⟨trivial, fun response h step hstep => ?_⟩
      injection h with h
      obtain ⟨_, rfl⟩ : admitted t (now / auth.totp.stepSeconds) ∧
        t' = t.read (now / auth.totp.stepSeconds) := hanswer
      refine ⟨generator, now, ?_, h.symm⟩
      rw [TotpGenerator.stepAt, stepSeconds_of_fromBase32Seed hgenerator]
      exact Option.some.inj hstep
    · exact ⟨trivial, fun _ t'' _ => hask flow' t''⟩
    · exact ⟨trivial, fun _ h => by cases h⟩

theorem askPair_cleared (remembered : Option String) (hs : Distinct s) (hguard : Guarded flow s) :
    Steps auth Cleared (auth.askPair remembered flow) s := by
  refine ⟨hs, fun r s' hanswer => ?_⟩
  obtain rfl : s' = s.settle := hanswer
  cases r with
  | error error => exact ⟨hs.settle, cleared_error⟩
  | ok answer =>
    cases answer with
    | usernamePassword username password =>
      exact ⟨hs.settle, fun _ _ => ⟨hguard, unsent_settle s⟩⟩
    | challenge response => exact ⟨hs.settle, cleared_error⟩

theorem usernamePassword_cleared (hs : Distinct s) (hguard : Guarded flow s) (hunsent : Unsent s) :
    Steps auth Cleared (auth.usernamePassword flow) s := by
  unfold AuthFlow.usernamePassword
  split
  · refine ⟨hs, fun r s' hanswer => ?_⟩
    obtain rfl : s' = s := hanswer
    dsimp only
    split
    · exact ⟨hs, fun _ _ => ⟨hguard, hunsent⟩⟩
    · exact askPair_cleared _ hs hguard
    · exact ⟨hs, cleared_error⟩
  · exact askPair_cleared _ hs hguard

theorem cleared_then {β : Type} {p : Prog Call Call.Answer (Except AuthError α × FlowState)}
    {f : Except AuthError α × FlowState → Prog Call Call.Answer (Except AuthError β × FlowState)}
    (hp : Steps auth Cleared p s)
    (herror : ∀ error flow', f (.error error, flow') = .ret (.error error, flow'))
    (hok : ∀ a flow' t, Distinct t → Guarded flow' t → Unsent t →
      Steps auth Cleared (f (.ok a, flow')) t) :
    Steps auth Cleared (p >>= f) s := by
  refine Safe.bind (fun r t ht hr => ?_) hp
  obtain ⟨outcome, flow'⟩ := r
  cases outcome with
  | error error =>
    rw [herror]
    exact ⟨ht, cleared_error⟩
  | ok a => exact hok a flow' t ht (hr a rfl).1 (hr a rfl).2

theorem answerNeed_cleared (kind : String) (needsUsername needsPassword : Bool)
    (challenge : Option StaticChallenge) (hs : Distinct s) (hguard : Guarded flow s)
    (hunsent : Unsent s) :
    Steps auth Cleared (auth.answerNeed kind needsUsername needsPassword challenge format flow)
      s := by
  unfold AuthFlow.answerNeed
  split
  · exact ⟨hs, cleared_error⟩
  refine cleared_then (usernamePassword_cleared hs hguard hunsent) (fun _ _ => rfl) ?_
  intro pair flow' t ht hguard' hunsent'
  obtain ⟨username, password⟩ := pair
  cases challenge with
  | none => exact ⟨ht, fun _ _ => ⟨hguard', hunsent'⟩⟩
  | some challenge =>
    refine cleared_then (secondFactor_cleared _ ht hguard') (fun _ _ => rfl) ?_
    exact fun response flow'' t' ht' hguard'' hunsent'' =>
      ⟨ht', fun _ _ => ⟨hguard'', hunsent''⟩⟩

theorem answerDynamicChallenge_cleared (kind : String) (challenge : DynamicChallenge)
    (hs : Distinct s) (hguard : Guarded flow s) :
    Steps auth Cleared (auth.answerDynamicChallenge kind challenge flow) s := by
  unfold AuthFlow.answerDynamicChallenge
  split
  · exact ⟨hs, cleared_error⟩
  refine cleared_then (secondFactor_cleared _ hs hguard) (fun _ _ => rfl) ?_
  intro response flow' t ht hguard' hunsent'
  dsimp only
  split
  · exact ⟨ht, cleared_error⟩
  · exact ⟨ht, fun _ _ => ⟨hguard', hunsent'⟩⟩

theorem answerCrText_cleared (text : String) (hs : Distinct s) (hguard : Guarded flow s) :
    Steps auth Cleared (auth.answerCrText text flow) s := by
  unfold AuthFlow.answerCrText
  refine cleared_then (secondFactor_cleared _ hs hguard) (fun _ _ => rfl) ?_
  exact fun response flow' t ht hguard' hunsent' => ⟨ht, fun _ _ => ⟨hguard', hunsent'⟩⟩

/-! ## §4. Whole attempts, and the process's lifetime. -/

theorem unsent_send (s : Codes) : Unsent s.send := fun _ h => absurd h (by simp [Codes.send])

theorem sendLines_guarded (answer : MgmtAnswer) (lines : List (List Char)) :
    ∀ {s : Codes}, Distinct s → Guarded flow s → Unsent s →
      Steps auth (fun _ t => Guarded flow t ∧ Unsent t) (sendLines answer lines) s := by
  induction lines with
  | nil => intro s hs hguard hunsent; exact ⟨hs, hguard, hunsent⟩
  | cons line rest ih =>
    intro s hs hguard hunsent
    refine ⟨hs, fun r s' hanswer => ?_⟩
    obtain rfl : s' = s.send := hanswer
    have hsent := hs.send hunsent
    cases r with
    | error error => exact ⟨hsent, hguard, unsent_send s⟩
    | ok reply =>
      dsimp only
      split
      · exact ⟨hsent, hguard, unsent_send s⟩
      · exact ih hsent hguard (unsent_send s)

def Continues (r : Except AttemptError FlowState) (s : Codes) : Prop :=
  ∀ flow, r = .ok flow → Guarded flow s ∧ Unsent s

theorem continues_error {error : AttemptError} : Continues (.error error) s := fun _ h => by cases h

theorem deliver_continues {r : Except AuthError MgmtAnswer × FlowState} (hs : Distinct s)
    (hr : Cleared r s) : Steps auth Continues (deliver r) s := by
  obtain ⟨outcome, flow⟩ := r
  cases outcome with
  | error error => exact ⟨hs, continues_error⟩
  | ok answer =>
    obtain ⟨hguard, hunsent⟩ := hr answer rfl
    have hsend : Steps auth (fun _ t => Guarded flow t ∧ Unsent t) (sendAnswer answer) s := by
      unfold sendAnswer
      split
      · exact ⟨hs, hguard, hunsent⟩
      · exact sendLines_guarded answer _ hs hguard hunsent
    unfold deliver
    refine Safe.bind ?_ hsend
    intro outcome t ht hkept
    refine ⟨ht, fun flow' h => ?_⟩
    obtain ⟨_, _, rfl⟩ := ok_of_map h
    exact hkept

theorem handleEvent_continues (event : Event) (hs : Distinct s) (hguard : Guarded flow s)
    (hunsent : Unsent s) : Steps auth Continues (handleEvent auth format flow event) s := by
  have hdeliver : ∀ {p : Prog Call Call.Answer (Except AuthError MgmtAnswer × FlowState)},
      Steps auth Cleared p s → Steps auth Continues (p >>= deliver) s :=
    fun hp => Safe.bind (fun r t ht hr => deliver_continues ht hr) hp
  -- an event that is no prompt is passed over
  have hpassed : Steps auth Continues (.ret (.ok flow)) s := by
    refine ⟨hs, fun flow' h => ?_⟩
    injection h with h
    exact h ▸ ⟨hguard, hunsent⟩
  unfold handleEvent
  split
  · unfold answerPassword
    split
    · exact hdeliver (answerNeed_cleared _ _ _ _ hs hguard hunsent)
    · exact hdeliver (answerDynamicChallenge_cleared _ _ hs hguard)
    · exact ⟨hs, continues_error⟩
    · exact hpassed
    · exact hpassed
  · exact hdeliver (answerCrText_cleared _ hs hguard)
  · exact ⟨hs, continues_error⟩
  · exact hpassed

theorem serve_distinct (n : Nat) : ∀ (flow : FlowState) {s : Codes}, Distinct s → Guarded flow s →
    Steps auth (fun _ _ => True) (serve auth format n flow) s := by
  induction n with
  | zero => intro flow s hs _; exact ⟨hs, trivial⟩
  | succ n ih =>
    intro flow s hs hguard
    refine ⟨hs, fun event s' hanswer => ?_⟩
    obtain rfl : s' = s.settle := hanswer
    refine Safe.bind (fun outcome t ht hnext => ?_)
      (handleEvent_continues event hs.settle hguard (unsent_settle s))
    cases outcome with
    | error error => exact ⟨ht, trivial⟩
    | ok flow' => exact ih flow' ht (hnext flow' rfl).1

end

/-- **No code is sent twice on a clock that moves forward**: over every process lifetime in which
    no reading falls back to a step before the last one and no attempt reads the clock in a step in
    which an attempt before it did. -/
theorem codes_distinct_of_forward (auth : AuthFlow) {s : Codes} (hrun : Lifetime auth Forward s) :
    s.sent.Nodup := by
  have hdistinct : Distinct s := by
    induction hrun with
    | start => exact ⟨List.nodup_nil, fun _ h => absurd h (by simp)⟩
    | attempt before run ih => exact (serve_distinct _ {} ih.attempt rfl).inv_of_reaches run
  exact hdistinct.nodup

/-! ## §5. Clocks that do not move forward. -/

instance (s : Codes) (step : Nat) : Decidable (Forward s step) :=
  inferInstanceAs (Decidable ((∀ last ∈ s.earlier, last < step) ∧ ∀ last ∈ s.shown, last ≤ step))

def codeScript (admitted : Codes → Nat → Prop) [∀ s step, Decidable (admitted s step)]
    (readings : List Nat) (s : Codes) : (c : Call) → c.Answer × Codes
  | .recv _ => (.infoMsg (.crText "one-time code"), s.settle)
  | .loadPassword => (.error .notFound, s)
  | .loadSeed => (.ok sampleSeed, s)
  | .ask _ => (.ok (.challenge "123456"), s.settle)
  | .announce _ => ((), s)
  | .now =>
    let now := readings[s.sent.length]?.getD 0
    if admitted s (now / 30) then (.ok now, s.read (now / 30)) else (.error .clock, s)
  | .send _ _ => (.ok (false, ""), s.send)

theorem codeScript_watched (admitted : Codes → Nat → Prop) [∀ s step, Decidable (admitted s step)]
    (readings : List Nat) (s : Codes) (c : Call) :
    watched 30 admitted s c (codeScript admitted readings s c).1
      (codeScript admitted readings s c).2 := by
  cases c with
  | now =>
    by_cases h : admitted s (readings[s.sent.length]?.getD 0 / 30)
    · simp [codeScript, h, watched]
    · simp [codeScript, h, watched]
  | _ => rfl

/-- Autofill is on. -/
def autofill : AuthFlow where
  profileId := "work"
  totp := { enabled := true }
  library := sampleLibrary
  decode := fun _ => none

def afterAttempt (admitted : Codes → Nat → Prop) [∀ s step, Decidable (admitted s step)]
    (readings : List Nat) (prompts : Nat) (s : Codes) : Codes :=
  (Prog.exec (codeScript admitted readings) (serve autofill .scrv1 prompts {}) s.attempt).2

theorem lifetime_afterAttempt {admitted : Codes → Nat → Prop}
    [∀ s step, Decidable (admitted s step)] (readings : List Nat) (prompts : Nat)
    (h : Lifetime autofill admitted s) :
    Lifetime autofill admitted (afterAttempt admitted readings prompts s) :=
  .attempt h (exec_reaches (codeScript_watched admitted readings) _ _)

/-- Two attempts, a minute apart, with two prompts each. -/
theorem codes_distinct_of_forward_minute :
    let s := afterAttempt Forward [1000, 1030, 1060, 1090] 2
      (afterAttempt Forward [1000, 1030, 1060, 1090] 2 {})
    s.sent = [33, 34, 35, 36] ∧ s.sent.Nodup :=
  ⟨by decide +kernel, codes_distinct_of_forward autofill
    (lifetime_afterAttempt _ _ (lifetime_afterAttempt _ _ .start))⟩

instance (s : Codes) (step : Nat) : Decidable (anyReading s step) := isTrue trivial

/-- **A reconnect sends the code again.**  Two attempts are asked for a code at 1000 and at 1010
    seconds, in one time step of thirty; the second attempt's guard knows nothing of the first. -/
theorem reconnect_repeats_code :
    ∃ s, Lifetime autofill anyReading s ∧ s.sent = [33, 33] ∧ ¬ s.sent.Nodup := by
  refine ⟨afterAttempt anyReading [1000, 1010] 1 (afterAttempt anyReading [1000, 1010] 1 {}),
    lifetime_afterAttempt _ _ (lifetime_afterAttempt _ _ .start), ?_, ?_⟩
  · decide +kernel
  · decide +kernel

theorem clock_back_repeats_code :
    ∃ s, Lifetime autofill anyReading s ∧ s.sent = [33, 34, 33] := by
  refine ⟨afterAttempt anyReading [1000, 1030, 1000] 3 {}, lifetime_afterAttempt _ _ .start, ?_⟩
  decide +kernel

end ThisConnect.Auth
