/-
  ThisConnect.Proxy.Exchange
  **WHAT A SESSION MAKES OF ONE STREAM OF BYTES.**
-/
import ThisConnect.Proxy.Listener

namespace ThisConnect.Proxy

open Net Interaction

/-! ## §1. Smooth networks. -/

def Call.Smooth : (c : Call) → c.Answer → Prop
  | .io _, .ok _ => True
  | .io _, .error _ => False
  | .timed _ _, some (.ok _) => True
  | .timed _ _, some (.error _) => False
  | .timed _ _, none => False
  | .hasCapacity _, r => r = true
  | .recordFailure _, _ => True
  | .dial _, _ => True
  | .dialWithin _ _, _ => True
  | .forward _, _ => True
  | .relay, _ => True

def network (smooth : Bool) : Env Call Call.Answer Conn := fun s c r s' =>
  answers s c r s' ∧ (smooth = true → c.Smooth r)

/-- A smooth network has an answer. -/
def Answerable (smooth : Bool) (s : Conn) (c : Call) : Prop :=
  smooth = true → ∃ r s', network smooth s c r s'

/-- No dial between the two. -/
def Quiet (s t : Conn) : Prop := dialled t.events = dialled s.events

variable {s t u s' : Conn} {smooth : Bool} {α ε : Type} {stream : List UInt8}
  {verdict : Option Target}

theorem Quiet.trans (h : Quiet s t) (h' : Quiet t u) : Quiet s u :=
  Eq.trans h' h

theorem answerable_of_acts {c : Call} {r : c.Answer} (h : acts s c r s') (hsmooth : c.Smooth r) :
    Answerable smooth s c :=
  fun _ => ⟨r, s', ⟨s, ⟨s.limiter, s.now, Nat.le_refl _, rfl⟩, h⟩, fun _ => hsmooth⟩

theorem Breaks.quiet (hwhile : Meanwhile s t) (h : Breaks t s') : Quiet s s' := by
  obtain ⟨limiter, now, -, rfl⟩ := hwhile
  obtain ⟨taken, rest, part, -, rfl⟩ := h
  rfl

/-! ## §2. The conversation judgment. -/

/-- What a conversation came to: a value with `V`, or a failure that on a smooth network means
    `R`. -/
def Outcome {ε α : Type} (smooth : Bool) (V : α → List UInt8 → Prop) (R : Prop) (t : Conn) :
    Except ε α → Prop
  | .ok a => V a t.unread
  | .error _ => smooth = true → R

def Yields {ε α : Type} (smooth : Bool) (p : Session ε α) (stream : List UInt8)
    (V : α → List UInt8 → Prop) (R : Prop) : Prop :=
  ∀ s : Conn, s.unread = stream → Issues (network smooth)
    (fun t c => Quiet s t ∧ Answerable smooth t c)
    (fun outcome t => Quiet s t ∧ Outcome smooth V R t outcome) p.run s

namespace Yields

variable {ε ε' α β : Type} {smooth : Bool} {p : Session ε α} {stream : List UInt8}
variable {V V' : α → List UInt8 → Prop} {R R' : Prop}

theorem pure {a : α} (h : V a stream) : Yields smooth (pure a : Session ε α) stream V R := by
  intro s hs
  refine ⟨rfl, ?_⟩
  show V a s.unread
  rw [hs]
  exact h

theorem throw {e : ε} (h : smooth = true → R) :
    Yields smooth (throw e : Session ε α) stream V R :=
  fun _ _ => ⟨rfl, h⟩

theorem ofExcept (r : Except ε α) (hok : ∀ a, r = .ok a → V a stream)
    (herror : ∀ e, r = .error e → R) : Yields smooth (ExceptT.mk (Pure.pure r)) stream V R := by
  cases r with
  | ok a => exact Yields.pure (hok a rfl)
  | error e => exact fun _ _ => ⟨rfl, fun _ => herror e rfl⟩

theorem bind {f : α → Session ε β} {W : β → List UInt8 → Prop} (hp : Yields smooth p stream V R)
    (hf : ∀ a rest, V a rest → Yields smooth (f a) rest W R) :
    Yields smooth (p >>= f) stream W R := by
  intro s hs
  refine Issues.bindExcept (hp s hs) (fun a s' h => ?_) (fun e s' h => h)
  obtain ⟨hquiet, hV⟩ := h
  exact Issues.permits_mono (fun t c h => ⟨hquiet.trans h.1, h.2⟩)
    (Issues.mono (fun outcome t h => ⟨hquiet.trans h.1, h.2⟩) (hf a s'.unread hV s' rfl))

theorem mono (hp : Yields smooth p stream V R) (hV : ∀ a rest, V a rest → V' a rest)
    (hR : R → R') : Yields smooth p stream V' R' := by
  intro s hs
  refine (hp s hs).mono fun outcome t h => ⟨h.1, ?_⟩
  cases outcome with
  | ok a => exact hV a _ h.2
  | error e => exact fun hsmooth => hR (h.2 hsmooth)

theorem rethrow {handler : ε → Session ε α} (hp : Yields smooth p stream V R)
    (hh : ∀ e rest, Yields smooth (handler e) rest (fun _ _ => False) True) :
    Yields smooth (tryCatch p handler) stream V R := by
  intro s hs
  refine Issues.bind (fun outcome s' h => ?_) (hp s hs)
  obtain ⟨hquiet, houtcome⟩ := h
  cases outcome with
  | ok a => exact ⟨hquiet, houtcome⟩
  | error e =>
    refine Issues.permits_mono (fun t c h => ⟨hquiet.trans h.1, h.2⟩)
      (Issues.mono (fun outcome t h => ⟨hquiet.trans h.1, ?_⟩) (hh e s'.unread s' rfl))
    cases outcome with
    | ok a => exact h.2.elim
    | error e => exact houtcome

variable {wrap : IoError → ε}

theorem client (op : Io) {V : op.Answer → List UInt8 → Prop}
    (hV : ∀ (s : Conn) a s', s.unread = stream → op.Completes s a s' → V a s'.unread)
    (hcan : ∀ s : Conn, s.unread = stream → ∃ a s', op.Completes s a s') :
    Yields smooth (client wrap op) stream V R := by
  intro s hs
  refine ⟨⟨rfl, ?_⟩, fun r s' answered => ?_⟩
  · obtain ⟨a, s', h⟩ := hcan s hs
    exact answerable_of_acts (c := .io op) (r := .ok a) h trivial
  · obtain ⟨⟨t, hwhile, hacts⟩, hsmooth⟩ := answered
    cases r with
    | error e => exact ⟨Breaks.quiet hwhile hacts, fun h => (hsmooth h).elim⟩
    | ok a =>
      have hevents := (Io.Completes.effect hwhile hacts).2
      obtain ⟨limiter, now, -, rfl⟩ := hwhile
      refine ⟨congrArg dialled hevents, ?_⟩
      exact hV { s with limiter := limiter, now := now } a s' hs hacts

theorem readExact (bytes rest : List UInt8) {n : Nat} (hn : n = bytes.length) :
    Yields smooth (Proxy.client wrap (.readExact n)) (bytes ++ rest)
      (fun v left => v.toList = bytes ∧ left = rest) R := by
  subst hn
  refine Yields.client (.readExact bytes.length) (fun s v s' hs h => ?_) (fun s hs => ?_)
  · obtain ⟨left, hleft, rfl⟩ := h
    rw [hs] at hleft
    have hsame := List.append_inj hleft (by simp)
    exact ⟨hsame.1.symm, hsame.2.symm⟩
  · exact ⟨⟨bytes.toArray, by simp⟩, _, rest, by simpa using hs, rfl⟩

theorem send (bytes : List UInt8) :
    Yields smooth (send wrap bytes) stream (fun _ left => left = stream) R := by
  refine (Yields.client (V := fun _ left => left = stream) (.writeAll bytes)
    (fun s _ s' hs h => by rw [h]; exact hs) (fun s _ => ⟨(), _, rfl⟩)).bind fun _ left hleft => ?_
  rw [hleft]
  exact Yields.client .flush (fun s _ s' hs h => by rw [h]; exact hs) (fun s _ => ⟨(), s, rfl⟩)

theorem hasCapacity (peer : IpAddr) :
    Yields smooth (hasCapacity peer : Session ε Bool) stream
      (fun r left => (smooth = true → r = true) ∧ left = stream) R := by
  intro s hs
  refine ⟨⟨rfl, fun _ => ?_⟩, fun r s' answered => ?_⟩
  · -- an empty limiter has room for everybody
    exact ⟨true, _, ⟨_, ⟨[], s.now, Nat.le_refl _, rfl⟩, rfl, rfl⟩, fun _ => rfl⟩
  · obtain ⟨⟨t, ⟨limiter, now, -, rfl⟩, -, rfl⟩, hsmooth⟩ := answered
    refine ⟨?_, hsmooth, hs⟩
    show dialled (s.events ++ _) = dialled s.events
    rw [dialled_append]
    exact List.append_nil _

theorem recordFailure (peer : IpAddr) :
    Yields smooth (recordFailure peer : Session ε Unit) stream (fun _ left => left = stream) R := by
  intro s hs
  refine ⟨⟨rfl, answerable_of_acts (c := .recordFailure peer) (r := ()) rfl trivial⟩,
    fun r s' answered => ?_⟩
  obtain ⟨⟨t, ⟨limiter, now, -, rfl⟩, rfl⟩, -⟩ := answered
  exact ⟨rfl, hs⟩

theorem forward (bytes : List UInt8) :
    Yields smooth (forward wrap bytes) stream (fun _ _ => True) True := by
  intro s hs
  refine ⟨⟨rfl, answerable_of_acts (c := .forward bytes) (r := .ok ()) rfl trivial⟩,
    fun r s' answered => ?_⟩
  obtain ⟨⟨t, ⟨limiter, now, -, rfl⟩, rfl⟩, -⟩ := answered
  cases r with
  | ok a => exact ⟨rfl, trivial⟩
  | error e => exact ⟨rfl, fun _ => trivial⟩

theorem relay :
    Yields smooth (relay wrap) stream (fun _ _ => True) True := by
  intro s hs
  refine ⟨⟨rfl, answerable_of_acts (c := .relay) (r := .ok (0, 0)) (Breaks.refl s) trivial⟩,
    fun r s' answered => ?_⟩
  obtain ⟨⟨t, hwhile, hacts⟩, -⟩ := answered
  cases r with
  | ok a => exact ⟨Breaks.quiet hwhile hacts, trivial⟩
  | error e => exact ⟨Breaks.quiet hwhile hacts, fun _ => trivial⟩

end Yields

/-! ## §3. Deadlines. -/

theorem answerable_timed {op : Io} (limit : Duration) (h : Answerable smooth s (.io op)) :
    Answerable smooth s (.timed limit op) := by
  intro hsmooth
  obtain ⟨r, s', ⟨t, hwhile, hacts⟩, hr⟩ := h hsmooth
  cases r with
  | error e => exact (hr hsmooth).elim
  | ok a => exact ⟨some (.ok a), s', ⟨t, hwhile, hacts⟩, fun _ => trivial⟩

theorem issues_timeout {s₀ : Conn} {Q : α → Conn → Prop} (limit : Duration) (p : Task α) : ∀ {s},
    Issues (network smooth) (fun t c => Quiet s₀ t ∧ Answerable smooth t c) Q p s →
      Issues (network smooth) (fun t c => Quiet s₀ t ∧ Answerable smooth t c)
        (fun r t => (∀ a, r = some a → Q a t) ∧ (r = none → Quiet s₀ t ∧ smooth = false))
        (timeout limit p) s := by
  induction p with
  | ret a =>
    intro s h
    refine ⟨fun b hb => ?_, fun hnone => by cases hnone⟩
    cases hb
    exact h
  | call c k ih =>
    intro s h
    cases c with
    | io op =>
      rw [timeout]
      refine ⟨⟨h.1.1, answerable_timed limit h.1.2⟩, fun r s' answered => ?_⟩
      obtain ⟨⟨t, hwhile, hacts⟩, hsmooth⟩ := answered
      cases r with
      | none =>
        refine ⟨fun a ha => (by cases ha), fun _ => ⟨?_, ?_⟩⟩
        · exact h.1.1.trans (Breaks.quiet hwhile hacts)
        · exact Bool.eq_false_iff.mpr hsmooth
      | some r =>
        refine ih r (h.2 r s' ?_)
        cases r with
        | ok a => exact ⟨⟨t, hwhile, hacts⟩, hsmooth⟩
        | error e => exact ⟨⟨t, hwhile, hacts⟩, hsmooth⟩
    | _ => exact ⟨h.1, fun r s' answered => ih r (h.2 r s' answered)⟩

theorem Yields.deadline {p : Session ε α} {V : α → List UInt8 → Prop} {R : Prop} (limit : Duration)
    (hp : Yields smooth p stream V R) :
    Yields smooth (deadline limit p) stream
      (fun r left => (∀ a, r = some a → V a left) ∧ (r = none → smooth = false)) R := by
  intro s hs
  refine Issues.bind (fun outcome t h => ?_) (issues_timeout limit p.run (hp s hs))
  obtain ⟨hsome, hnone⟩ := h
  cases outcome with
  | none =>
    obtain ⟨hquiet, hrough⟩ := hnone rfl
    exact ⟨hquiet, fun a ha => (by cases ha), fun _ => hrough⟩
  | some outcome =>
    obtain ⟨hquiet, houtcome⟩ := hsome outcome rfl
    refine ⟨hquiet, ?_⟩
    cases outcome with
    | error e => exact houtcome
    | ok a =>
      refine ⟨fun b hb => ?_, fun h => by cases h⟩
      cases hb
      exact houtcome

/-! ## §4. Sessions that dial. -/

def Within (verdict : Option Target) (s t : Conn) : Prop :=
  Quiet s t ∨ dialled t.events = dialled s.events ++ verdict.toList

theorem Quiet.within (h : Quiet s t) (h' : Within verdict t u) : Within verdict s u := by
  rcases h' with h' | h'
  · exact .inl (h.trans h')
  · exact .inr (by rw [h', h])

def Settles {ε α : Type} (smooth : Bool) (p : Session ε α) (stream : List UInt8)
    (verdict : Option Target) : Prop :=
  ∀ s : Conn, s.unread = stream → Issues (network smooth)
    (fun t c => Within verdict s t ∧ Answerable smooth t c)
    (fun outcome t => Within verdict s t ∧
      (smooth = true → dialled t.events = dialled s.events ++ verdict.toList) ∧
      (verdict = none → ∃ e, outcome = .error e)) p.run s

namespace Settles

variable {ε ε' α β : Type} {smooth : Bool} {p : Session ε α} {stream : List UInt8}
variable {verdict : Option Target}

theorem dial (target : Target) :
    Settles smooth (dial target : Session ε (Except DialError Unit)) stream (some target) := by
  intro s hs
  refine ⟨⟨.inl rfl, answerable_of_acts (c := .dial target) (r := .ok ()) rfl trivial⟩,
    fun r s' answered => ?_⟩
  obtain ⟨⟨t, ⟨limiter, now, -, rfl⟩, rfl⟩, -⟩ := answered
  have hdialled : dialled (s.events ++ [Event.dialled target]) = dialled s.events ++ [target] :=
    dialled_append _ _
  exact ⟨.inr hdialled, fun _ => hdialled, fun h => by cases h⟩

theorem dialWithin (limit : Duration) (target : Target) :
    Settles smooth (dialWithin limit target : Session ε (Option (Except DialError Unit))) stream
      (some target) := by
  intro s hs
  refine ⟨⟨.inl rfl,
    answerable_of_acts (c := .dialWithin limit target) (r := some (.ok ())) rfl trivial⟩,
    fun r s' answered => ?_⟩
  obtain ⟨⟨t, ⟨limiter, now, -, rfl⟩, rfl⟩, -⟩ := answered
  have hdialled : dialled (s.events ++ [Event.dialled target]) = dialled s.events ++ [target] :=
    dialled_append _ _
  exact ⟨.inr hdialled, fun _ => hdialled, fun h => by cases h⟩

theorem of_yields (hp : Yields smooth p stream (fun _ _ => False) (verdict = none)) :
    Settles smooth p stream verdict := by
  intro s hs
  refine Issues.permits_mono (fun t c h => ⟨.inl h.1, h.2⟩) (Issues.mono (fun outcome t h => ?_)
    (hp s hs))
  cases outcome with
  | ok a => exact h.2.elim
  | error e =>
    refine ⟨.inl h.1, fun hsmooth => ?_, fun _ => ⟨e, rfl⟩⟩
    rw [h.2 hsmooth, h.1]
    exact (List.append_nil _).symm

variable {f : α → Session ε β}

theorem after {V : α → List UInt8 → Prop} (hp : Yields smooth p stream V (verdict = none))
    (hf : ∀ a rest, V a rest → Settles smooth (f a) rest verdict) :
    Settles smooth (p >>= f) stream verdict := by
  intro s hs
  refine Issues.bindExcept (Issues.permits_mono (fun t c h => ⟨.inl h.1, h.2⟩) (hp s hs))
    (fun a s' h => ?_) (fun e s' h => ?_)
  · obtain ⟨hquiet, hV⟩ := h
    refine Issues.permits_mono (fun t c h => ⟨hquiet.within h.1, h.2⟩)
      (Issues.mono (fun outcome t h => ⟨hquiet.within h.1, fun hsmooth => ?_, h.2.2⟩)
        (hf a s'.unread hV s' rfl))
    rw [h.2.1 hsmooth, hquiet]
  · refine ⟨.inl h.1, fun hsmooth => ?_, fun _ => ⟨e, rfl⟩⟩
    rw [h.2 hsmooth, h.1]
    exact (List.append_nil _).symm

theorem andThen (hp : Settles smooth p stream verdict)
    (hf : ∀ a rest, Yields smooth (f a) rest (fun _ _ => True) True) :
    Settles smooth (p >>= f) stream verdict := by
  intro s hs
  refine Issues.bindExcept (hp s hs) (fun a s' h => ?_) (fun e s' h => ?_)
  · obtain ⟨hwithin, hsmooth, hnone⟩ := h
    have hkept : ∀ t, Quiet s' t → Within verdict s t := fun t ht =>
      hwithin.imp (fun h => h.trans ht) (fun h => Eq.trans ht h)
    refine Issues.permits_mono (fun t c h => ⟨hkept t h.1, h.2⟩)
      (Issues.mono (fun outcome t h =>
        ⟨hkept t h.1, fun h' => Eq.trans h.1 (hsmooth h'), fun h' => ?_⟩) (hf a s'.unread s' rfl))
    -- without a verdict the first part has failed
    obtain ⟨e, he⟩ := hnone h'
    cases he
  · exact ⟨h.1, h.2.1, fun _ => ⟨e, rfl⟩⟩

theorem adapt (f : ε → ε') (hp : Settles smooth p stream verdict) :
    Settles smooth (ExceptT.adapt f p) stream verdict := by
  intro s hs
  refine Issues.bind (fun outcome t h => ?_) (hp s hs)
  refine ⟨h.1, h.2.1, fun hnone => ?_⟩
  obtain ⟨e, rfl⟩ := h.2.2 hnone
  exact ⟨f e, rfl⟩

end Settles

/-! ## §5. Runs. -/

theorem finishes_of_issues {C : Type} {R : C → Type} {S : Type} {env : Env C R S}
    {permits : S → C → Prop} {Q : α → S → Prop}
    (hanswer : ∀ s c, permits s c → ∃ r s', env s c r s') (p : Prog C R α) :
    ∀ {s}, Issues env permits Q p s → ∃ a t, Reaches env p s (.ret a) t := by
  induction p with
  | ret a => intro s _; exact ⟨a, s, .here _ _⟩
  | call c k ih =>
    intro s h
    obtain ⟨r, s', answered⟩ := hanswer s c h.1
    obtain ⟨a, t, hrun⟩ := ih r (h.2 r s' answered)
    exact ⟨a, t, .step answered hrun⟩

/-- **What a session makes of a stream**, as a statement about its runs: whatever the network does
    nothing but the verdict is dialled; where it is smooth the session runs to its end, and has then
    dialled the verdict, or failed if there is none. -/
structure Decides {ε α : Type} (p : Session ε α) (stream : List UInt8) (verdict : Option Target) :
    Prop where
  only : ∀ {s t : Conn} {left}, s.unread = stream → s.events = [] →
    Reaches answers p.run s left t → dialled t.events = [] ∨ dialled t.events = verdict.toList
  ends : ∀ {s : Conn}, s.unread = stream →
    ∃ outcome t, Reaches (network true) p.run s (.ret outcome) t
  dials : ∀ {s t : Conn} {outcome}, s.unread = stream → s.events = [] →
    Reaches (network true) p.run s (.ret outcome) t → dialled t.events = verdict.toList ∧
      (verdict = none → ∃ e, outcome = .error e)

theorem Decides.of_settles {p : Session ε α} (h : ∀ smooth, Settles smooth p stream verdict) :
    Decides p stream verdict where
  only := by
    intro s t left hs hfresh hrun
    have hrun' : Reaches (network false) p.run s left t :=
      hrun.mono fun s c r s' answered => ⟨answered, fun h => by cases h⟩
    have hthere := (h false s hs).of_reaches hrun'
    have hwithin : Within verdict s t := by
      cases left with
      | ret outcome => exact hthere.1
      | call c k => exact hthere.1.1
    rw [Within, Quiet, hfresh] at hwithin
    exact hwithin
  ends := by
    intro s hs
    exact finishes_of_issues (fun t c h => h.2 rfl) p.run (h true s hs)
  dials := by
    intro s t outcome hs hfresh hrun
    obtain ⟨-, hdialled, hnone⟩ := (h true s hs).of_reaches hrun
    have hverdict := hdialled rfl
    rw [hfresh] at hverdict
    exact ⟨hverdict, hnone⟩

end ThisConnect.Proxy
