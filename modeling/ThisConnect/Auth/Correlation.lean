/-
  ThisConnect.Auth.Correlation
  **WHO GETS WHICH ANSWER.**

  Main results:
    • `prompts_correlated` — as long as no more ids are drawn than the counter
      has values, ids are unique, a reply reaches the ask it was meant for and
      no other, at most once, an answer has the shape of its prompt, and a
      reply to a prompt that is not outstanding is reported as unknown.
    • `prompt_id_reused` — the run in which the counter comes round.
-/
import ThisConnect.Auth.Broker

namespace ThisConnect.Auth.Broker

open Transition Places
open Ipc (PromptError PromptReply)

variable {asks : List Ask} {i k j : Nat} {a a' c : Ask} {delivers : List Deliver} {b b' : Book}
variable {config : Config}

/-! ## §1. What holds in every state. -/

def Accepted (d : Deliver) : Prop := d.phase = .done (.ok ())


structure AskOk (issued withdrawn : List String) (delivers : List Deliver) (a : Ask) : Prop where
  known : ∀ id, a.id = some id → id ∈ issued
  uncalled : a.phase = .called → a.id = none ∧ a.sender = .unmade
  untabled : a.phase = .drawn → a.sender = .unmade
  unmade : a.sender = .unmade →
    a.phase = .called ∨ a.phase = .drawn ∨ (a.phase = .dropped ∧ a.id = none)
  withdrawn : ∀ id, a.id = some id → id ∈ withdrawn → a.sender ≠ .unmade ∧ a.sender ≠ .tabled
  sent : ∀ reply, a.slot = some reply ∨ reply ∈ a.got → ∃ (k : Nat) (d : Deliver),
    delivers[k]? = some d ∧ Accepted d ∧ a.sender = .used k ∧ a.id = some d.id ∧ d.reply = reply
  once : a.got.length ≤ 1 ∧ (a.got ≠ [] → a.phase.ended = true)
  shape : ∀ answer, a.phase = .returned (.ok answer) →
    ∃ reply ∈ a.got, Answers a.prompt reply answer

def CallOk (asks : List Ask) (k : Nat) (d : Deliver) : Prop :=
  match d.phase with
  | .holding j => ∃ a : Ask, asks[j]? = some a ∧ a.id = some d.id ∧ a.sender = .taken k
  | .done (.ok ()) => ∃ (j : Nat) (a : Ask),
      asks[j]? = some a ∧ a.id = some d.id ∧ a.sender = .used k
  | .done (.error e) => e = .unknownPrompt

/-- **The books are in order.** -/
structure Sound (b : Book) : Prop where
  sequence : b.sequence = UInt64.ofNat (1 + b.issued.length)
  numbered : b.issued =
    (List.range b.issued.length).map fun n => promptId (UInt64.ofNat (1 + n))
  withdrawn : ∀ id ∈ b.withdrawn, id ∈ b.issued
  unique : ∀ {i j : Nat} {a c : Ask} {id : String}, b.asks[i]? = some a → b.asks[j]? = some c →
    a.id = some id → c.id = some id → i = j
  asks : ∀ {i : Nat} {a : Ask}, b.asks[i]? = some a → AskOk b.issued b.withdrawn b.delivers a
  calls : ∀ {k : Nat} {d : Deliver}, b.delivers[k]? = some d → CallOk b.asks k d

theorem Sound.init : Sound {} where
  sequence := rfl
  numbered := rfl
  withdrawn := fun _ h => by cases h
  unique := fun h => absurd h (by simp)
  asks := fun h => absurd h (by simp)
  calls := fun h => absurd h (by simp)

/-- The channels that belong to the calls `P` are as they were. -/
def Keeps (P : Nat → Prop) (asks asks' : List Ask) : Prop :=
  ∀ {j : Nat} {a : Ask}, asks[j]? = some a → ∃ c : Ask, asks'[j]? = some c ∧
    (a.id ≠ none → c.id = a.id) ∧
      ∀ k, P k → a.sender = .taken k ∨ a.sender = .used k → c.sender = a.sender

variable {P : Nat → Prop} {d : Deliver} {delivers' : List Deliver}
  {issued withdrawn withdrawn' : List String} {p : Phase} {reply : PromptReply} {f : Ask → Ask}
  {s : State}

theorem CallOk.keep {asks asks' : List Ask} {k : Nat} (hk : P k) (hkeeps : Keeps P asks asks')
    (h : CallOk asks k d) : CallOk asks' k d := by
  unfold CallOk at h ⊢
  split at h
  · next j hphase =>
    obtain ⟨a, ha, hid, hsender⟩ := h
    obtain ⟨c, hc, hcid, hcsender⟩ := hkeeps ha
    refine ⟨c, hc, ?_, ?_⟩
    · rw [hcid (by simp [hid]), hid]
    · rw [hcsender k hk (.inl hsender), hsender]
  · obtain ⟨j, a, ha, hid, hsender⟩ := h
    obtain ⟨c, hc, hcid, hcsender⟩ := hkeeps ha
    refine ⟨j, c, hc, ?_, ?_⟩
    · rw [hcid (by simp [hid]), hid]
    · rw [hcsender k hk (.inr hsender), hsender]
  · exact h

theorem keeps_set (ha : asks[i]? = some a) (hid : a.id ≠ none → a'.id = a.id)
    (hsender : ∀ k, P k → a.sender = .taken k ∨ a.sender = .used k → a'.sender = a.sender) :
    Keeps P asks (asks.set i a') := by
  intro j c hc
  by_cases hij : j = i
  · subst hij
    rw [ha] at hc
    injection hc with hc
    subst hc
    exact ⟨a', set_self ha, hid, hsender⟩
  · exact ⟨c, set_other hij hc, fun _ => rfl, fun _ _ _ => rfl⟩

theorem not_held {P : Prop} (h : a.sender = .unmade ∨ a.sender = .tabled)
    (htaken : a.sender = .taken k ∨ a.sender = .used k) : P := by
  rcases h with h | h <;> rcases htaken with hk | hk <;> exact absurd (h.symm.trans hk) (by simp)

theorem AskOk.grow {issued' : List String} (h : AskOk issued withdrawn delivers a)
    (hissued : ∀ id ∈ issued, id ∈ issued')
    (hdelivers : ∀ {k : Nat} {d : Deliver}, delivers[k]? = some d → Accepted d →
      delivers'[k]? = some d) :
    AskOk issued' withdrawn delivers' a :=
  { h with
    known := fun id hid => hissued id (h.known id hid)
    sent := fun reply hreply => by
      obtain ⟨k, d, hd, hdone, hrest⟩ := h.sent reply hreply
      exact ⟨k, d, hdelivers hd hdone, hdone, hrest⟩ }

theorem AskOk.empty (h : AskOk issued withdrawn delivers a) (hunused : ∀ k, a.sender ≠ .used k)
    (reply : PromptReply) :
    ¬ (a.slot = some reply ∨ reply ∈ a.got) := by
  intro hreply
  obtain ⟨k, _, _, _, hsender, _⟩ := h.sent reply hreply
  exact hunused k hsender

theorem AskOk.move (h : AskOk issued withdrawn delivers a) {sender : Sender}
    {slot : Option PromptReply} (hmade : a.sender ≠ .unmade) (hmade' : sender ≠ .unmade)
    (hwithdrawn : ∀ id, a.id = some id → id ∈ withdrawn' → sender ≠ .tabled)
    (hsent : ∀ reply, slot = some reply ∨ reply ∈ a.got → ∃ (k : Nat) (d : Deliver),
      delivers'[k]? = some d ∧ Accepted d ∧ sender = .used k ∧ a.id = some d.id ∧ d.reply = reply) :
    AskOk issued withdrawn' delivers' { a with sender := sender, slot := slot } :=
  { h with
    uncalled := fun hp => absurd (h.uncalled hp).2 hmade
    untabled := fun hp => absurd (h.untabled hp) hmade
    unmade := fun hp => absurd hp hmade'
    withdrawn := fun id hid hmem => ⟨hmade', hwithdrawn id hid hmem⟩
    sent := hsent }

theorem Sound.set (h : Sound b) (ha : b.asks[i]? = some a) (hid : a'.id = a.id)
    (hdelivers : ∀ {k : Nat} {d : Deliver}, b.delivers[k]? = some d → Accepted d →
      delivers[k]? = some d)
    (hask : AskOk b.issued b.withdrawn delivers a')
    (hcalls : ∀ {k : Nat} {d : Deliver}, delivers[k]? = some d → CallOk (b.asks.set i a') k d) :
    Sound { b with asks := b.asks.set i a', delivers := delivers } where
  sequence := h.sequence
  numbered := h.numbered
  withdrawn := h.withdrawn
  unique := by
    intro j k c e id hc he hcid heid
    have hold : ∀ {j : Nat} {c : Ask}, (b.asks.set i a')[j]? = some c → c.id = some id →
        ∃ a : Ask, b.asks[j]? = some a ∧ a.id = some id := by
      intro j c hc hcid
      rcases set_cases hc with ⟨rfl, rfl⟩ | ⟨_, hc⟩
      · exact ⟨a, ha, hid ▸ hcid⟩
      · exact ⟨c, hc, hcid⟩
    obtain ⟨c', hc', hcid'⟩ := hold hc hcid
    obtain ⟨e', he', heid'⟩ := hold he heid
    exact h.unique hc' he' hcid' heid'
  asks := by
    intro j c hc
    rcases set_cases hc with ⟨rfl, rfl⟩ | ⟨_, hc⟩
    · exact hask
    · exact (h.asks hc).grow (fun _ hmem => hmem) hdelivers
  calls := hcalls

theorem Sound.advance (h : Sound b) (ha : b.asks[i]? = some a) (hid : a'.id = a.id)
    (hsender : ∀ k, a.sender = .taken k ∨ a.sender = .used k → a'.sender = a.sender)
    (hask : AskOk b.issued b.withdrawn b.delivers a') : Sound { b with asks := b.asks.set i a' } :=
  h.set ha hid (fun hd _ => hd) hask fun hd =>
    (h.calls hd).keep (P := fun _ => True) trivial
      (keeps_set ha (fun _ => hid) fun k _ => hsender k)

/-! ## §2. The steps of `ask`. -/

theorem Sound.called (h : Sound b) (prompt : CredentialPrompt) (now : Nat) :
    Sound { b with asks := b.asks ++ [{ prompt, calledAt := now }] } where
  sequence := h.sequence
  numbered := h.numbered
  withdrawn := h.withdrawn
  unique := by
    intro j k c e id hc he hcid heid
    rcases append_cases hc with hc | ⟨_, rfl⟩
    · rcases append_cases he with he | ⟨_, rfl⟩
      · exact h.unique hc he hcid heid
      · exact nomatch heid
    · exact nomatch hcid
  asks := by
    intro j c hc
    rcases append_cases hc with hc | ⟨_, rfl⟩
    · exact h.asks hc
    · exact
        { known := fun _ hid => nomatch hid
          uncalled := fun _ => ⟨rfl, rfl⟩
          untabled := fun hp => nomatch hp
          unmade := fun _ => .inl rfl
          withdrawn := fun _ hid => nomatch hid
          sent := fun reply hreply => by
            rcases hreply with hslot | hgot
            · exact nomatch hslot
            · exact nomatch hgot
          once := ⟨Nat.zero_le _, fun hgot => absurd rfl hgot⟩
          shape := fun _ hp => nomatch hp }
  calls := by
    intro k d hd
    refine (h.calls hd).keep (P := fun _ => True) trivial ?_
    exact fun {j a} ha => ⟨a, append_old ha, fun _ => rfl, fun _ _ _ => rfl⟩

theorem AskOk.shift (h : AskOk issued withdrawn delivers a) (hshift : Shift a.phase p) :
    AskOk issued withdrawn delivers { a with phase := p } :=
  { h with
    uncalled := fun hp => absurd hp hshift.started.1
    untabled := fun hp => absurd hp hshift.started.2
    unmade := fun hsender => by
      rcases h.unmade hsender with hcalled | hdrawn | ⟨hdropped, _⟩
      · exact .inr (.inr ⟨hshift.unpolled hcalled, (h.uncalled hcalled).1⟩)
      · exact absurd hdrawn hshift.tabled
      · exact absurd hshift.active (by simp [hdropped, Phase.ended])
    once := ⟨h.once.1, fun hgot => absurd hshift.active (by simp [h.once.2 hgot])⟩
    shape := fun answer hp => absurd hp (hshift.silent answer) }

theorem Sound.shifted (h : Sound b) (ha : b.asks[i]? = some a) (hshift : Shift a.phase p) :
    Sound { b with asks := b.asks.set i { a with phase := p } } :=
  h.advance ha rfl (fun _ _ => rfl) ((h.asks ha).shift hshift)

theorem promptId_injective : Function.Injective promptId := by
  intro m n h
  have hlist := String.ofList_injective h
  have hdigits := List.append_cancel_left hlist
  exact UInt64.toNat_inj.mp (Numeral.toDigits_injective (by decide) (by decide) hdigits)

theorem Sound.fresh (h : Sound b) (hcount : b.issued.length < UInt64.size) :
    promptId b.sequence ∉ b.issued := by
  intro hmem
  rw [h.numbered, h.sequence] at hmem
  obtain ⟨n, hn, heq⟩ := List.mem_map.mp hmem
  have hlt := List.mem_range.mp hn
  have hnat := congrArg UInt64.toNat (promptId_injective heq)
  rw [UInt64.toNat_ofNat', UInt64.toNat_ofNat'] at hnat
  change b.issued.length < 2 ^ 64 at hcount
  omega

theorem Sound.drawn (h : Sound b) (hcount : b.issued.length < UInt64.size)
    (ha : b.asks[i]? = some a) (hcalled : a.phase = .called) :
    Sound { b with
      asks := b.asks.set i { a with id := some (promptId b.sequence), phase := .drawn }
      sequence := b.sequence + 1
      issued := b.issued ++ [promptId b.sequence] } := by
  have hfresh := h.fresh hcount
  have hok := h.asks ha
  obtain ⟨hnone, hunmade⟩ := hok.uncalled hcalled
  have hgrow : ∀ id ∈ b.issued, id ∈ b.issued ++ [promptId b.sequence] :=
    fun _ hmem => List.mem_append_left _ hmem
  constructor
  case sequence =>
    simp only [List.length_append, List.length_singleton, h.sequence]
    rw [← Nat.add_assoc, UInt64.ofNat_add (1 + b.issued.length) 1]
    rfl
  case numbered =>
    simp only [List.length_append, List.length_singleton, List.range_succ, List.map_append,
      List.map_singleton]
    rw [← h.numbered, h.sequence]
  case withdrawn => exact fun id hid => hgrow id (h.withdrawn id hid)
  case unique =>
    intro j k c e id hc he hcid heid
    rcases set_cases hc with ⟨hji, hci⟩ | ⟨_, hc⟩
    · rcases set_cases he with ⟨hki, _⟩ | ⟨_, he⟩
      · rw [hji, hki]
      · rw [hci] at hcid
        injection hcid with hcid
        exact absurd ((h.asks he).known id heid) (hcid ▸ hfresh)
    · rcases set_cases he with ⟨_, hei⟩ | ⟨_, he⟩
      · rw [hei] at heid
        injection heid with heid
        exact absurd ((h.asks hc).known id hcid) (heid ▸ hfresh)
      · exact h.unique hc he hcid heid
  case asks =>
    intro j c hc
    rcases set_cases hc with ⟨_, rfl⟩ | ⟨_, hc⟩
    · exact
        { known := fun id hid => by
            injection hid with hid
            simp [hid]
          uncalled := fun hp => nomatch hp
          untabled := fun _ => hunmade
          unmade := fun _ => .inr (.inl rfl)
          withdrawn := fun id hid hmem => by
            injection hid with hid
            exact absurd (h.withdrawn id hmem) (hid ▸ hfresh)
          sent := fun reply hreply => absurd hreply (hok.empty (by simp [hunmade]) reply)
          once := ⟨hok.once.1,
            fun hgot => absurd (hok.once.2 hgot) (by simp [hcalled, Phase.ended])⟩
          shape := fun _ hp => nomatch hp }
    · exact (h.asks hc).grow hgrow fun hd _ => hd
  case calls =>
    intro k d hd
    refine (h.calls hd).keep (P := fun _ => True) trivial (keeps_set ha ?_ ?_)
    · exact fun hid => absurd hnone hid
    · exact fun l _ htaken => not_held (.inl hunmade) htaken

theorem Sound.map_forget (h : Sound b) {id : String} (ha : b.asks[i]? = some a)
    (hid : a.id = some id) (hout : a.sender ≠ .tabled) : b.asks.map (State.forget id) = b.asks := by
  apply List.ext_getElem?
  intro j
  rw [List.getElem?_map]
  cases hc : b.asks[j]? with
  | none => rfl
  | some c =>
    rw [Option.map_some]
    unfold State.forget
    split
    · next hentry =>
      have hji : j = i := h.unique hc ha hentry.1 hid
      subst hji
      rw [ha] at hc
      injection hc with hc
      exact absurd (hc ▸ hentry.2) hout
    · rfl

theorem Sound.inserted {b : Book} (h : Sound b) {i : Nat} {a : Ask} {id : String}
    (ha : b.asks[i]? = some a) (hid : a.id = some id) (hdrawn : a.phase = .drawn) :
    Sound { b with
      asks := (b.asks.map (State.forget id)).set i
        { a with phase := .sending, sender := .tabled } } := by
  have hok := h.asks ha
  have hunmade := hok.untabled hdrawn
  rw [h.map_forget ha hid (by simp [hunmade])]
  refine h.advance ha rfl (fun k htaken => not_held (.inl hunmade) htaken) ?_
  exact
    { known := hok.known
      uncalled := fun hp => nomatch hp
      untabled := fun hp => nomatch hp
      unmade := fun hp => nomatch hp
      withdrawn := fun id' hid' hmem => absurd hunmade (hok.withdrawn id' hid' hmem).1
      sent := fun reply hreply => absurd hreply (hok.empty (by simp [hunmade]) reply)
      once := ⟨hok.once.1, fun hgot => absurd (hok.once.2 hgot) (by simp [hdrawn, Phase.ended])⟩
      shape := fun _ hp => nomatch hp }

theorem Sound.received (h : Sound b) {since : Nat} (ha : b.asks[i]? = some a)
    (hwaiting : a.phase = .waiting since) (hslot : a.slot = some reply) :
    Sound { b with
      asks := b.asks.set i { a with
        phase := .returned (intoAnswer reply (CredentialPrompt.wantsUsername a.prompt))
        slot := none
        got := a.got ++ [reply] } } := by
  have hok := h.asks ha
  obtain ⟨k, _, _, _, hused, _⟩ := hok.sent reply (.inl hslot)
  have hnone : a.got = [] := by
    by_contra hgot
    exact absurd (hok.once.2 hgot) (by simp [hwaiting, Phase.ended])
  refine h.advance ha rfl (fun _ _ => rfl) ?_
  exact
    { known := hok.known
      uncalled := fun hp => nomatch hp
      untabled := fun hp => nomatch hp
      unmade := fun hp => absurd (hused.symm.trans hp) (by simp)
      withdrawn := hok.withdrawn
      sent := fun reply' hreply => by
        rw [hnone] at hreply
        rcases hreply with hnil | hmem
        · exact nomatch hnil
        · rw [List.nil_append, List.mem_singleton] at hmem
          exact hok.sent reply' (.inl (hmem ▸ hslot))
      once := by
        rw [hnone]
        exact ⟨Nat.le_refl _, fun _ => rfl⟩
      shape := fun answer hp => by
        injection hp with hp
        exact ⟨reply, by simp, answers_of_intoAnswer hp⟩ }

/-! ## §3. Withdrawals. -/


def Forgotten (a c : Ask) : Prop := c = a ∨ (a.sender = .tabled ∧ c = { a with sender := .dropped })

theorem forgotten_forget (id : String) (a : Ask) : Forgotten a (State.forget id a) := by
  unfold State.forget
  split
  · next h => exact .inr ⟨h.2, rfl⟩
  · exact .inl rfl

theorem Forgotten.id (h : Forgotten a c) : c.id = a.id := by
  rcases h with rfl | ⟨_, rfl⟩ <;> rfl

theorem Forgotten.phase (h : Forgotten a c) : c.phase = a.phase := by
  rcases h with rfl | ⟨_, rfl⟩ <;> rfl

theorem AskOk.forgotten {issued withdrawn withdrawn' : List String}
    (h : AskOk issued withdrawn delivers a) (hforgotten : Forgotten a c)
    (hwithdrawn : ∀ id, c.id = some id → id ∈ withdrawn' → c.sender ≠ .unmade ∧
      c.sender ≠ .tabled) :
    AskOk issued withdrawn' delivers c := by
  rcases hforgotten with rfl | ⟨htabled, rfl⟩
  · exact { h with withdrawn := hwithdrawn }
  · exact h.move (by simp [htabled]) (by simp) (fun id hid hmem => (hwithdrawn id hid hmem).2)
      fun reply hreply => absurd hreply (h.empty (by simp [htabled]) reply)

theorem Sound.forgotten (h : Sound b) (hf : ∀ a, Forgotten a (f a))
    (hwithdrawn : ∀ id ∈ withdrawn, id ∈ b.issued ∧ ∀ {i : Nat} {a : Ask}, b.asks[i]? = some a →
      a.id = some id → (f a).sender ≠ .unmade ∧ (f a).sender ≠ .tabled) :
    Sound { b with asks := b.asks.map f, withdrawn := withdrawn } := by
  have hold : ∀ {j : Nat} {c : Ask}, (b.asks.map f)[j]? = some c →
      ∃ a : Ask, b.asks[j]? = some a ∧ c = f a := by
    intro j c hc
    rw [List.getElem?_map] at hc
    obtain ⟨a, ha, rfl⟩ := Option.map_eq_some_iff.mp hc
    exact ⟨a, ha, rfl⟩
  constructor
  case sequence => exact h.sequence
  case numbered => exact h.numbered
  case withdrawn => exact fun id hid => (hwithdrawn id hid).1
  case unique =>
    intro j k c e id hc he hcid heid
    obtain ⟨a, ha, rfl⟩ := hold hc
    obtain ⟨a', ha', rfl⟩ := hold he
    exact h.unique ha ha' ((hf a).id ▸ hcid) ((hf a').id ▸ heid)
  case asks =>
    intro j c hc
    obtain ⟨a, ha, rfl⟩ := hold hc
    exact (h.asks ha).forgotten (hf a) fun id hid hmem =>
      (hwithdrawn id hmem).2 ha ((hf a).id ▸ hid)
  case calls =>
    intro k d hd
    refine (h.calls hd).keep (P := fun _ => True) trivial ?_
    intro j a ha
    refine ⟨f a, by rw [List.getElem?_map, ha]; rfl, fun _ => (hf a).id, ?_⟩
    intro l _ htaken
    rcases hf a with hsame | ⟨htabled, _⟩
    · rw [hsame]
    · exact not_held (.inr htabled) htaken

theorem Sound.removed (h : Sound b) {id : String} (ha : b.asks[i]? = some a) (hid : a.id = some id)
    (hmade : a.sender ≠ .unmade) :
    Sound { b with
      asks := b.asks.map (State.forget id)
      withdrawn := b.withdrawn ++ [id] } := by
  refine h.forgotten (forgotten_forget id) fun id' hid' => ?_
  rcases List.mem_append.mp hid' with hold | hnew
  · refine ⟨h.withdrawn id' hold, fun {j c} hc hcid => ?_⟩
    have hsender := (h.asks hc).withdrawn id' hcid hold
    rcases forgotten_forget id c with hsame | ⟨htabled, _⟩
    · rw [hsame]
      exact hsender
    · exact absurd htabled hsender.2
  · rw [List.mem_singleton] at hnew
    subst hnew
    refine ⟨(h.asks ha).known id' hid, fun {j c} hc hcid => ?_⟩
    have hji : j = i := h.unique hc ha hcid hid
    subst hji
    rw [ha] at hc
    injection hc with hc
    subst hc
    unfold State.forget
    split
    · exact ⟨by simp, by simp⟩
    · next hkept => exact ⟨hmade, fun htabled => hkept ⟨hid, htabled⟩⟩

theorem Sound.withdrew {b : Book} (h : Sound b) {i : Nat} {a : Ask} {id : String}
    (ha : b.asks[i]? = some a) (hid : a.id = some id) (hshift : Shift a.phase p) :
    Sound { b with
      asks := (b.asks.set i { a with phase := p }).map (State.forget id)
      withdrawn := b.withdrawn ++ [id] } := by
  refine (h.shifted ha hshift).removed (set_self ha) hid ?_
  intro hunmade
  rcases (h.asks ha).unmade hunmade with hp | hp | ⟨_, hnone⟩
  · exact absurd (hid.symm.trans ((h.asks ha).uncalled hp).1) (by simp)
  · exact hshift.tabled hp
  · exact absurd (hid.symm.trans hnone) (by simp)

theorem mem_tabledIds {id : String} (h : id ∈ State.tabledIds asks) :
    ∃ (i : Nat) (a : Ask), asks[i]? = some a ∧ a.id = some id ∧ a.sender = .tabled := by
  obtain ⟨a, ha, hid⟩ := List.mem_filterMap.mp h
  obtain ⟨i, hi⟩ := List.mem_iff_getElem?.mp ha
  split at hid
  · next htabled => exact ⟨i, a, hi, hid, htabled⟩
  · exact nomatch hid

theorem Sound.emptied (h : Sound b) :
    Sound { b with
      asks := b.asks.map fun a => if a.sender = .tabled then { a with sender := .dropped } else a
      withdrawn := b.withdrawn ++ State.tabledIds b.asks } := by
  refine h.forgotten (fun a => ?_) fun id hid => ?_
  · split
    · next htabled => exact .inr ⟨htabled, rfl⟩
    · exact .inl rfl
  · have hknown : id ∈ b.issued ∧ ∀ {i : Nat} {a : Ask}, b.asks[i]? = some a → a.id = some id →
        a.sender ≠ .unmade := by
      rcases List.mem_append.mp hid with hold | hnew
      · exact ⟨h.withdrawn id hold, fun ha haid => ((h.asks ha).withdrawn id haid hold).1⟩
      · obtain ⟨j, c, hc, hcid, htabled⟩ := mem_tabledIds hnew
        refine ⟨(h.asks hc).known id hcid, fun {i a} ha haid => ?_⟩
        have hij : i = j := h.unique ha hc haid hcid
        subst hij
        rw [ha] at hc
        injection hc with hc
        rw [hc, htabled]
        simp
    refine ⟨hknown.1, fun {i a} ha haid => ?_⟩
    split
    · exact ⟨by simp, by simp⟩
    · next hout => exact ⟨hknown.2 ha haid, hout⟩

/-! ## §4. Deliveries. -/

theorem Sound.took (h : Sound b) {id : String} (reply : PromptReply) (ha : b.asks[i]? = some a)
    (hid : a.id = some id) (htabled : a.sender = .tabled) :
    Sound { b with
      asks := b.asks.set i { a with sender := .taken b.delivers.length }
      delivers := b.delivers ++ [⟨id, reply, .holding i⟩] } := by
  have hok := h.asks ha
  refine h.set ha rfl (fun hd _ => append_old hd) ?_ ?_
  · exact hok.move (by simp [htabled]) (by simp) (fun _ _ _ => by simp)
      fun reply hreply => absurd hreply (hok.empty (by simp [htabled]) reply)
  · intro k d hd
    rcases append_cases hd with hd | ⟨rfl, rfl⟩
    · refine (h.calls hd).keep (P := fun _ => True) trivial (keeps_set ha ?_ ?_)
      · exact fun _ => rfl
      · exact fun l _ htaken => not_held (.inr htabled) htaken
    · exact ⟨_, set_self ha, hid, rfl⟩

theorem Sound.missed (h : Sound b) (id : String) (reply : PromptReply) :
    Sound { b with
      delivers := b.delivers ++ [⟨id, reply, .done (.error .unknownPrompt)⟩] } :=
  { h with
    asks := fun ha => (h.asks ha).grow (fun _ hmem => hmem) fun hd _ => append_old hd
    calls := fun {k d} hd => by
      rcases append_cases hd with hd | ⟨rfl, rfl⟩
      · exact h.calls hd
      · rfl }

theorem Sound.posted {b : Book} (h : Sound b) {k i : Nat} {a a' : Ask}
    {result : Except PromptError Unit} (hd : b.delivers[k]? = some d)
    (hholding : d.phase = .holding i) (ha : b.asks[i]? = some a)
    (hresult : (result = .ok () ∧ a.phase.listening = true ∧
        a' = { a with sender := .used k, slot := some d.reply }) ∨
      (result = .error .unknownPrompt ∧ a' = { a with sender := .dropped })) :
    Sound { b with
      asks := b.asks.set i a'
      delivers := b.delivers.set k { d with phase := .done result } } := by
  have hok := h.asks ha
  have hcall := h.calls hd
  unfold CallOk at hcall
  rw [hholding] at hcall
  obtain ⟨c, hc, hid, htaken⟩ := hcall
  rw [ha] at hc
  injection hc with hc
  subst hc
  have hempty := hok.empty (by simp [htaken])
  have hother : ∀ {l : Nat} {e : Deliver}, b.delivers[l]? = some e → Accepted e → l ≠ k := by
    rintro l e he hdone rfl
    rw [hd] at he
    injection he with he
    rw [← he, Accepted, hholding] at hdone
    exact nomatch hdone
  have hid' : a'.id = a.id := by rcases hresult with ⟨_, _, rfl⟩ | ⟨_, rfl⟩ <;> rfl
  refine h.set ha hid' (fun he hdone => set_other (hother he hdone) he) ?_ ?_
  · rcases hresult with ⟨rfl, _, rfl⟩ | ⟨rfl, rfl⟩
    · refine hok.move (by simp [htaken]) (by simp) (fun _ _ _ => by simp) fun reply hreply => ?_
      rcases hreply with hslot | hgot
      · injection hslot with hslot
        exact ⟨k, _, set_self hd, rfl, rfl, hid, hslot⟩
      · exact absurd (.inr hgot) (hempty reply)
    · exact hok.move (by simp [htaken]) (by simp) (fun _ _ _ => by simp)
        fun reply hreply => absurd hreply (hempty reply)
  · intro l e he
    rcases set_cases he with ⟨rfl, rfl⟩ | ⟨hlk, he⟩
    · rcases hresult with ⟨rfl, _, rfl⟩ | ⟨rfl, _⟩
      · exact ⟨i, _, set_self ha, hid, rfl⟩
      · rfl
    · refine (h.calls he).keep (P := fun m => m ≠ k) hlk (keeps_set ha (fun _ => hid') ?_)
      intro m hm hsender
      rw [htaken] at hsender
      rcases hsender with hsender | hsender
      · injection hsender with hsender
        exact absurd hsender.symm hm
      · exact nomatch hsender

/-! ## §5. Whole runs. -/

theorem Effect.issued_le (h : Effect b b') : b.issued.length ≤ b'.issued.length := by
  cases h with
  | drawn ha hphase => simp
  | _ => exact Nat.le_refl _

theorem Sound.effect (h : Sound b) (heffect : Effect b b')
    (hcount : b'.issued.length ≤ UInt64.size) :
    Sound b' := by
  cases heffect with
  | same => exact h
  | called prompt now => exact h.called prompt now
  | drawn ha hphase =>
    rw [List.length_append] at hcount
    exact h.drawn hcount ha hphase
  | inserted ha hid hphase => exact h.inserted ha hid hphase
  | received ha hphase hslot => exact h.received ha hphase hslot
  | shifted ha hshift => exact h.shifted ha hshift
  | withdrew ha hid hshift => exact h.withdrew ha hid hshift
  | emptied => exact h.emptied
  | took reply ha hid htabled => exact h.took reply ha hid htabled
  | missed id reply => exact h.missed id reply
  | posted hd hholding ha hresult => exact h.posted hd hholding ha hresult

theorem sound_of_reachable (h : Reachable (step config) Anything {} s) :
    s.issued.length ≤ UInt64.size → Sound s.toBook := by
  refine Reachable.invariant (I := fun s => s.issued.length ≤ UInt64.size → Sound s.toBook)
    (fun _ => Sound.init) (fun s a s' ih _ hstep hcount => ?_) h
  have heffect := step_effect hstep
  exact (ih (Nat.le_trans heffect.issued_le hcount)).effect heffect hcount

theorem Sound.nodup (h : Sound b) (hcount : b.issued.length ≤ UInt64.size) : b.issued.Nodup := by
  rw [h.numbered]
  refine List.Nodup.map_on ?_ List.nodup_range
  intro m hm n hn heq
  have hnat := congrArg UInt64.toNat (promptId_injective heq)
  rw [UInt64.toNat_ofNat', UInt64.toNat_ofNat'] at hnat
  have hm' := List.mem_range.mp hm
  have hn' := List.mem_range.mp hn
  change b.issued.length ≤ 2 ^ 64 at hcount
  omega

/-! ## §6. A reply nobody waits for. -/

def Closed (b : Book) (id : String) : Prop :=
  id ∉ b.issued ∨
  (∃ (k : Nat) (d : Deliver), b.delivers[k]? = some d ∧ d.id = id ∧ Accepted d) ∨
  (∃ (i : Nat) (a : Ask), b.asks[i]? = some a ∧ a.id = some id ∧ a.phase.ended = true) ∨
  id ∈ b.withdrawn

def Refused (k : Nat) (b : Book) : Prop :=
  ∃ d : Deliver, b.delivers[k]? = some d ∧
    (d.phase = .done (.error .unknownPrompt) ∨
      ∃ (j : Nat) (a : Ask), d.phase = .holding j ∧ b.asks[j]? = some a ∧
        a.phase.listening = false)

theorem set_deaf {c' : Ask} (ha : asks[j]? = some a) (hdeaf : a.phase.listening = false)
    (hc : asks[i]? = some c) (hphase : c.phase.listening = false → c'.phase.listening = false) :
    ∃ e : Ask, (asks.set i c')[j]? = some e ∧ e.phase.listening = false := by
  by_cases hji : j = i
  · subst hji
    rw [ha] at hc
    injection hc with hc
    exact ⟨c', set_self ha, hphase (hc ▸ hdeaf)⟩
  · exact ⟨a, set_other hji ha, hdeaf⟩

theorem map_deaf (ha : asks[j]? = some a) (hdeaf : a.phase.listening = false)
    (hf : ∀ a, (f a).phase = a.phase) :
    ∃ e : Ask, (asks.map f)[j]? = some e ∧ e.phase.listening = false := by
  refine ⟨f a, ?_, by rw [hf a]; exact hdeaf⟩
  rw [List.getElem?_map, ha]
  rfl

theorem Effect.deaf (h : Effect b b') (ha : b.asks[j]? = some a)
    (hdeaf : a.phase.listening = false) :
    ∃ e : Ask, b'.asks[j]? = some e ∧ e.phase.listening = false := by
  have hforget : ∀ id a, (State.forget id a).phase = a.phase :=
    fun id a => (forgotten_forget id a).phase
  cases h with
  | same => exact ⟨a, ha, hdeaf⟩
  | called prompt now => exact ⟨a, append_old ha, hdeaf⟩
  | drawn hc hphase =>
    exact set_deaf ha hdeaf hc fun h => absurd h (by simp [hphase, Phase.listening])
  | @inserted i c id hc hid hphase =>
    obtain ⟨e, he, hedeaf⟩ := map_deaf ha hdeaf (hforget id)
    have hc' : (b.asks.map (State.forget id))[i]? = some (State.forget id c) := by
      rw [List.getElem?_map, hc]
      rfl
    refine set_deaf he hedeaf hc' fun h => ?_
    rw [hforget, hphase] at h
    exact nomatch h
  | received hc hphase hslot =>
    exact set_deaf ha hdeaf hc fun h => absurd h (by simp [hphase, Phase.listening])
  | shifted hc hshift => exact set_deaf ha hdeaf hc hshift.deaf
  | @withdrew i c id p hc hid hshift =>
    have hset : ∃ e : Ask, (b.asks.set i { c with phase := p })[j]? = some e ∧
        e.phase.listening = false := set_deaf ha hdeaf hc hshift.deaf
    obtain ⟨e, he, hedeaf⟩ := hset
    exact map_deaf he hedeaf (hforget id)
  | emptied => exact map_deaf ha hdeaf fun a => by split <;> rfl
  | took reply hc hid htabled => exact set_deaf ha hdeaf hc fun h => h
  | missed id reply => exact ⟨a, ha, hdeaf⟩
  | posted hd hholding hc hresult =>
    refine set_deaf ha hdeaf hc fun h => ?_
    rcases hresult with ⟨_, _, rfl⟩ | ⟨_, rfl⟩ <;> exact h

theorem Refused.effect (h : Refused k b) (heffect : Effect b b') : Refused k b' := by
  obtain ⟨d, hd, hstate⟩ := h
  -- the call itself is untouched by every effect but its own `post`
  have hsame : b'.delivers[k]? = some d → Refused k b' := by
    intro hd'
    refine ⟨d, hd', ?_⟩
    rcases hstate with hdone | ⟨j, a, hholding, ha, hdeaf⟩
    · exact .inl hdone
    · obtain ⟨e, he, hedeaf⟩ := heffect.deaf ha hdeaf
      exact .inr ⟨j, e, hholding, he, hedeaf⟩
  cases heffect with
  | took reply ha hid htabled => exact hsame (append_old hd)
  | missed id reply => exact hsame (append_old hd)
  | @posted l i e a a' result he hholding ha hresult =>
    by_cases hkl : k = l
    · subst hkl
      rw [hd] at he
      injection he with he
      subst he
      rcases hstate with hdone | ⟨j, c, hheld, hc, hdeaf⟩
      · exact absurd (hholding.symm.trans hdone) (by simp)
      · rw [hholding] at hheld
        injection hheld with hheld
        subst hheld
        rw [ha] at hc
        injection hc with hc
        subst hc
        rcases hresult with ⟨_, hlistening, _⟩ | ⟨rfl, rfl⟩
        · rw [hdeaf] at hlistening
          exact nomatch hlistening
        · exact ⟨_, set_self hd, .inl rfl⟩
    · exact hsame (set_other hkl hd)
  | _ => exact hsame hd

theorem Sound.refuses {s' : State} {id : String} (h : Sound s.toBook) (hclosed : Closed s.toBook id)
    (hstep : step config s (.deliver id reply) = some s') :
    Refused s.delivers.length s'.toBook := by
  simp only [step] at hstep
  split at hstep
  · next i hlookup =>
    obtain ⟨a, ha, hid, htabled⟩ := lookup_some hlookup
    injection hstep with hstep
    subst hstep
    have hok := h.asks ha
    rcases hclosed with hnever | ⟨k, d, hd, hdid, hdone⟩ | ⟨j, c, hc, hcid, hended⟩ | hwithdrawn
    · exact absurd (hok.known id hid) hnever
    · -- answered: that ask's sender is used
      have hcall := h.calls hd
      unfold CallOk at hcall
      rw [hdone] at hcall
      obtain ⟨j, c, hc, hcid, hused⟩ := hcall
      have hij : i = j := h.unique ha hc hid (hdid ▸ hcid)
      subst hij
      rw [ha] at hc
      injection hc with hc
      subst hc
      exact absurd (htabled.symm.trans hused) (by simp)
    · -- ended: the entry is there, but nobody listens
      have hij : i = j := h.unique ha hc hid hcid
      subst hij
      rw [ha] at hc
      injection hc with hc
      subst hc
      refine ⟨_, List.getElem?_concat_length,
        .inr ⟨i, { a with sender := .taken s.delivers.length }, rfl, ?_, ?_⟩⟩
      · rw [modify_eq_set ha]
        exact set_self ha
      · exact Phase.not_listening_of_ended hended
    · exact absurd htabled (hok.withdrawn id hid hwithdrawn).2
  · injection hstep with hstep
    subst hstep
    exact ⟨_, List.getElem?_concat_length, .inl rfl⟩

/-! ## §7. Prompts and answers. -/

/-- **Answers reach only the question asked.** -/
structure Correlated (config : Config) (s : State) : Prop where
  fresh : s.issued.Nodup
  unique : ∀ {i j : Nat} {a c : Ask} {id : String}, s.asks[i]? = some a → s.asks[j]? = some c →
    a.id = some id → c.id = some id → i = j
  once : ∀ {i : Nat} {a : Ask}, s.asks[i]? = some a → a.got.length ≤ 1
  own : ∀ {i : Nat} {a : Ask} {reply : PromptReply}, s.asks[i]? = some a → reply ∈ a.got →
    ∃ (k : Nat) (d : Deliver),
      s.delivers[k]? = some d ∧ Accepted d ∧ a.id = some d.id ∧ d.reply = reply
  shape : ∀ {i : Nat} {a : Ask} {answer : PromptAnswer}, s.asks[i]? = some a →
    a.phase = .returned (.ok answer) → ∃ reply ∈ a.got, Answers a.prompt reply answer
  refused : ∀ {id : String} {reply : PromptReply} {s' t : State}, Closed s.toBook id →
    step config s (.deliver id reply) = some s' → Reachable (step config) Anything s' t →
      ∃ d : Deliver, t.delivers[s.delivers.length]? = some d ∧
        (∀ result, d.phase = .done result → result = .error .unknownPrompt) ∧
        ∀ j, d.phase = .holding j → ∃ t', step config t (.post s.delivers.length) = some t'

theorem refused_of_reachable {t : State} (h : Refused k s.toBook)
    (ht : Reachable (step config) Anything s t) : Refused k t.toBook :=
  Reachable.invariant (I := fun t => Refused k t.toBook) h
    (fun _ _ _ ih _ hstep => ih.effect (step_effect hstep)) ht

/-- **In every interleaving**, as long as no more ids are drawn than the counter has values. -/
theorem prompts_correlated (config : Config) (s : State)
    (hs : Reachable (step config) Anything {} s) (hcount : s.issued.length ≤ UInt64.size) :
    Correlated config s := by
  have h := sound_of_reachable hs hcount
  constructor
  case fresh => exact h.nodup hcount
  case unique => exact h.unique
  case once => exact fun ha => (h.asks ha).once.1
  case own =>
    intro i a reply ha hreply
    obtain ⟨k, d, hd, hdone, _, hid, hreply⟩ := (h.asks ha).sent reply (.inr hreply)
    exact ⟨k, d, hd, hdone, hid, hreply⟩
  case shape => exact fun ha hphase => (h.asks ha).shape _ hphase
  case refused =>
    intro id reply s' t hclosed hstep ht
    obtain ⟨d, hd, hstate⟩ := refused_of_reachable (h.refuses hclosed hstep) ht
    refine ⟨d, hd, fun result hresult => ?_, fun j hj => ?_⟩
    · rcases hstate with hdone | ⟨j, _, hholding, _⟩
      · rw [hdone] at hresult
        injection hresult with hresult
        exact hresult.symm
      · exact absurd (hholding.symm.trans hresult) (by simp)
    · rcases hstate with hdone | ⟨i, a, hholding, ha, _⟩
      · exact absurd (hdone.symm.trans hj) (by simp)
      · simp only [step, hd, Option.bind_some, hholding, ha, Option.map_some]
        exact ⟨_, rfl⟩

/-- A prompt for an account, answered. -/
def answeredRun : List Action :=
  [.call (.usernamePassword "p1" none), .move 0 .draw, .move 0 .insert, .move 0 .send,
    .deliver "prompt-1" (.usernamePassword "alice" "secret"), .post 0, .move 0 .receive]

theorem prompts_correlated_answered :
    ∃ s, Reachable (step ⟨120, 256⟩) Anything {} s ∧ s.issued.length ≤ UInt64.size ∧
      s.asks.map Ask.got = [[.usernamePassword "alice" "secret"]] ∧ Correlated ⟨120, 256⟩ s := by
  have hrun : (replay (step ⟨120, 256⟩) Anything {} answeredRun).any (fun s =>
      decide (s.issued.length = 1 ∧
        s.asks.map Ask.got = [[.usernamePassword "alice" "secret"]])) = true := by
    decide +kernel
  obtain ⟨s, hs, hcount, hgot⟩ := reachable_of_replay answeredRun hrun
  have hle : s.issued.length ≤ UInt64.size := by rw [hcount]; decide
  exact ⟨s, hs, hle, hgot, prompts_correlated _ s hs hle⟩

/-! ## §8. When the counter comes round. -/

def roundId (n : Nat) : String := promptId (UInt64.ofNat (1 + n))

def roundAsk (n : Nat) : Ask :=
  { prompt := .usernamePassword "p1" none, calledAt := 0, id := some (roundId n), phase := .drawn }

def rounds (n : Nat) : State :=
  { sequence := UInt64.ofNat (1 + n)
    asks := (List.range n).map roundAsk
    issued := (List.range n).map roundId }

theorem reachable_rounds (config : Config) (n : Nat) :
    Reachable (step config) Anything {} (rounds n) := by
  induction n with
  | zero => exact .init
  | succ n ih =>
    let called : State := { rounds n with
      asks := (rounds n).asks ++ [{ prompt := .usernamePassword "p1" none, calledAt := 0 }] }
    have hcalled : Reachable (step config) Anything {} called :=
      .step ih trivial (a := .call (.usernamePassword "p1" none)) rfl
    refine .step hcalled trivial (a := .move n .draw) ?_
    have hlen : ((List.range n).map roundAsk).length = n := by simp
    have hget : called.asks[n]? =
        some { prompt := .usernamePassword "p1" none, calledAt := 0 } := by
      show ((List.range n).map roundAsk ++ [_])[n]? = _
      rw [List.getElem?_append_right (Nat.le_of_eq hlen), hlen, Nat.sub_self]
      rfl
    have hset : called.asks.set n (roundAsk n) = (rounds (n + 1)).asks := by
      show ((List.range n).map roundAsk ++ [_]).set n _ = (List.range (n + 1)).map roundAsk
      rw [List.set_append_right _ _ (Nat.le_of_eq hlen), hlen, Nat.sub_self, List.range_succ,
        List.map_append]
      rfl
    have hissued : (rounds n).issued ++ [roundId n] = (rounds (n + 1)).issued := by
      show (List.range n).map roundId ++ [_] = (List.range (n + 1)).map roundId
      rw [List.range_succ, List.map_append]
      rfl
    have hsequence : UInt64.ofNat (1 + n) + 1 = (rounds (n + 1)).sequence := by
      show _ = UInt64.ofNat (1 + (n + 1))
      rw [← Nat.add_assoc, UInt64.ofNat_add (1 + n) 1]
      rfl
    simp only [step, hget, Option.bind_some]
    show some { called.setAsk n (roundAsk n) with
      sequence := UInt64.ofNat (1 + n) + 1
      issued := (rounds n).issued ++ [roundId n] } = some (rounds (n + 1))
    rw [hsequence, hissued, State.setAsk, hset]
    rfl

/-- **The first id is drawn again** once the counter has come round. -/
theorem prompt_id_reused :
    ∃ (s : State) (a c : Ask), Reachable (step ⟨120, 256⟩) Anything {} s ∧
      s.asks[0]? = some a ∧ s.asks[UInt64.size]? = some c ∧
      a.id = some (promptId 1) ∧ c.id = some (promptId 1) := by
  have hget : ∀ n k, k < n → (rounds n).asks[k]? = some (roundAsk k) := by
    intro n k hk
    show ((List.range n).map roundAsk)[k]? = _
    rw [List.getElem?_map, List.getElem?_range hk]
    rfl
  have hround : roundId UInt64.size = promptId 1 := by
    have hzero : UInt64.ofNat (1 + UInt64.size) = 1 := by
      apply UInt64.toNat_inj.mp
      rw [UInt64.toNat_ofNat']
      decide
    rw [roundId, hzero]
  have hfirst := hget (UInt64.size + 1) 0 (Nat.succ_pos _)
  have hlast := hget (UInt64.size + 1) UInt64.size (Nat.lt_succ_self _)
  exact ⟨_, _, _, reachable_rounds _ (UInt64.size + 1), hfirst, hlast, rfl, congrArg some hround⟩

end ThisConnect.Auth.Broker
