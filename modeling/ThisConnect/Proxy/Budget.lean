/-
  ThisConnect.Proxy.Budget
  **HOW MANY PASSWORDS A PEER MAY GUESS.**

  Main results:
    • `conserves_readings` — the readings of a peer that is never forgotten,
    • `guessesWithin_flood` — one peer too many, and six guesses are made at once,
    • `guesses_bounded_iff` — the budget is kept exactly if no more peers than
      the limiter can track ever try.
-/
import Mathlib.Data.Finset.Card
import Mathlib.Data.Real.Basic
import ThisConnect.Base.TokenBucket
import ThisConnect.Proxy.Socks5

namespace ThisConnect.Proxy

open Net TokenBucket

/-! ## §1. Levels. -/

namespace AuthRateLimiter

def tokensAt (buckets : AuthRateLimiter) (peer : IpAddr) (now : Instant) : ℚ :=
  match get buckets peer with
  | some bucket => (bucket.refilled now).tokens
  | none => authFailureBurst

/-- The peers that are tracked. -/
def tracked (buckets : AuthRateLimiter) : List IpAddr := buckets.map Prod.fst

def HasRoom (buckets : AuthRateLimiter) (peer : IpAddr) : Prop :=
  (get buckets peer).isSome = true ∨ buckets.length < maxTrackedPeers

section Levels

variable (buckets : AuthRateLimiter) (peer : IpAddr) (now : Instant)

theorem tokensAt_le_burst : tokensAt buckets peer now ≤ authFailureBurst := by
  unfold tokensAt
  split
  · exact min_le_right _ _
  · exact le_refl _

theorem hasCapacityAt_iff :
    hasCapacityAt buckets peer now = true ↔ 1 ≤ tokensAt buckets peer now := by
  unfold hasCapacityAt tokensAt
  cases get buckets peer with
  | some bucket => simp
  | none => simp [authFailureBurst]

theorem tokensAt_later {later : Instant} (h : now ≤ later) :
    tokensAt buckets peer later ≤ tokensAt buckets peer now +
      authFailureBurst / authFailureWindowSecs * (later / 1000000000 - now / 1000000000) := by
  have hspan : (0 : ℚ) ≤ (later : ℚ) / 1000000000 - now / 1000000000 := by
    have hcast : (now : ℚ) ≤ later := by exact_mod_cast h
    linarith
  unfold tokensAt
  split
  · next bucket hget =>
    have helapsed : ((later - bucket.updated : Nat) : ℚ) ≤
        ((now - bucket.updated : Nat) : ℚ) + ((later : ℚ) - now) := by
      have hnat : ∀ t u v : Nat, v ≤ t → t - u ≤ (v - u) + (t - v) := by omega
      have hcast : ((later - bucket.updated : Nat) : ℚ) ≤
          ((now - bucket.updated : Nat) : ℚ) + ((later - now : Nat) : ℚ) := by
        exact_mod_cast hnat later bucket.updated now h
      rwa [Nat.cast_sub h] at hcast
    simp only [Bucket.refilled, authFailureBurst, authFailureWindowSecs]
    rcases min_cases (bucket.tokens + ((now - bucket.updated : Nat) : ℚ) / 1000000000 * (5 / 60))
      5 with ⟨hmin, -⟩ | ⟨hmin, -⟩
    · rw [hmin]
      refine (min_le_left _ _).trans ?_
      linarith
    · rw [hmin]
      refine (min_le_right _ _).trans ?_
      linarith
  · unfold authFailureBurst authFailureWindowSecs
    linarith

theorem consumed_refilled (bucket : Bucket) (hfull : bucket.tokens ≤ authFailureBurst)
    (hnow : bucket.updated = now) :
    (bucket.consumed.refilled now).tokens = max (bucket.tokens - 1) 0 := by
  have hle : max (bucket.tokens - 1) 0 ≤ authFailureBurst :=
    max_le (by linarith) (by unfold authFailureBurst; norm_num)
  simp only [Bucket.refilled, Bucket.consumed, hnow, Nat.sub_self, Nat.cast_zero, zero_div,
    zero_mul, add_zero]
  exact min_eq_left hle

theorem tokensAt_recordFailureAt :
    tokensAt (recordFailureAt buckets peer now) peer now =
      max (tokensAt buckets peer now - 1) 0 := by
  have hself : get (recordFailureAt buckets peer now) peer =
      some (((get buckets peer).map (·.refilled now)).getD (Bucket.full now)).consumed := by
    simp [recordFailureAt, get]
  unfold tokensAt
  rw [hself]
  cases hget : get buckets peer with
  | none => exact consumed_refilled now (Bucket.full now) (le_refl _) rfl
  | some bucket => exact consumed_refilled now (bucket.refilled now) (min_le_right _ _) rfl

end Levels

/-! ## §2. Who is tracked. -/

variable {other peer : IpAddr} {buckets : AuthRateLimiter} {now : Instant} {peers : Finset IpAddr}

theorem get_remove (buckets : AuthRateLimiter) (h : other ≠ peer) :
    get (remove buckets peer) other = get buckets other := by
  induction buckets with
  | nil => rfl
  | cons entry buckets ih =>
    unfold get remove at ih ⊢
    by_cases hentry : entry.1 = peer
    · rw [List.filter_cons_of_neg (by simp [hentry]), ih]
      have hne : (other == entry.1) = false := by simp [hentry, h]
      rw [List.lookup_cons, hne]
    · rw [List.filter_cons_of_pos (by simp [hentry]), List.lookup_cons, List.lookup_cons, ih]

theorem get_isSome_iff (buckets : AuthRateLimiter) (peer : IpAddr) :
    (get buckets peer).isSome = true ↔ peer ∈ tracked buckets := by
  unfold get tracked
  rw [List.lookup_isSome_iff, List.mem_map]
  constructor
  · rintro ⟨entry, hmem, hentry⟩
    exact ⟨entry, hmem, (eq_of_beq hentry).symm⟩
  · rintro ⟨entry, hmem, rfl⟩
    exact ⟨entry, hmem, beq_self_eq_true _⟩

theorem recordFailureAt_of_room (h : HasRoom buckets peer) : ∃ next : Bucket, 0 ≤ next.tokens ∧
      recordFailureAt buckets peer now = (peer, next) :: remove buckets peer := by
  have hkept : ¬ (maxTrackedPeers ≤ buckets.length ∧ (get buckets peer).isNone = true) := by
    rintro ⟨hfull, hnone⟩
    rcases h with hsome | hless
    · rw [Option.isNone_iff_eq_none.mp hnone] at hsome
      cases hsome
    · omega
  unfold recordFailureAt
  dsimp only
  rw [if_neg hkept]
  exact ⟨_, le_max_right _ _, rfl⟩

theorem tokensAt_recordFailureAt_other (h : HasRoom buckets peer) (hother : other ≠ peer)
    (later : Instant) :
    tokensAt (recordFailureAt buckets peer now) other later = tokensAt buckets other later := by
  obtain ⟨next, -, hrecord⟩ := recordFailureAt_of_room h
  have hne : (other == peer) = false := by simpa using hother
  have hget : get (recordFailureAt buckets peer now) other = get buckets other := by
    rw [hrecord, get, List.lookup_cons, hne]
    exact get_remove buckets hother
  unfold tokensAt
  rw [hget]

theorem tracked_remove (buckets : AuthRateLimiter) (peer : IpAddr) :
    tracked (remove buckets peer) = (tracked buckets).filter (· ≠ peer) := by
  unfold tracked remove
  rw [List.filter_map]
  rfl

theorem tracked_recordFailureAt (h : HasRoom buckets peer) :
    tracked (recordFailureAt buckets peer now) =
      peer :: (tracked buckets).filter (· ≠ peer) := by
  obtain ⟨next, -, hrecord⟩ := recordFailureAt_of_room h
  rw [hrecord, ← tracked_remove]
  rfl

/-- Every peer is tracked once, and only peers that exist are; no bucket is below zero. -/
structure Tidy (peers : Finset IpAddr) (buckets : AuthRateLimiter) : Prop where
  nodup : (tracked buckets).Nodup
  known : ∀ peer ∈ tracked buckets, peer ∈ peers
  nonneg : ∀ entry ∈ buckets, 0 ≤ entry.2.tokens

theorem Tidy.nil (peers : Finset IpAddr) : Tidy peers [] where
  nodup := List.nodup_nil
  known := fun _ h => by cases h
  nonneg := fun _ h => by cases h

theorem Tidy.tokensAt_nonneg (h : Tidy peers buckets) (peer : IpAddr) (now : Instant) :
    0 ≤ tokensAt buckets peer now := by
  unfold tokensAt
  split
  · next bucket hget =>
    obtain ⟨before, after, rfl, -⟩ := List.lookup_eq_some_iff.mp hget
    have htokens : 0 ≤ bucket.tokens := h.nonneg (peer, bucket) (by simp)
    simp only [Bucket.refilled, authFailureBurst, authFailureWindowSecs]
    exact le_min (by positivity) (by norm_num)
  · unfold authFailureBurst
    norm_num

theorem Tidy.hasRoom (h : Tidy peers buckets) (hcard : peers.card ≤ maxTrackedPeers)
    (hpeer : peer ∈ peers) :
    HasRoom buckets peer := by
  by_cases htracked : peer ∈ tracked buckets
  · exact .inl ((get_isSome_iff buckets peer).mpr htracked)
  · refine .inr ?_
    -- the tracked peers are among the others
    have hsub : (tracked buckets).toFinset ⊆ peers.erase peer := fun other hother => by
      have hmem := List.mem_toFinset.mp hother
      exact Finset.mem_erase.mpr ⟨fun hsame => htracked (hsame ▸ hmem), h.known other hmem⟩
    have hle := Finset.card_le_card hsub
    rw [List.toFinset_card_of_nodup h.nodup, Finset.card_erase_of_mem hpeer] at hle
    have hpos := Finset.card_pos.mpr ⟨peer, hpeer⟩
    have hlength : (tracked buckets).length = buckets.length := List.length_map _
    omega

theorem Tidy.recordFailureAt (h : Tidy peers buckets) (hpeer : peer ∈ peers)
    (hroom : HasRoom buckets peer) (now : Instant) :
    Tidy peers (recordFailureAt buckets peer now) where
  nodup := by
    rw [tracked_recordFailureAt hroom]
    exact List.nodup_cons.mpr ⟨by simp, h.nodup.filter _⟩
  known := by
    rw [tracked_recordFailureAt hroom]
    intro other hother
    rcases List.mem_cons.mp hother with rfl | hother
    · exact hpeer
    · exact h.known other (List.mem_filter.mp hother).1
  nonneg := by
    obtain ⟨next, hnext, hrecord⟩ := recordFailureAt_of_room hroom
    rw [hrecord]
    intro entry hentry
    rcases List.mem_cons.mp hentry with rfl | hentry
    · exact hnext
    · exact h.nonneg entry (List.mem_filter.mp hentry).1

/-! ## §3. Who is forgotten. -/

theorem foldl_mostRefilled (now : Instant) (buckets : AuthRateLimiter) :
    ∀ best : IpAddr × Bucket, ∃ found ∈ best :: buckets,
    buckets.foldl (fun (best : Option (IpAddr × Bucket)) entry =>
      match best with
      | none => some entry
      | some b =>
        if (b.2.refilled now).tokens ≤ (entry.2.refilled now).tokens then some entry else some b)
      (some best) = some found ∧
    ∀ entry ∈ best :: buckets, (entry.2.refilled now).tokens ≤ (found.2.refilled now).tokens := by
  induction buckets with
  | nil => exact fun best => ⟨best, by simp, rfl, by simp⟩
  | cons head buckets ih =>
    intro best
    rw [List.foldl_cons]
    dsimp only
    split
    · next hbetter =>
      obtain ⟨found, hmem, hfold, hmost⟩ := ih head
      refine ⟨found, List.mem_cons_of_mem best hmem, hfold, fun entry hentry => ?_⟩
      rcases List.mem_cons.mp hentry with rfl | hentry
      · exact hbetter.trans (hmost head (by simp))
      · exact hmost entry hentry
    · next hworse =>
      obtain ⟨found, hmem, hfold, hmost⟩ := ih best
      refine ⟨found, ?_, hfold, fun entry hentry => ?_⟩
      · rcases List.mem_cons.mp hmem with rfl | hmem <;> simp [*]
      · rcases List.mem_cons.mp hentry with rfl | hentry
        · exact hmost entry (by simp)
        · rcases List.mem_cons.mp hentry with rfl | hentry
          · exact (le_of_not_ge hworse).trans (hmost best (by simp))
          · exact hmost entry (by simp [hentry])

theorem mostRefilled_spec (now : Instant) (h : buckets ≠ []) :
    ∃ found ∈ buckets, mostRefilled buckets now = some found.1 ∧
      ∀ entry ∈ buckets, (entry.2.refilled now).tokens ≤ (found.2.refilled now).tokens := by
  cases buckets with
  | nil => exact absurd rfl h
  | cons head buckets =>
    obtain ⟨found, hmem, hfold, hmost⟩ := foldl_mostRefilled now buckets head
    refine ⟨found, hmem, ?_, hmost⟩
    exact congrArg (Option.map Prod.fst) hfold

theorem tokensAt_of_mem (hnodup : (tracked buckets).Nodup) {entry : IpAddr × Bucket}
    (h : entry ∈ buckets) (now : Instant) :
    tokensAt buckets entry.1 now = (entry.2.refilled now).tokens := by
  have hget : get buckets entry.1 = some entry.2 := by
    induction buckets with
    | nil => cases h
    | cons head buckets ih =>
      obtain ⟨hfresh, hrest⟩ := List.nodup_cons.mp hnodup
      rcases List.mem_cons.mp h with rfl | h
      · exact List.lookup_cons_self
      · have hne : (entry.1 == head.1) = false := by
          refine beq_false_of_ne fun hsame => hfresh ?_
          exact List.mem_map.mpr ⟨entry, h, hsame⟩
        rw [get, List.lookup_cons, hne]
        exact ih hrest h
  unfold tokensAt
  rw [hget]

theorem get_remove_self (buckets : AuthRateLimiter) (peer : IpAddr) :
    get (remove buckets peer) peer = none := by
  rw [← Option.not_isSome_iff_eq_none, get_isSome_iff, tracked_remove]
  simp

theorem evict_of_short (h : buckets.length < maxTrackedPeers) (fuel : Nat) :
    evict now fuel buckets = buckets := by
  cases fuel with
  | zero => rfl
  | succ fuel => rw [evict, if_neg (by omega)]

theorem get_recordFailureAt_evicted {victim : IpAddr} (hfull : buckets.length = maxTrackedPeers)
    (hnodup : (tracked buckets).Nodup)
    (hspent : ∀ x ∈ tracked buckets, tokensAt buckets x now < authFailureBurst)
    (hpeer : peer ∉ tracked buckets) (hvictim : victim ∈ tracked buckets)
    (hmost : ∀ x ∈ tracked buckets, x ≠ victim →
      tokensAt buckets x now < tokensAt buckets victim now) :
    get (recordFailureAt buckets peer now) victim = none := by
  have hnone : (get buckets peer).isNone = true := by
    rw [← Option.not_isSome, Bool.not_eq_true', ← Bool.not_eq_true, get_isSome_iff]
    exact hpeer
  have hdrained : (buckets.filter fun entry =>
      decide ((entry.2.refilled now).tokens < authFailureBurst)) = buckets := by
    refine List.filter_eq_self.mpr fun entry hentry => ?_
    rw [← tokensAt_of_mem hnodup hentry now]
    exact decide_eq_true (hspent entry.1 (List.mem_map_of_mem hentry))
  have hnonempty : buckets ≠ [] := fun hempty => by
    rw [hempty] at hvictim
    cases hvictim
  obtain ⟨found, hfound, hevicted, hmaximal⟩ := mostRefilled_spec now hnonempty
  have hsame : found.1 = victim := by
    by_contra hother
    obtain ⟨entry, hentry, rfl⟩ := List.mem_map.mp hvictim
    have hless := hmost found.1 (List.mem_map_of_mem hfound) hother
    rw [tokensAt_of_mem hnodup hfound, tokensAt_of_mem hnodup hentry] at hless
    exact absurd (hmaximal entry hentry) (not_le.mpr hless)
  rw [hsame] at hevicted
  -- the victim's bucket goes, and that is room enough
  have hshort : (remove buckets victim).length < maxTrackedPeers := by
    rw [← hfull]
    obtain ⟨entry, hentry, hvictim⟩ := List.mem_map.mp hvictim
    exact List.length_filter_lt_length_iff_exists.mpr ⟨entry, hentry, by simp [hvictim]⟩
  have hkept : evict now buckets.length buckets = remove buckets victim := by
    rw [hfull, show maxTrackedPeers = 4095 + 1 from rfl, evict, if_pos (le_of_eq hfull.symm),
      hevicted]
    exact evict_of_short hshort 4095
  have hother : victim ≠ peer := fun h => hpeer (h ▸ hvictim)
  unfold recordFailureAt
  dsimp only
  rw [if_pos ⟨le_of_eq hfull.symm, hnone⟩, hdrained, hkept, get, List.lookup_cons,
    beq_false_of_ne hother]
  show get (remove (remove buckets victim) peer) victim = none
  rw [get_remove _ hother]
  exact get_remove_self buckets victim

end AuthRateLimiter

/-! ## §4. Attempts. -/

structure Attempt where
  peer : IpAddr
  now : Instant
  username : List UInt8
  password : List UInt8

def attempt (credentials : Credentials) (limiter : AuthRateLimiter) (a : Attempt) :
    AuthRateLimiter × Bool :=
  if !limiter.hasCapacityAt a.peer a.now then (limiter, false)
  else if credentials.verify a.username a.password then (limiter, false)
  else (limiter.recordFailureAt a.peer a.now, true)

def guesses (credentials : Credentials) : AuthRateLimiter → List Attempt → List Attempt
  | _, [] => []
  | limiter, a :: rest =>
    (if (attempt credentials limiter a).2 then [a] else []) ++
      guesses credentials (attempt credentials limiter a).1 rest

section Guessing

variable {credentials : Credentials}

theorem attempt_cases (credentials : Credentials) (limiter : AuthRateLimiter) (a : Attempt) :
    attempt credentials limiter a = (limiter, false) ∨
      attempt credentials limiter a = (limiter.recordFailureAt a.peer a.now, true) ∧
        1 ≤ limiter.tokensAt a.peer a.now := by
  unfold attempt
  split
  · exact .inl rfl
  · next hcapacity =>
    split
    · exact .inl rfl
    · exact .inr ⟨rfl, (limiter.hasCapacityAt_iff a.peer a.now).mp (by simpa using hcapacity)⟩

/-- Seconds since the clock was started. -/
noncomputable def Attempt.seconds (a : Attempt) : ℝ := (a.now : ℝ) / 1000000000

noncomputable def reading (credentials : Credentials) (peer : IpAddr) (limiter : AuthRateLimiter)
    (a : Attempt) : Reading ℝ where
  time := a.seconds
  level := limiter.tokensAt peer a.now
  spent := (attempt credentials limiter a).2 && a.peer == peer

noncomputable def readings (credentials : Credentials) (peer : IpAddr) :
    AuthRateLimiter → List Attempt → List (Reading ℝ)
  | _, [] => []
  | limiter, a :: rest => reading credentials peer limiter a ::
      readings credentials peer (attempt credentials limiter a).1 rest

variable {a : Attempt} {peers : Finset IpAddr}

theorem left_reading (peer : IpAddr) {limiter : AuthRateLimiter} (hroom : limiter.HasRoom a.peer) :
    (reading credentials peer limiter a).left =
      ((attempt credentials limiter a).1.tokensAt peer a.now : ℚ) := by
  rcases attempt_cases credentials limiter a with hattempt | ⟨hattempt, hlevel⟩
  · simp [Reading.left, reading, hattempt]
  · by_cases hpeer : a.peer = peer
    · subst hpeer
      have hspend := limiter.tokensAt_recordFailureAt a.peer a.now
      rw [max_eq_left (by linarith)] at hspend
      simp [Reading.left, reading, hattempt, hspend]
    · have hsame : (limiter.recordFailureAt a.peer a.now).tokensAt peer a.now =
          limiter.tokensAt peer a.now :=
        AuthRateLimiter.tokensAt_recordFailureAt_other hroom (Ne.symm hpeer) a.now
      simp [Reading.left, reading, hattempt, hpeer, hsame]

theorem Tidy.attempt {limiter : AuthRateLimiter} (h : limiter.Tidy peers) (hpeer : a.peer ∈ peers)
    (hroom : limiter.HasRoom a.peer) : (attempt credentials limiter a).1.Tidy peers := by
  rcases attempt_cases credentials limiter a with hattempt | ⟨hattempt, -⟩
  · rw [hattempt]
    exact h
  · rw [hattempt]
    exact h.recordFailureAt hpeer hroom a.now

/-- Attempts one after the other. -/
def Chronological (history : List Attempt) : Prop := history.Pairwise fun a b => a.now ≤ b.now

theorem conserves_readings (hcard : peers.card ≤ maxTrackedPeers) (peer : IpAddr)
    (history : List Attempt) : ∀ {limiter : AuthRateLimiter},
    limiter.Tidy peers → (∀ a ∈ history, a.peer ∈ peers) → Chronological history →
    Conserves ((authFailureBurst : ℚ) : ℝ) ((authFailureBurst / authFailureWindowSecs : ℚ) : ℝ)
      (readings credentials peer limiter history) := by
  induction history with
  | nil => intro limiter _ _ _; trivial
  | cons a rest ih =>
    intro limiter htidy hpeers hchron
    have hroom := htidy.hasRoom hcard (hpeers a (by simp))
    have hafter : (attempt credentials limiter a).1.Tidy peers :=
      Tidy.attempt htidy (hpeers a (by simp)) hroom
    have hleft := @left_reading credentials a peer limiter hroom
    refine ⟨?_, ?_, fun next hnext => ?_, ih hafter (fun b hb => hpeers b (by simp [hb]))
      (List.pairwise_cons.mp hchron).2⟩
    · have hfull : ((limiter.tokensAt peer a.now : ℚ) : ℝ) ≤ (authFailureBurst : ℚ) := by
        exact_mod_cast limiter.tokensAt_le_burst peer a.now
      exact hfull
    · rw [hleft]
      exact_mod_cast hafter.tokensAt_nonneg peer a.now
    · -- the next reading, by the time that has passed
      cases rest with
      | nil => cases hnext
      | cons b rest =>
        cases hnext
        have hlater : a.now ≤ b.now := (List.pairwise_cons.mp hchron).1 b (by simp)
        have hgain := (attempt credentials limiter a).1.tokensAt_later peer a.now hlater
        rw [hleft]
        refine ⟨?_, ?_⟩
        · have hcast : (a.now : ℝ) ≤ b.now := by exact_mod_cast hlater
          simp only [reading, Attempt.seconds]
          linarith
        · have hcast : (((attempt credentials limiter a).1.tokensAt peer b.now : ℚ) : ℝ) ≤
              ((attempt credentials limiter a).1.tokensAt peer a.now +
                authFailureBurst / authFailureWindowSecs *
                  ((b.now : ℚ) / 1000000000 - (a.now : ℚ) / 1000000000) : ℚ) :=
            Rat.cast_le.mpr hgain
          push_cast at hcast
          simpa [reading, Attempt.seconds] using hcast

theorem countP_guesses (peer : IpAddr) (start stop : ℝ) (history : List Attempt) :
    ∀ limiter : AuthRateLimiter,
    (guesses credentials limiter history).countP (fun a =>
      decide (a.peer = peer ∧ start ≤ a.seconds ∧ a.seconds ≤ stop)) =
    (readings credentials peer limiter history).countP fun r => decide (r.SpentIn start stop) := by
  induction history with
  | nil => intro limiter; rfl
  | cons a rest ih =>
    intro limiter
    rw [guesses, readings, List.countP_append, List.countP_cons, ih, Nat.add_comm]
    congr 1
    cases hspent : (attempt credentials limiter a).2 with
    | false => simp [reading, Reading.SpentIn, hspent]
    | true => simp [reading, Reading.SpentIn, hspent, List.countP_cons]

end Guessing

noncomputable def guessesWithin (credentials : Credentials) (history : List Attempt) (peer : IpAddr)
    (start width : ℝ) : Nat :=
  (guesses credentials [] history).countP fun a =>
    decide (a.peer = peer ∧ start ≤ a.seconds ∧ a.seconds ≤ start + width)

theorem guessesWithin_le (credentials : Credentials) {peers : Finset IpAddr}
    (hcard : peers.card ≤ maxTrackedPeers) {history : List Attempt}
    (hpeers : ∀ a ∈ history, a.peer ∈ peers) (hchron : Chronological history) (peer : IpAddr)
    (start : ℝ) {width : ℝ} (hwidth : 0 ≤ width) :
    (guessesWithin credentials history peer start width : ℝ) ≤ 5 + width / 12 := by
  have hconserves := @conserves_readings credentials peers hcard peer history []
    (AuthRateLimiter.Tidy.nil peers) hpeers hchron
  have hbound := spent_in_window_le (by norm_num [authFailureBurst])
    (by norm_num [authFailureBurst, authFailureWindowSecs])
    (by linarith : start ≤ start + width) hconserves
  rw [guessesWithin, countP_guesses]
  refine hbound.trans (le_of_eq ?_)
  simp only [authFailureBurst, authFailureWindowSecs]
  push_cast
  ring

/-! ## §5. One peer too many. -/

def wrongAttempt (credentials : Credentials) (peer : IpAddr) : Attempt where
  peer := peer
  now := 0
  username := credentials.username
  password := 0 :: credentials.password

variable {limiter : AuthRateLimiter}

theorem attempt_wrongAttempt (credentials : Credentials) {peer : IpAddr}
    (h : 1 ≤ limiter.tokensAt peer 0) :
    attempt credentials limiter (wrongAttempt credentials peer) =
      (limiter.recordFailureAt peer 0, true) := by
  have hcapacity : limiter.hasCapacityAt peer 0 = true := (limiter.hasCapacityAt_iff peer 0).mpr h
  have hwrong : credentials.verify credentials.username (0 :: credentials.password) = false := by
    have hne : credentials.password ≠ 0 :: credentials.password := fun heq => by
      have hlength := congrArg List.length heq
      rw [List.length_cons] at hlength
      omega
    simp [Credentials.verify, hne]
  rw [attempt, wrongAttempt]
  dsimp only
  rw [hcapacity, hwrong]
  rfl

def failAll (limiter : AuthRateLimiter) (tries : List IpAddr) : AuthRateLimiter :=
  tries.foldl (fun limiter peer => limiter.recordFailureAt peer 0) limiter

section Flood

variable {credentials : Credentials}

theorem cast_count_cons (peer : IpAddr) (tries : List IpAddr) (x : IpAddr) :
    (((peer :: tries).count x : ℕ) : ℚ) = tries.count x + if x = peer then 1 else 0 := by
  rw [List.count_cons]
  by_cases hx : x = peer
  · simp [hx]
  · simp [hx, Ne.symm hx]

def Affords (limiter : AuthRateLimiter) (tries : List IpAddr) : Prop :=
  ∀ x, (tries.count x : ℚ) ≤ limiter.tokensAt x 0

variable {peer : IpAddr} {tries : List IpAddr} {peers : Finset IpAddr}

theorem Affords.head (h : Affords limiter (peer :: tries)) :
    1 ≤ limiter.tokensAt peer 0 := by
  have hlevel := h peer
  have hcount : (0 : ℚ) ≤ tries.count peer := Nat.cast_nonneg _
  rw [cast_count_cons, if_pos rfl] at hlevel
  linarith

theorem tokensAt_after (hroom : limiter.HasRoom peer) (hone : 1 ≤ limiter.tokensAt peer 0)
    (x : IpAddr) :
    (limiter.recordFailureAt peer 0).tokensAt x 0 =
      limiter.tokensAt x 0 - if x = peer then 1 else 0 := by
  by_cases hx : x = peer
  · subst hx
    rw [limiter.tokensAt_recordFailureAt, if_pos rfl, max_eq_left (by linarith)]
  · rw [AuthRateLimiter.tokensAt_recordFailureAt_other hroom hx, if_neg hx, sub_zero]

theorem Affords.tail (h : Affords limiter (peer :: tries)) (hroom : limiter.HasRoom peer) :
    Affords (limiter.recordFailureAt peer 0) tries := by
  intro x
  have hlevel := h x
  rw [cast_count_cons] at hlevel
  rw [tokensAt_after hroom h.head]
  linarith

theorem failAll_spec (hcard : peers.card ≤ maxTrackedPeers) (tries : List IpAddr) :
    ∀ {limiter : AuthRateLimiter}, limiter.Tidy peers →
    (∀ x ∈ tries, x ∈ peers) → Affords limiter tries →
    (failAll limiter tries).Tidy peers ∧
    (∀ x, (failAll limiter tries).tokensAt x 0 = limiter.tokensAt x 0 - tries.count x) ∧
    ∀ x, x ∈ (failAll limiter tries).tracked ↔ x ∈ limiter.tracked ∨ x ∈ tries := by
  induction tries with
  | nil =>
    intro limiter htidy _ _
    exact ⟨htidy, by simp [failAll], by simp [failAll]⟩
  | cons peer tries ih =>
    intro limiter htidy hpeers hafford
    have hpeer := hpeers peer (by simp)
    have hroom := htidy.hasRoom hcard hpeer
    obtain ⟨htidy', hlevels, htracked⟩ := ih (htidy.recordFailureAt hpeer hroom 0)
      (fun x hx => hpeers x (by simp [hx])) (hafford.tail hroom)
    refine ⟨htidy', fun x => ?_, fun x => ?_⟩
    · rw [cast_count_cons]
      refine (hlevels x).trans ?_
      rw [tokensAt_after hroom hafford.head]
      ring
    · refine (htracked x).trans ?_
      rw [AuthRateLimiter.tracked_recordFailureAt hroom]
      by_cases hx : x = peer
      · simp [hx]
      · simp [hx]

theorem guesses_cons_wrong (rest : List Attempt) (h : 1 ≤ limiter.tokensAt peer 0) :
    guesses credentials limiter (wrongAttempt credentials peer :: rest) =
      wrongAttempt credentials peer ::
        guesses credentials (limiter.recordFailureAt peer 0) rest := by
  rw [guesses, attempt_wrongAttempt credentials h]
  rfl

theorem guesses_covered (hcard : peers.card ≤ maxTrackedPeers) (rest : List Attempt)
    (tries : List IpAddr) : ∀ {limiter : AuthRateLimiter},
    limiter.Tidy peers → (∀ x ∈ tries, x ∈ peers) → Affords limiter tries →
    guesses credentials limiter (tries.map (wrongAttempt credentials) ++ rest) =
      tries.map (wrongAttempt credentials) ++
        guesses credentials (failAll limiter tries) rest := by
  induction tries with
  | nil => intro limiter _ _ _; rfl
  | cons peer tries ih =>
    intro limiter htidy hpeers hafford
    have hpeer := hpeers peer (by simp)
    have hroom := htidy.hasRoom hcard hpeer
    rw [List.map_cons, List.cons_append, guesses_cons_wrong _ hafford.head,
      ih (htidy.recordFailureAt hpeer hroom 0) (fun x hx => hpeers x (by simp [hx]))
        (hafford.tail hroom)]
    rfl

theorem guesses_replicate (peer : IpAddr) (n : Nat) : ∀ {limiter : AuthRateLimiter},
    (n : ℚ) ≤ limiter.tokensAt peer 0 →
    guesses credentials limiter ((List.replicate n peer).map (wrongAttempt credentials)) =
      (List.replicate n peer).map (wrongAttempt credentials) := by
  induction n with
  | zero => intro limiter _; rfl
  | succ n ih =>
    intro limiter h
    have hlevel : (n : ℚ) + 1 ≤ limiter.tokensAt peer 0 := by exact_mod_cast h
    have hn : (0 : ℚ) ≤ n := Nat.cast_nonneg n
    have hnext : (n : ℚ) ≤ (limiter.recordFailureAt peer 0).tokensAt peer 0 := by
      rw [limiter.tokensAt_recordFailureAt]
      exact le_max_of_le_left (by linarith)
    rw [List.replicate_succ, List.map_cons, guesses_cons_wrong _ (by linarith), ih hnext]

end Flood

def flood (peer newcomer : IpAddr) (others : List IpAddr) : List IpAddr :=
  (peer :: (others ++ others)) ++ newcomer :: List.replicate 5 peer

section OneTooMany

variable {credentials : Credentials} {peer newcomer : IpAddr} {others : List IpAddr}

theorem count_crowd (x : IpAddr) : (peer :: (others ++ others)).count x =
    2 * others.count x + if x = peer then 1 else 0 := by
  rw [List.count_cons, List.count_append, two_mul]
  by_cases hx : x = peer
  · simp [hx]
  · simp [hx, Ne.symm hx]

structure Crowded (peer : IpAddr) (others : List IpAddr) (limiter : AuthRateLimiter) : Prop where
  nodup : limiter.tracked.Nodup
  tracked_iff : ∀ x, x ∈ limiter.tracked ↔ x ∈ peer :: others
  peer_level : limiter.tokensAt peer 0 = 4
  others_level : ∀ x ∈ others, limiter.tokensAt x 0 = 3
  newcomer_level : ∀ x ∉ peer :: others, limiter.tokensAt x 0 = 5

theorem guesses_crowd (hpeers : (peer :: others).Nodup)
    (hlength : others.length + 1 = maxTrackedPeers) (rest : List Attempt) :
    ∃ limiter : AuthRateLimiter, Crowded peer others limiter ∧
      guesses credentials [] ((peer :: (others ++ others)).map (wrongAttempt credentials) ++ rest) =
        (peer :: (others ++ others)).map (wrongAttempt credentials) ++
          guesses credentials limiter rest := by
  obtain ⟨hpeer, hothers⟩ := List.nodup_cons.mp hpeers
  have hcard : (peer :: others).toFinset.card ≤ maxTrackedPeers := by
    rw [List.toFinset_card_of_nodup hpeers, List.length_cons, hlength]
  have hstart : ∀ x, AuthRateLimiter.tokensAt [] x 0 = 5 := fun _ => rfl
  have hafford : Affords [] (peer :: (others ++ others)) := fun x => by
    have hone := List.nodup_iff_count_le_one.mp hothers x
    have hfive : (peer :: (others ++ others)).count x ≤ 5 := by
      rw [count_crowd]
      split <;> omega
    rw [hstart]
    exact_mod_cast hfive
  have hpeers' : ∀ x ∈ peer :: (others ++ others), x ∈ (peer :: others).toFinset := by simp
  obtain ⟨htidy, hlevels, htracked⟩ := failAll_spec hcard (peer :: (others ++ others))
    (AuthRateLimiter.Tidy.nil _) hpeers' hafford
  refine ⟨_, ⟨htidy.nodup, fun x => ?_, ?_, fun x hx => ?_, fun x hx => ?_⟩,
    guesses_covered hcard rest _ (AuthRateLimiter.Tidy.nil _) hpeers' hafford⟩
  · rw [htracked]
    simp [AuthRateLimiter.tracked]
  · rw [hlevels, hstart, count_crowd, List.count_eq_zero_of_not_mem hpeer, if_pos rfl]
    norm_num
  · have hne : x ≠ peer := fun h => hpeer (h ▸ hx)
    rw [hlevels, hstart, count_crowd, List.count_eq_one_of_mem hothers hx, if_neg hne]
    norm_num
  · obtain ⟨hne, hx⟩ := List.ne_and_not_mem_of_not_mem_cons hx
    rw [hlevels, hstart, count_crowd, List.count_eq_zero_of_not_mem hx, if_neg hne]
    norm_num

theorem Crowded.tokensAt_forgotten (h : Crowded peer others limiter)
    (hnodup : (newcomer :: peer :: others).Nodup) (hlength : others.length + 1 = maxTrackedPeers) :
    (limiter.recordFailureAt newcomer 0).tokensAt peer 0 = 5 := by
  obtain ⟨hnew, hpeers⟩ := List.nodup_cons.mp hnodup
  have hfull : limiter.length = maxTrackedPeers := by
    have hperm : limiter.tracked.Perm (peer :: others) :=
      (List.perm_ext_iff_of_nodup h.nodup hpeers).mpr h.tracked_iff
    have hsame := hperm.length_eq
    rw [List.length_cons, hlength] at hsame
    exact (List.length_map _).symm.trans hsame
  have hforgotten : (limiter.recordFailureAt newcomer 0).get peer = none := by
    refine AuthRateLimiter.get_recordFailureAt_evicted hfull h.nodup (fun x hx => ?_)
      (fun hx => hnew ((h.tracked_iff newcomer).mp hx)) ((h.tracked_iff peer).mpr (by simp))
      (fun x hx hne => ?_)
    · rcases List.mem_cons.mp ((h.tracked_iff x).mp hx) with rfl | hx
      · rw [h.peer_level]
        norm_num [authFailureBurst]
      · rw [h.others_level x hx]
        norm_num [authFailureBurst]
    · rw [h.peer_level,
        h.others_level x ((List.mem_cons.mp ((h.tracked_iff x).mp hx)).resolve_left hne)]
      norm_num
  unfold AuthRateLimiter.tokensAt
  rw [hforgotten]
  rfl

theorem guesses_of_flood (hnodup : (newcomer :: peer :: others).Nodup)
    (hlength : others.length + 1 = maxTrackedPeers) :
    guesses credentials [] ((flood peer newcomer others).map (wrongAttempt credentials)) =
      (flood peer newcomer others).map (wrongAttempt credentials) := by
  obtain ⟨hnew, hpeers⟩ := List.nodup_cons.mp hnodup
  obtain ⟨limiter, hcrowded, hguesses⟩ := @guesses_crowd credentials peer others hpeers hlength
    ((newcomer :: List.replicate 5 peer).map (wrongAttempt credentials))
  have hnewcomer : 1 ≤ limiter.tokensAt newcomer 0 := by
    rw [hcrowded.newcomer_level newcomer hnew]
    norm_num
  have hafresh : ((5 : ℕ) : ℚ) ≤ (limiter.recordFailureAt newcomer 0).tokensAt peer 0 := by
    rw [hcrowded.tokensAt_forgotten hnodup hlength]
    norm_num
  rw [flood, List.map_append, hguesses]
  congr 1
  rw [List.map_cons, guesses_cons_wrong _ hnewcomer, guesses_replicate peer 5 hafresh]

theorem count_flood (hnodup : (newcomer :: peer :: others).Nodup) :
    (flood peer newcomer others).count peer = 6 := by
  obtain ⟨hnew, hpeers⟩ := List.nodup_cons.mp hnodup
  have hpeer := (List.nodup_cons.mp hpeers).1
  have hne : newcomer ≠ peer := fun h => hnew (h ▸ List.mem_cons_self)
  rw [flood, List.count_append, List.count_cons_self, List.count_append,
    List.count_eq_zero_of_not_mem hpeer, List.count_cons_of_ne hne, List.count_replicate_self]

theorem guessesWithin_flood (hnodup : (newcomer :: peer :: others).Nodup)
    (hlength : others.length + 1 = maxTrackedPeers) :
    guessesWithin credentials ((flood peer newcomer others).map (wrongAttempt credentials)) peer
      0 0 = 6 := by
  rw [guessesWithin, guesses_of_flood hnodup hlength, List.countP_map, ← count_flood hnodup,
    List.count]
  refine List.countP_congr fun x _ => ?_
  simp [wrongAttempt, Attempt.seconds, Function.comp]

theorem chronological_wrong (tries : List IpAddr) :
    Chronological (tries.map (wrongAttempt credentials)) := by
  refine List.pairwise_map.mpr ?_
  induction tries with
  | nil => exact List.Pairwise.nil
  | cons x tries ih => exact List.pairwise_cons.mpr ⟨fun _ _ => le_refl _, ih⟩

theorem mem_flood {x : IpAddr} (h : x ∈ flood peer newcomer others) :
    x ∈ newcomer :: peer :: others := by
  simp only [flood, List.mem_append, List.mem_cons, List.mem_replicate] at h ⊢
  tauto

end OneTooMany

/-- **The budget is kept exactly if no more peers than the limiter can track ever try.** -/
theorem guesses_bounded_iff (credentials : Credentials) (peers : Finset IpAddr) :
    (∀ history : List Attempt, (∀ a ∈ history, a.peer ∈ peers) → Chronological history →
      ∀ (peer : IpAddr) (start width : ℝ), 0 ≤ width →
        (guessesWithin credentials history peer start width : ℝ) ≤ 5 + width / 12) ↔
      peers.card ≤ maxTrackedPeers := by
  constructor
  · intro hbound
    by_contra hmany
    -- one more of them than can be tracked
    have hlength : (peers.toList.take (maxTrackedPeers + 1)).length = maxTrackedPeers + 1 := by
      rw [List.length_take, Finset.length_toList]
      omega
    have hnodup : (peers.toList.take (maxTrackedPeers + 1)).Nodup :=
      (List.take_sublist _ _).nodup peers.nodup_toList
    have hsub : ∀ x ∈ peers.toList.take (maxTrackedPeers + 1), x ∈ peers := fun x hx =>
      Finset.mem_toList.mp (List.mem_of_mem_take hx)
    obtain ⟨newcomer, tracked, hlist⟩ := List.exists_cons_of_length_eq_add_one hlength
    rw [hlist] at hlength hnodup hsub
    obtain ⟨peer, others, rfl⟩ := List.exists_cons_of_length_eq_add_one (Nat.succ.inj hlength)
    have hothers : others.length + 1 = maxTrackedPeers := Nat.succ.inj hlength
    have hwithin := hbound ((flood peer newcomer others).map (wrongAttempt credentials))
      (fun a ha => by
        obtain ⟨x, hx, rfl⟩ := List.mem_map.mp ha
        exact hsub x (mem_flood hx))
      (chronological_wrong _) peer 0 0 (le_refl 0)
    rw [guessesWithin_flood hnodup hothers] at hwithin
    norm_num at hwithin
  · intro hcard history hpeers hchron peer start width hwidth
    exact guessesWithin_le credentials hcard hpeers hchron peer start hwidth

/-- A peer that tries six times a second apart, alone. -/
theorem guesses_bounded_alone :
    (guessesWithin ⟨[97], [98]⟩ ((List.range 6).map fun i =>
      ⟨.v4 ⟨10, 0, 0, 1⟩, i * 1000000000, [97], [99]⟩) (.v4 ⟨10, 0, 0, 1⟩) 0 60 : ℝ) ≤
        5 + 60 / 12 :=
  (guesses_bounded_iff ⟨[97], [98]⟩ {.v4 ⟨10, 0, 0, 1⟩}).mpr (by decide) _
    (by decide) (by unfold Chronological; decide) _ 0 60 (by norm_num)

/-- The hosts of `10.0.0.0/16`. -/
def hostAt (i : Nat) : IpAddr := .v4 ⟨10, 0, UInt8.ofNat (i / 256), UInt8.ofNat (i % 256)⟩

theorem nodup_hosts : ((List.range' 0 4097).map hostAt).Nodup := by
  refine List.Nodup.map_on (fun i hi j hj h => ?_) List.nodup_range'
  have hbound : ∀ k ∈ List.range' 0 4097, k / 256 < 256 := fun k hk => by
    have hlt := (List.mem_range'_1.mp hk).2
    omega
  simp only [hostAt, IpAddr.v4.injEq, Ipv4Addr.mk.injEq, true_and] at h
  have hhigh := congrArg UInt8.toNat h.1
  have hlow := congrArg UInt8.toNat h.2
  rw [UInt8.toNat_ofNat', UInt8.toNat_ofNat'] at hhigh hlow
  have hi := hbound i hi
  have hj := hbound j hj
  omega

/-- The flood of 4097 hosts: `10.0.0.0` fails once, 4095 others twice each, `10.0.0.1` once, and
    `10.0.0.0` five times more, six guesses at one instant. -/
theorem six_guesses_at_once :
    Chronological ((flood (hostAt 0) (hostAt 1) ((List.range' 2 4095).map hostAt)).map
      (wrongAttempt ⟨[97], [98]⟩)) ∧
    ¬ (guessesWithin ⟨[97], [98]⟩
        ((flood (hostAt 0) (hostAt 1) ((List.range' 2 4095).map hostAt)).map
          (wrongAttempt ⟨[97], [98]⟩)) (hostAt 0) 0 0 : ℝ) ≤ 5 + 0 / 12 := by
  have hnodup : (hostAt 1 :: hostAt 0 :: (List.range' 2 4095).map hostAt).Nodup := by
    have hhosts := nodup_hosts
    rw [List.range'_succ, List.range'_succ, List.map_cons, List.map_cons] at hhosts
    exact (List.Perm.swap _ _ _).nodup_iff.mp hhosts
  have hlength : ((List.range' 2 4095).map hostAt).length + 1 = maxTrackedPeers := by
    rw [List.length_map, List.length_range']
    rfl
  refine ⟨chronological_wrong _, ?_⟩
  rw [guessesWithin_flood hnodup hlength]
  norm_num

end ThisConnect.Proxy
