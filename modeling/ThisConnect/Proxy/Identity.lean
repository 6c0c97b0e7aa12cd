/-
  ThisConnect.Proxy.Identity
  **ONE PEER, TWO SPELLINGS.**
-/
import ThisConnect.Proxy.Budget

namespace ThisConnect.Proxy

open Net

/-! ## §1. Spellings. -/

def spellings (a : Ipv4Addr) : List IpAddr := [.v4 a, .v6 a.toIpv6Mapped]

variable {a : Ipv4Addr} {ip : Ipv6Addr} {p q : IpAddr} {credentials : Credentials}

theorem canonical_v6_mapped (h : ip.toIpv4Mapped = some a) :
    canonical (.v6 ip) = .v4 a := by
  rw [canonical, h]

theorem canonical_v6_unmapped (h : ip.toIpv4Mapped = none) :
    canonical (.v6 ip) = .v6 ip := by
  rw [canonical, h]

theorem canonical_cases (p : IpAddr) :
    canonical p = p ∨ ∃ a, p = .v6 a.toIpv6Mapped ∧ canonical p = .v4 a := by
  cases p with
  | v4 a => exact .inl rfl
  | v6 ip =>
    cases hmapped : ip.toIpv4Mapped with
    | none => exact .inl (canonical_v6_unmapped hmapped)
    | some a =>
      refine .inr ⟨a, ?_, canonical_v6_mapped hmapped⟩
      rw [toIpv4Mapped_eq_some_iff.mp hmapped]

theorem canonical_spelling (h : p ∈ spellings a) :
    canonical p = .v4 a := by
  simp only [spellings, List.mem_cons, List.not_mem_nil, or_false] at h
  rcases h with rfl | rfl
  · rfl
  · exact canonical_v6_mapped (toIpv4Mapped_toIpv6Mapped a)

theorem spellings_of_canonical (h : canonical p = canonical q) (hne : p ≠ q) :
    ∃ a, p ∈ spellings a ∧ q ∈ spellings a := by
  rcases canonical_cases p with hp | ⟨a, rfl, hp⟩
  · rcases canonical_cases q with hq | ⟨a, rfl, hq⟩
    · exact absurd (by rw [← hp, ← hq, h]) hne
    · refine ⟨a, ?_, by simp [spellings]⟩
      rw [← hp, h, hq]
      simp [spellings]
  · refine ⟨a, by simp [spellings], ?_⟩
    rcases canonical_cases q with hq | ⟨b, rfl, hq⟩
    · rw [← hq, ← h, hp]
      simp [spellings]
    · rw [hp, hq] at h
      injection h with h
      simp [spellings, h]

/-! ## §2. Blocks. -/

/-- Of one family, with the first `k` bits the same. -/
def AgreeOn (k : Nat) : IpAddr → IpAddr → Prop
  | .v4 x, .v4 y => (bits x.octets).take k = (bits y.octets).take k
  | .v6 x, .v6 y => (bits x.octets).take k = (bits y.octets).take k
  | _, _ => False

instance (k : Nat) : (x y : IpAddr) → Decidable (AgreeOn k x y)
  | .v4 x, .v4 y => inferInstanceAs (Decidable ((bits x.octets).take k = (bits y.octets).take k))
  | .v6 x, .v6 y => inferInstanceAs (Decidable ((bits x.octets).take k = (bits y.octets).take k))
  | .v4 _, .v6 _ => .isFalse id
  | .v6 _, .v4 _ => .isFalse id

def meantPrefix (network : IpAddr) (k : Nat) : Nat :=
  if canonical network ≠ network ∧ 96 ≤ k then k - 96 else k

theorem AgreeOn.refl (k : Nat) (p : IpAddr) : AgreeOn k p p := by
  cases p with
  | v4 x => exact rfl
  | v6 x => exact rfl

theorem Cidr.covers_iff_agreeOn (cidr : Cidr) (p : IpAddr) :
    cidr.Covers p ↔ AgreeOn cidr.prefixLen cidr.network (canonical p) := by
  unfold Cidr.Covers AgreeOn
  cases cidr.network with
  | v4 x => cases canonical p <;> rfl
  | v6 x => cases canonical p <;> rfl

/-- **Membership is bit-prefix agreement of what is meant**, exactly if the network of the rule is
    not written in the mapped form.  A mapped network is compared as IPv6 with peers that are never
    mapped any more, so that it does not even contain itself. -/
theorem contains_agrees_iff {network : IpAddr} {k : Nat} {cidr : Cidr}
    (h : Cidr.new network k = .ok cidr) :
    ((∀ p, cidr.contains p = true ↔
        AgreeOn (meantPrefix network k) (canonical network) (canonical p)) ∧
      cidr.contains network = true) ↔ canonical network = network := by
  unfold Cidr.new at h
  split at h
  · injection h with h
    subst h
    constructor
    · rintro ⟨-, hself⟩
      rw [Cidr.contains_iff_covers, Cidr.covers_iff_agreeOn] at hself
      rcases canonical_cases network with hsame | ⟨a, rfl, hmapped⟩
      · exact hsame
      · rw [hmapped] at hself
        cases hself
    · intro hsame
      have hmeant : meantPrefix network k = k := if_neg fun hmapped => hmapped.1 hsame
      refine ⟨fun p => ?_, ?_⟩
      · rw [Cidr.contains_iff_covers, Cidr.covers_iff_agreeOn, hmeant, hsame]
      · rw [Cidr.contains_iff_covers, Cidr.covers_iff_agreeOn]
        dsimp only
        rw [hsame]
        exact AgreeOn.refl k network
  · cases h

/-- `10.0.0.0/8` holds `10.1.2.3`, also in its mapped form. -/
theorem contains_agrees_ten : ∃ cidr, Cidr.new (.v4 ⟨10, 0, 0, 0⟩) 8 = .ok cidr ∧
    cidr.contains (.v6 (Ipv4Addr.mk 10 1 2 3).toIpv6Mapped) = true := by
  have hnew : Cidr.new (.v4 ⟨10, 0, 0, 0⟩) 8 = .ok ⟨.v4 ⟨10, 0, 0, 0⟩, 8, by decide⟩ := rfl
  exact ⟨_, hnew, (((contains_agrees_iff hnew).mpr rfl).1 _).mpr (by decide)⟩

/-- `::ffff:10.0.0.0/104` is `10.0.0.0/8` and holds `10.1.2.3`, but not for the code. -/
theorem contains_mapped_network : ∃ cidr,
    Cidr.new (.v6 (Ipv4Addr.mk 10 0 0 0).toIpv6Mapped) 104 = .ok cidr ∧
    AgreeOn (meantPrefix (.v6 (Ipv4Addr.mk 10 0 0 0).toIpv6Mapped) 104)
      (canonical (.v6 (Ipv4Addr.mk 10 0 0 0).toIpv6Mapped)) (canonical (.v4 ⟨10, 1, 2, 3⟩)) ∧
    cidr.contains (.v4 ⟨10, 1, 2, 3⟩) = false ∧
    cidr.contains (.v6 (Ipv4Addr.mk 10 0 0 0).toIpv6Mapped) = false :=
  ⟨_, rfl, by decide, by decide, by decide⟩

/-! ## §3. The count of remote peers. -/

structure StatsCollector where
  peers : List IpAddr
  distinctRemotePeers : UInt64
  deriving DecidableEq

namespace StatsCollector

def maxTrackedPeers : Nat := 4096

def new : StatsCollector := ⟨[], 0⟩

def recordRemotePeer (stats : StatsCollector) (peer : IpAddr) : Bool × StatsCollector :=
  if peer.isLoopback then (false, stats)
  else if stats.peers.contains peer then (false, stats)
  else if maxTrackedPeers ≤ stats.peers.length then (false, stats)
  else (true, ⟨peer :: stats.peers, stats.distinctRemotePeers + 1⟩)

end StatsCollector

def saturatingU32 (value : UInt64) : UInt32 :=
  if value.toNat < 2 ^ 32 then value.toUInt32 else 0xffffffff

def StatsCollector.distinct (stats : StatsCollector) : UInt32 :=
  saturatingU32 stats.distinctRemotePeers

theorem StatsCollector.recordRemotePeer_cases (stats : StatsCollector) (peer : IpAddr) :
    (stats.recordRemotePeer peer).2 = stats ∨
      peer.isLoopback = false ∧ (stats.recordRemotePeer peer).2.peers = peer :: stats.peers := by
  unfold recordRemotePeer
  split
  · exact .inl rfl
  · next hloopback =>
    split
    · exact .inl rfl
    · split
      · exact .inl rfl
      · exact .inr ⟨by simpa using hloopback, rfl⟩

/-! ## §4. Histories. -/

inductive Happening where
  | connect (peer : IpAddr)
  | attempt (a : Attempt)

namespace Happening

def peer : Happening → IpAddr
  | .connect peer => peer
  | .attempt a => a.peer

def respelled (q : IpAddr) : Happening → Happening
  | .connect _ => .connect q
  | .attempt a => .attempt { a with peer := q }

end Happening

/-- What can be seen of it. -/
inductive Seen where
  | refused
  | admitted
  | capacity (has : Bool)
  deriving DecidableEq

structure Shared where
  limiter : AuthRateLimiter
  stats : StatsCollector

def Shared.new : Shared := ⟨[], .new⟩

section Histories

variable (credentials : Credentials) (allowed : List Cidr)

def happen (shared : Shared) (x : Happening) : Shared × Seen :=
  if !isPeerAllowed x.peer allowed then (shared, .refused)
  else
    match x with
    | .connect peer =>
      ({ shared with stats := (shared.stats.recordRemotePeer peer).2 }, .admitted)
    | .attempt a =>
      ({ shared with limiter := (Proxy.attempt credentials shared.limiter a).1 },
        .capacity (shared.limiter.hasCapacityAt a.peer a.now))

def happenAll : Shared → List Happening → Shared × List Seen
  | shared, [] => (shared, [])
  | shared, x :: history =>
    let next := happen credentials allowed shared x
    let rest := happenAll next.1 history
    (rest.1, next.2 :: rest.2)

end Histories

/-- One happening instead of the other: the peer is written the same, or in the other spelling
    of `a`. -/
def Respells (a : Ipv4Addr) (x y : Happening) : Prop :=
  ∃ q, y = x.respelled q ∧ (q = x.peer ∨ x.peer ∈ spellings a ∧ q ∈ spellings a)

/-- **One peer, one identity**, for histories of these peers: a respelling changes neither what is
    seen nor the count, and a peer that is let in as loopback is not counted as remote. -/
structure OneIdentity (credentials : Credentials) (allowed : List Cidr) (peers : Set IpAddr) :
    Prop where
  respelling : ∀ (a : Ipv4Addr) (history history' : List Happening),
    (∀ x ∈ history, x.peer ∈ peers) → (∀ x ∈ history', x.peer ∈ peers) →
    List.Forall₂ (Respells a) history history' →
    (happenAll credentials allowed .new history).2 =
        (happenAll credentials allowed .new history').2 ∧
      (happenAll credentials allowed .new history).1.stats.distinct =
        (happenAll credentials allowed .new history').1.stats.distinct
  loopback : ∀ history : List Happening, (∀ x ∈ history, x.peer ∈ peers) →
    ∀ p : IpAddr, (canonical p).isLoopback = true →
      p ∉ (happenAll credentials allowed .new history).1.stats.peers

section Runs

variable {credentials : Credentials} {allowed : List Cidr}

variable {p : IpAddr} {x : Happening} {a : Ipv4Addr} {peers : Set IpAddr}

theorem isPeerAllowed_of_canonical {q : IpAddr} (h : canonical p = canonical q) :
    isPeerAllowed p allowed = isPeerAllowed q allowed := by
  unfold isPeerAllowed Cidr.contains
  rw [h]

theorem happen_of_refused (h : isPeerAllowed x.peer allowed = false) (shared : Shared) :
    happen credentials allowed shared x = (shared, .refused) := by
  unfold happen
  rw [h]
  rfl

theorem happen_connect (h : isPeerAllowed p allowed = true) (shared : Shared) :
    happen credentials allowed shared (.connect p) =
      (⟨shared.limiter, (shared.stats.recordRemotePeer p).2⟩, .admitted) := by
  unfold happen
  rw [Happening.peer, h]
  rfl

theorem happen_attempt {a : Attempt} (h : isPeerAllowed a.peer allowed = true) (shared : Shared) :
    happen credentials allowed shared (.attempt a) =
      (⟨(attempt credentials shared.limiter a).1, shared.stats⟩,
        .capacity (shared.limiter.hasCapacityAt a.peer a.now)) := by
  unfold happen
  rw [Happening.peer, h]
  rfl

theorem Happening.peer_respelled (x : Happening) (q : IpAddr) : (x.respelled q).peer = q := by
  cases x with
  | connect p => rfl
  | attempt a => rfl

theorem Happening.respelled_self (x : Happening) : x.respelled x.peer = x := by
  cases x with
  | connect p => rfl
  | attempt a => rfl

theorem happen_respelled (hone : ∀ p ∈ peers, ∀ q ∈ peers, isPeerAllowed p allowed = true →
      canonical p = canonical q → p = q) {y : Happening} (h : Respells a x y) (hx : x.peer ∈ peers)
    (hy : y.peer ∈ peers) (shared : Shared) :
    happen credentials allowed shared x = happen credentials allowed shared y := by
  obtain ⟨q, rfl, hspelling⟩ := h
  rw [Happening.peer_respelled] at hy
  have hmeans : canonical x.peer = canonical q := by
    rcases hspelling with rfl | ⟨hx, hq⟩
    · rfl
    · rw [canonical_spelling hx, canonical_spelling hq]
  cases hallowed : isPeerAllowed x.peer allowed with
  | true =>
    have hsame := hone x.peer hx q hy hallowed hmeans
    rw [← hsame, Happening.respelled_self]
  | false =>
    have hrefused : isPeerAllowed (x.respelled q).peer allowed = false := by
      rw [Happening.peer_respelled, ← isPeerAllowed_of_canonical hmeans]
      exact hallowed
    rw [happen_of_refused hallowed, happen_of_refused hrefused]

theorem happenAll_respelled (hone : ∀ p ∈ peers, ∀ q ∈ peers, isPeerAllowed p allowed = true →
      canonical p = canonical q → p = q) {history history' : List Happening}
    (h : List.Forall₂ (Respells a) history history') : (∀ x ∈ history, x.peer ∈ peers) →
    (∀ x ∈ history', x.peer ∈ peers) → ∀ shared : Shared,
    happenAll credentials allowed shared history =
      happenAll credentials allowed shared history' := by
  induction h with
  | nil => intro _ _ shared; rfl
  | cons hhead _ ih =>
    intro hx hy shared
    rw [happenAll, happenAll,
      happen_respelled hone hhead (hx _ (by simp)) (hy _ (by simp)) shared,
      ih (fun z hz => hx z (by simp [hz])) (fun z hz => hy z (by simp [hz]))]

theorem counted_of_happen {shared : Shared}
    (hp : p ∈ (happen credentials allowed shared x).1.stats.peers) :
    p ∈ shared.stats.peers ∨ p.isLoopback = false ∧ x.peer = p := by
  cases hallowed : isPeerAllowed x.peer allowed with
  | false =>
    rw [happen_of_refused hallowed] at hp
    exact .inl hp
  | true =>
    cases x with
    | attempt a =>
      rw [happen_attempt hallowed] at hp
      exact .inl hp
    | connect q =>
      rw [@happen_connect credentials allowed q hallowed] at hp
      rcases shared.stats.recordRemotePeer_cases q with hsame | ⟨hremote, hpeers⟩
      · rw [hsame] at hp
        exact .inl hp
      · rw [hpeers] at hp
        rcases List.mem_cons.mp hp with rfl | hp
        · exact .inr ⟨hremote, rfl⟩
        · exact .inl hp

theorem counted_of_happenAll (history : List Happening) : ∀ {shared : Shared} {p : IpAddr},
    p ∈ (happenAll credentials allowed shared history).1.stats.peers →
      p ∈ shared.stats.peers ∨ p.isLoopback = false ∧ ∃ x ∈ history, x.peer = p := by
  induction history with
  | nil => intro shared p hp; exact .inl hp
  | cons x history ih =>
    intro shared p hp
    rcases ih hp with hp | ⟨hremote, y, hy, hpeer⟩
    · rcases counted_of_happen hp with hp | ⟨hremote, hpeer⟩
      · exact .inl hp
      · exact .inr ⟨hremote, x, by simp, hpeer⟩
    · exact .inr ⟨hremote, y, by simp [hy], hpeer⟩

end Runs

/-! ## §5. When one peer has one identity. -/

section Drained

variable (credentials : Credentials) {allowed : List Cidr}

/-- Failed attempts, as a history. -/
def failures (tries : List IpAddr) : List Happening :=
  tries.map fun p => .attempt (wrongAttempt credentials p)

variable {p : IpAddr}

theorem happenAll_failures (hallowed : isPeerAllowed p allowed = true) (history : List Happening)
    (n : Nat) : ∀ {shared : Shared},
    (n : ℚ) ≤ shared.limiter.tokensAt p 0 →
    (happenAll credentials allowed shared
        (failures credentials (List.replicate n p) ++ history)).2 =
      List.replicate n (.capacity true) ++ (happenAll credentials allowed
        ⟨failAll shared.limiter (List.replicate n p), shared.stats⟩ history).2 := by
  induction n with
  | zero => intro shared _; rfl
  | succ n ih =>
    intro shared h
    have hlevel : (n : ℚ) + 1 ≤ shared.limiter.tokensAt p 0 := by exact_mod_cast h
    have hn : (0 : ℚ) ≤ n := Nat.cast_nonneg n
    have hone : 1 ≤ shared.limiter.tokensAt p 0 := by linarith
    have hnext : (n : ℚ) ≤ (shared.limiter.recordFailureAt p 0).tokensAt p 0 := by
      rw [AuthRateLimiter.tokensAt_recordFailureAt]
      exact le_max_of_le_left (by linarith)
    have hcapacity : shared.limiter.hasCapacityAt p 0 = true :=
      (AuthRateLimiter.hasCapacityAt_iff _ _ _).mpr hone
    have hstep : happen credentials allowed shared (.attempt (wrongAttempt credentials p)) =
        (⟨shared.limiter.recordFailureAt p 0, shared.stats⟩, .capacity true) := by
      rw [happen_attempt hallowed, attempt_wrongAttempt credentials hone]
      exact congrArg (fun has => (_, Seen.capacity has)) hcapacity
    rw [List.replicate_succ, failures, List.map_cons, List.cons_append, happenAll, hstep]
    dsimp only
    rw [List.replicate_succ, List.cons_append]
    exact congrArg _ (@ih ⟨shared.limiter.recordFailureAt p 0, shared.stats⟩ hnext)

theorem hasCapacityAt_drained (q : IpAddr) :
    (failAll [] (List.replicate 5 p)).hasCapacityAt q 0 = decide (p ≠ q) := by
  have hafford : Affords [] (List.replicate 5 p) := fun x => by
    have hle : (List.replicate 5 p).count x ≤ 5 := List.count_le_length
    have hcast : (((List.replicate 5 p).count x : ℕ) : ℚ) ≤ 5 := by exact_mod_cast hle
    exact hcast
  have hcard : ({p} : Finset IpAddr).card ≤ maxTrackedPeers := by
    rw [Finset.card_singleton]
    decide
  have hlevels := (failAll_spec hcard (List.replicate 5 p) (AuthRateLimiter.Tidy.nil _) (by simp)
    hafford).2.1 q
  rw [Bool.eq_iff_iff, AuthRateLimiter.hasCapacityAt_iff, hlevels, List.count_replicate]
  have hstart : AuthRateLimiter.tokensAt [] q 0 = 5 := rfl
  rw [hstart]
  by_cases hpq : p = q
  · simp [hpq]
  · simp [hpq]

theorem outcomes_differ {q : IpAddr} (hp : isPeerAllowed p allowed = true)
    (hq : isPeerAllowed q allowed = true) (hne : p ≠ q) :
    (happenAll credentials allowed .new (failures credentials (List.replicate 5 p ++ [p]))).2 ≠
      (happenAll credentials allowed .new
        (failures credentials (List.replicate 5 p ++ [q]))).2 := by
  have hstart : ((5 : ℕ) : ℚ) ≤ Shared.new.limiter.tokensAt p 0 := by
    show ((5 : ℕ) : ℚ) ≤ 5
    norm_num
  have hsixth : ∀ {x}, isPeerAllowed x allowed = true →
      (happenAll credentials allowed .new (failures credentials (List.replicate 5 p ++ [x]))).2 =
        List.replicate 5 (.capacity true) ++ [.capacity (decide (p ≠ x))] := fun {x} hx => by
    rw [failures, List.map_append]
    refine (happenAll_failures credentials hp _ 5 hstart).trans ?_
    rw [List.map_cons, happenAll, happen_attempt hx]
    rw [← hasCapacityAt_drained x]
    rfl
  rw [hsixth hp, hsixth hq]
  simp [hne]

end Drained

theorem mem_failures {tries : List IpAddr} {x : Happening} (h : x ∈ failures credentials tries) :
    x.peer ∈ tries := by
  obtain ⟨p, hp, rfl⟩ := List.mem_map.mp h
  exact hp

theorem Respells.refl (a : Ipv4Addr) (x : Happening) : Respells a x x :=
  ⟨x.peer, x.respelled_self.symm, .inl rfl⟩

theorem respells_last (hp : p ∈ spellings a) (hq : q ∈ spellings a) (tries : List IpAddr) :
    List.Forall₂ (Respells a) (failures credentials (tries ++ [p]))
      (failures credentials (tries ++ [q])) := by
  rw [failures, failures, List.map_append, List.map_append]
  refine List.rel_append (List.forall₂_same.mpr fun x _ => Respells.refl a x) (.cons ?_ .nil)
  exact ⟨q, rfl, .inr ⟨hp, hq⟩⟩

theorem counted_connect (credentials : Credentials) (allowed : List Cidr)
    (hallowed : isPeerAllowed p allowed = true) (hwritten : p.isLoopback = false) :
    p ∈ (happenAll credentials allowed .new [.connect p]).1.stats.peers := by
  rw [happenAll, happen_connect hallowed]
  show p ∈ (StatsCollector.new.recordRemotePeer p).2.peers
  rw [StatsCollector.recordRemotePeer, hwritten]
  exact List.mem_singleton.mpr rfl

/-- **One peer has one identity exactly if no admitted peer shows up under two spellings** and
    loopback shows up as loopback. -/
theorem oneIdentity_iff (credentials : Credentials) (allowed : List Cidr) (peers : Set IpAddr) :
    OneIdentity credentials allowed peers ↔
      (∀ p ∈ peers, ∀ q ∈ peers, isPeerAllowed p allowed = true → canonical p = canonical q →
        p = q) ∧
      ∀ p ∈ peers, (canonical p).isLoopback = true → p.isLoopback = true := by
  constructor
  · intro h
    refine ⟨fun p hp q hq hallowed hsame => ?_, fun p hp hloopback => ?_⟩
    · by_contra hne
      obtain ⟨a, hpa, hqa⟩ := spellings_of_canonical hsame hne
      have hallowed' : isPeerAllowed q allowed = true :=
        (isPeerAllowed_of_canonical hsame).symm.trans hallowed
      have htries : ∀ y ∈ peers, ∀ x ∈ failures credentials (List.replicate 5 p ++ [y]),
          x.peer ∈ peers := fun y hy x hx => by
        rcases List.mem_append.mp (mem_failures hx) with hmem | hmem
        · rw [List.eq_of_mem_replicate hmem]
          exact hp
        · rw [List.mem_singleton.mp hmem]
          exact hy
      exact outcomes_differ credentials hallowed hallowed' hne
        (h.respelling a _ _ (htries p hp) (htries q hq) (respells_last hpa hqa _)).1
    · by_contra hwritten
      have hallowed : isPeerAllowed p allowed = true :=
        (isPeerAllowed_iff p allowed).mpr (.inl hloopback)
      exact h.loopback [.connect p] (by simpa [Happening.peer] using hp) p hloopback
        (counted_connect credentials allowed hallowed (by simpa using hwritten))
  · rintro ⟨hone, hloopback⟩
    refine ⟨fun a history history' hx hy hspell => ?_, fun history hx p hp hcounted => ?_⟩
    · rw [happenAll_respelled hone hspell hx hy]
      exact ⟨rfl, rfl⟩
    · rcases counted_of_happenAll history hcounted with hcounted | ⟨hremote, x, hmem, rfl⟩
      · cases hcounted
      · rw [hloopback x.peer (hx x hmem) hp] at hremote
        cases hremote

/-- With peers that are all written as IPv4, a respelling is no change at all. -/
theorem oneIdentity_v4 : OneIdentity ⟨[97], [98]⟩ [] {p | ∃ a, p = .v4 a} := by
  refine (oneIdentity_iff _ _ _).mpr ⟨?_, ?_⟩
  · rintro p ⟨a, rfl⟩ q ⟨b, rfl⟩ - hsame
    exact hsame
  · rintro p ⟨a, rfl⟩ hloopback
    exact hloopback

/-- `10.1.2.3` has spent its tokens; `::ffff:10.1.2.3` has all of them.  And `::ffff:127.0.0.1` is
    let in as loopback and counted as remote. -/
theorem two_identities :
    (∃ (allowed : List Cidr) (history history' : List Happening),
      List.Forall₂ (Respells ⟨10, 1, 2, 3⟩) history history' ∧
      (happenAll ⟨[97], [98]⟩ allowed .new history).2 ≠
        (happenAll ⟨[97], [98]⟩ allowed .new history').2) ∧
    (canonical (.v6 (Ipv4Addr.mk 127 0 0 1).toIpv6Mapped)).isLoopback = true ∧
    .v6 (Ipv4Addr.mk 127 0 0 1).toIpv6Mapped ∈ (happenAll ⟨[97], [98]⟩ [] .new
      [.connect (.v6 (Ipv4Addr.mk 127 0 0 1).toIpv6Mapped)]).1.stats.peers := by
  let allowed : List Cidr := [⟨.v4 ⟨10, 0, 0, 0⟩, 8, by decide⟩]
  refine ⟨⟨allowed, _, _, ?_, @outcomes_differ ⟨[97], [98]⟩ allowed (.v4 ⟨10, 1, 2, 3⟩)
    (.v6 (Ipv4Addr.mk 10 1 2 3).toIpv6Mapped) (by decide) (by decide) (by decide)⟩, by decide,
    counted_connect _ _ (by decide) (by decide)⟩
  exact respells_last (by decide) (by decide) _

end ThisConnect.Proxy
