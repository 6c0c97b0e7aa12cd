/-
  ThisConnect.Proxy.Admission
  **WHO MAY SPEAK, AND HOW OFTEN THEY MAY GUESS.**
-/
import Mathlib.Algebra.Order.Ring.Rat
import Mathlib.Data.List.Basic
import ThisConnect.Base.IpAddr

namespace ThisConnect.Proxy

open Net

/-! ## §1. Address blocks. -/

inductive CidrError where
  | notAnAddress
  | badPrefix
  | prefixTooLong
  deriving DecidableEq, Repr

def canonical : IpAddr → IpAddr
  | .v6 v6 =>
    match v6.toIpv4Mapped with
    | some v4 => .v4 v4
    | none => .v6 v6
  | .v4 v4 => .v4 v4

def maxPrefix : IpAddr → Nat
  | .v4 _ => 32
  | .v6 _ => 128

structure Cidr where
  network : IpAddr
  prefixLen : Nat
  bounded : prefixLen ≤ maxPrefix network

def Cidr.new (network : IpAddr) (prefixLen : Nat) : Except CidrError Cidr :=
  if h : prefixLen ≤ maxPrefix network then .ok ⟨network, prefixLen, h⟩ else .error .prefixTooLong

def prefixMatches (network peer : List UInt8) (prefixLen : Nat) : Bool :=
  let whole := prefixLen / 8
  if network.take whole != peer.take whole then false
  else
    let remainder := prefixLen % 8
    if remainder = 0 then true
    else
      let mask : UInt8 := 0xFF <<< UInt8.ofNat (8 - remainder)
      (network.getD whole 0 &&& mask) == (peer.getD whole 0 &&& mask)

def Cidr.contains (cidr : Cidr) (addr : IpAddr) : Bool :=
  match cidr.network, canonical addr with
  | .v4 net, .v4 peer => prefixMatches net.octets peer.octets cidr.prefixLen
  | .v6 net, .v6 peer => prefixMatches net.octets peer.octets cidr.prefixLen
  | _, _ => false

def isPeerAllowed (peer : IpAddr) (allowed : List Cidr) : Bool :=
  if (canonical peer).isLoopback then true else allowed.any (·.contains peer)

/-! ## §2. What a prefix means. -/

/-- Most significant bit first. -/
def byteBits (b : UInt8) : List Bool := (List.range 8).map fun i => b.toNat.testBit (7 - i)

def bits (octets : List UInt8) : List Bool := octets.flatMap byteBits

/-- The block and the address are of one family and agree on the first `prefixLen` bits. -/
def Cidr.Covers (cidr : Cidr) (addr : IpAddr) : Prop :=
  match cidr.network, canonical addr with
  | .v4 net, .v4 peer =>
    (bits net.octets).take cidr.prefixLen = (bits peer.octets).take cidr.prefixLen
  | .v6 net, .v6 peer =>
    (bits net.octets).take cidr.prefixLen = (bits peer.octets).take cidr.prefixLen
  | _, _ => False

theorem length_byteBits (b : UInt8) : (byteBits b).length = 8 := by
  simp [byteBits]

theorem bits_cons (b : UInt8) (octets : List UInt8) :
    bits (b :: octets) = byteBits b ++ bits octets :=
  rfl

theorem take_bits (octets : List UInt8) : ∀ k, k ≤ 8 * octets.length →
    (bits octets).take k =
      bits (octets.take (k / 8)) ++ (byteBits (octets.getD (k / 8) 0)).take (k % 8) := by
  induction octets with
  | nil =>
    intro k hk
    have hzero : k = 0 := by simpa using hk
    subst hzero
    simp [bits]
  | cons b octets ih =>
    intro k hk
    rw [bits_cons]
    by_cases hk8 : k < 8
    · have hdiv : k / 8 = 0 := by omega
      have hmod : k % 8 = k := by omega
      have hle : k ≤ (byteBits b).length := by
        rw [length_byteBits]
        omega
      rw [hdiv, hmod, List.take_append_of_le_length hle]
      simp [bits]
    · -- a whole byte, and the rest by induction
      have hdiv : k / 8 = (k - 8) / 8 + 1 := by omega
      have hmod : k % 8 = (k - 8) % 8 := by omega
      have hle : k - 8 ≤ 8 * octets.length := by
        simp only [List.length_cons] at hk
        omega
      have htake : (byteBits b).take k = byteBits b :=
        List.take_of_length_le (by rw [length_byteBits]; omega)
      rw [List.take_append, htake, length_byteBits, ih (k - 8) hle, hdiv, hmod]
      simp [bits_cons]

theorem take_byteBits_eq_iff (a b : UInt8) {r : Nat} (hr : r ≤ 8) :
    (byteBits a).take r = (byteBits b).take r ↔
      ∀ j, 8 - r ≤ j → j < 8 → a.toNat.testBit j = b.toNat.testBit j := by
  constructor
  · intro h j hlow hhigh
    have hi : 7 - j < r := by omega
    have hget := congrArg (fun l : List Bool => l[7 - j]?) h
    have hj : 7 - (7 - j) = j := by omega
    have hi8 : 7 - j < 8 := by omega
    simpa [byteBits, List.getElem?_take, hi, hi8, hj] using hget
  · intro h
    refine List.ext_getElem? fun i => ?_
    by_cases hi : i < r
    · have hi8 : i < 8 := by omega
      simpa [byteBits, List.getElem?_take, hi, hi8] using h (7 - i) (by omega) (by omega)
    · simp [hi]

theorem testBit_byte (a : UInt8) {j : Nat} (hj : 8 ≤ j) : a.toNat.testBit j = false := by
  have hlt : a.toNat < 2 ^ j :=
    calc a.toNat < 2 ^ 8 := a.toNat_lt
      _ ≤ 2 ^ j := Nat.pow_le_pow_right (by decide) hj
  exact Nat.testBit_lt_two_pow hlt

theorem byteBits_inj {a b : UInt8} (h : byteBits a = byteBits b) : a = b := by
  have hall := (take_byteBits_eq_iff a b (Nat.le_refl 8)).mp (by rw [h])
  refine UInt8.toNat_inj.mp (Nat.eq_of_testBit_eq fun j => ?_)
  by_cases hj : j < 8
  · exact hall j (by omega) hj
  · rw [testBit_byte a (by omega), testBit_byte b (by omega)]

theorem bits_inj : ∀ {xs ys : List UInt8}, bits xs = bits ys → xs = ys := by
  intro xs
  induction xs with
  | nil =>
    intro ys h
    cases ys with
    | nil => rfl
    | cons y ys =>
      have hlen := congrArg List.length h
      simp only [bits_cons, List.length_append, length_byteBits] at hlen
      simp [bits] at hlen
      omega
  | cons x xs ih =>
    intro ys h
    cases ys with
    | nil =>
      have hlen := congrArg List.length h
      simp [bits, length_byteBits] at hlen
    | cons y ys =>
      rw [bits_cons, bits_cons] at h
      obtain ⟨hb, hrest⟩ := List.append_inj h (by rw [length_byteBits, length_byteBits])
      rw [byteBits_inj hb, ih hrest]

theorem testBit_mask {r : Nat} (hr : 0 < r) (hr8 : r < 8) (j : Nat) :
    ((0xFF : UInt8) <<< UInt8.ofNat (8 - r)).toNat.testBit j = decide (8 - r ≤ j ∧ j < 8) := by
  by_cases hj : j < 8
  · have hcases : r = 1 ∨ r = 2 ∨ r = 3 ∨ r = 4 ∨ r = 5 ∨ r = 6 ∨ r = 7 := by omega
    have hj8 : j = 0 ∨ j = 1 ∨ j = 2 ∨ j = 3 ∨ j = 4 ∨ j = 5 ∨ j = 6 ∨ j = 7 := by omega
    rcases hcases with rfl | rfl | rfl | rfl | rfl | rfl | rfl <;>
      rcases hj8 with rfl | rfl | rfl | rfl | rfl | rfl | rfl | rfl <;> decide
  · rw [testBit_byte _ (by omega)]
    simp [hj]

theorem masked_eq_iff (a b : UInt8) {r : Nat} (hr : 0 < r) (hr8 : r < 8) :
    a &&& (0xFF <<< UInt8.ofNat (8 - r)) = b &&& (0xFF <<< UInt8.ofNat (8 - r)) ↔
      (byteBits a).take r = (byteBits b).take r := by
  rw [take_byteBits_eq_iff a b (by omega)]
  constructor
  · intro h j hlow hhigh
    have hbit := congrArg (fun x : UInt8 => x.toNat.testBit j) h
    simp only [UInt8.toNat_and, Nat.testBit_and, testBit_mask hr hr8] at hbit
    simpa only [hlow, hhigh, and_self, decide_true, Bool.and_true] using hbit
  · intro h
    refine UInt8.toNat_inj.mp (Nat.eq_of_testBit_eq fun j => ?_)
    simp only [UInt8.toNat_and, Nat.testBit_and, testBit_mask hr hr8]
    by_cases hj : 8 - r ≤ j ∧ j < 8
    · rw [h j hj.1 hj.2]
    · rw [decide_eq_false hj, Bool.and_false, Bool.and_false]

theorem prefixMatches_iff {network peer : List UInt8} {k : Nat}
    (hlen : network.length = peer.length)
    (hk : k ≤ 8 * network.length) :
    prefixMatches network peer k = true ↔ (bits network).take k = (bits peer).take k := by
  rw [take_bits network k hk, take_bits peer k (hlen ▸ hk)]
  have hwhole : (bits (network.take (k / 8))).length = (bits (peer.take (k / 8))).length := by
    simp [bits, length_byteBits, hlen]
  unfold prefixMatches
  dsimp only
  constructor
  · intro h
    split at h
    · cases h
    · next hsame =>
      have hpre : network.take (k / 8) = peer.take (k / 8) := by simpa using hsame
      rw [hpre]
      congr 1
      split at h
      · next hzero => simp [hzero]
      · next hpos =>
        exact (masked_eq_iff _ _ (by omega) (Nat.mod_lt _ (by decide))).mp (by simpa using h)
  · intro h
    obtain ⟨hbits, htail⟩ := List.append_inj h hwhole
    have hpre := bits_inj hbits
    rw [if_neg (by simp [hpre])]
    split
    · rfl
    · next hpos =>
      have hmask := (masked_eq_iff (network.getD (k / 8) 0) (peer.getD (k / 8) 0)
        (by omega : 0 < k % 8) (Nat.mod_lt _ (by decide))).mpr htail
      simpa using hmask

theorem length_octets_v6 (ip : Ipv6Addr) : ip.octets.length = 16 := by
  simp [Ipv6Addr.octets, segmentOctets, List.length_flatMap, ip.length_eq]

theorem Cidr.contains_iff_covers (cidr : Cidr) (addr : IpAddr) :
    cidr.contains addr = true ↔ cidr.Covers addr := by
  have hbounded := cidr.bounded
  unfold Cidr.contains Cidr.Covers
  cases hn : cidr.network with
  | v4 net =>
    rw [hn] at hbounded
    cases canonical addr with
    | v4 peer => exact prefixMatches_iff rfl hbounded
    | v6 peer => simp
  | v6 net =>
    rw [hn] at hbounded
    cases canonical addr with
    | v4 peer => simp
    | v6 peer =>
      refine prefixMatches_iff ?_ ?_
      · rw [length_octets_v6, length_octets_v6]
      · rw [length_octets_v6]
        exact hbounded

theorem isPeerAllowed_iff (peer : IpAddr) (allowed : List Cidr) :
    isPeerAllowed peer allowed = true ↔
      (canonical peer).isLoopback = true ∨ ∃ cidr ∈ allowed, cidr.Covers peer := by
  unfold isPeerAllowed
  cases (canonical peer).isLoopback with
  | true => simp
  | false => simp [Cidr.contains_iff_covers]

/-! ## §3. The limiter on failed authentications. -/

def authFailureBurst : ℚ := 5
def authFailureWindowSecs : ℚ := 60
def maxTrackedPeers : Nat := 4096

abbrev Instant := Nat

structure Bucket where
  tokens : ℚ
  updated : Instant

namespace Bucket

def full (now : Instant) : Bucket := ⟨authFailureBurst, now⟩

def refilled (bucket : Bucket) (now : Instant) : Bucket :=
  let elapsed : ℚ := ((now - bucket.updated : Nat) : ℚ) / 1000000000
  let gained := elapsed * (authFailureBurst / authFailureWindowSecs)
  ⟨min (bucket.tokens + gained) authFailureBurst, now⟩

def consumed (bucket : Bucket) : Bucket := { bucket with tokens := max (bucket.tokens - 1) 0 }

end Bucket

abbrev AuthRateLimiter := List (IpAddr × Bucket)

namespace AuthRateLimiter

def get (buckets : AuthRateLimiter) (peer : IpAddr) : Option Bucket := buckets.lookup peer

def remove (buckets : AuthRateLimiter) (peer : IpAddr) : AuthRateLimiter :=
  buckets.filter (·.1 ≠ peer)

def mostRefilled (buckets : AuthRateLimiter) (now : Instant) : Option IpAddr :=
  (buckets.foldl (fun (best : Option (IpAddr × Bucket)) entry =>
    match best with
    | none => some entry
    | some b =>
      if (b.2.refilled now).tokens ≤ (entry.2.refilled now).tokens then some entry else some b)
    none).map (·.1)

def evict (now : Instant) : Nat → AuthRateLimiter → AuthRateLimiter
  | 0, buckets => buckets
  | fuel + 1, buckets =>
    if maxTrackedPeers ≤ buckets.length then
      match mostRefilled buckets now with
      | some peer => evict now fuel (remove buckets peer)
      | none => buckets
    else buckets

def hasCapacityAt (buckets : AuthRateLimiter) (peer : IpAddr) (now : Instant) : Bool :=
  match get buckets peer with
  | some bucket => decide (1 ≤ (bucket.refilled now).tokens)
  | none => true

def recordFailureAt (buckets : AuthRateLimiter) (peer : IpAddr) (now : Instant) : AuthRateLimiter :=
  let next := (((get buckets peer).map (·.refilled now)).getD (Bucket.full now)).consumed
  let kept :=
    if maxTrackedPeers ≤ buckets.length ∧ (get buckets peer).isNone then
      -- idle peers have refilled to capacity and carry no information
      let drained := buckets.filter fun entry => (entry.2.refilled now).tokens < authFailureBurst
      evict now drained.length drained
    else buckets
  (peer, next) :: remove kept peer

end AuthRateLimiter

end ThisConnect.Proxy
