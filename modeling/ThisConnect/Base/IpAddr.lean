/-
  ThisConnect.Base.IpAddr
  **IP ADDRESSES AND THEIR TEXT, AS THE STANDARD LIBRARY HAS THEM.**
-/
import ThisConnect.Base.Numeral

namespace ThisConnect.Net

open Numeral

variable {radix maxDigits index : Nat} {rest s : List Char} {c : Char}

/-! ## §1. Addresses. -/

structure Ipv4Addr where
  a : UInt8
  b : UInt8
  c : UInt8
  d : UInt8
  deriving DecidableEq, Repr

structure Ipv6Addr where
  segments : List UInt16
  length_eq : segments.length = 8
  deriving DecidableEq, Repr

/-- `std::net::IpAddr`. -/
inductive IpAddr where
  | v4 (addr : Ipv4Addr)
  | v6 (addr : Ipv6Addr)
  deriving DecidableEq, Repr

structure SocketAddr where
  ip : IpAddr
  port : UInt16
  deriving DecidableEq, Repr

/-- `Ipv4Addr::octets`. -/
def Ipv4Addr.octets (ip : Ipv4Addr) : List UInt8 := [ip.a, ip.b, ip.c, ip.d]

def segmentOctets (s : UInt16) : List UInt8 := [(s >>> 8).toUInt8, s.toUInt8]

/-- `Ipv6Addr::new`. -/
def Ipv6Addr.new (a b c d e f g h : UInt16) : Ipv6Addr := ⟨[a, b, c, d, e, f, g, h], rfl⟩

/-- `Ipv6Addr::octets`. -/
def Ipv6Addr.octets (ip : Ipv6Addr) : List UInt8 := ip.segments.flatMap segmentOctets

/-- `u16::from_be_bytes`. -/
def fromBeBytes (hi lo : UInt8) : UInt16 := hi.toUInt16 <<< 8 ||| lo.toUInt16

def Ipv6Addr.toIpv4Mapped (ip : Ipv6Addr) : Option Ipv4Addr :=
  match ip.segments with
  | [0, 0, 0, 0, 0, 0xffff, ab, cd] =>
    some ⟨(ab >>> 8).toUInt8, ab.toUInt8, (cd >>> 8).toUInt8, cd.toUInt8⟩
  | _ => none

/-- `Ipv4Addr::to_ipv6_mapped`. -/
def Ipv4Addr.toIpv6Mapped (ip : Ipv4Addr) : Ipv6Addr :=
  ⟨[0, 0, 0, 0, 0, 0xffff, fromBeBytes ip.a ip.b, fromBeBytes ip.c ip.d], rfl⟩

def Ipv4Addr.isLoopback (ip : Ipv4Addr) : Bool := ip.a == 127

def Ipv6Addr.isLoopback (ip : Ipv6Addr) : Bool := ip.segments == [0, 0, 0, 0, 0, 0, 0, 1]

/-- `IpAddr::is_loopback`. -/
def IpAddr.isLoopback : IpAddr → Bool
  | .v4 ip => ip.isLoopback
  | .v6 ip => ip.isLoopback

def IpAddr.isUnspecified : IpAddr → Bool
  | .v4 ip => ip.octets == [0, 0, 0, 0]
  | .v6 ip => ip.segments == [0, 0, 0, 0, 0, 0, 0, 0]

def IpAddr.isMulticast : IpAddr → Bool
  | .v4 ip => decide (224 ≤ ip.a) && decide (ip.a ≤ 239)
  | .v6 ip => (ip.segments.headD 0 &&& 0xff00) == 0xff00

def Ipv4Addr.isBroadcast (ip : Ipv4Addr) : Bool := ip.octets == [255, 255, 255, 255]

def Ipv4Addr.isLinkLocal (ip : Ipv4Addr) : Bool := ip.a == 169 && ip.b == 254

/-- `IpAddr::is_ipv6`. -/
def IpAddr.isIpv6 : IpAddr → Bool
  | .v4 _ => false
  | .v6 _ => true

/-! ## §2. Printing. -/

/-- `Display for Ipv4Addr`. -/
def Ipv4Addr.display (ip : Ipv4Addr) : List Char :=
  Nat.toDigits 10 ip.a.toNat ++ '.' :: (Nat.toDigits 10 ip.b.toNat ++ '.' ::
    (Nat.toDigits 10 ip.c.toNat ++ '.' :: Nat.toDigits 10 ip.d.toNat))

/-- A run of segments with its length. -/
structure Span where
  start : Nat
  len : Nat
  deriving DecidableEq, Repr

def zeroesLoop : Nat → Span → Span → List UInt16 → Span
  | _, longest, _, [] => longest
  | i, longest, current, s :: rest =>
    if s = 0 then
      let current : Span :=
        ⟨if current.len = 0 then i else current.start, current.len + 1⟩
      zeroesLoop (i + 1) (if longest.len < current.len then current else longest) current rest
    else zeroesLoop (i + 1) longest ⟨0, 0⟩ rest

def zeroes (segments : List UInt16) : Span := zeroesLoop 0 ⟨0, 0⟩ ⟨0, 0⟩ segments

def fmtSubslice : List UInt16 → List Char
  | [] => []
  | [s] => Nat.toDigits 16 s.toNat
  | s :: rest => Nat.toDigits 16 s.toNat ++ ':' :: fmtSubslice rest

/-- `Display for Ipv6Addr`. -/
def Ipv6Addr.display (ip : Ipv6Addr) : List Char :=
  match ip.toIpv4Mapped with
  | some v4 => "::ffff:".toList ++ v4.display
  | none =>
    let z := zeroes ip.segments
    if 1 < z.len then
      fmtSubslice (ip.segments.take z.start) ++ ':' :: ':' ::
        fmtSubslice (ip.segments.drop (z.start + z.len))
    else fmtSubslice ip.segments

/-- `Display for IpAddr`. -/
def IpAddr.display : IpAddr → List Char
  | .v4 ip => ip.display
  | .v6 ip => ip.display

/-! ## §3. Reading.

A reader takes what it needs off the front of the text; failing leaves the text as it was, which
is what the library's `read_atomically` restores by hand. -/

/-- A backtracking reader. -/
abbrev Reader (α : Type) := List Char → Option (α × List Char)

/-- `read_given_char`. -/
def readGivenChar (target : Char) : Reader Unit
  | c :: cs => if c = target then some ((), cs) else none
  | [] => none

/-- The digit loop of `read_number`. -/
def readDigits (radix maxDigits : Nat) : Nat → Nat → List Char → Option (Nat × Nat × List Char)
  | result, count, [] => some (result, count, [])
  | result, count, c :: cs =>
    match toDigit radix c with
    | none => some (result, count, c :: cs)
    | some d =>
      if maxDigits < count + 1 then none
      else readDigits radix maxDigits (result * radix + d) (count + 1) cs

def readNumber (radix maxDigits : Nat) (allowZeroPrefix : Bool) (bound : Nat) : Reader Nat :=
  fun s =>
    match readDigits radix maxDigits 0 0 s with
    | none => none
    | some (result, count, rest) =>
      if count = 0 then none
      else if !allowZeroPrefix && s.head? == some '0' && decide (1 < count) then none
      else if result < bound then some (result, rest)
      else none

def readSeparator {α : Type} (sep : Char) (index : Nat) (inner : Reader α) : Reader α :=
  fun s =>
    if index = 0 then inner s
    else (readGivenChar sep s).bind fun p => inner p.2

/-- One octet of a dotted address. -/
def readOctet (index : Nat) : Reader UInt8 := fun s =>
  (readSeparator '.' index (readNumber 10 3 false 256) s).map fun p => (UInt8.ofNat p.1, p.2)

/-- `read_ipv4_addr`. -/
def readIpv4Addr : Reader Ipv4Addr := fun s => do
  let (a, s) ← readOctet 0 s
  let (b, s) ← readOctet 1 s
  let (c, s) ← readOctet 2 s
  let (d, s) ← readOctet 3 s
  return (⟨a, b, c, d⟩, s)

/-- One segment of an IPv6 address. -/
def readSegment (index : Nat) : Reader UInt16 := fun s =>
  (readSeparator ':' index (readNumber 16 4 true 65536) s).map fun p => (UInt16.ofNat p.1, p.2)

def readGroups : Nat → Nat → List Char → List UInt16 × Bool × List Char
  | 0, _, s => ([], false, s)
  | remaining + 1, index, s =>
    -- an embedded IPv4 address needs two slots
    match (if remaining = 0 then none else readSeparator ':' index readIpv4Addr s) with
    | some (v4, rest) => ([fromBeBytes v4.a v4.b, fromBeBytes v4.c v4.d], true, rest)
    | none =>
      match readSegment index s with
      | none => ([], false, s)
      | some (g, rest) =>
        let (gs, embedded, rest) := readGroups remaining (index + 1) rest
        (g :: gs, embedded, rest)

def padGroups (head tail : List UInt16) : List UInt16 :=
  head ++ List.replicate (8 - head.length - tail.length) 0 ++ tail

def ofSegments (segments : List UInt16) : Option Ipv6Addr :=
  if h : segments.length = 8 then some ⟨segments, h⟩ else none

/-- `read_ipv6_addr`. -/
def readIpv6Addr : Reader Ipv6Addr := fun s =>
  let (head, headIpv4, rest) := readGroups 8 0 s
  if head.length = 8 then (ofSegments head).map fun ip => (ip, rest)
  else if headIpv4 then none
  else do
    let (_, rest) ← readGivenChar ':' rest
    let (_, rest) ← readGivenChar ':' rest
    -- `::` stands for at least one segment
    let (tail, _, rest) := readGroups (8 - (head.length + 1)) 0 rest
    let ip ← ofSegments (padGroups head tail)
    return (ip, rest)

def parseWith {α : Type} (inner : Reader α) (s : List Char) : Option α :=
  match inner s with
  | some (x, []) => some x
  | _ => none

/-- `str::parse::<Ipv4Addr>`. -/
def parseIpv4 (s : List Char) : Option Ipv4Addr := parseWith readIpv4Addr s

/-- `str::parse::<Ipv6Addr>`. -/
def parseIpv6 (s : List Char) : Option Ipv6Addr := parseWith readIpv6Addr s

/-- `read_ip_addr`. -/
def readIpAddr : Reader IpAddr := fun s =>
  match readIpv4Addr s with
  | some (ip, rest) => some (.v4 ip, rest)
  | none => (readIpv6Addr s).map fun p => (.v6 p.1, p.2)

/-- `str::parse::<IpAddr>`. -/
def parseIpAddr (s : List Char) : Option IpAddr := parseWith readIpAddr s

/-! ## §4. Numbers read back. -/

def NoDigitAhead (radix : Nat) (s : List Char) : Prop := ∀ c ∈ s.head?, toDigit radix c = none

@[simp] theorem noDigitAhead_nil (radix : Nat) : NoDigitAhead radix [] := by
  simp [NoDigitAhead]

@[simp] theorem noDigitAhead_cons (radix : Nat) (c : Char) (s : List Char) :
    NoDigitAhead radix (c :: s) ↔ toDigit radix c = none := by
  simp [NoDigitAhead]

theorem readDigits_append (hrest : NoDigitAhead radix rest) (ds : List Char) :
    ∀ acc count v, digitsValue radix acc ds = some v → count + ds.length ≤ maxDigits →
      readDigits radix maxDigits acc count (ds ++ rest) = some (v, count + ds.length, rest) := by
  induction ds with
  | nil =>
    intro acc count v hv _
    injection hv with hv
    subst hv
    cases rest with
    | nil => rfl
    | cons c rest =>
      rw [noDigitAhead_cons] at hrest
      simp [readDigits, hrest]
  | cons c ds ih =>
    intro acc count v hv hlen
    rw [List.length_cons] at hlen
    rw [digitsValue] at hv
    obtain ⟨d, hd, hv⟩ := Option.bind_eq_some_iff.mp hv
    rw [List.cons_append, readDigits, hd]
    show (if maxDigits < count + 1 then none else _) = _
    rw [if_neg (by omega), ih _ _ _ hv (by omega), List.length_cons]
    simp [Nat.add_assoc, Nat.add_comm 1]

theorem eq_zero_of_toDigits_head (h1 : 1 < radix) (hr : radix ≤ 16) (n : Nat) :
    (Nat.toDigits radix n).head? = some '0' → n = 0 := by
  induction n using Nat.strong_induction_on with
  | _ n ih =>
    intro h
    rw [Nat.toDigits_eq_if h1] at h
    split at h
    · next hlt =>
      have h16 : n < 16 := lt_of_lt_of_le hlt hr
      interval_cases n <;> simp_all [Nat.digitChar]
    · next hge =>
      rw [List.head?_append_of_ne_nil _ (by simp)] at h
      have hzero := ih (n / radix) (Nat.div_lt_self (by omega) h1) h
      exact absurd ((Nat.div_eq_zero_iff_lt (by omega)).mp hzero) hge

variable {bound : Nat} {α : Type} {segments : List UInt16} {xs : List Char}

theorem readNumber_toDigits {n : Nat} {allowZeroPrefix : Bool} (h1 : 1 < radix) (hr : radix ≤ 16)
    (hmax : 0 < maxDigits) (hlen : n < radix ^ maxDigits) (hn : n < bound)
    (hrest : NoDigitAhead radix rest) :
    readNumber radix maxDigits allowZeroPrefix bound (Nat.toDigits radix n ++ rest)
      = some (n, rest) := by
  have hdigits : (Nat.toDigits radix n).length ≤ maxDigits :=
    (Nat.length_toDigits_le_iff h1 hmax).mpr hlen
  have hpos : 0 < (Nat.toDigits radix n).length := List.length_pos_iff.mpr (by simp)
  rw [readNumber, readDigits_append hrest _ 0 0 n (digitsValue_toDigits h1 hr n) (by omega)]
  simp only [Nat.zero_add]
  rw [if_neg (by omega), if_neg, if_pos hn]
  -- a leading zero means the number is `0` itself, one digit long
  intro hzero
  simp only [Bool.and_eq_true, Bool.not_eq_true', beq_iff_eq, decide_eq_true_eq] at hzero
  obtain ⟨⟨-, hhead⟩, hlong⟩ := hzero
  rw [List.head?_append_of_ne_nil _ (by simp)] at hhead
  rw [eq_zero_of_toDigits_head h1 hr n hhead, Nat.toDigits_of_lt_base (by omega)] at hlong
  simp at hlong

/-! ## §5. What the readers use up. -/

def isAddrChar (c : Char) : Bool := (toDigit 16 c).isSome || c == ':' || c == '.'

theorem isAddrChar_of_toDigit (hr : radix ≤ 16) (h : (toDigit radix c).isSome = true) :
    isAddrChar c = true := by
  have hmono : (toDigit 16 c).isSome = true := by
    unfold toDigit at h ⊢
    dsimp only at h ⊢
    split_ifs at h ⊢ <;> simp_all <;> omega
  simp [isAddrChar, hmono]

def Spells (s rest : List Char) : Prop := ∃ used, s = used ++ rest ∧ ∀ c ∈ used, isAddrChar c = true

theorem Spells.refl (s : List Char) : Spells s s := ⟨[], rfl, by simp⟩

theorem Spells.trans {t u : List Char} (h : Spells s t) (h' : Spells t u) : Spells s u := by
  obtain ⟨x, rfl, hx⟩ := h
  obtain ⟨y, rfl, hy⟩ := h'
  refine ⟨x ++ y, by simp, fun c hc => ?_⟩
  rcases List.mem_append.mp hc with hc | hc
  · exact hx c hc
  · exact hy c hc

theorem Spells.cons {c : Char} (hc : isAddrChar c = true) (s : List Char) : Spells (c :: s) s :=
  ⟨[c], rfl, by simpa using hc⟩

theorem Spells.subset (h : Spells s rest) : rest ⊆ s := by
  obtain ⟨used, rfl, -⟩ := h
  exact List.subset_append_right _ _

theorem spells_readGivenChar {target : Char} (htarget : isAddrChar target = true) {u : Unit}
    (h : readGivenChar target s = some (u, rest)) : Spells s rest := by
  unfold readGivenChar at h
  split at h
  · split at h
    · next c cs hc =>
      cases h
      exact Spells.cons (hc ▸ htarget) _
    · cases h
  · cases h

theorem spells_readDigits (hr : radix ≤ 16) (s : List Char) :
    ∀ {acc count v n rest}, readDigits radix maxDigits acc count s = some (v, n, rest) →
      Spells s rest := by
  induction s with
  | nil =>
    intro acc count v n rest h
    cases h
    exact Spells.refl _
  | cons c s ih =>
    intro acc count v n rest h
    rw [readDigits] at h
    split at h
    · cases h
      exact Spells.refl _
    · next d hd =>
      obtain ⟨_, h⟩ := some_of_unless h
      have hc : isAddrChar c = true := isAddrChar_of_toDigit hr (by rw [hd]; rfl)
      exact (Spells.cons hc s).trans (ih h)

theorem spells_readNumber {v : Nat} (hr : radix ≤ 16) {z : Bool}
    (h : readNumber radix maxDigits z bound s = some (v, rest)) : Spells s rest := by
  rw [readNumber] at h
  split at h
  · cases h
  · next result count rest' hd =>
    split_ifs at h
    cases h
    exact spells_readDigits hr s hd

theorem spells_readSeparator {sep : Char} (hsep : isAddrChar sep = true) {inner : Reader α}
    (hinner : ∀ {s x rest}, inner s = some (x, rest) → Spells s rest) {x : α}
    (h : readSeparator sep index inner s = some (x, rest)) : Spells s rest := by
  unfold readSeparator at h
  split at h
  · exact hinner h
  · obtain ⟨⟨u, rest'⟩, hsepRead, h⟩ := Option.bind_eq_some_iff.mp h
    exact (spells_readGivenChar hsep hsepRead).trans (hinner h)

theorem spells_readOctet {x : UInt8} (h : readOctet index s = some (x, rest)) : Spells s rest := by
  obtain ⟨⟨v, rest'⟩, hnumber, heq⟩ := Option.map_eq_some_iff.mp h
  injection heq with _ hrest
  rw [← hrest]
  exact spells_readSeparator (by decide) (fun h => spells_readNumber (by decide) h) hnumber

theorem spells_readIpv4Addr {ip : Ipv4Addr} (h : readIpv4Addr s = some (ip, rest)) :
    Spells s rest := by
  obtain ⟨⟨a, s₁⟩, ha, h⟩ := Option.bind_eq_some_iff.mp h
  obtain ⟨⟨b, s₂⟩, hb, h⟩ := Option.bind_eq_some_iff.mp h
  obtain ⟨⟨c, s₃⟩, hc, h⟩ := Option.bind_eq_some_iff.mp h
  obtain ⟨⟨d, s₄⟩, hd, h⟩ := Option.bind_eq_some_iff.mp h
  cases h
  exact (spells_readOctet ha).trans ((spells_readOctet hb).trans
    ((spells_readOctet hc).trans (spells_readOctet hd)))

theorem spells_readSegment {g : UInt16} (h : readSegment index s = some (g, rest)) :
    Spells s rest := by
  obtain ⟨⟨v, rest'⟩, hnumber, heq⟩ := Option.map_eq_some_iff.mp h
  injection heq with _ hrest
  rw [← hrest]
  exact spells_readSeparator (by decide) (fun h => spells_readNumber (by decide) h) hnumber

theorem spells_readGroups (remaining : Nat) :
    ∀ (index : Nat) (s : List Char), Spells s (readGroups remaining index s).2.2 := by
  induction remaining with
  | zero => intro index s; exact Spells.refl s
  | succ remaining ih =>
    intro index s
    rw [readGroups]
    split
    · next v4 rest hv4 =>
      obtain ⟨_, hv4⟩ := some_of_unless hv4
      exact spells_readSeparator (by decide) spells_readIpv4Addr hv4
    · split
      · exact Spells.refl s
      · next g rest hg => exact (spells_readSegment hg).trans (ih (index + 1) rest)

theorem spells_readIpv6Addr {ip : Ipv6Addr} (h : readIpv6Addr s = some (ip, rest)) : Spells s rest := by
  have hhead := spells_readGroups 8 0 s
  unfold readIpv6Addr at h
  generalize readGroups 8 0 s = front at h hhead
  obtain ⟨head, headIpv4, s₁⟩ := front
  dsimp only at h hhead
  split at h
  · obtain ⟨_, _, heq⟩ := Option.map_eq_some_iff.mp h
    cases heq
    exact hhead
  · obtain ⟨_, h⟩ := some_of_unless h
    obtain ⟨⟨_, s₂⟩, hcolon, h⟩ := Option.bind_eq_some_iff.mp h
    obtain ⟨⟨_, s₃⟩, hcolon', h⟩ := Option.bind_eq_some_iff.mp h
    obtain ⟨ip', _, h⟩ := Option.bind_eq_some_iff.mp h
    cases h
    have hpair := (spells_readGivenChar (by decide) hcolon).trans
      (spells_readGivenChar (by decide) hcolon')
    exact (hhead.trans hpair).trans (spells_readGroups _ 0 s₃)

theorem spells_readIpAddr {ip : IpAddr} (h : readIpAddr s = some (ip, rest)) : Spells s rest := by
  unfold readIpAddr at h
  split at h
  · next hv4 =>
    cases h
    exact spells_readIpv4Addr hv4
  · obtain ⟨_, hv6, heq⟩ := Option.map_eq_some_iff.mp h
    cases heq
    exact spells_readIpv6Addr hv6

theorem parseWith_eq_some {inner : Reader α} {x : α} (h : parseWith inner s = some x) :
    inner s = some (x, []) := by
  unfold parseWith at h
  split at h
  · next y hy =>
    injection h with h
    rw [← h, hy]
  · cases h

/-! ## §6. IPv4. -/

theorem readNumber_octet (x : UInt8) (hrest : NoDigitAhead 10 rest) :
    readNumber 10 3 false 256 (Nat.toDigits 10 x.toNat ++ rest) = some (x.toNat, rest) := by
  have hx : x.toNat < 256 := x.toNat_lt
  exact readNumber_toDigits (by decide) (by decide) (by decide) (by omega) hx hrest

theorem readOctet_first (x : UInt8) (hrest : NoDigitAhead 10 rest) :
    readOctet 0 (Nat.toDigits 10 x.toNat ++ rest) = some (x, rest) := by
  simp [readOctet, readSeparator, readNumber_octet x hrest]

theorem readOctet_next (x : UInt8) (hi : index ≠ 0) (hrest : NoDigitAhead 10 rest) :
    readOctet index ('.' :: (Nat.toDigits 10 x.toNat ++ rest)) = some (x, rest) := by
  simp [readOctet, readSeparator, readGivenChar, hi, readNumber_octet x hrest]

theorem readIpv4Addr_display (ip : Ipv4Addr) (hrest : NoDigitAhead 10 rest) :
    readIpv4Addr (ip.display ++ rest) = some (ip, rest) := by
  have hdot : ∀ s, NoDigitAhead 10 ('.' :: s) := fun s => by
    rw [noDigitAhead_cons]
    decide
  simp [readIpv4Addr, Ipv4Addr.display, readOctet_first, readOctet_next, hdot, hrest]

/-! ### A text without a dot is no IPv4 address. -/

theorem readIpv4Addr_eq_none (h : '.' ∉ s) : readIpv4Addr s = none := by
  rw [readIpv4Addr]
  cases ha : readOctet 0 s with
  | none => rfl
  | some p =>
    obtain ⟨x, rest⟩ := p
    -- the second octet wants a dot, and what is left of `s` holds none
    have hrest : rest ⊆ s := (spells_readOctet ha).subset
    have hb : readOctet 1 rest = none := by
      cases rest with
      | nil => rfl
      | cons c rest =>
        have hc : c ≠ '.' := fun hc => h (hrest (by simp [hc]))
        simp [readOctet, readSeparator, readGivenChar, hc]
    simp [hb]

/-! ## §7. IPv6: runs of segments. -/

def groupsText : Nat → List UInt16 → List Char
  | _, [] => []
  | index, g :: gs =>
    (if index = 0 then [] else [':']) ++ Nat.toDigits 16 g.toNat ++ groupsText (index + 1) gs

theorem fmtSubslice_eq (gs : List UInt16) : fmtSubslice gs = groupsText 0 gs := by
  have hnext : ∀ (g : UInt16) (gs : List UInt16) (index : Nat), index ≠ 0 →
      groupsText index (g :: gs) = ':' :: fmtSubslice (g :: gs) := by
    intro g gs
    induction gs generalizing g with
    | nil => intro index hi; simp [groupsText, fmtSubslice, hi]
    | cons g' gs ih =>
      intro index hi
      rw [groupsText, ih g' (index + 1) (by omega)]
      simp [fmtSubslice, hi]
  match gs with
  | [] => rfl
  | [g] => simp [fmtSubslice, groupsText]
  | g :: g' :: gs =>
    rw [groupsText, hnext g' gs 1 (by omega)]
    simp [fmtSubslice]

theorem dot_not_mem_toDigits (h1 : 1 < radix) (hr : radix ≤ 16) (n : Nat) :
    '.' ∉ Nat.toDigits radix n := fun h => by
  have hsome := toDigit_isSome_of_mem_toDigits h1 hr n '.' h
  have hnone : toDigit radix '.' = none := by simp [toDigit, Char.isLower, Char.isUpper]
  simp [hnone] at hsome

theorem dot_not_mem_groupsText (gs : List UInt16) : ∀ index, '.' ∉ groupsText index gs := by
  induction gs with
  | nil => intro index; simp [groupsText]
  | cons g gs ih =>
    intro index hmem
    rw [groupsText, List.mem_append, List.mem_append] at hmem
    rcases hmem with (h | h) | h
    · split at h <;> simp at h
    · exact dot_not_mem_toDigits (by decide) (by decide) _ h
    · exact ih _ h

theorem readSegment_text (g : UInt16) (hrest : NoDigitAhead 16 rest) :
    readSegment index ((if index = 0 then [] else [':']) ++ Nat.toDigits 16 g.toNat ++ rest)
      = some (g, rest) := by
  have hg : g.toNat < 65536 := g.toNat_lt
  have hread : readNumber 16 4 true 65536 (Nat.toDigits 16 g.toNat ++ rest)
      = some (g.toNat, rest) :=
    readNumber_toDigits (by decide) (by decide) (by decide) (by omega) hg hrest
  by_cases hi : index = 0
  · simp [readSegment, readSeparator, hi, hread]
  · simp [readSegment, readSeparator, readGivenChar, hi, hread]

theorem readSegment_stop (h : rest = [] ∨ ∃ t, rest = ':' :: ':' :: t) :
    readSegment index rest = none := by
  have hcolon : toDigit 16 ':' = none := by decide
  rcases h with rfl | ⟨t, rfl⟩
  · by_cases hi : index = 0
    · simp [readSegment, readSeparator, readNumber, readDigits, hi]
    · simp [readSegment, readSeparator, readGivenChar, hi]
  · by_cases hi : index = 0
    · simp [readSegment, readSeparator, readNumber, readDigits, hi, hcolon]
    · simp [readSegment, readSeparator, readGivenChar, readNumber, readDigits, hi, hcolon]

theorem readSeparator_ipv4_none (h : '.' ∉ s) : readSeparator ':' index readIpv4Addr s = none := by
  rw [readSeparator]
  split
  · exact readIpv4Addr_eq_none h
  · cases s with
    | nil => rfl
    | cons c s =>
      have hs : '.' ∉ s := fun hm => h (List.mem_cons_of_mem c hm)
      rw [readGivenChar]
      split
      · exact readIpv4Addr_eq_none hs
      · rfl

theorem readGroups_text (gs : List UInt16) :
    ∀ (remaining index : Nat) (rest : List Char), gs.length ≤ remaining →
      (rest = [] ∨ ∃ t, rest = ':' :: ':' :: t) → '.' ∉ rest →
      readGroups remaining index (groupsText index gs ++ rest) = (gs, false, rest) := by
  induction gs with
  | nil =>
    intro remaining index rest _ hstop hdot
    cases remaining with
    | zero => rfl
    | succ remaining =>
      have hv4 : readSeparator ':' index readIpv4Addr rest = none := readSeparator_ipv4_none hdot
      simp [groupsText, readGroups, hv4, readSegment_stop hstop]
  | cons g gs ih =>
    intro remaining index rest hlen hstop hdot
    rw [List.length_cons] at hlen
    obtain ⟨remaining, rfl⟩ : ∃ r, remaining = r + 1 := ⟨remaining - 1, by omega⟩
    have hnodot : '.' ∉ groupsText index (g :: gs) ++ rest := by
      rw [List.mem_append]
      rintro (h | h)
      · exact dot_not_mem_groupsText _ _ h
      · exact hdot h
    -- what follows a segment is a colon or the end, never a digit
    have hahead : NoDigitAhead 16 (groupsText (index + 1) gs ++ rest) := by
      have hcolon : toDigit 16 ':' = none := by decide
      cases gs with
      | nil => rcases hstop with rfl | ⟨t, rfl⟩ <;> simp [groupsText, hcolon]
      | cons g' gs => simp [groupsText, hcolon]
    have hsegment : readSegment index (groupsText index (g :: gs) ++ rest)
        = some (g, groupsText (index + 1) gs ++ rest) := by
      rw [groupsText, List.append_assoc]
      exact readSegment_text g hahead
    have hnext := ih remaining (index + 1) rest (by omega) hstop hdot
    simp [readGroups, readSeparator_ipv4_none hnodot, hsegment, hnext]

/-! ## §8. IPv6: the run that `::` stands for. -/

def ZeroRun (segments : List UInt16) (span : Span) : Prop :=
  (segments.drop span.start).take span.len = List.replicate span.len 0

theorem zeroRun_extend {rest : List UInt16} {start len : Nat} (hrun : ZeroRun segments ⟨start, len⟩)
    (hrest : segments.drop (start + len) = 0 :: rest) :
    ZeroRun segments ⟨start, len + 1⟩ := by
  unfold ZeroRun at hrun ⊢
  have hnext : (segments.drop start)[len]? = some 0 := by
    rw [List.getElem?_drop, ← List.head?_drop, hrest]
    rfl
  simp only at hrun ⊢
  rw [List.take_add_one, hrun, hnext, List.replicate_succ']
  rfl

theorem zeroesLoop_zeroRun (segments : List UInt16) (rest : List UInt16) :
    ∀ i longest current, segments.drop i = rest → ZeroRun segments longest →
      ZeroRun segments current → (current.len ≠ 0 → current.start + current.len = i) →
      ZeroRun segments (zeroesLoop i longest current rest) := by
  induction rest with
  | nil => intro i longest current _ hl _ _; exact hl
  | cons s rest ih =>
    intro i longest current hdrop hl hc hi
    have hnext : segments.drop (i + 1) = rest := by
      rw [← List.drop_drop, hdrop]
      rfl
    rw [zeroesLoop]
    split
    · next hs =>
      subst hs
      have hgrown : ZeroRun segments
          ⟨if current.len = 0 then i else current.start, current.len + 1⟩ := by
        by_cases h0 : current.len = 0
        · rw [if_pos h0, h0]
          exact zeroRun_extend (by simp [ZeroRun]) hdrop
        · rw [if_neg h0]
          exact zeroRun_extend hc (by rw [hi h0]; exact hdrop)
      refine ih _ _ _ hnext ?_ hgrown ?_
      · rw [apply_ite (ZeroRun segments)]
        exact if hlt : _ then by rwa [if_pos hlt] else by rwa [if_neg hlt]
      · intro _
        show (if current.len = 0 then i else current.start) + (current.len + 1) = i + 1
        split
        · omega
        · next h0 => have := hi h0; omega
    · exact ih _ _ _ hnext hl (by simp [ZeroRun]) (by simp)

theorem zeroes_zeroRun (segments : List UInt16) : ZeroRun segments (zeroes segments) :=
  zeroesLoop_zeroRun segments segments 0 _ _ rfl (by simp [ZeroRun]) (by simp [ZeroRun]) (by simp)

variable {span : Span} {ip : Ipv6Addr} {v4 : Ipv4Addr}

theorem zeroRun_le (h : ZeroRun segments span) (hlen : 0 < span.len) :
    span.start + span.len ≤ segments.length := by
  have := congrArg List.length h
  simp only [List.length_take, List.length_drop, List.length_replicate] at this
  omega

theorem padGroups_zeroRun (h8 : segments.length = 8) (h : ZeroRun segments span)
    (hlen : 0 < span.len) :
    padGroups (segments.take span.start) (segments.drop (span.start + span.len)) = segments := by
  have hle := zeroRun_le h hlen
  have hpad : 8 - (segments.take span.start).length
      - (segments.drop (span.start + span.len)).length = span.len := by
    simp only [List.length_take, List.length_drop]
    omega
  rw [padGroups, hpad, ← h, List.append_assoc, ← List.drop_drop, List.take_append_drop,
    List.take_append_drop]

/-! ## §9. The round trip. -/

theorem fromBeBytes_segment (s : UInt16) : fromBeBytes (s >>> 8).toUInt8 s.toUInt8 = s := by
  apply UInt16.toNat_inj.mp
  have hs : s.toNat < 65536 := s.toNat_lt
  have hlow : s.toNat % 256 < 2 ^ 8 := by omega
  simp only [fromBeBytes, UInt16.toNat_or, UInt16.toNat_shiftLeft, UInt8.toNat_toUInt16,
    UInt16.toNat_toUInt8, UInt16.toNat_shiftRight]
  show (s.toNat >>> 8 % 256) <<< 8 % 65536 ||| s.toNat % 256 = s.toNat
  have hhigh : s.toNat >>> 8 < 256 := by
    rw [Nat.shiftRight_eq_div_pow]
    omega
  rw [Nat.mod_eq_of_lt hhigh, Nat.mod_eq_of_lt (by rw [Nat.shiftLeft_eq]; omega),
    ← Nat.shiftLeft_add_eq_or_of_lt hlow, Nat.shiftLeft_eq, Nat.shiftRight_eq_div_pow]
  omega

theorem toNat_fromBeBytes (hi lo : UInt8) :
    (fromBeBytes hi lo).toNat = 256 * hi.toNat + lo.toNat := by
  have hhi : hi.toNat < 256 := hi.toNat_lt
  have hlo : lo.toNat < 2 ^ 8 := lo.toNat_lt
  simp only [fromBeBytes, UInt16.toNat_or, UInt16.toNat_shiftLeft, UInt8.toNat_toUInt16]
  show hi.toNat <<< 8 % 65536 ||| lo.toNat = 256 * hi.toNat + lo.toNat
  rw [Nat.mod_eq_of_lt (by rw [Nat.shiftLeft_eq]; omega), ← Nat.shiftLeft_add_eq_or_of_lt hlo,
    Nat.shiftLeft_eq]
  omega

theorem octets_fromBeBytes (hi lo : UInt8) :
    (fromBeBytes hi lo >>> 8).toUInt8 = hi ∧ (fromBeBytes hi lo).toUInt8 = lo := by
  have hhi : hi.toNat < 256 := hi.toNat_lt
  have hlo : lo.toNat < 256 := lo.toNat_lt
  constructor
  · apply UInt8.toNat_inj.mp
    rw [UInt16.toNat_toUInt8, UInt16.toNat_shiftRight, toNat_fromBeBytes]
    show (256 * hi.toNat + lo.toNat) >>> 8 % 256 = hi.toNat
    rw [Nat.shiftRight_eq_div_pow]
    omega
  · apply UInt8.toNat_inj.mp
    rw [UInt16.toNat_toUInt8, toNat_fromBeBytes]
    omega

theorem octets_inj {ip' : Ipv6Addr} (h : ip.octets = ip'.octets) : ip = ip' := by
  obtain ⟨segments, hlength⟩ := ip
  obtain ⟨segments', hlength'⟩ := ip'
  have hinj : ∀ {xs ys : List UInt16}, xs.flatMap segmentOctets = ys.flatMap segmentOctets →
      xs = ys := by
    intro xs
    induction xs with
    | nil =>
      intro ys h
      cases ys with
      | nil => rfl
      | cons y ys => cases h
    | cons x xs ih =>
      intro ys h
      cases ys with
      | nil => cases h
      | cons y ys =>
        rw [List.flatMap_cons, List.flatMap_cons] at h
        injection h with hhigh h
        injection h with hlow h
        rw [← fromBeBytes_segment x, ← fromBeBytes_segment y, hhigh, hlow, ih h]
  have hsame : segments = segments' := hinj h
  subst hsame
  rfl

theorem ofSegments_segments (ip : Ipv6Addr) : ofSegments ip.segments = some ip := by
  rw [ofSegments, dif_pos ip.length_eq]

theorem readIpv6Addr_compressed (ip : Ipv6Addr) (hrun : ZeroRun ip.segments span)
    (hlen : 0 < span.len) :
    readIpv6Addr (fmtSubslice (ip.segments.take span.start) ++ ':' :: ':' ::
      fmtSubslice (ip.segments.drop (span.start + span.len))) = some (ip, []) := by
  have h8 := ip.length_eq
  have hle := zeroRun_le hrun hlen
  have hhead : (ip.segments.take span.start).length = span.start := by
    rw [List.length_take]
    omega
  have htail : (ip.segments.drop (span.start + span.len)).length = 8 - (span.start + span.len) := by
    rw [List.length_drop, h8]
  have hdot : '.' ∉ ':' :: ':' :: fmtSubslice (ip.segments.drop (span.start + span.len)) := by
    simp [fmtSubslice_eq, dot_not_mem_groupsText]
  have hfirst := readGroups_text (ip.segments.take span.start) 8 0 _ (by omega)
    (Or.inr ⟨_, rfl⟩) hdot
  have hsecond := readGroups_text (ip.segments.drop (span.start + span.len))
    (7 - span.start) 0 [] (by omega) (Or.inl rfl) (by simp)
  rw [← fmtSubslice_eq] at hfirst hsecond
  rw [List.append_nil] at hsecond
  rw [readIpv6Addr, hfirst]
  simp only [hhead]
  rw [if_neg (by omega)]
  simp [readGivenChar, hsecond, padGroups_zeroRun h8 hrun hlen, ofSegments_segments]

theorem readIpv6Addr_full (ip : Ipv6Addr) :
    readIpv6Addr (fmtSubslice ip.segments) = some (ip, []) := by
  have h8 := ip.length_eq
  have hread := readGroups_text ip.segments 8 0 [] (by omega) (Or.inl rfl) (by simp)
  rw [List.append_nil, ← fmtSubslice_eq] at hread
  rw [readIpv6Addr, hread]
  simp [h8, ofSegments_segments]

theorem toIpv4Mapped_eq_some (h : ip.toIpv4Mapped = some v4) :
    ip.segments = [0, 0, 0, 0, 0, 0xffff, fromBeBytes v4.a v4.b, fromBeBytes v4.c v4.d] := by
  rw [Ipv6Addr.toIpv4Mapped] at h
  split at h
  · next ab cd hseg =>
    injection h with h
    subst h
    simp only [fromBeBytes_segment]
    exact hseg
  · simp at h

theorem toIpv4Mapped_toIpv6Mapped (ip : Ipv4Addr) : ip.toIpv6Mapped.toIpv4Mapped = some ip := by
  show some (Ipv4Addr.mk (fromBeBytes ip.a ip.b >>> 8).toUInt8 (fromBeBytes ip.a ip.b).toUInt8
    (fromBeBytes ip.c ip.d >>> 8).toUInt8 (fromBeBytes ip.c ip.d).toUInt8) = some ip
  rw [(octets_fromBeBytes ip.a ip.b).1, (octets_fromBeBytes ip.a ip.b).2,
    (octets_fromBeBytes ip.c ip.d).1, (octets_fromBeBytes ip.c ip.d).2]

theorem toIpv4Mapped_eq_some_iff : ip.toIpv4Mapped = some v4 ↔ ip = v4.toIpv6Mapped := by
  constructor
  · intro h
    obtain ⟨segments, hlength⟩ := ip
    have hsegments : segments = _ := toIpv4Mapped_eq_some h
    subst hsegments
    rfl
  · rintro rfl
    exact toIpv4Mapped_toIpv6Mapped v4

theorem readIpv4Addr_cons_none (hc : toDigit 10 c = none) (t : List Char) :
    readIpv4Addr (c :: t) = none := by
  simp [readIpv4Addr, readOctet, readSeparator, readNumber, readDigits, hc]

theorem readIpv6Addr_mapped (h : ip.toIpv4Mapped = some v4) :
    readIpv6Addr ("::ffff:".toList ++ v4.display) = some (ip, []) := by
  have hdisplay : readIpv4Addr v4.display = some (v4, []) := by
    simpa using readIpv4Addr_display v4 (noDigitAhead_nil 10)
  have hcolon : ∀ t, readIpv4Addr (':' :: t) = none := readIpv4Addr_cons_none (by decide)
  have hf : ∀ t, readIpv4Addr ('f' :: t) = none := readIpv4Addr_cons_none (by decide)
  have hffff : readSegment 0 ('f' :: 'f' :: 'f' :: 'f' :: ':' :: v4.display)
      = some (0xffff, ':' :: v4.display) := by
    have hahead : NoDigitAhead 16 (':' :: v4.display) := by
      rw [noDigitAhead_cons]
      decide
    exact readSegment_text 0xffff hahead
  have hhead : ∀ t, readGroups 8 0 (':' :: ':' :: t) = ([], false, ':' :: ':' :: t) := fun t => by
    simp [readGroups, readSeparator, hcolon, readSegment_stop (Or.inr ⟨t, rfl⟩)]
  have htail : readGroups 7 0 ('f' :: 'f' :: 'f' :: 'f' :: ':' :: v4.display)
      = ([0xffff, fromBeBytes v4.a v4.b, fromBeBytes v4.c v4.d], true, []) := by
    simp [readGroups, readSeparator, readGivenChar, hf, hffff, hdisplay]
  have hpad : padGroups [] [0xffff, fromBeBytes v4.a v4.b, fromBeBytes v4.c v4.d]
      = ip.segments := by
    rw [toIpv4Mapped_eq_some h]
    rfl
  show readIpv6Addr (':' :: ':' :: 'f' :: 'f' :: 'f' :: 'f' :: ':' :: v4.display) = _
  rw [readIpv6Addr, hhead]
  simp [readGivenChar, htail, hpad, ofSegments_segments]

theorem readIpv6Addr_display (ip : Ipv6Addr) : readIpv6Addr ip.display = some (ip, []) := by
  rw [Ipv6Addr.display]
  split
  · next v4 h => exact readIpv6Addr_mapped h
  · dsimp only
    split
    · next hlen => exact readIpv6Addr_compressed ip (zeroes_zeroRun _) (by omega)
    · exact readIpv6Addr_full ip

theorem dot_not_mem_display_v6 (h : ip.toIpv4Mapped = none) : '.' ∉ ip.display := by
  rw [Ipv6Addr.display, h]
  dsimp only
  split
  · simp [fmtSubslice_eq, dot_not_mem_groupsText]
  · simp [fmtSubslice_eq, dot_not_mem_groupsText]

theorem readIpv4Addr_display_v6 (ip : Ipv6Addr) : readIpv4Addr ip.display = none := by
  cases h : ip.toIpv4Mapped with
  | some v4 =>
    rw [Ipv6Addr.display, h]
    exact readIpv4Addr_cons_none (by decide) _
  | none => exact readIpv4Addr_eq_none (dot_not_mem_display_v6 h)

theorem parseIpAddr_display (ip : IpAddr) : parseIpAddr ip.display = some ip := by
  cases ip with
  | v4 ip =>
    have h : readIpv4Addr ip.display = some (ip, []) := by
      simpa using readIpv4Addr_display ip (noDigitAhead_nil 10)
    simp [parseIpAddr, parseWith, readIpAddr, IpAddr.display, h]
  | v6 ip =>
    simp [parseIpAddr, parseWith, readIpAddr, IpAddr.display, readIpv4Addr_display_v6,
      readIpv6Addr_display]

example : (parseIpAddr "2001:db8:0:0:1:0:0:1".toList).map IpAddr.display
    = some "2001:db8::1:0:0:1".toList := by decide

/-! ## §10. The alphabet of a printed address. -/

theorem isAddrChar_of_mem_display {ip : IpAddr} (h : c ∈ ip.display) : isAddrChar c = true := by
  obtain ⟨used, hs, hused⟩ := spells_readIpAddr (parseWith_eq_some (parseIpAddr_display ip))
  rw [List.append_nil] at hs
  exact hused c (hs ▸ h)

/-! ### Two dots never stand side by side. -/

theorem dotDot_infix_append {ys : List Char} (h : '.' ∉ xs) :
    ['.', '.'] <:+: xs ++ ys ↔ ['.', '.'] <:+: ys := by
  induction xs with
  | nil => rfl
  | cons c xs ih =>
    have hc : '.' ≠ c := fun hc => h (hc ▸ List.mem_cons_self)
    rw [List.cons_append, List.infix_cons_iff, ih (fun hm => h (by simp [hm]))]
    simp [List.cons_prefix_cons, hc]

theorem dotDot_infix_dot (h : '.' ∉ xs) (hne : xs ≠ []) (ys : List Char) :
    ['.', '.'] <:+: '.' :: (xs ++ ys) ↔ ['.', '.'] <:+: ys := by
  cases xs with
  | nil => exact absurd rfl hne
  | cons c xs =>
    have hc : '.' ≠ c := fun hc => h (hc ▸ List.mem_cons_self)
    rw [List.infix_cons_iff, dotDot_infix_append h]
    simp [List.cons_prefix_cons, hc]

theorem display_v4_no_dotDot (ip : Ipv4Addr) : ¬ ['.', '.'] <:+: ip.display := by
  have hd : ∀ n, '.' ∉ Nat.toDigits 10 n := dot_not_mem_toDigits (by decide) (by decide)
  have hlast : ¬ ['.', '.'] <:+: '.' :: Nat.toDigits 10 ip.d.toNat := by
    have := dotDot_infix_dot (hd ip.d.toNat) (by simp) []
    rw [List.append_nil] at this
    rw [this]
    decide
  rw [Ipv4Addr.display, dotDot_infix_append (hd _), dotDot_infix_dot (hd _) (by simp),
    dotDot_infix_dot (hd _) (by simp)]
  exact hlast

theorem dotDot_not_infix_of_not_mem (h : '.' ∉ xs) : ¬ ['.', '.'] <:+: xs :=
  fun hsub => h (hsub.subset (by simp))

theorem display_no_dotDot (ip : IpAddr) : ¬ ['.', '.'] <:+: ip.display := by
  cases ip with
  | v4 ip => exact display_v4_no_dotDot ip
  | v6 ip =>
    rw [IpAddr.display]
    cases h : ip.toIpv4Mapped with
    | some v4 =>
      rw [Ipv6Addr.display, h]
      dsimp only
      rw [dotDot_infix_append (by decide)]
      exact display_v4_no_dotDot v4
    | none => exact dotDot_not_infix_of_not_mem (dot_not_mem_display_v6 h)

/-! ## §11. What the readers accept. -/

theorem isAddrChar_of_parseIpv6 (h : parseIpv6 s = some ip) : ∀ c ∈ s, isAddrChar c = true := by
  obtain ⟨used, hs, hused⟩ := spells_readIpv6Addr (parseWith_eq_some h)
  rw [hs, List.append_nil]
  exact hused

theorem readIpv6Addr_of_readIpv4Addr {p : Ipv4Addr × List Char} (h : readIpv4Addr s = some p) :
    readIpv6Addr s = none := by
  obtain ⟨v4, rest⟩ := p
  have hgroups : readGroups 8 0 s =
      ([fromBeBytes v4.a v4.b, fromBeBytes v4.c v4.d], true, rest) := by
    rw [readGroups]
    simp [readSeparator, h]
  unfold readIpv6Addr
  rw [hgroups]
  rfl

theorem parseIpAddr_of_parseIpv6 (h : parseIpv6 s = some ip) : parseIpAddr s = some (.v6 ip) := by
  have hread := parseWith_eq_some h
  have hnone : readIpv4Addr s = none := by
    cases h4 : readIpv4Addr s with
    | none => rfl
    | some p =>
      rw [readIpv6Addr_of_readIpv4Addr h4] at hread
      cases hread
  unfold parseIpAddr parseWith readIpAddr
  rw [hnone, hread]
  rfl

end ThisConnect.Net
