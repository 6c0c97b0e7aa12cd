/-
  ThisConnect.Session.Admission
  **ONE TUNNEL, THREE VALIDATORS.**

  Main results:
    • `mtu_accepted_iff` — which profiles carry an MTU the policy layer takes,
    • `egress_accepts_iff` — which tunnels the policy layer installs and the
      egress layer then brings up; the other way round nothing is lost.
-/
import ThisConnect.Ovpn.Verdict
import ThisConnect.Session.Publisher

namespace ThisConnect.Session

open Net Policy Proxy.Egress
open Ovpn (Item RawDirective Ctx Classified parseProfile lex)

/-! ## §1. What the policy layer accepts. -/

theorem mtu_parse_ok_iff (value : UInt32) :
    (∃ mtu, Mtu.parse value = .ok mtu) ↔ minMtu ≤ value ∧ value ≤ maxMtu := by
  unfold Mtu.parse
  by_cases hmin : minMtu ≤ value
  · by_cases hmax : value ≤ maxMtu
    · simp [hmin, hmax]
    · simp [hmin, hmax]
  · simp [hmin]

theorem mtu_parse_value {value : UInt32} {mtu : Mtu} (h : Mtu.parse value = .ok mtu) :
    mtu.value = value := by
  unfold Mtu.parse at h
  split at h
  · split at h
    · injection h with h
      rw [← h]
    · cases h
  · cases h

structure WellAddressed (raw : RawTunnel) : Prop where
  device : ∃ device, DeviceName.parse raw.device = .ok device
  v4 : ∃ endpoint, parseEndpoint .v4 raw.localV4 raw.gatewayV4 = .ok endpoint
  v6 : ∀ text, raw.localV6 = some text →
    ∃ endpoint, parseEndpoint .v6 text raw.gatewayV6 = .ok endpoint

/-- The MTU is in the policy layer's range, and large enough for IPv6 where there is IPv6. -/
def MtuFits (raw : RawTunnel) : Prop :=
  minMtu ≤ raw.mtu ∧ raw.mtu ≤ maxMtu ∧ (raw.localV6.isSome = true → minMtuV6 ≤ raw.mtu)

structure TakenFrom (raw : RawTunnel) (spec : TunnelSpec) : Prop where
  device : spec.device.name = raw.device
  v4 : parseIpAddr raw.localV4.toList = some spec.v4.localAddr
  v6 : spec.v6.map TunnelEndpoint.localAddr =
    raw.localV6.bind fun text => parseIpAddr text.toList

variable {raw : String} {address : IpAddr} {family : Family} {text : List Char}
variable {profile : Ovpn.Profile}

theorem deviceName_parse_name {device : DeviceName} (h : DeviceName.parse raw = .ok device) :
    device.name = raw := by
  unfold DeviceName.parse at h
  split at h
  · cases h
  split at h
  · split at h
    · split at h
      · injection h with h
        rw [← h]
      · cases h
    · cases h
  · cases h

theorem deviceName_parse_self (device : DeviceName) :
    DeviceName.parse device.name = .ok device := by
  unfold DeviceName.parse
  rw [dif_neg device.nonempty, dif_pos device.length_le, dif_pos device.head_alpha,
    dif_pos device.chars_ok]

theorem parseAddress_ok (h : parseAddress raw = .ok address) :
    parseIpAddr raw.toList = some address := by
  unfold parseAddress at h
  split at h
  · next found =>
    injection h with h
    rw [found, h]
  · cases h

theorem endpoint_new_localAddr {gateway : Option IpAddr}
    {endpoint : {endpoint : TunnelEndpoint // endpoint.family = family}}
    (h : TunnelEndpoint.new family address gateway = .ok endpoint) :
    endpoint.1.localAddr = address := by
  unfold TunnelEndpoint.new at h
  split at h
  · cases h
  · split at h
    · obtain ⟨_, -, h⟩ := ok_of_bind h
      obtain ⟨_, h⟩ := ok_of_unless h
      injection h with h
      rw [← h]
    · injection h with h
      rw [← h]

theorem parseEndpoint_localAddr {gateway : Option String}
    {endpoint : {endpoint : TunnelEndpoint // endpoint.family = family}}
    (h : parseEndpoint family raw gateway = .ok endpoint) :
    parseIpAddr raw.toList = some endpoint.1.localAddr := by
  obtain ⟨address, haddress, h⟩ := ok_of_bind h
  obtain ⟨_, -, h⟩ := ok_of_bind h
  rw [endpoint_new_localAddr h]
  exact parseAddress_ok haddress

theorem parseEndpoint_of_valid (hparse : parseIpAddr raw.toList = some address)
    (hvalid : validateAddress family address = .ok ()) :
    ∃ endpoint, parseEndpoint family raw none = .ok endpoint := by
  have haddress : parseAddress raw = .ok address := by rw [parseAddress, hparse]
  have hnew : ∃ endpoint, TunnelEndpoint.new family address none = .ok endpoint := by
    unfold TunnelEndpoint.new
    split
    · next hrefused =>
      rw [hvalid] at hrefused
      cases hrefused
    · exact ⟨_, rfl⟩
  obtain ⟨endpoint, hendpoint⟩ := hnew
  refine ⟨endpoint, ?_⟩
  unfold parseEndpoint
  rw [haddress]
  exact hendpoint

theorem parse_ok {raw : RawTunnel} {spec : TunnelSpec} (h : TunnelSpec.parse raw = .ok spec) :
    WellAddressed raw ∧ MtuFits raw ∧ TakenFrom raw spec := by
  obtain ⟨device, hdevice, h⟩ := ok_of_bind h
  obtain ⟨v4, hv4, h⟩ := ok_of_bind h
  have hname := deviceName_parse_name hdevice
  have hlocal4 := parseEndpoint_localAddr hv4
  dsimp only at h
  cases hlocal : raw.localV6 with
  | none =>
    rw [hlocal] at h
    obtain ⟨v6, hv6, h⟩ := ok_of_bind h
    obtain ⟨mtu, hmtu, h⟩ := ok_of_bind h
    obtain ⟨hmin, hmax⟩ := (mtu_parse_ok_iff raw.mtu).mp ⟨mtu, hmtu⟩
    injection hv6 with hv6
    subst hv6
    split at h
    · injection h with h
      subst h
      exact ⟨⟨⟨device, hdevice⟩, ⟨v4, hv4⟩, by simp [hlocal]⟩, ⟨hmin, hmax, by simp [hlocal]⟩,
        ⟨hname, hlocal4, by simp [hlocal]⟩⟩
    · cases h
  | some text =>
    rw [hlocal] at h
    obtain ⟨v6, hv6, h⟩ := ok_of_bind h
    obtain ⟨mtu, hmtu, h⟩ := ok_of_bind h
    obtain ⟨hmin, hmax⟩ := (mtu_parse_ok_iff raw.mtu).mp ⟨mtu, hmtu⟩
    obtain ⟨endpoint, hendpoint, rfl⟩ := ok_of_map hv6
    split at h
    · next hfits =>
      injection h with h
      subst h
      refine ⟨⟨⟨device, hdevice⟩, ⟨v4, hv4⟩, ?_⟩, ⟨hmin, hmax, ?_⟩, ⟨hname, hlocal4, ?_⟩⟩
      · intro text' htext'
        rw [hlocal] at htext'
        injection htext' with htext'
        exact ⟨endpoint, htext' ▸ hendpoint⟩
      · intro _
        exact mtu_parse_value hmtu ▸ hfits rfl
      · rw [hlocal]
        exact (parseEndpoint_localAddr hendpoint).symm
    · cases h

theorem parse_of_fits {raw : RawTunnel} (haddr : WellAddressed raw) (hmtu : MtuFits raw) :
    ∃ spec, TunnelSpec.parse raw = .ok spec := by
  obtain ⟨⟨device, hdevice⟩, ⟨v4, hv4⟩, hv6⟩ := haddr
  obtain ⟨mtu, hparse⟩ := (mtu_parse_ok_iff raw.mtu).mpr ⟨hmtu.1, hmtu.2.1⟩
  have hvalue := mtu_parse_value hparse
  unfold TunnelSpec.parse
  simp only [hdevice, hv4, hparse, bind, Except.bind]
  cases hlocal : raw.localV6 with
  | none => simp
  | some text =>
    obtain ⟨endpoint, hendpoint⟩ := hv6 text hlocal
    have hfits : minMtuV6 ≤ mtu.value := hvalue ▸ hmtu.2.2 (by rw [hlocal]; rfl)
    simp only [hendpoint, Except.map]
    simp [hfits]

/-! ## §2. The MTU of a profile. -/

def firstTunMtu (items : List Item) : Option RawDirective :=
  items.findSome? fun
    | .directive raw => if raw.name = "tun-mtu" then some raw else none
    | .block _ => none

def declaredMtu (text : List Char) : Option String :=
  (lex text 1).toOption.bind fun items => (firstTunMtu items).bind fun raw => raw.args.head?

variable {ctx : Ctx} {lo n : Nat} {c : Classified} {p : Prop} {ε : Type} {config : TunnelConfig}
  {nameToIndex : String → UInt32}

theorem parseUnsigned_of_parseU32In {arg : String} {hi : Nat}
    (h : Ovpn.parseU32In ctx arg lo hi = .ok n) :
    Numeral.parseUnsigned (2 ^ 32) arg.toList = some n := by
  rw [Ovpn.parseU32In] at h
  split at h
  · cases h
  · next value hvalue =>
    obtain ⟨_, h⟩ := ok_of_unless h
    injection h with h
    rw [hvalue, h]

theorem handle_tunMtu {args : List String} (h : Ovpn.handle ctx "tun-mtu" args = some (.ok c)) :
    c = .emit ⟨"tun-mtu", args⟩ ∧ ∃ arg, args.head? = some arg ∧
      (arg = "infinite" ∨ ∃ n, Numeral.parseUnsigned (2 ^ 32) arg.toList = some n) := by
  have hnumber : Ovpn.handle ctx "tun-mtu" args = Ovpn.asNumber ctx "tun-mtu" args := rfl
  rw [hnumber] at h
  obtain ⟨hcheck, rfl⟩ := Ovpn.emitAfter_ok h
  refine ⟨rfl, ?_⟩
  obtain ⟨_, harity, hcheck⟩ := ok_of_bind hcheck
  cases args with
  | nil => cases (Ovpn.expectArity_ok harity).1
  | cons arg rest =>
    refine ⟨arg, rfl, ?_⟩
    by_cases hinfinite : arg = "infinite"
    · exact Or.inl hinfinite
    · have hrange : (Ovpn.parseU32In ctx arg 68 65536).map (fun _ => ()) = .ok () := by
        simpa [Ovpn.checkInfiniteOr, hinfinite] using hcheck
      obtain ⟨n, hn, -⟩ := ok_of_map hrange
      exact Or.inr ⟨n, parseUnsigned_of_parseU32In hn⟩

theorem emitted_tunMtu_iff {raw : RawDirective} {d : Ovpn.EmittedDirective}
    (h : Ovpn.classify raw .topLevel = .ok c) (hd : c.emitted = some d) :
    d.name = "tun-mtu" ↔ raw.name = "tun-mtu" := by
  have hverdict := Ovpn.handle_verdict (Ovpn.classify_ok h).2.2.2
  cases hverdict with
  | verbatim _ _ =>
    injection hd with hd
    rw [← hd]
  | verb _ _ _ _ _ =>
    injection hd with hd
    rw [← hd]
  | fingerprint _ _ _ _ =>
    injection hd with hd
    rw [← hd]
  | proxy _ _ _ =>
    injection hd with hd
    rw [← hd]
  | remote r hname _ =>
    injection hd with hd
    rw [← hd, hname]
    simp [Ovpn.Remote.toDirective]
  | authUserPass hname _ =>
    injection hd with hd
    rw [← hd, hname]
    simp [Ovpn.EmittedDirective.bare]
  | staticChallenge ch hname _ =>
    injection hd with hd
    rw [← hd, hname]
    simp [Ovpn.StaticChallenge.toDirective]
  | retained _ hnone =>
    rw [hnone] at hd
    cases hd

structure MtuRead (profile : Ovpn.Profile) (done : List Item) : Prop where
  first : profile.directives.find? (fun directive => directive.name == "tun-mtu") =
    (firstTunMtu done).map fun raw => ⟨raw.name, raw.args⟩
  word : ∀ raw, firstTunMtu done = some raw → ∃ arg, raw.args.head? = some arg ∧
    (arg = "infinite" ∨ ∃ n, Numeral.parseUnsigned (2 ^ 32) arg.toList = some n)

theorem firstTunMtu_append (done : List Item) (item : Item) :
    firstTunMtu (done ++ [item]) = (firstTunMtu done).or (firstTunMtu [item]) :=
  List.findSome?_append

theorem firstTunMtu_append_block (done : List Item) (block : Ovpn.RawBlock) :
    firstTunMtu (done ++ [.block block]) = firstTunMtu done := by
  rw [firstTunMtu_append]
  exact Option.or_none

theorem mtuRead_step {parts parts' : Ovpn.Profile} {count : Nat} {item : Item} {done : List Item}
    (hparts : MtuRead parts done) (h : Ovpn.ProfileStep parts count item parts' n) :
    MtuRead parts' (done ++ [item]) := by
  obtain ⟨hfirst, hword⟩ := hparts
  cases h with
  | directive raw c _ hc =>
    by_cases hname : raw.name = "tun-mtu"
    · have hhandle := (Ovpn.classify_ok hc).2.2.2
      rw [hname] at hhandle
      obtain ⟨rfl, hargs⟩ := handle_tunMtu hhandle
      have hitem : firstTunMtu [.directive raw] = some raw := by simp [firstTunMtu, hname]
      refine ⟨?_, ?_⟩
      · rw [firstTunMtu_append, Ovpn.absorb_directives, List.find?_append, hfirst, hitem]
        cases firstTunMtu done <;> simp [Ovpn.Classified.emitted, hname]
      · rw [firstTunMtu_append, hitem]
        cases hdone : firstTunMtu done with
        | none =>
          intro found hfound
          injection hfound with hfound
          exact hfound ▸ hargs
        | some earlier =>
          intro found hfound
          injection hfound with hfound
          exact hfound ▸ hword earlier hdone
    · have hitem : firstTunMtu [.directive raw] = none := by simp [firstTunMtu, hname]
      refine ⟨?_, ?_⟩
      · rw [firstTunMtu_append, Ovpn.absorb_directives, List.find?_append, hfirst, hitem,
          Option.or_none]
        cases hd : c.emitted with
        | none => simp
        | some d =>
          have hother : d.name ≠ "tun-mtu" := (emitted_tunMtu_iff hc hd).not.mpr hname
          simp [hother]
      · rw [firstTunMtu_append, hitem, Option.or_none]
        exact hword
  | connection block _ _ _ _ =>
    rw [← firstTunMtu_append_block done block] at hfirst hword
    exact ⟨hfirst, hword⟩
  | inline block _ _ _ =>
    rw [← firstTunMtu_append_block done block] at hfirst hword
    exact ⟨hfirst, hword⟩

theorem parseProfile_mtuRead {items : List Item} (h : parseProfile text = .ok profile)
    (hlex : lex text 1 = .ok items) : MtuRead profile items := by
  obtain ⟨items', n, hitems, hloop, -⟩ := Ovpn.parseProfile_ok h
  rw [hlex] at hitems
  injection hitems with hitems
  subst hitems
  exact Ovpn.profileItems_invariant (P := fun parts _ done => MtuRead parts done)
    (fun _ _ _ _ _ _ hparts hstep => mtuRead_step hparts hstep) items {} 0 profile n []
    ⟨rfl, fun _ hnone => by cases hnone⟩ hloop

theorem profileMtu_eq (h : parseProfile text = .ok profile) :
    (declaredMtu text = none ∧ profileMtu profile = defaultTunnelMtu) ∨
    (declaredMtu text = some "infinite" ∧ profileMtu profile = defaultTunnelMtu) ∨
    ∃ word n, declaredMtu text = some word ∧ word ≠ "infinite" ∧
      Numeral.parseUnsigned (2 ^ 32) word.toList = some n ∧
      profileMtu profile = UInt32.ofNat n := by
  obtain ⟨items, n, hlex, -⟩ := Ovpn.parseProfile_ok h
  obtain ⟨hfirst, hword⟩ := parseProfile_mtuRead h hlex
  have hdeclared : declaredMtu text = (firstTunMtu items).bind fun raw => raw.args.head? := by
    simp [declaredMtu, hlex, Except.toOption]
  unfold profileMtu
  rw [hfirst, hdeclared]
  cases hfound : firstTunMtu items with
  | none => exact Or.inl ⟨rfl, rfl⟩
  | some raw =>
    obtain ⟨arg, harg, hkind⟩ := hword raw hfound
    have hread : ∀ parsed, Numeral.parseUnsigned (2 ^ 32) arg.toList = parsed →
        (((some raw).map fun raw => (⟨raw.name, raw.args⟩ : Ovpn.EmittedDirective)).bind
          fun directive => directive.args.head?.bind fun word =>
            (Numeral.parseUnsigned (2 ^ 32) word.toList).map UInt32.ofNat).getD
              defaultTunnelMtu = (parsed.map UInt32.ofNat).getD defaultTunnelMtu := by
      rintro parsed rfl
      simp [harg]
    by_cases hinfinite : arg = "infinite"
    · have hnone : Numeral.parseUnsigned (2 ^ 32) arg.toList = none := by
        rw [hinfinite]
        decide +kernel
      refine Or.inr (Or.inl ⟨?_, hread none hnone⟩)
      rw [Option.bind_some, harg, hinfinite]
    · obtain ⟨m, hm⟩ := hkind.resolve_left hinfinite
      exact Or.inr (Or.inr ⟨arg, m, harg, hinfinite, hm, hread (some m) hm⟩)

/-- The profile names no MTU, the word `infinite`, or a number from `lo` to the policy layer's
    maximum. -/
def MtuWithin (lo : Nat) (text : List Char) : Prop :=
  ∀ word, declaredMtu text = some word → word = "infinite" ∨
    ∃ n, Numeral.parseUnsigned (2 ^ 32) word.toList = some n ∧ lo ≤ n ∧ n ≤ 9000

/-- A tunnel that is accepted at some MTU is accepted at the profile's. -/
def CarriesMtu (profile : Ovpn.Profile) (raw : RawTunnel) : Prop :=
  (∃ mtu spec, TunnelSpec.parse { raw with mtu } = .ok spec) →
    ∃ spec, TunnelSpec.parse { raw with mtu := profileMtu profile } = .ok spec

theorem profileMtu_within_iff (h : parseProfile text = .ok profile) (hlo : lo ≤ 1500) :
    (lo ≤ (profileMtu profile).toNat ∧ (profileMtu profile).toNat ≤ 9000) ↔ MtuWithin lo text := by
  unfold MtuWithin
  rcases profileMtu_eq h with ⟨hword, hmtu⟩ | ⟨hword, hmtu⟩ | ⟨word, n, hword, hfinite, hn, hmtu⟩
  · have hvalue : (profileMtu profile).toNat = 1500 := by rw [hmtu]; rfl
    simp [hword, hvalue, hlo]
  · have hvalue : (profileMtu profile).toNat = 1500 := by rw [hmtu]; rfl
    simp [hword, hvalue, hlo]
  · have hvalue : (profileMtu profile).toNat = n := by
      rw [hmtu, UInt32.toNat_ofNat_of_lt' (Numeral.parseUnsigned_lt hn)]
    constructor
    · intro hrange word' hword'
      rw [hword] at hword'
      injection hword' with hword'
      exact Or.inr ⟨n, hword' ▸ hn, hvalue ▸ hrange⟩
    · intro hwithin
      obtain ⟨m, hm, hrange⟩ := (hwithin word hword).resolve_left hfinite
      rw [hn] at hm
      injection hm with hm
      rw [hvalue, hm]
      exact hrange

theorem wellAddressed_of_some {raw : RawTunnel}
    (h : ∃ mtu spec, TunnelSpec.parse { raw with mtu } = .ok spec) : WellAddressed raw := by
  obtain ⟨mtu, spec, hspec⟩ := h
  obtain ⟨hdevice, hv4, hv6⟩ := (parse_ok hspec).1
  exact ⟨hdevice, hv4, hv6⟩

theorem carriesMtu_iff {raw : RawTunnel} (haddr : WellAddressed raw) :
    CarriesMtu profile raw ↔ MtuFits { raw with mtu := profileMtu profile } := by
  have hmove : ∀ mtu, WellAddressed { raw with mtu } := fun mtu => ⟨haddr.1, haddr.2, haddr.3⟩
  constructor
  · intro hcarries
    have hmin : minMtu ≤ 1500 ∧ 1500 ≤ maxMtu ∧ minMtuV6 ≤ 1500 := by decide
    obtain ⟨spec, hspec⟩ := hcarries ⟨1500, parse_of_fits (hmove 1500)
      ⟨hmin.1, hmin.2.1, fun _ => hmin.2.2⟩⟩
    exact (parse_ok hspec).2.1
  · rintro hfits -
    exact parse_of_fits (hmove _) hfits

def dualRaw (mtu : UInt32) : RawTunnel :=
  { device := "tun0", localV4 := "10.8.0.2", localV6 := some "fd00::2", mtu }

def v4Raw (mtu : UInt32) : RawTunnel := { device := "tun0", localV4 := "10.8.0.2", mtu }

theorem deviceName_tun0 : ∃ device, DeviceName.parse "tun0" = .ok device :=
  ⟨_, deviceName_parse_self ⟨"tun0", by decide, by decide, by decide, by decide⟩⟩

theorem wellAddressed_dualRaw (mtu : UInt32) : WellAddressed (dualRaw mtu) := by
  refine ⟨deviceName_tun0, parseEndpoint_of_valid (show parseIpAddr "10.8.0.2".toList = _ from rfl)
    (by decide), ?_⟩
  intro text htext
  cases htext
  exact parseEndpoint_of_valid (show parseIpAddr "fd00::2".toList = _ from rfl) (by decide)

theorem wellAddressed_v4Raw (mtu : UInt32) : WellAddressed (v4Raw mtu) :=
  ⟨deviceName_tun0, parseEndpoint_of_valid (show parseIpAddr "10.8.0.2".toList = _ from rfl)
    (by decide),
    fun _ htext => by cases htext⟩

/-- **Which profiles carry an MTU the policy layer takes.**  The importer's range is wider on both
    sides: a profile that is imported is connectable as far as its MTU goes exactly when the word
    of its first `tun-mtu` line, if it has one, is `infinite` or a number from 1280 to 9000; for
    tunnels without IPv6, from 576 to 9000. -/
theorem mtu_accepted_iff {text : List Char} {profile : Ovpn.Profile}
    (h : parseProfile text = .ok profile) :
    ((∀ raw, CarriesMtu profile raw) ↔ MtuWithin 1280 text) ∧
      ((∀ raw, raw.localV6 = none → CarriesMtu profile raw) ↔ MtuWithin 576 text) := by
  constructor
  · rw [← profileMtu_within_iff h (show 1280 ≤ 1500 by decide)]
    constructor
    · intro hall
      obtain ⟨-, hmax, hv6⟩ := (carriesMtu_iff (wellAddressed_dualRaw 0)).mp (hall (dualRaw 0))
      exact ⟨UInt32.le_iff_toNat_le.mp (hv6 rfl), UInt32.le_iff_toNat_le.mp hmax⟩
    · rintro ⟨hmin, hmax⟩ raw hsome
      have haddr := wellAddressed_of_some hsome
      refine (carriesMtu_iff haddr).mpr ⟨?_, UInt32.le_iff_toNat_le.mpr hmax, fun _ => ?_⟩ hsome
      · exact UInt32.le_iff_toNat_le.mpr (le_trans (by decide) hmin)
      · exact UInt32.le_iff_toNat_le.mpr hmin
  · rw [← profileMtu_within_iff h (show 576 ≤ 1500 by decide)]
    constructor
    · intro hall
      obtain ⟨hmin, hmax, -⟩ := (carriesMtu_iff (wellAddressed_v4Raw 0)).mp (hall (v4Raw 0) rfl)
      exact ⟨UInt32.le_iff_toNat_le.mp hmin, UInt32.le_iff_toNat_le.mp hmax⟩
    · rintro ⟨hmin, hmax⟩ raw hnone hsome
      have haddr := wellAddressed_of_some hsome
      refine (carriesMtu_iff haddr).mpr ⟨UInt32.le_iff_toNat_le.mpr hmin,
        UInt32.le_iff_toNat_le.mpr hmax, ?_⟩ hsome
      intro hv6
      rw [hnone] at hv6
      cases hv6

/-- The importer takes an MTU of 68, and no tunnel can be installed with it. -/
theorem mtu_68_refused :
    ∃ profile, parseProfile "remote ::1 1194\ntun-mtu 68\n".toList = .ok profile ∧
      (∃ spec, TunnelSpec.parse (v4Raw 1500) = .ok spec) ∧
      TunnelSpec.parse (v4Raw (profileMtu profile)) = .error (.invalidMtu 68) :=
  ⟨_, rfl, ⟨_, rfl⟩, rfl⟩

/-- With 1400 every tunnel can be, and the profile is within the range. -/
theorem mtu_accepted_iff_1400 :
    ∃ profile, parseProfile "remote ::1 1194\ntun-mtu 1400\n".toList = .ok profile ∧
      MtuWithin 1280 "remote ::1 1194\ntun-mtu 1400\n".toList ∧
      ∀ raw, CarriesMtu profile raw := by
  have hdeclared : declaredMtu "remote ::1 1194\ntun-mtu 1400\n".toList = some "1400" := rfl
  have hwithin : MtuWithin 1280 "remote ::1 1194\ntun-mtu 1400\n".toList := by
    intro word hword
    rw [hdeclared] at hword
    injection hword with hword
    exact .inr ⟨1400, by rw [← hword]; rfl, by decide, by decide⟩
  exact ⟨_, rfl, hwithin, (mtu_accepted_iff rfl).1.mpr hwithin⟩

/-! ## §3. Addresses the egress layer binds to. -/

/-- Neither IPv4-mapped nor with the six leading zero segments of an IPv4-compatible address. -/
def Native (address : Ipv6Addr) : Prop :=
  address.toIpv4Mapped = none ∧ address.segments.take 6 ≠ [0, 0, 0, 0, 0, 0]

theorem guarded_ok_iff [Decidable p] {e : ε} {rest : Except ε Unit} :
    (if p then .error e else rest) = .ok () ↔ ¬p ∧ rest = .ok () := by
  by_cases hp : p
  · simp [hp]
  · simp [hp]

theorem admitted_ok_iff [Decidable p] {e : ε} :
    (if p then (.ok () : Except ε Unit) else .error e) = .ok () ↔ p := by
  by_cases hp : p
  · simp [hp]
  · simp [hp]

theorem validateTunnelSource_v4_iff (address : Ipv4Addr) :
    validateTunnelSource (.v4 address) = .ok () ↔ validateAddress .v4 (.v4 address) = .ok () := by
  simp only [validateTunnelSource, validateAddress, guarded_ok_iff, admitted_ok_iff,
    Family.matchesAddr, show (IpAddr.v4 address).isLoopback = address.isLoopback from rfl]
  simp only [Bool.and_eq_true, Bool.not_eq_eq_eq_not, Bool.not_true, bne_iff_ne, ne_eq,
    Bool.false_eq_true, not_false_eq_true, Bool.or_eq_true, not_or, Bool.not_eq_true, beq_iff_eq,
    and_true, true_and]
  tauto

theorem validateTunnelSource_v6_iff (address : Ipv6Addr) :
    validateTunnelSource (.v6 address) = .ok () ↔
      validateAddress .v6 (.v6 address) = .ok () ∧ Native address := by
  simp only [validateTunnelSource, validateAddress, guarded_ok_iff, admitted_ok_iff,
    Family.matchesAddr, Native,
    show (IpAddr.v6 address).isLoopback = address.isLoopback from rfl]
  simp only [Bool.and_eq_true, Bool.not_eq_eq_eq_not, Bool.not_true, bne_iff_ne, ne_eq,
    Option.isNone_iff_eq_none, Bool.false_eq_true, not_false_eq_true, Bool.or_eq_true, not_or,
    Bool.not_eq_true, beq_iff_eq, and_true, true_and]
  tauto

theorem admitTunnel_ok_iff (hname : '\x00' ∉ config.device.toList)
    (hindex : nameToIndex config.device ≠ 0) :
    (∃ index, EgressState.admitTunnel nameToIndex config = .ok index) ↔
      validateTunnelSource (.v4 config.ipv4) = .ok () ∧
        ∀ address, config.ipv6 = some address → validateTunnelSource (.v6 address) = .ok () := by
  have hresolve : EgressState.resolveIfindex nameToIndex config.device =
      .ok ⟨nameToIndex config.device, hindex⟩ := by
    unfold EgressState.resolveIfindex
    rw [if_neg (by simpa using hname), dif_pos hindex]
  constructor
  · rintro ⟨index, h⟩
    obtain ⟨_, -, h⟩ := ok_of_bind h
    obtain ⟨_, hv4, h⟩ := ok_of_bind h
    refine ⟨hv4, ?_⟩
    intro address haddress
    dsimp only at h
    rw [haddress] at h
    obtain ⟨_, hv6, -⟩ := ok_of_bind h
    exact hv6
  · rintro ⟨hv4, hv6⟩
    unfold EgressState.admitTunnel
    rw [hresolve, hv4]
    cases haddress : config.ipv6 with
    | none => exact ⟨_, rfl⟩
    | some address =>
      refine ⟨⟨nameToIndex config.device, hindex⟩, ?_⟩
      simp only [bind, Except.bind, hv6 address haddress]

theorem tunnelUp_ok_iff (state : EgressState) :
    (∃ up, state.tunnelUp nameToIndex config = .ok up) ↔
      ∃ index, EgressState.admitTunnel nameToIndex config = .ok index := by
  unfold EgressState.tunnelUp
  cases EgressState.admitTunnel nameToIndex config <;> simp [Except.map]

theorem nul_not_mem_device (device : DeviceName) : '\x00' ∉ device.name.toList := by
  intro hmem
  have hchar := List.all_eq_true.mp device.chars_ok _ hmem
  revert hchar
  decide

theorem fromInstalled_device {installed : InstalledPolicy} {mtu : UInt32} {binding : TunnelBinding}
    (h : TunnelBinding.fromInstalled installed mtu = .ok binding) :
    binding.device = installed.spec.device.name := by
  unfold TunnelBinding.fromInstalled at h
  dsimp only [bind, Except.bind] at h
  split at h
  · split at h
    · injection h with h
      rw [← h]
    · injection h with h
      rw [← h]
    · cases h
  · cases h

/-- **Which tunnels the policy layer installs and the egress layer then brings up.**  Both layers
    check the same IPv4 classes, but an IPv4-mapped or IPv4-compatible IPv6 address gets past the
    policy layer and is refused when the identity is brought up.  No pair of addresses is lost the
    other way round. -/
theorem egress_accepts_iff (raw : RawTunnel) :
    (∀ (spec : TunnelSpec) (plan : Plan) (nameToIndex : String → UInt32)
      (state : EgressState), TunnelSpec.parse raw = .ok spec → nameToIndex raw.device ≠ 0 →
      ((∃ binding up, TunnelBinding.fromInstalled ⟨spec, plan⟩ raw.mtu = .ok binding ∧
          state.tunnelUp nameToIndex (tunnelConfig binding) = .ok up) ↔
        ∀ text address, raw.localV6 = some text →
          parseIpAddr text.toList = some (.v6 address) → Native address)) ∧
    (∀ ipv4 : Ipv4Addr, raw.gatewayV4 = none → raw.gatewayV6 = none →
      (∃ device, DeviceName.parse raw.device = .ok device) → MtuFits raw →
      parseIpAddr raw.localV4.toList = some (.v4 ipv4) → validateTunnelSource (.v4 ipv4) = .ok () →
      (∀ text, raw.localV6 = some text → ∃ ipv6, parseIpAddr text.toList = some (.v6 ipv6) ∧
        validateTunnelSource (.v6 ipv6) = .ok ()) →
      ∃ spec, TunnelSpec.parse raw = .ok spec) := by
  constructor
  · intro spec plan nameToIndex state hparse hindex
    obtain ⟨-, -, hdevice, -, hv6⟩ := parse_ok hparse
    obtain ⟨binding, hbinding, hipv4, hipv6⟩ := fromInstalled_ok ⟨spec, plan⟩ raw.mtu
    have hname : binding.device = raw.device := (fromInstalled_device hbinding).trans hdevice
    have hsource4 : validateTunnelSource (.v4 binding.ipv4) = .ok () := by
      rw [validateTunnelSource_v4_iff, hipv4, ← spec.v4_family]
      exact spec.v4.valid
    have hvalid6 : ∀ address, binding.ipv6 = some address →
        validateAddress .v6 (.v6 address) = .ok () := by
      intro address haddress
      rw [haddress] at hipv6
      obtain ⟨endpoint, hendpoint, hlocal⟩ := Option.map_eq_some_iff.mp hipv6.symm
      rw [← hlocal, ← spec.v6_family endpoint hendpoint]
      exact endpoint.valid
    have htext : ∀ address, binding.ipv6 = some address ↔
        ∃ text, raw.localV6 = some text ∧ parseIpAddr text.toList = some (.v6 address) := by
      intro address
      rw [← Option.bind_eq_some_iff, ← hv6, ← hipv6]
      simp
    have hup : (∃ up, state.tunnelUp nameToIndex (tunnelConfig binding) = .ok up) ↔
        ∀ address, binding.ipv6 = some address → Native address := by
      rw [tunnelUp_ok_iff, admitTunnel_ok_iff]
      · constructor
        · rintro ⟨-, hsource6⟩ address haddress
          exact ((validateTunnelSource_v6_iff address).mp (hsource6 address haddress)).2
        · intro hnative
          refine ⟨hsource4, fun address haddress => ?_⟩
          exact (validateTunnelSource_v6_iff address).mpr
            ⟨hvalid6 address haddress, hnative address haddress⟩
      · show '\x00' ∉ binding.device.toList
        rw [hname, ← hdevice]
        exact nul_not_mem_device spec.device
      · show nameToIndex binding.device ≠ 0
        rw [hname]
        exact hindex
    constructor
    · rintro ⟨binding', up, hbinding', hsome⟩ text address hlocal haddress
      rw [hbinding] at hbinding'
      injection hbinding' with hbinding'
      subst hbinding'
      exact hup.mp ⟨up, hsome⟩ address ((htext address).mpr ⟨text, hlocal, haddress⟩)
    · intro hnative
      obtain ⟨up, hsome⟩ := hup.mpr fun address haddress => by
        obtain ⟨text, hlocal, hparsed⟩ := (htext address).mp haddress
        exact hnative text address hlocal hparsed
      exact ⟨binding, up, hbinding, hsome⟩
  · intro ipv4 hgateway4 hgateway6 hdevice hmtu hlocal4 hsource4 hlocal6
    refine parse_of_fits ⟨hdevice, ?_, ?_⟩ hmtu
    · rw [hgateway4]
      exact parseEndpoint_of_valid hlocal4 ((validateTunnelSource_v4_iff ipv4).mp hsource4)
    · intro text htext
      obtain ⟨ipv6, hparsed, hsource6⟩ := hlocal6 text htext
      rw [hgateway6]
      exact parseEndpoint_of_valid hparsed ((validateTunnelSource_v6_iff ipv6).mp hsource6).1

def mappedRaw : RawTunnel :=
  { device := "tun0", localV4 := "10.8.0.2", localV6 := some "::ffff:10.8.0.2", mtu := 1500 }

theorem mappedLocal_valid : validateAddress .v4 (.v4 ⟨10, 8, 0, 2⟩) = .ok () := by decide

def mappedSpec : TunnelSpec where
  device := sampleSpec.device
  v4 := ⟨.v4, .v4 ⟨10, 8, 0, 2⟩, .interface, mappedLocal_valid⟩
  v6 := some ⟨.v6, .v6 (.new 0 0 0 0 0 0xffff 0x0a08 2), .interface, by decide⟩
  mtu := ⟨1500, by decide, by decide⟩
  v4_family := rfl
  v6_family := by simp
  v6_mtu := fun _ => by decide

/-- The policy layer takes an IPv4-mapped address; the egress layer refuses it. -/
theorem mapped_address_refused :
    TunnelSpec.parse mappedRaw = .ok mappedSpec ∧
      ∃ binding, TunnelBinding.fromInstalled ⟨mappedSpec, ⟨[], fun _ => rfl⟩⟩ 1500 = .ok binding ∧
        (EgressState.new {}).tunnelUp (fun _ => 7) (tunnelConfig binding) =
          .error (.invalidTunnelAddress (.v6 ⟨[0, 0, 0, 0, 0, 0xffff, 0x0a08, 2], rfl⟩)) :=
  ⟨rfl, ⟨"tun0", ⟨10, 8, 0, 2⟩, some ⟨[0, 0, 0, 0, 0, 0xffff, 0x0a08, 2], rfl⟩, 1500⟩, rfl, rfl⟩

theorem egress_accepts_iff_dual :
    ∃ spec binding up, TunnelSpec.parse (dualRaw 1500) = .ok spec ∧
      TunnelBinding.fromInstalled ⟨spec, ⟨[], fun _ => rfl⟩⟩ 1500 = .ok binding ∧
      (EgressState.new {}).tunnelUp (fun _ => 7) (tunnelConfig binding) = .ok up := by
  obtain ⟨spec, hspec⟩ := (egress_accepts_iff (dualRaw 1500)).2 ⟨10, 8, 0, 2⟩ rfl rfl
    deviceName_tun0 ⟨by decide, by decide, fun _ => by decide⟩ rfl (by decide) (by
      intro text htext
      injection htext with htext
      subst htext
      exact ⟨⟨[0xfd00, 0, 0, 0, 0, 0, 0, 2], rfl⟩, rfl, by decide⟩)
  obtain ⟨binding, up, hbinding, hup⟩ := ((egress_accepts_iff (dualRaw 1500)).1 spec
    ⟨[], fun _ => rfl⟩ (fun _ => 7) (EgressState.new {}) hspec (by decide)).mpr (by
      intro text address htext haddress
      injection htext with htext
      subst htext
      injection haddress with haddress
      injection haddress with haddress
      subst haddress
      exact ⟨by decide, by decide⟩)
  exact ⟨spec, binding, up, hspec, hbinding, hup⟩

end ThisConnect.Session
