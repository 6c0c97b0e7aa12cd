/-
  ThisConnect.Policy.Listing
  **WHAT `ip` PRINTS, AND WHY LOOKING FOR TEXT IN IT IS CONCLUSIVE.**
-/
import ThisConnect.Policy.Entries

namespace ThisConnect.Policy

open Net Text Numeral

/-! ## §1. Rendering. -/

def tableName (table : Nat) : List Char :=
  if table = 255 then "local".toList
  else if table = 254 then "main".toList
  else if table = 253 then "default".toList
  else Nat.toDigits 10 table

/-- A host selector loses its length. -/
def prefixText (family : Family) (p : IpPrefix) : List Char :=
  p.addr.display ++ if p.bits = family.hostBits then [] else '/' :: Nat.toDigits 10 p.bits

def srcText (family : Family) : Option IpPrefix → List Char
  | none => "all".toList
  | some p => prefixText family p

def actionText : RuleAction → List Char
  | .lookup table => "lookup".toList ++ ' ' :: tableName table
  | .unreachable => "unreachable".toList

def ruleLine (r : IpRule) : List Char :=
  (Nat.toDigits 10 r.priority ++ ":\tfrom".toList) ++ ' ' ::
    (srcText r.family r.src ++ ' ' :: actionText r.action)

def dstText (family : Family) : Option IpPrefix → List Char
  | none => "default".toList
  | some p => prefixText family p

def optionText (keyword : String) : Option (List Char) → List Char
  | none => []
  | some value => ' ' :: (keyword.toList ++ ' ' :: value)

def targetWord : RouteTarget → List Char
  | .unreachable => "unreachable ".toList
  | .dev _ => []

def targetDevice : RouteTarget → Option (List Char)
  | .unreachable => none
  | .dev device => some device.toList

def routeLine (r : IpRoute) : List Char :=
  targetWord r.target ++ (dstText r.family r.dst ++ (optionText "dev" (targetDevice r.target)
    ++ (optionText "src" (r.src.map IpAddr.display)
      ++ (optionText "metric" (some (Nat.toDigits 10 r.metric))
        ++ optionText "mtu" (r.mtu.map (Nat.toDigits 10))))))

def iproute2 : Listing where
  rules rs := String.ofList (unlines (rs.map ruleLine))
  table rs := String.ofList (unlines (rs.map routeLine))

/-! ## §2. No word of a line contains a blank. -/

variable {c : Char} {ip : IpAddr} {family : Family} {r : IpRule}

theorem not_addrChar_of_mem (hc : isAddrChar c = false) :
    c ∉ ip.display := by
  intro h
  rw [isAddrChar_of_mem_display h] at hc
  exact absurd hc (by simp)

theorem not_mem_digits (hc : toDigit 10 c = none) (n : Nat) : c ∉ Nat.toDigits 10 n := by
  intro h
  have := toDigit_isSome_of_mem_toDigits (by decide) (by decide) n c h
  rw [hc] at this
  exact absurd this (by simp)

theorem not_mem_srcText (haddr : isAddrChar c = false) (hslash : c ≠ '/')
    (hdigit : toDigit 10 c = none) (hall : c ∉ "all".toList) (family : Family)
    (src : Option IpPrefix) : c ∉ srcText family src := by
  cases src with
  | none => exact hall
  | some p =>
    show c ∉ prefixText family p
    unfold prefixText
    have h1 : c ∉ p.addr.display := not_addrChar_of_mem haddr
    have h2 := not_mem_digits hdigit p.bits
    split <;> simp [h1, h2, hslash]

theorem blank_not_mem_srcText (family : Family) (src : Option IpPrefix) :
    ' ' ∉ srcText family src :=
  not_mem_srcText (by decide) (by decide) (by decide) (by decide) family src

theorem blank_not_mem_tableName (table : Nat) : ' ' ∉ tableName table := by
  unfold tableName
  have := not_mem_digits (c := ' ') (by decide) table
  split
  · decide
  · split
    · decide
    · split
      · decide
      · exact this

theorem blank_not_mem_device (device : DeviceName) : ' ' ∉ device.name.toList := by
  intro h
  exact absurd (List.all_eq_true.mp device.chars_ok ' ' h) (by decide)

theorem srcText_eq_display {src : Option IpPrefix} (h : ip.display = srcText family src) :
    src = some ⟨ip, family.hostBits⟩ := by
  cases src with
  | none =>
    have hl : 'l' ∈ ip.display := by
      rw [h]
      show 'l' ∈ "all".toList
      decide
    exact absurd hl (not_addrChar_of_mem (by decide))
  | some p =>
    have h' : ip.display = prefixText family p := h
    unfold prefixText at h'
    split at h'
    · next hbits =>
      rw [List.append_nil] at h'
      have haddr := congrArg parseIpAddr h'
      rw [parseIpAddr_display, parseIpAddr_display] at haddr
      injection haddr with haddr
      obtain ⟨addr, bits⟩ := p
      simp_all
    · have hslash : '/' ∈ ip.display := by
        rw [h']
        simp
      exact absurd hslash (slash_not_mem_display ip)

/-! ## §3. Rules. -/

theorem infix_ruleLine {a more : List Char} (ha : ' ' ∉ a)
    (h : "from".toList ++ ' ' :: (a ++ ' ' :: more) <:+: ruleLine r) :
    a = srcText r.family r.src ∧ more <+: actionText r.action := by
  have hsrc := blank_not_mem_srcText r.family r.src
  have hfirst : ' ' ∉ Nat.toDigits 10 r.priority ++ ":\tfrom".toList := by
    have := not_mem_digits (c := ' ') (by decide) r.priority
    simp [this]
  unfold ruleLine at h
  rcases infix_word hfirst (by decide) h with ⟨-, h⟩ | h
  · exact prefix_word ha hsrc h
  -- past the first word: no later word of the line ends in `from`
  · rcases infix_word hsrc (by decide) h with ⟨h, -⟩ | h
    · have hr : 'r' ∈ srcText r.family r.src := h.subset (by decide)
      exact absurd hr
        (not_mem_srcText (by decide) (by decide) (by decide) (by decide) r.family r.src)
    · cases haction : r.action with
      | unreachable =>
        rw [haction] at h
        exact absurd h (not_infix_of_sep (by decide))
      | lookup table =>
        rw [haction] at h
        rcases infix_word (by decide) (by decide) h with ⟨h, -⟩ | h
        · exact absurd h (by decide)
        · exact absurd h (not_infix_of_sep (blank_not_mem_tableName table))

theorem backstopText_toList (endpoint : TunnelEndpoint) :
    (LinuxPolicy.backstopText endpoint).toList = "from".toList ++ ' ' ::
      (endpoint.localAddr.display ++ ' ' :: "unreachable".toList) := by
  unfold LinuxPolicy.backstopText
  simp [String.toList_append]

theorem ruleText_toList (endpoint : TunnelEndpoint) :
    (LinuxPolicy.ruleText endpoint).toList = "from".toList ++ ' ' ::
      (endpoint.localAddr.display ++ ' ' :: "lookup 218".toList) := by
  unfold LinuxPolicy.ruleText policyTable
  simp [String.toList_append]

theorem blank_not_mem_display (ip : IpAddr) : ' ' ∉ ip.display := not_addrChar_of_mem (by decide)

theorem newline_not_mem_display (ip : IpAddr) : '\n' ∉ ip.display := not_addrChar_of_mem (by decide)

variable {spec : TunnelSpec} {kernel : Kernel}

variable {endpoint : TunnelEndpoint} {needle : String}

theorem own_of_srcText (hk : spec.Confined kernel) (hmem : endpoint ∈ spec.endpoints)
    (hr : r ∈ kernel.rulesOf endpoint.family)
    (hsrc : endpoint.localAddr.display = srcText r.family r.src) :
    r = endpoint.backstopRule ∨ r = endpoint.sourceRule := by
  obtain ⟨hrk, hfamily⟩ := Kernel.mem_rulesOf.mp hr
  have hhost := srcText_eq_display hsrc
  rcases hk _ hrk with hforeign | hours
  · exact absurd rfl (hforeign.2.2.2 endpoint hmem _ (by rw [hhost]; rfl))
  · obtain ⟨e, he, hcases⟩ := TunnelSpec.rule_mem_entries hours
    have hef : e.family = endpoint.family := by
      rcases hcases with rfl | rfl
      · exact hfamily
      · exact hfamily
    obtain rfl := TunnelSpec.endpoint_unique he hmem hef
    exact hcases

theorem ruleLine_shows (endpoint : TunnelEndpoint) (priority : Nat) (action : RuleAction) :
    "from".toList ++ ' ' :: (endpoint.localAddr.display ++ ' ' :: actionText action)
      <:+: ruleLine ⟨endpoint.family, priority, some endpoint.host, action⟩ := by
  refine ⟨Nat.toDigits 10 priority ++ ":\t".toList, [], ?_⟩
  simp [ruleLine, srcText, prefixText, TunnelEndpoint.host]

theorem contains_rules {rs : List IpRule} (hne : needle.toList ≠ []) (hnl : '\n' ∉ needle.toList) :
    contains (iproute2.rules rs) needle = true ↔ ∃ r ∈ rs, needle.toList <:+: ruleLine r := by
  unfold contains iproute2
  simp only [String.toList_ofList, decide_eq_true_eq]
  rw [infix_unlines hne hnl]
  simp

theorem iproute2_shows_rule {priority : Nat} {action : RuleAction}
    (htext : needle.toList = "from".toList ++ ' ' ::
      (endpoint.localAddr.display ++ ' ' :: actionText action))
    (hnl : '\n' ∉ needle.toList)
    (h : Entry.rule ⟨endpoint.family, priority, some endpoint.host, action⟩ ∈ kernel) :
    contains (iproute2.rules (kernel.rulesOf endpoint.family)) needle = true := by
  rw [contains_rules (by rw [htext]; simp) hnl, htext]
  exact ⟨_, Kernel.mem_rulesOf.mpr ⟨h, rfl⟩, ruleLine_shows endpoint priority action⟩

theorem newline_not_mem_backstopText (endpoint : TunnelEndpoint) :
    '\n' ∉ (LinuxPolicy.backstopText endpoint).toList := by
  rw [backstopText_toList]
  simp [newline_not_mem_display endpoint.localAddr]

theorem newline_not_mem_ruleText (endpoint : TunnelEndpoint) :
    '\n' ∉ (LinuxPolicy.ruleText endpoint).toList := by
  rw [ruleText_toList]
  simp [newline_not_mem_display endpoint.localAddr]

theorem iproute2_backstop (hk : spec.Confined kernel) (hmem : endpoint ∈ spec.endpoints) :
    contains (iproute2.rules (kernel.rulesOf endpoint.family))
        (LinuxPolicy.backstopText endpoint) = true ↔
      Entry.rule endpoint.backstopRule ∈ kernel := by
  have htext := backstopText_toList endpoint
  have hnl := newline_not_mem_backstopText endpoint
  constructor
  · intro h
    rw [contains_rules (by rw [htext]; simp) hnl, htext] at h
    obtain ⟨r, hr, h⟩ := h
    obtain ⟨hsrc, haction⟩ := infix_ruleLine (blank_not_mem_display _) h
    rcases own_of_srcText hk hmem hr hsrc with rfl | rfl
    · exact (Kernel.mem_rulesOf.mp hr).1
    · have hlookup : "unreachable".toList <+: actionText (.lookup 218) := haction
      exact absurd hlookup (by decide)
  · exact iproute2_shows_rule htext hnl

theorem iproute2_source (hk : spec.Confined kernel) (hmem : endpoint ∈ spec.endpoints) :
    contains (iproute2.rules (kernel.rulesOf endpoint.family))
        (LinuxPolicy.ruleText endpoint) = true ↔
      Entry.rule endpoint.sourceRule ∈ kernel := by
  have htext := ruleText_toList endpoint
  have hnl := newline_not_mem_ruleText endpoint
  constructor
  · intro h
    rw [contains_rules (by rw [htext]; simp) hnl, htext] at h
    obtain ⟨r, hr, h⟩ := h
    obtain ⟨hsrc, haction⟩ := infix_ruleLine (blank_not_mem_display _) h
    rcases own_of_srcText hk hmem hr hsrc with rfl | rfl
    · have hunreachable : "lookup 218".toList <+: actionText .unreachable := haction
      exact absurd hunreachable (by decide)
    · exact (Kernel.mem_rulesOf.mp hr).1
  · exact iproute2_shows_rule htext hnl

/-! ## §4. Routes. -/

theorem toDigits_floorMetric : Nat.toDigits 10 4000 = ['4', '0', '0', '0'] := rfl

theorem toDigits_routeMetric : Nat.toDigits 10 100 = ['1', '0', '0'] := rfl

theorem routeLine_floor (family : Family) :
    routeLine (floorRoute family) = "unreachable".toList ++ ' ' ::
      ("default".toList ++ ' ' :: ("metric".toList ++ ' ' :: "4000".toList)) := by
  unfold routeLine floorRoute targetWord targetDevice dstText optionText
  simp only [Option.map_none]
  rw [toDigits_floorMetric]
  simp

theorem routeLine_tunnel (spec : TunnelSpec) (endpoint : TunnelEndpoint) :
    routeLine (spec.tunnelRoute endpoint) =
      "default".toList ++ ' ' :: ("dev".toList ++ ' ' :: (spec.device.name.toList ++ ' ' ::
        ("src".toList ++ ' ' :: (endpoint.localAddr.display ++ ' ' :: ("metric".toList ++ ' ' ::
          ("100".toList ++ ' ' :: ("mtu".toList ++ ' ' ::
            Nat.toDigits 10 spec.mtu.value.toNat))))))) := by
  unfold routeLine TunnelSpec.tunnelRoute targetWord targetDevice dstText optionText
  simp only [Option.map_some]
  rw [toDigits_routeMetric]
  simp

theorem floorText_not_infix_tunnel (spec : TunnelSpec) (endpoint : TunnelEndpoint) :
    ¬ "unreachable".toList ++ ' ' :: "default".toList
      <:+: routeLine (spec.tunnelRoute endpoint) := by
  intro h
  have hword : ' ' ∉ "unreachable".toList := by decide
  rw [routeLine_tunnel] at h
  rcases infix_word (by decide) hword h with ⟨h, -⟩ | h
  · exact absurd h (by decide)
  rcases infix_word (by decide) hword h with ⟨h, -⟩ | h
  · exact absurd h (by decide)
  rcases infix_word (blank_not_mem_device spec.device) hword h with ⟨-, h⟩ | h
  · -- a device may be called `unreachable`, but what follows it is `src`
    obtain ⟨v, hv⟩ := h
    exact absurd (congrArg List.head? hv) (by simp)
  rcases infix_word (by decide) hword h with ⟨h, -⟩ | h
  · exact absurd h (by decide)
  rcases infix_word (blank_not_mem_display _) hword h with ⟨h, -⟩ | h
  · exact absurd (h.subset (by decide : 'u' ∈ _)) (not_addrChar_of_mem (by decide))
  rcases infix_word (by decide) hword h with ⟨h, -⟩ | h
  · exact absurd h (by decide)
  rcases infix_word (by decide) hword h with ⟨h, -⟩ | h
  · exact absurd h (by decide)
  rcases infix_word (by decide) hword h with ⟨h, -⟩ | h
  · exact absurd h (by decide)
  · exact absurd h (not_infix_of_sep (not_mem_digits (by decide) _))

theorem routeText_toList (device : DeviceName) :
    (LinuxPolicy.routeText device).toList =
      "default".toList ++ ' ' :: ("dev".toList ++ ' ' :: device.name.toList) := by
  unfold LinuxPolicy.routeText
  simp [String.toList_append]

theorem routeText_not_infix_floor (device : List Char) (family : Family) :
    ¬ "default".toList ++ ' ' :: ("dev".toList ++ ' ' :: device)
      <:+: routeLine (floorRoute family) := by
  intro h
  have hword : ' ' ∉ "default".toList := by decide
  rw [routeLine_floor] at h
  rcases infix_word (by decide) hword h with ⟨h, -⟩ | h
  · exact absurd h (by decide)
  rcases infix_word (by decide) hword h with ⟨-, h⟩ | h
  · exact absurd (prefix_word (by decide) (by decide) h).1 (by decide)
  rcases infix_word (by decide) hword h with ⟨h, -⟩ | h
  · exact absurd h (by decide)
  · exact absurd h (not_infix_of_sep (by decide))

theorem contains_table {rs : List IpRoute} (hne : needle.toList ≠ []) (hnl : '\n' ∉ needle.toList) :
    contains (iproute2.table rs) needle = true ↔ ∃ r ∈ rs, needle.toList <:+: routeLine r := by
  unfold contains iproute2
  simp only [String.toList_ofList, decide_eq_true_eq]
  rw [infix_unlines hne hnl]
  simp

theorem iproute2_shows_floor (h : Entry.route (floorRoute family) ∈ kernel) :
    contains (iproute2.table (kernel.tableOf family 218)) LinuxPolicy.floorText = true := by
  rw [contains_table (by decide) (by decide)]
  refine ⟨floorRoute family, Kernel.mem_tableOf.mpr ⟨h, rfl, rfl⟩, ?_⟩
  rw [routeLine_floor]
  decide

theorem newline_not_mem_routeText (device : DeviceName) :
    '\n' ∉ (LinuxPolicy.routeText device).toList := by
  have hnl : '\n' ∉ device.name.toList := fun h =>
    absurd (List.all_eq_true.mp device.chars_ok '\n' h) (by decide)
  rw [routeText_toList]
  simp [hnl]

theorem iproute2_shows_tunnel (h : Entry.route (spec.tunnelRoute endpoint) ∈ kernel) :
    contains (iproute2.table (kernel.tableOf endpoint.family 218))
      (LinuxPolicy.routeText spec.device) = true := by
  have htext := routeText_toList spec.device
  rw [contains_table (by rw [htext]; simp) (newline_not_mem_routeText _), htext]
  refine ⟨spec.tunnelRoute endpoint, Kernel.mem_tableOf.mpr ⟨h, rfl, rfl⟩, [],
    ' ' :: ("src".toList ++ ' ' :: (endpoint.localAddr.display ++ ' ' :: ("metric".toList
      ++ ' ' :: ("100".toList ++ ' ' :: ("mtu".toList ++ ' ' ::
        Nat.toDigits 10 spec.mtu.value.toNat))))), ?_⟩
  rw [routeLine_tunnel]
  simp

theorem iproute2_floor (hk : spec.Confined kernel) (family : Family) :
    contains (iproute2.table (kernel.tableOf family 218)) LinuxPolicy.floorText = true ↔
      Entry.route (floorRoute family) ∈ kernel := by
  constructor
  · intro h
    rw [contains_table (by decide) (by decide)] at h
    obtain ⟨r, hr, h⟩ := h
    obtain ⟨hrk, hfamily, htable⟩ := Kernel.mem_tableOf.mp hr
    obtain ⟨e, -, rfl | rfl⟩ := hk.table hrk htable
    · exact hfamily ▸ hrk
    · exact absurd h (floorText_not_infix_tunnel spec e)
  · exact iproute2_shows_floor

theorem iproute2_tunnel (hk : spec.Confined kernel) (hmem : endpoint ∈ spec.endpoints) :
    contains (iproute2.table (kernel.tableOf endpoint.family 218))
        (LinuxPolicy.routeText spec.device) = true ↔
      Entry.route (spec.tunnelRoute endpoint) ∈ kernel := by
  constructor
  · intro h
    have htext := routeText_toList spec.device
    rw [contains_table (by rw [htext]; simp) (newline_not_mem_routeText _), htext] at h
    obtain ⟨r, hr, h⟩ := h
    obtain ⟨hrk, hfamily, htable⟩ := Kernel.mem_tableOf.mp hr
    obtain ⟨e, he, rfl | rfl⟩ := hk.table hrk htable
    · exact absurd h (routeText_not_infix_floor _ _)
    · obtain rfl := TunnelSpec.endpoint_unique he hmem hfamily
      exact hrk
  · exact iproute2_shows_tunnel

theorem iproute2_decides (spec : TunnelSpec) : iproute2.Decides spec where
  backstop _ hk _ hmem := iproute2_backstop hk hmem
  floor _ hk endpoint _ := iproute2_floor hk endpoint.family
  source _ hk _ hmem := iproute2_source hk hmem
  tunnel _ hk _ hmem := iproute2_tunnel hk hmem

theorem iproute2_shows : iproute2.Shows where
  backstop _ endpoint :=
    iproute2_shows_rule (backstopText_toList endpoint) (newline_not_mem_backstopText endpoint)
  floor _ _ := iproute2_shows_floor
  source _ endpoint :=
    iproute2_shows_rule (ruleText_toList endpoint) (newline_not_mem_ruleText endpoint)
  tunnel _ _ _ := iproute2_shows_tunnel

end ThisConnect.Policy
