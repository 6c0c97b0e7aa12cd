/-
  ThisConnect.Proxy.Agreement
  **THE TWO FRONT ENDS AGREE ON DESTINATIONS.**

  Main result: `front_ends_agree`.
-/
import ThisConnect.Proxy.Requests

namespace ThisConnect.Proxy

open Net Codec Text

/-! ## §1. Hosts. -/

inductive Host where
  | plain (raw : List UInt8) (fits : raw.length ≤ 255) (no_colon : 0x3A ∉ raw)
      (no_bracket : raw.head? ≠ some 0x5B)
  | ipv6 (text : List Char) (address : Ipv6Addr) (parses : parseIpv6 text = some address)

/-- In a DOMAINNAME field. -/
def Host.domain : Host → List UInt8
  | .plain raw _ _ _ => raw
  | .ipv6 text _ _ => bytes text

def Host.authority : Host → List UInt8
  | .plain raw _ _ _ => raw
  | .ipv6 text _ _ => 0x5B :: (bytes text ++ [0x5D])

/-! ## §2. Printable hosts. -/

open Http (Printable authorityText)

variable {port : UInt16} {raw stream : List UInt8} {config : Http.HttpConfig} {text : List Char}
variable {address : Ipv6Addr} {request : Http.Head}

theorem parsePort_digits (hport : port ≠ 0) :
    Http.parsePort (Nat.toDigits 10 port.toNat) = .ok port := by
  have hdigits : (Nat.toDigits 10 port.toNat).all Char.isDigit = true :=
    List.all_eq_true.mpr fun c hc => (Http.digits_ascii _ c hc).2
  have hne : Nat.toDigits 10 port.toNat ≠ [] := by simp
  have hzero : port.toNat ≠ 0 := fun h => hport (UInt16.toNat_inj.mp h)
  have hlen := Http.byteLen_digits port
  unfold Http.parsePort
  rw [if_neg (by simp [hne, hdigits]; omega), Numeral.parseUnsigned_toDigits port.toNat_lt]
  simp [hzero]

theorem printable_of_any (h : (raw.any fun byte => !(0x21 ≤ byte && byte ≤ 0x7e)) = false) :
    Printable raw := by
  intro b hb
  simpa using List.any_eq_false.mp h b hb

theorem validateHost_printable (h : Printable raw) (hfits : raw.length ≤ 255) (hne : raw ≠ []) :
    Http.validateHost (chars raw) = .ok () := by
  have hne' : chars raw ≠ [] := by
    intro hnil
    exact hne (List.map_eq_nil_iff.mp hnil)
  unfold Http.validateHost
  rw [if_neg (by simpa using hne'), byteLen_chars h.ascii,
    if_neg (by simpa [Http.maxHostLen] using hfits), bytes_chars h.ascii, Http.any_unprintable h]
  rfl

theorem domainTarget_unprintable (h : ¬ Printable raw) {config : Socks5.Socks5Config} :
    (Socks5.domainTarget raw port config).toOption = none := by
  have hany : (raw.any fun byte => !(0x21 ≤ byte && byte ≤ 0x7e)) = true := by
    by_contra hnone
    exact h (printable_of_any (by simpa using hnone))
  have hinvalid : ∃ e, Socks5.validateHostname raw = .error e := by
    unfold Socks5.validateHostname
    rw [hany, if_pos (rfl : true = true)]
    split_ifs with hempty hlong hnul
    · exact ⟨_, rfl⟩
    · exact ⟨_, rfl⟩
    · exact ⟨_, rfl⟩
    · exact ⟨_, rfl⟩
  obtain ⟨e, he⟩ := hinvalid
  unfold Socks5.domainTarget
  rw [he]
  rfl

variable {http : Http.HttpConfig} {socks5 : Socks5.Socks5Config} {target : Target}
  {head : List UInt8} {smooth : Bool}

theorem ipTarget_agrees (hv6 : socks5.tunnelHasV6 = http.tunnelHasV6) (address : IpAddr)
    (hport : port ≠ 0) :
    (Http.ipTarget address port http).toOption =
      (Socks5.finishIpTarget address port socks5).toOption := by
  unfold Http.ipTarget Socks5.finishIpTarget
  rw [hv6, if_neg hport]
  split
  · rfl
  · rfl

theorem addrChar_range {c : Char} (h : isAddrChar c = true) : 0x21 ≤ c.toNat ∧ c.toNat ≤ 0x7e := by
  simp only [isAddrChar, Bool.or_eq_true, beq_iff_eq] at h
  rcases h with (h | rfl) | rfl
  · have halnum : c.isDigit = true ∨ c.isLower = true ∨ c.isUpper = true := by
      by_contra hnot
      push Not at hnot
      simp [Numeral.toDigit, hnot] at h
    rcases halnum with h | h | h
    · obtain ⟨hlow, hhigh⟩ := Char.isDigit_iff_toNat.mp h
      exact ⟨Nat.le_trans (by decide) hlow, Nat.le_trans hhigh (by decide)⟩
    · simp only [Char.isLower, Bool.and_eq_true, decide_eq_true_eq, ge_iff_le,
        UInt32.le_iff_toNat_le] at h
      exact ⟨Nat.le_trans (by decide) h.1, Nat.le_trans h.2 (by decide)⟩
    · simp only [Char.isUpper, decide_eq_true_eq, ge_iff_le, UInt32.le_iff_toNat_le] at h
      exact ⟨Nat.le_trans (by decide) h.1, Nat.le_trans h.2 (by decide)⟩
  · decide
  · decide

theorem ascii_of_parseIpv6 (h : parseIpv6 text = some address) :
    ∀ c ∈ text, c.toNat < 128 := fun c hc =>
  Nat.lt_of_le_of_lt (addrChar_range (isAddrChar_of_parseIpv6 h c hc)).2 (by decide)

theorem printable_of_parseIpv6 (h : parseIpv6 text = some address) : Printable (bytes text) := by
  intro b hb
  obtain ⟨c, hc, hb⟩ := List.mem_flatMap.mp hb
  have hascii := ascii_of_parseIpv6 h c hc
  rw [utf8EncodeChar_ascii hascii] at hb
  rw [List.mem_singleton.mp hb, UInt8.le_iff_toNat_le, UInt8.le_iff_toNat_le,
    toNat_ofNat_byte hascii]
  exact addrChar_range (isAddrChar_of_parseIpv6 h c hc)

section Targets

variable {socks5 : Socks5.Socks5Config} {http : Http.HttpConfig}
variable (hv6 : socks5.tunnelHasV6 = http.tunnelHasV6) (hport : port ≠ 0)

include hv6 hport

theorem target_plain (hprintable : Printable raw) (hfits : raw.length ≤ 255) (hcolon : 0x3A ∉ raw)
    (hbracket : raw.head? ≠ some 0x5B) :
    (Http.targetFromAuthority (authorityText raw port) http).toOption =
      (Socks5.domainTarget raw port socks5).toOption := by
  have hdigits : ':' ∉ Nat.toDigits 10 port.toNat := fun h =>
    absurd (Http.digits_ascii _ _ h).2 (by decide)
  have hcolon' : ':' ∉ chars raw := fun h =>
    hcolon ((mem_chars_iff (b := 0x3A) hprintable.ascii (by decide)).mp h)
  have hsplit := rsplitOnce_last (x := chars raw) hdigits
  have hplain : Http.targetFromAuthority (authorityText raw port) http =
      (Http.validateHost (chars raw)).bind fun _ =>
        (parseIpAddr (chars raw)).elim (.ok (.domain (chars raw) port))
          fun address => Http.ipTarget address port http := by
    unfold Http.targetFromAuthority
    split
    · next rest hrest =>
      -- the text would start with a bracket
      cases raw with
      | nil => exact absurd hrest (by simp [authorityText])
      | cons b raw =>
        have hb : Char.ofNat b.toNat = Char.ofNat (0x5B : UInt8).toNat := by
          injection hrest with hb _
        have := ofNat_toNat_inj (hprintable.ascii b (by simp)) (by decide) hb
        exact absurd (by rw [this]; rfl) hbracket
    · rw [authorityText, hsplit]
      dsimp only
      rw [if_neg (by simpa using hcolon'), parsePort_digits hport]
      cases parseIpAddr (chars raw) <;> rfl
  rw [hplain]
  unfold Socks5.domainTarget
  by_cases hne : raw = []
  · rw [hne]
    rfl
  · rw [Http.validateHostname_printable hprintable hfits hne,
      validateHost_printable hprintable hfits hne]
    simp only [Except.bind]
    cases parseIpAddr (chars raw) with
    | some address => exact ipTarget_agrees hv6 address hport
    | none =>
      dsimp only [Option.elim]
      rw [if_neg hport]
      rfl

theorem target_ipv6 (hparse : parseIpv6 text = some address) (hfits : (bytes text).length ≤ 255) :
    (Http.targetFromAuthority (authorityText (0x5B :: (bytes text ++ [0x5D])) port) http).toOption =
      (Socks5.domainTarget (bytes text) port socks5).toOption := by
  have htext := ascii_of_parseIpv6 hparse
  have hbracket : ']' ∉ text := fun h => absurd (isAddrChar_of_parseIpv6 hparse _ h) (by decide)
  have hauthority : authorityText (0x5B :: (bytes text ++ [0x5D])) port =
      '[' :: (text ++ ']' :: ':' :: Nat.toDigits 10 port.toNat) := by
    rw [authorityText, chars_cons, chars_append, chars_bytes htext]
    simp
  have hsplit : splitOnce ']' (text ++ ']' :: ':' :: Nat.toDigits 10 port.toNat) =
      some (text, ':' :: Nat.toDigits 10 port.toNat) := splitOnce_eq_some.mpr ⟨rfl, hbracket⟩
  have hhttp : Http.targetFromAuthority (authorityText (0x5B :: (bytes text ++ [0x5D])) port) http =
      Http.ipTarget (.v6 address) port http := by
    rw [hauthority]
    simp only [Http.targetFromAuthority, hsplit, hparse, parsePort_digits hport]
    rfl
  have hne : bytes text ≠ [] := by
    intro hnil
    have : text = [] := by rw [← chars_bytes htext, hnil]; rfl
    rw [this] at hparse
    cases hparse
  rw [hhttp]
  unfold Socks5.domainTarget
  rw [Http.validateHostname_printable (printable_of_parseIpv6 hparse) hfits hne, chars_bytes htext]
  simp only [Except.bind]
  rw [parseIpAddr_of_parseIpv6 hparse]
  exact ipTarget_agrees hv6 (.v6 address) hport

end Targets

/-! ## §3. Other hosts. -/

theorem target_of_parseHead (h : Http.parseHead text = .ok request) :
    "CONNECT ".toList ++ request.target <+: text ∧ ∀ c ∈ request.target, c.toNat < 128 := by
  unfold Http.parseHead at h
  dsimp only at h
  split at h
  · cases h
  · obtain ⟨target, hline, h⟩ := ok_of_bind h
    obtain ⟨headers, -, h⟩ := ok_of_bind h
    obtain ⟨_, -, rfl⟩ := ok_of_map h
    have hfirst : (splitCrlf text).headD [] <+: text := by
      obtain ⟨line, lines, hlines⟩ := List.exists_cons_of_ne_nil (splitCrlf_ne_nil text)
      rw [hlines]
      conv_rhs => rw [← intercalate_splitCrlf text, hlines]
      cases lines with
      | nil => simp [List.intercalate]
      | cons line' lines => simp [List.intercalate]
    generalize (splitCrlf text).headD [] = line at hline hfirst
    have hjoin := @List.intercalate_splitOn _ line _ _ ' '
    unfold Http.parseRequestLine at hline
    split at hline
    · cases hline
    · next hascii =>
      split at hline
      · next method target' version more hsplit =>
        rw [hsplit] at hjoin
        split_ifs at hline with hmore hempty hversion hmethod
        cases hline
        have hconnect : method = "CONNECT".toList := by simpa using hmethod
        have hnil : more = [] := by simpa using hmore
        subst hconnect hnil
        have hparts : line = "CONNECT ".toList ++ target ++ ' ' :: version := by
          rw [← hjoin]
          simp [List.intercalate]
        refine ⟨(List.prefix_append _ _).trans (hparts ▸ hfirst), fun c hc => ?_⟩
        have hall : line.all (·.toNat < 128) = true := by simpa using hascii
        have hmem : c ∈ line := by
          rw [hparts]
          simp [hc]
        simpa using List.all_eq_true.mp hall c hmem
      · cases hline

theorem host_of_targetFromAuthority {authority : List Char}
    (h : Http.targetFromAuthority authority config = .ok target) :
    (∃ rest, authority = '[' :: rest) ∨
      ∃ host port, authority = host ++ ':' :: port ∧ ':' ∉ host ∧
        Http.validateHost host = .ok () := by
  unfold Http.targetFromAuthority at h
  split at h
  · next rest => exact .inl ⟨rest, rfl⟩
  · split at h
    · cases h
    · next host port hsplit =>
      obtain ⟨hcolon, h⟩ := ok_of_unless h
      obtain ⟨_, -, h⟩ := ok_of_bind h
      obtain ⟨_, hvalid, -⟩ := ok_of_bind h
      exact .inr ⟨host, port, rsplitOnce_eq_some hsplit, by simpa using hcolon, hvalid⟩

theorem printable_of_validateHost {host : List Char} (h : Http.validateHost host = .ok ()) :
    Printable (bytes host) := by
  unfold Http.validateHost at h
  split_ifs at h with hempty hlong hany
  exact printable_of_any (by simpa using hany)

theorem ascii_mark {bs : List UInt8} (h : ∀ b ∈ bs, 0x20 ≤ b ∧ b < 0x80) : Ascii bs :=
  fun b hb => ⟨UInt8.lt_of_lt_of_le (by decide) (h b hb).1, (h b hb).2⟩

theorem bytes_of_connect (htext : fromUtf8 head = some text) {mark : List UInt8}
    (hmark : Printable mark) (h : "CONNECT ".toList ++ chars mark <+: text) :
    bytes "CONNECT ".toList ++ mark <+: head := by
  have hall : Ascii (bytes "CONNECT ".toList ++ mark) := by
    refine ascii_mark fun b hb => ?_
    rcases List.mem_append.mp hb with hb | hb
    · have hfixed : ∀ b ∈ bytes "CONNECT ".toList, (0x20 : UInt8) ≤ b ∧ b < 0x80 := by
        decide +kernel
      exact hfixed b hb
    · exact ⟨UInt8.le_trans (by decide) (hmark b hb).1, hmark.ascii b hb⟩
  refine (mark_prefix_iff hall head).mp ?_
  rw [fromUtf8Lossy_eq htext]
  have hconnect : chars (bytes "CONNECT ".toList) = "CONNECT ".toList := by decide
  show chars (bytes "CONNECT ".toList ++ mark) <+: text
  rw [chars_append, hconnect]
  exact h

theorem printable_of_accepted (hcolon : 0x3A ∉ raw) (hbracket : raw.head? ≠ some 0x5B)
    {rest : List UInt8} (hhead : head <+: bytes "CONNECT ".toList ++ (raw ++ 0x3A :: rest))
    (htext : fromUtf8 head = some text) (hparse : Http.parseHead text = .ok request)
    (htarget : Http.targetFromAuthority request.target config = .ok target) :
    Printable raw := by
  obtain ⟨hline, hascii⟩ := target_of_parseHead hparse
  rcases host_of_targetFromAuthority htarget with
    ⟨inside, hinside⟩ | ⟨host, port, hhost, hfree, hvalid⟩
  · -- the bracket would be the first byte of the host
    have hmark : bytes "CONNECT ".toList ++ [0x5B] <+: head := by
      refine bytes_of_connect htext (fun b hb => ?_) (List.IsPrefix.trans ?_ hline)
      · rw [List.mem_singleton.mp hb]
        decide
      rw [hinside]
      exact ⟨inside, by simp [chars]⟩
    have hfirst := (List.prefix_append_right_inj _).mp (hmark.trans hhead)
    cases raw with
    | nil => exact absurd hfirst (by simp)
    | cons b raw =>
      rw [List.cons_append, List.cons_prefix_cons] at hfirst
      exact absurd (by rw [hfirst.1]; rfl) hbracket
  · have hhostAscii : ∀ c ∈ host, c.toNat < 128 := fun c hc => hascii c (by simp [hhost, hc])
    have hprintable := printable_of_validateHost hvalid
    have hmark : bytes "CONNECT ".toList ++ (bytes host ++ [0x3A]) <+: head := by
      refine bytes_of_connect htext (fun b hb => ?_) (List.IsPrefix.trans ?_ hline)
      · rcases List.mem_append.mp hb with hb | hb
        · exact hprintable b hb
        · rw [List.mem_singleton.mp hb]
          decide
      · rw [chars_append, chars_bytes hhostAscii, hhost]
        exact ⟨port, by simp [chars]⟩
    obtain ⟨more, hmore⟩ := (List.prefix_append_right_inj _).mp (hmark.trans hhead)
    have hfree' : (0x3A : UInt8) ∉ bytes host := by
      intro hmem
      have hchar := List.mem_map_of_mem (f := fun b : UInt8 => Char.ofNat b.toNat) hmem
      rw [show (bytes host).map (fun b : UInt8 => Char.ofNat b.toNat) = host from
        chars_bytes hhostAscii] at hchar
      exact hfree hchar
    rw [List.append_assoc, List.cons_append, List.nil_append] at hmore
    obtain ⟨rfl, -⟩ := Framing.append_sep_inj hfree' hcolon hmore
    exact hprintable

/-! ## §4. The HTTP session. -/

section Session

variable {decode : List Char → Option (List UInt8)} {smooth : Bool} {R : Prop}

theorem Http.yields_authorize (peer : IpAddr) {credentials : Credentials}
    (hauth : config.auth = .required credentials) {header : List Char × List Char}
    (hfind : request.headers.find? (Http.isNamed "proxy-authorization") = some header)
    (hdecode : Http.decodeBasic decode header.2 =
      some (credentials.username, credentials.password)) :
    Yields smooth (Http.authorize decode request peer config) stream (fun _ _ => True) R := by
  obtain ⟨name, value⟩ := header
  unfold Http.authorize
  rw [hauth]
  dsimp only
  rw [hfind]
  refine (Yields.hasCapacity peer).bind fun capacity left h => ?_
  obtain ⟨hcapacity, rfl⟩ := h
  split
  · next hfull =>
    refine Yields.throw fun hsmooth => ?_
    rw [hcapacity hsmooth] at hfull
    cases hfull
  · rw [hdecode, if_pos (by simp [Credentials.verify])]
    exact Yields.pure trivial

theorem Http.yields_authorize_any (peer : IpAddr) (config : Http.HttpConfig) (request : Http.Head)
    (hR : R) (stream : List UInt8) :
    Yields smooth (Http.authorize decode request peer config) stream (fun _ _ => True) R := by
  unfold Http.authorize
  split
  · exact Yields.pure trivial
  · split
    · exact Yields.throw fun _ => hR
    · refine (Yields.hasCapacity peer).bind fun capacity left _ => ?_
      split
      · exact Yields.throw fun _ => hR
      · split
        · exact Yields.pure trivial
        · exact (Yields.recordFailure peer).bind fun _ _ _ => Yields.throw fun _ => hR

variable {credentials : Credentials}
variable {verdict : Option Target}

theorem Http.yields_printable (peer : IpAddr) (hauth : config.auth = .required credentials)
    {authority : List UInt8} (hprintable : Printable authority) (hshort : authority.length ≤ 257)
    (hverdict : (Http.targetFromAuthority (authorityText authority port) config).toOption = verdict)
    (h : Http.Requests decode credentials authority port stream) :
    Yields smooth (Http.negotiateInner decode peer config) stream
      (fun head _ => verdict = some head.target) (verdict = none) := by
  obtain ⟨lines, rest, rfl, ⟨texts, headers, header, htexts, hheaders, hframing, hfind, hdecode⟩,
    hfits⟩ := h
  have hlines := Http.lines_of_texts htexts (Http.lines_of_parseHeaders hheaders)
  have hstop := Http.findTerminator_requestHead hprintable port hlines rest
  obtain ⟨text, htext, hparse⟩ :=
    Http.parseHead_requestHead hprintable port hshort htexts hheaders hframing
  refine (Http.yields_readHead hstop hfits).bind fun raw left hraw => ?_
  rw [List.take_left] at hraw
  rw [hraw, htext]
  refine (Yields.ofExcept (V := fun request _ => request = ⟨authorityText authority port, headers⟩)
    _ (fun request hrequest => ?_) (fun e he => ?_)).bind fun request left hrequest => ?_
  · rw [hparse] at hrequest
    injection hrequest with hrequest
    exact hrequest.symm
  · rw [hparse] at he
    cases he
  · subst hrequest
    refine (Http.yields_authorize peer hauth hfind hdecode).bind fun _ left _ => ?_
    refine (Yields.ofExcept (V := fun target _ => verdict = some target) _
      (fun target htarget => ?_) (fun e he => ?_)).bind fun target left htarget => ?_
    · rw [← hverdict, htarget]
      rfl
    · rw [← hverdict, he]
      rfl
    · exact Yields.pure htarget

theorem Http.yields_unprintable (peer : IpAddr) (config : Http.HttpConfig) (hcolon : 0x3A ∉ raw)
    (hbracket : raw.head? ≠ some 0x5B) (hraw : ¬ Printable raw)
    (h : Http.Requests decode credentials raw port stream) :
    Yields smooth (Http.negotiateInner decode peer config) stream (fun _ _ => False) True := by
  obtain ⟨lines, rest, rfl, -, hfits⟩ := h
  obtain ⟨stop, hle, hstop⟩ := Http.exists_findTerminator (Http.requestHead raw port lines) rest
  have hfour : Http.terminator.length = 4 := rfl
  refine (Http.yields_readHead hstop (by omega)).bind fun head left hhead => ?_
  obtain ⟨tail, htail⟩ : ∃ tail, Http.requestHead raw port lines =
      bytes "CONNECT ".toList ++ (raw ++ 0x3A :: tail) := by
    unfold Http.requestHead Http.requestLine
    exact ⟨_, by rw [List.append_assoc, List.append_assoc]; rfl⟩
  have hcut : head.head <+: bytes "CONNECT ".toList ++ (raw ++ 0x3A :: tail) := by
    rw [hhead, List.take_append_of_le_length hle, ← htail]
    exact List.take_prefix _ _
  split
  · exact Yields.throw fun _ => trivial
  · next text htext =>
    refine (Yields.ofExcept (V := fun request _ => Http.parseHead text = .ok request) _
      (fun request hrequest => hrequest) (fun _ _ => trivial)).bind fun request left hparse => ?_
    refine (Http.yields_authorize_any peer config request trivial left).bind fun _ left _ => ?_
    refine (Yields.ofExcept (V := fun _ _ => False) _ (fun target htarget => ?_)
      (fun _ _ => trivial)).bind fun _ _ h => h.elim
    exact hraw (printable_of_accepted hcolon hbracket hcut htext hparse htarget)

theorem Http.yields_negotiate (peer : IpAddr)
    (h : Yields smooth (Http.negotiateInner decode peer config) stream
      (fun head _ => verdict = some head.target) (verdict = none)) :
    Yields smooth (Http.negotiate decode peer config) stream
      (fun head _ => verdict = some head.target) (verdict = none) := by
  refine h.rethrow fun err left => ?_
  refine Yields.bind (V := fun _ _ => True) ?_ fun _ _ _ => Yields.throw fun _ => trivial
  split
  · exact (Yields.send _).mono (fun _ _ _ => trivial) id
  · exact Yields.pure trivial

theorem Http.settles_serve (peer : IpAddr)
    (h : Yields smooth (Http.negotiateInner decode peer config) stream
      (fun head _ => verdict = some head.target) (verdict = none)) :
    Settles smooth (Http.serve decode peer config) stream verdict := by
  refine Settles.andThen (Settles.after ((Http.yields_negotiate peer h).deadline _)
    fun outcome left houtcome => ?_) fun session left => ?_
  · obtain ⟨hsome, hnone⟩ := houtcome
    cases outcome with
    | none =>
      have hrough : smooth = true → verdict = none := by
        intro hsmooth
        rw [hnone rfl] at hsmooth
        cases hsmooth
      exact Settles.of_yields ((Yields.send _).bind fun _ _ _ => Yields.throw hrough)
    | some head =>
      rw [hsome head rfl]
      refine Settles.andThen (Settles.andThen (Settles.dialWithin _ head.target)
        fun r left => ?_) fun r left => ?_
      · split
        · exact Yields.pure trivial
        · exact Yields.pure trivial
        · exact Yields.pure trivial
      · split
        · exact (Yields.send _).bind fun _ _ _ => Yields.pure trivial
        · refine Yields.bind (V := fun _ _ => True) ?_ fun _ _ _ => Yields.throw fun _ => trivial
          split
          · exact (Yields.send _).mono (fun _ _ _ => trivial) id
          · exact Yields.pure trivial
  · refine Yields.bind (V := fun _ _ => True) ?_ fun _ left _ =>
      Yields.relay.bind fun _ _ _ => Yields.pure trivial
    split
    · exact Yields.pure trivial
    · exact Yields.forward _

end Session

/-! ## §5. The listener. -/

theorem yields_peekFirstByte {R : Prop} (limit : Duration) (first : UInt8) (rest : List UInt8) :
    Yields smooth (peekFirstByte limit) (first :: rest)
      (fun b left => b = first ∧ left = first :: rest) R := by
  refine ((Yields.client (V := fun b left => b = [first] ∧ left = first :: rest) .peek
    (fun s b s' hs h => ?_) (fun s _ => ⟨_, s, rfl, rfl⟩)).deadline limit).bind
      fun outcome left h => ?_
  · obtain ⟨rfl, rfl⟩ := h
    rw [hs]
    exact ⟨rfl, rfl⟩
  · obtain ⟨hsome, hnone⟩ := h
    cases outcome with
    | none =>
      refine Yields.throw fun hsmooth => ?_
      rw [hnone rfl] at hsmooth
      cases hsmooth
    | some b =>
      obtain ⟨rfl, rfl⟩ := hsome b rfl
      exact Yields.pure ⟨rfl, rfl⟩

section Listener

variable {smooth : Bool} {verdict : Option Target}

variable {rest : List UInt8}

theorem settles_serve_socks5 (decode : List Char → Option (List UInt8)) (peer : IpAddr)
    (runtime : Runtime)
    (h : Settles smooth (Socks5.serve peer runtime.socks5) (0x05 :: rest) verdict) :
    Settles smooth (serve decode peer runtime) (0x05 :: rest) verdict := by
  refine Settles.after (yields_peekFirstByte _ 0x05 rest) fun first left hfirst => ?_
  obtain ⟨rfl, rfl⟩ := hfirst
  exact h.adapt _

theorem settles_serve_http (decode : List Char → Option (List UInt8)) (peer : IpAddr)
    (runtime : Runtime)
    (h : Settles smooth (Http.serve decode peer runtime.http) (0x43 :: rest) verdict) :
    Settles smooth (serve decode peer runtime) (0x43 :: rest) verdict := by
  refine Settles.after (yields_peekFirstByte _ 0x43 rest) fun first left hfirst => ?_
  obtain ⟨rfl, rfl⟩ := hfirst
  exact h.adapt _

end Listener

theorem start_runtime {bindOne : Nat → SocketAddr → Except IoError SocketAddr}
    {config : ListenerConfig} {handle : Handle} (h : start bindOne config = .ok handle)
    {acceptor : Acceptor} (hmem : acceptor ∈ handle.acceptors) :
    acceptor.runtime.socks5 =
        ⟨config.auth.policy, config.tunnelHasV6, config.handshakeTimeout⟩ ∧
      acceptor.runtime.http =
        ⟨config.auth.policy, config.tunnelHasV6, config.handshakeTimeout,
          config.connectTimeout⟩ := by
  obtain ⟨_, -, h⟩ := ok_of_bind h
  obtain ⟨outcome, -, rfl⟩ := ok_of_map h
  obtain ⟨addr, -, rfl⟩ := List.mem_map.mp hmem
  exact ⟨rfl, rfl⟩

theorem Http.yields_host {decode : List Char → Option (List UInt8)} (peer : IpAddr)
    (hv6 : socks5.tunnelHasV6 = http.tunnelHasV6) {credentials : Credentials}
    (hauth : http.auth = .required credentials) (host : Host) (hfits : host.domain.length ≤ 255)
    (hport : port ≠ 0) (h : Http.Requests decode credentials host.authority port stream) :
    Yields smooth (Http.negotiateInner decode peer http) stream
      (fun head _ => (Socks5.domainTarget host.domain port socks5).toOption = some head.target)
      ((Socks5.domainTarget host.domain port socks5).toOption = none) := by
  cases host with
  | plain raw fits no_colon no_bracket =>
    by_cases hprintable : Printable raw
    · exact Http.yields_printable peer hauth hprintable (Nat.le_trans fits (by decide))
        (target_plain hv6 hport hprintable fits no_colon no_bracket) h
    · refine (Http.yields_unprintable peer http no_colon no_bracket hprintable h).mono
        (fun _ _ h => h.elim) fun _ => ?_
      show (Socks5.domainTarget raw port socks5).toOption = none
      exact domainTarget_unprintable hprintable
  | ipv6 text address parses =>
    have hprintable : Printable (0x5B :: (bytes text ++ [0x5D])) := by
      intro b hb
      simp only [List.mem_cons, List.mem_append, List.not_mem_nil, or_false] at hb
      rcases hb with rfl | hb | rfl
      · decide
      · exact printable_of_parseIpv6 parses b hb
      · decide
    refine Http.yields_printable peer hauth hprintable ?_ (target_ipv6 hv6 hport parses hfits) h
    rw [List.length_cons, List.length_append]
    exact Nat.add_le_add_right (Nat.add_le_add_right hfits 1) 1

/-- **The two front ends agree on destinations.** -/
theorem front_ends_agree {bindOne : Nat → SocketAddr → Except IoError SocketAddr}
    {config : ListenerConfig} {handle : Handle} (hstart : start bindOne config = .ok handle)
    {acceptor : Acceptor} (hacceptor : acceptor ∈ handle.acceptors)
    {credentials : ProxyCredentials} (hauth : config.auth = .required credentials)
    (decode : List Char → Option (List UInt8)) (peer : IpAddr) (host : Host) {port : UInt16}
    (hport : port ≠ 0) {socks5 http : List UInt8}
    (hsocks5 : Socks5.Requests credentials.toSocks5 host.domain port socks5)
    (hhttp : Http.Requests decode credentials.toSocks5 host.authority port http) :
    ∃ verdict, Decides (serve decode peer acceptor.runtime) socks5 verdict ∧
      Decides (serve decode peer acceptor.runtime) http verdict := by
  obtain ⟨hruntime, hruntime'⟩ := start_runtime hstart hacceptor
  have hpolicy : config.auth.policy = .required credentials.toSocks5 := by
    rw [hauth]
    rfl
  have hauth5 : acceptor.runtime.socks5.auth = .required credentials.toSocks5 := by
    rw [hruntime]
    exact hpolicy
  have hauthHttp : acceptor.runtime.http.auth = .required credentials.toSocks5 := by
    rw [hruntime']
    exact hpolicy
  have hv6 : acceptor.runtime.socks5.tunnelHasV6 = acceptor.runtime.http.tunnelHasV6 := by
    rw [hruntime, hruntime']
  have hfits : host.domain.length ≤ 255 := by
    obtain ⟨-, -, -, len, -, -, -, -, -, -, -, hlen⟩ := hsocks5
    rw [← hlen]
    exact Nat.le_of_lt_succ len.toNat_lt
  refine ⟨(Socks5.domainTarget host.domain port acceptor.runtime.socks5).toOption,
    Decides.of_settles fun smooth => ?_, Decides.of_settles fun smooth => ?_⟩
  · have hsettles : Settles smooth _ socks5 _ := Socks5.settles_serve peer hauth5 hsocks5
    obtain ⟨_, _, _, _, _, _, rfl, -⟩ := hsocks5
    exact settles_serve_socks5 decode peer acceptor.runtime hsettles
  · have hsettles : Settles smooth _ http _ := Http.settles_serve peer
      (Http.yields_host peer hv6 hauthHttp host hfits hport hhttp)
    obtain ⟨_, _, rfl, -⟩ := hhttp
    exact settles_serve_http decode peer acceptor.runtime hsettles

def exampleLine : List UInt8 := bytes "Proxy-Authorization: Basic dTpw".toList

/-- Both protocols, asked for `a.example` on port 443. -/
theorem front_ends_agree_name : ∃ verdict,
    Decides (serve exampleDecode (.v4 ⟨127, 0, 0, 1⟩)
      ⟨⟨exampleConfig.auth.policy, false, 10000000000⟩,
        ⟨exampleConfig.auth.policy, false, 10000000000, 30000000000⟩, []⟩)
      ([5, 1, 2, 1, 1, 0x75, 1, 0x70, 5, 1, 0, 3, 9] ++ bytes "a.example".toList ++ [1, 187])
      verdict ∧
    Decides (serve exampleDecode (.v4 ⟨127, 0, 0, 1⟩)
      ⟨⟨exampleConfig.auth.policy, false, 10000000000⟩,
        ⟨exampleConfig.auth.policy, false, 10000000000, 30000000000⟩, []⟩)
      (bytes "CONNECT a.example:443 HTTP/1.1\r\n".toList ++ exampleLine ++ Http.terminator)
      verdict := by
  have hstart : start (fun _ addr => .ok addr) exampleConfig = .ok _ := rfl
  refine @front_ends_agree (fun _ addr => .ok addr) exampleConfig _ hstart _
    (List.mem_singleton.mpr rfl) ⟨[0x75], [0x70], rfl, rfl⟩ rfl exampleDecode (.v4 ⟨127, 0, 0, 1⟩)
    (.plain (bytes "a.example".toList) (by decide) (by decide) (by decide)) 443 (by decide) _ _
    ⟨1, 1, 1, 9, [2], [], by decide +kernel, by decide, by decide, by decide, by decide,
      by decide⟩ ⟨[exampleLine], [], by decide +kernel, ?_, by decide +kernel⟩
  exact ⟨["Proxy-Authorization: Basic dTpw".toList],
    [("Proxy-Authorization".toList, "Basic dTpw".toList)],
    ("Proxy-Authorization".toList, "Basic dTpw".toList), .cons (by decide +kernel) .nil,
    by decide +kernel, by decide +kernel, by decide +kernel, by decide +kernel⟩

end ThisConnect.Proxy
