/-
  ThisConnect.Proxy.Requests
  **A CONNECT REQUEST ON THE WIRE, AND HOW IT IS READ.**

  Main results:
    • `Socks5.settles_serve` — a SOCKS5 session dials what `domainTarget` makes
      of the field,
    • `Http.yields_readHead` — however the stream is cut into reads, the head is
      what stands before the first blank line,
    • `Http.parseHead_requestHead` — with a host that is one printable word, the
      parser finds the authority and the headers that were sent.
-/
import ThisConnect.Base.Ascii
import ThisConnect.Proxy.Exchange

namespace ThisConnect.Proxy

open Net Codec Text

/-! ## §1. SOCKS5. -/

namespace Socks5

/-- A greeting that offers the method, the credentials, and a CONNECT for a domain name. -/
def Requests (credentials : Credentials) (host : List UInt8) (port : UInt16)
    (stream : List UInt8) : Prop :=
  ∃ (n ulen plen len : UInt8) (methods rest : List UInt8),
    stream = [verSocks5, n] ++ (methods ++ ([verUserpass] ++ (ulen :: credentials.username ++
      (plen :: credentials.password ++ ([verSocks5, cmdConnect, 0x00, atypDomain] ++
        (len :: host ++ (segmentOctets port ++ rest))))))) ∧
    n.toNat = methods.length ∧ methodUserpass ∈ methods ∧
    ulen.toNat = credentials.username.length ∧ plen.toNat = credentials.password.length ∧
    len.toNat = host.length

section Reading

variable {smooth : Bool} {R : Prop}

theorem yields_greet (config : Socks5Config) {n : UInt8} {methods : List UInt8}
    (hn : n.toNat = methods.length) (hoffered : config.offeredMethod ∈ methods)
    (rest : List UInt8) :
    Yields smooth (greet config) ([verSocks5, n] ++ (methods ++ rest)) (fun _ left => left = rest)
      R := by
  refine (Yields.readExact [verSocks5, n] (methods ++ rest) rfl).bind fun head left h => ?_
  obtain ⟨hhead, rfl⟩ := h
  obtain ⟨hversion, hcount⟩ := octets_two hhead
  have hne : head[1].toNat ≠ 0 := by
    rw [hcount, hn]
    exact (List.length_pos_of_mem hoffered).ne'
  rw [if_neg (by simp [hversion])]
  dsimp only
  rw [if_neg hne]
  refine (Yields.readExact methods rest (by rw [hcount, hn])).bind fun offered left h => ?_
  obtain ⟨rfl, rfl⟩ := h
  rw [if_neg (by simpa using hoffered)]
  exact Yields.send _

variable {len : UInt8} {host stream : List UInt8} {config : Socks5Config}
  {credentials : Credentials} {port : UInt16}

theorem yields_readLengthPrefixed {field : List UInt8} (hlen : len.toNat = field.length)
    (rest : List UInt8) :
    Yields smooth readLengthPrefixed (len :: field ++ rest)
      (fun buf left => buf = field ∧ left = rest) R := by
  refine (Yields.readExact [len] (field ++ rest) rfl).bind fun read left h => ?_
  obtain ⟨hread, rfl⟩ := h
  rw [toList_one] at hread
  injection hread with hread
  rw [hread]
  split
  · next hzero =>
    rw [hlen, List.length_eq_zero_iff] at hzero
    subst hzero
    exact Yields.pure ⟨rfl, rfl⟩
  · refine (Yields.readExact field rest hlen).bind fun buf left h => ?_
    exact Yields.pure h

theorem yields_authenticate (peer : IpAddr) (credentials : Credentials) {ulen plen : UInt8}
    (hulen : ulen.toNat = credentials.username.length)
    (hplen : plen.toNat = credentials.password.length) (rest : List UInt8) :
    Yields smooth (authenticate peer credentials) ([verUserpass] ++
      (ulen :: credentials.username ++ (plen :: credentials.password ++ rest)))
      (fun _ left => left = rest) R := by
  refine (Yields.readExact [verUserpass] _ rfl).bind fun version left h => ?_
  obtain ⟨hversion, rfl⟩ := h
  rw [toList_one] at hversion
  injection hversion with hversion
  rw [if_neg (by simp [hversion])]
  refine (yields_readLengthPrefixed hulen _).bind fun username left h => ?_
  obtain ⟨rfl, rfl⟩ := h
  refine (yields_readLengthPrefixed hplen _).bind fun password left h => ?_
  obtain ⟨rfl, rfl⟩ := h
  refine (Yields.hasCapacity peer).bind fun capacity left h => ?_
  obtain ⟨hcapacity, rfl⟩ := h
  split
  · next hfull =>
    -- no room: the network was not smooth
    refine (Yields.send _).bind fun _ _ _ => Yields.throw fun hsmooth => ?_
    rw [hcapacity hsmooth] at hfull
    cases hfull
  · rw [if_pos (by simp [Credentials.verify])]
    exact Yields.send _

theorem yields_readPort (port : UInt16) (rest : List UInt8) :
    Yields smooth readPort (segmentOctets port ++ rest) (fun read _ => read = port) R := by
  refine (Yields.readExact (n := 2) (segmentOctets port) rest rfl).bind fun octets left h => ?_
  obtain ⟨hoctets, rfl⟩ := h
  obtain ⟨hhigh, hlow⟩ := octets_two hoctets
  refine Yields.pure ?_
  rw [hhigh, hlow]
  exact fromBeBytes_segment port

theorem yields_readRequest (config : Socks5Config) (hlen : len.toNat = host.length) (port : UInt16)
    (rest : List UInt8) :
    Yields smooth (readRequest config) ([verSocks5, cmdConnect, 0x00, atypDomain] ++
      (len :: host ++ (segmentOctets port ++ rest)))
      (fun target _ => (domainTarget host port config).toOption = some target)
      ((domainTarget host port config).toOption = none) := by
  refine (Yields.readExact [verSocks5, cmdConnect, 0x00, atypDomain] _ rfl).bind
    fun head left h => ?_
  obtain ⟨hhead, rfl⟩ := h
  obtain ⟨hversion, hcommand, hreserved, hatyp⟩ := octets_four hhead
  rw [if_neg (by simp [hversion]), if_neg (by simp [hreserved]), hatyp]
  refine Yields.bind (V := fun target _ => (domainTarget host port config).toOption = some target)
    ?_ fun target left htarget => ?_
  · unfold readTarget
    rw [if_neg (by decide), if_neg (by decide), if_pos rfl]
    refine (yields_readLengthPrefixed hlen _).bind fun raw left h => ?_
    obtain ⟨rfl, rfl⟩ := h
    refine (yields_readPort port rest).bind fun read left h => ?_
    subst h
    refine Yields.ofExcept _ (fun target htarget => ?_) (fun e he => ?_)
    · rw [htarget]
      rfl
    · rw [he]
      rfl
  · rw [if_neg (by simp [hcommand])]
    exact Yields.pure htarget

theorem yields_negotiate (peer : IpAddr) (hauth : config.auth = .required credentials)
    (h : Requests credentials host port stream) :
    Yields smooth (negotiate peer config) stream
      (fun target _ => (domainTarget host port config).toOption = some target)
      ((domainTarget host port config).toOption = none) := by
  obtain ⟨n, ulen, plen, len, methods, rest, rfl, hn, hmethod, hulen, hplen, hlen⟩ := h
  have hoffered : config.offeredMethod ∈ methods := by
    unfold Socks5Config.offeredMethod
    rw [hauth]
    exact hmethod
  unfold negotiate
  rw [hauth]
  refine (yields_greet config hn hoffered _).bind fun _ left hleft => ?_
  subst hleft
  refine (yields_authenticate peer credentials hulen hplen _).bind fun _ left hleft => ?_
  subst hleft
  refine (yields_readRequest config hlen port rest).rethrow fun err left => ?_
  refine Yields.bind (V := fun _ _ => True) ?_ fun _ _ _ => Yields.throw fun _ => trivial
  split
  · exact (Yields.send _).mono (fun _ _ _ => trivial) id
  · exact Yields.pure trivial

theorem settles_serve (peer : IpAddr) (hauth : config.auth = .required credentials)
    (h : Requests credentials host port stream) :
    Settles smooth (serve peer config) stream (domainTarget host port config).toOption := by
  refine Settles.andThen (Settles.after ((yields_negotiate peer hauth h).deadline _)
    fun outcome left houtcome => ?_) fun _ _ => Yields.relay
  obtain ⟨hsome, hnone⟩ := houtcome
  cases outcome with
  | none =>
    refine Settles.of_yields (Yields.throw fun hsmooth => ?_)
    rw [hnone rfl] at hsmooth
    cases hsmooth
  | some target =>
    rw [hsome target rfl]
    refine (Settles.dial target).andThen fun r left => ?_
    cases r with
    | ok _ => exact (Yields.send _).bind fun _ _ _ => Yields.pure trivial
    | error err => exact (Yields.send _).bind fun _ _ _ => Yields.throw fun _ => trivial

end Reading

end Socks5

/-! ## §2. HTTP. -/

namespace Http

def requestLine (authority : List UInt8) (port : UInt16) : List UInt8 :=
  bytes "CONNECT ".toList ++ (authority ++ 0x3A :: (bytes (Nat.toDigits 10 port.toNat) ++
    bytes " HTTP/1.1".toList))

def requestHead (authority : List UInt8) (port : UInt16) (lines : List (List UInt8)) : List UInt8 :=
  requestLine authority port ++ lines.flatMap fun line => 13 :: 10 :: line

def Authenticated (decode : List Char → Option (List UInt8)) (credentials : Credentials)
    (lines : List (List UInt8)) : Prop :=
  ∃ texts headers header,
    List.Forall₂ (fun line text => fromUtf8 line = some text) lines texts ∧
    parseHeaders [] texts = .ok headers ∧ rejectAmbiguousFraming headers = .ok () ∧
    headers.find? (isNamed "proxy-authorization") = some header ∧
    decodeBasic decode header.2 = some (credentials.username, credentials.password)

/-- A CONNECT request with valid credentials, in a head of a size that is read at all. -/
def Requests (decode : List Char → Option (List UInt8)) (credentials : Credentials)
    (authority : List UInt8) (port : UInt16) (stream : List UInt8) : Prop :=
  ∃ lines rest, stream = requestHead authority port lines ++ (terminator ++ rest) ∧
    Authenticated decode credentials lines ∧
    (requestHead authority port lines).length + terminator.length ≤ maxHeadBytes

/-! ### Where the head ends. -/

theorem terminator_prefix_append {xs ys : List UInt8} (hlen : 4 ≤ xs.length) :
    terminator.isPrefixOf (xs ++ ys) = terminator.isPrefixOf xs := by
  have hiff : terminator <+: xs ++ ys ↔ terminator <+: xs :=
    ⟨fun h => List.prefix_of_prefix_length_le h (List.prefix_append xs ys) hlen,
      fun h => h.trans (List.prefix_append xs ys)⟩
  rw [Bool.eq_iff_iff, List.isPrefixOf_iff_prefix, List.isPrefixOf_iff_prefix]
  exact hiff

variable {buf line stream bs raw : List UInt8} {stop : Nat} {lines : List (List UInt8)} {R : Prop}
  {smooth : Bool} {texts : List (List Char)}

theorem findTerminator_length (h : findTerminator buf = some stop) :
    stop + 4 ≤ buf.length := by
  induction buf generalizing stop with
  | nil => cases h
  | cons b rest ih =>
    rw [findTerminator] at h
    split at h
    · next hpre =>
      injection h with h
      have hle := (List.isPrefixOf_iff_prefix.mp hpre).length_le
      have hfour : terminator.length = 4 := rfl
      omega
    · obtain ⟨stop', hstop', rfl⟩ := Option.map_eq_some_iff.mp h
      have hrest := ih hstop'
      rw [List.length_cons]
      omega

theorem findTerminator_append (h : findTerminator buf = some stop) (more : List UInt8) :
    findTerminator (buf ++ more) = some stop := by
  have hfirst := (findTerminator_eq_some_iff buf stop).mp h
  exact (findTerminator_eq_some_iff _ stop).mpr (hfirst.append more)

theorem findTerminator_of_append {more : List UInt8} (h : findTerminator (buf ++ more) = some stop)
    (hlen : stop + 4 ≤ buf.length) :
    findTerminator buf = some stop := by
  induction buf generalizing stop with
  | nil =>
    rw [List.length_nil] at hlen
    omega
  | cons b rest ih =>
    rw [List.cons_append, findTerminator, ← List.cons_append,
      terminator_prefix_append (by omega)] at h
    rw [findTerminator]
    split at h
    · next hpre => rw [if_pos hpre, h]
    · next hpre =>
      obtain ⟨stop', hstop', rfl⟩ := Option.map_eq_some_iff.mp h
      rw [List.length_cons] at hlen
      rw [if_neg hpre, ih hstop' (by omega)]
      rfl

theorem exists_findTerminator (xs ys : List UInt8) :
    ∃ stop ≤ xs.length, findTerminator (xs ++ (terminator ++ ys)) = some stop := by
  induction xs with
  | nil => exact ⟨0, Nat.le_refl _, rfl⟩
  | cons b xs ih =>
    obtain ⟨stop, hle, hstop⟩ := ih
    rw [List.cons_append, findTerminator]
    split
    · exact ⟨0, Nat.zero_le _, rfl⟩
    · exact ⟨stop + 1, by simpa using hle, by rw [hstop]; rfl⟩

theorem findTerminator_skip (hline : 13 ∉ line) (rest : List UInt8) :
    findTerminator (line ++ rest) = (findTerminator rest).map (· + line.length) := by
  induction line with
  | nil => simp
  | cons b line ih =>
    have hb : (13 : UInt8) ≠ b := fun h => hline (by simp [h])
    rw [List.cons_append, findTerminator, if_neg (by simp [terminator, hb]),
      ih fun h => hline (by simp [h]), Option.map_map, List.length_cons]
    rfl

theorem findTerminator_lines (hlines : ∀ line ∈ lines, line ≠ [] ∧ 13 ∉ line) (rest : List UInt8) :
    findTerminator ((lines.flatMap fun line => 13 :: 10 :: line) ++ (terminator ++ rest)) =
      some (lines.flatMap fun line => 13 :: 10 :: line).length := by
  induction lines with
  | nil => rfl
  | cons line lines ih =>
    obtain ⟨hne, hcr⟩ := hlines line (by simp)
    obtain ⟨b, line', rfl⟩ := List.exists_cons_of_ne_nil hne
    have hb : (13 : UInt8) ≠ b := fun h => hcr (by simp [h])
    have hrest := ih fun l hl => hlines l (by simp [hl])
    rw [List.flatMap_cons, List.cons_append, List.cons_append, List.cons_append, List.cons_append,
      findTerminator, if_neg (by simp [terminator, hb]), findTerminator,
      if_neg (by simp [terminator]), List.append_assoc, findTerminator_skip hcr, hrest]
    simp
    omega

theorem yields_readHeadLoop (hstop : findTerminator stream = some stop)
    (hfits : stop + 4 ≤ maxHeadBytes) (fuel : Nat) :
    ∀ {buf rest : List UInt8}, buf ++ rest = stream → maxHeadBytes ≤ fuel + buf.length →
      Yields smooth (readHeadLoop fuel buf) rest (fun raw _ => raw.head = stream.take stop) R := by
  induction fuel with
  | zero =>
    intro buf rest hstream hfuel
    rw [← hstream] at hstop
    rw [readHeadLoop, findTerminator_of_append hstop (by omega)]
    have hlen := findTerminator_length (findTerminator_of_append hstop (by omega))
    refine Yields.pure ?_
    rw [← hstream, List.take_append_of_le_length (by omega)]
  | succ fuel ih =>
    intro buf rest hstream hfuel
    have hwhole := hstop
    rw [← hstream] at hwhole
    by_cases harrived : stop + 4 ≤ buf.length
    · rw [readHeadLoop, findTerminator_of_append hwhole harrived]
      refine Yields.pure ?_
      rw [← hstream, List.take_append_of_le_length (by omega)]
    · have hnone : findTerminator buf = none := by
        cases hbuf : findTerminator buf with
        | none => rfl
        | some stop' =>
          rw [findTerminator_append hbuf] at hwhole
          injection hwhole with hsame
          have hlen := findTerminator_length hbuf
          omega
      have hmore : rest ≠ [] := by
        intro hrest
        rw [hrest, List.append_nil] at hwhole
        rw [hwhole] at hnone
        cases hnone
      rw [readHeadLoop, hnone]
      dsimp only
      rw [if_neg (by omega)]
      refine Yields.bind (V := fun chunk left => rest = chunk ++ left ∧ chunk ≠ [])
        (Yields.client (.read readChunk) (fun s chunk s' hs h => ?_) (fun s hs => ?_))
        fun chunk left h => ?_
      · obtain ⟨left, hleft, -, hend, rfl⟩ := h
        rw [hs] at hleft
        refine ⟨hleft, fun hchunk => hmore ?_⟩
        rw [hleft, hchunk, hend hchunk]
        rfl
      · refine ⟨s.unread.take readChunk, _, s.unread.drop readChunk,
          (List.take_append_drop readChunk _).symm, List.length_take_le _ _, fun hnil => ?_, rfl⟩
        have hempty := (List.take_eq_nil_iff.mp hnil).resolve_left (by decide)
        rw [hempty, List.drop_nil]
      · obtain ⟨rfl, hchunk⟩ := h
        rw [if_neg (by simpa using hchunk)]
        have hpos := List.length_pos_of_ne_nil hchunk
        refine ih (by rw [List.append_assoc]; exact hstream) ?_
        rw [List.length_append]
        omega

theorem yields_readHead (hstop : findTerminator stream = some stop)
    (hfits : stop + 4 ≤ maxHeadBytes) :
    Yields smooth readHead stream (fun raw _ => raw.head = stream.take stop) R :=
  yields_readHeadLoop hstop hfits maxHeadBytes rfl (Nat.le_add_right _ _)

/-! ### The lines of the head. -/

theorem splitCrlf_line {line : List Char} (hline : '\r' ∉ line) (rest : List Char) :
    splitCrlf (line ++ '\r' :: '\n' :: rest) = line :: splitCrlf rest := by
  induction line with
  | nil => rfl
  | cons c line ih =>
    have hc : c ≠ '\r' := fun h => hline (by simp [h])
    rw [List.cons_append, splitCrlf.eq_3 _ _ fun _ h => absurd h hc,
      ih fun h => hline (by simp [h])]
    rfl

theorem splitCrlf_last {line : List Char} (hline : '\r' ∉ line) : splitCrlf line = [line] := by
  induction line with
  | nil => rfl
  | cons c line ih =>
    have hc : c ≠ '\r' := fun h => hline (by simp [h])
    rw [splitCrlf.eq_3 _ _ fun _ h => absurd h hc, ih fun h => hline (by simp [h])]
    rfl

theorem splitCrlf_lines (htexts : ∀ text ∈ texts, '\r' ∉ text) :
    ∀ {first : List Char}, '\r' ∉ first →
      splitCrlf (first ++ texts.flatMap fun text => '\r' :: '\n' :: text) = first :: texts := by
  induction texts with
  | nil =>
    intro first hfirst
    rw [List.flatMap_nil, List.append_nil]
    exact splitCrlf_last hfirst
  | cons text texts ih =>
    intro first hfirst
    rw [List.flatMap_cons, List.cons_append, List.cons_append, splitCrlf_line hfirst,
      ih (fun t ht => htexts t (by simp [ht])) (htexts text (by simp))]

theorem fromUtf8_lines (h : List.Forall₂ (fun line text => fromUtf8 line = some text) lines texts) :
    ∀ {first : List UInt8} {text : List Char}, fromUtf8 first = some text →
      fromUtf8 (first ++ lines.flatMap fun line => 13 :: 10 :: line) =
        some (text ++ texts.flatMap fun text => '\r' :: '\n' :: text) := by
  induction h with
  | nil =>
    intro first text hfirst
    simpa using hfirst
  | @cons line t lines texts hline _ ih =>
    intro first text hfirst
    have hfeed : fromUtf8 (10 :: line) = some ('\n' :: t) := by
      rw [fromUtf8_cons, next_ascii (by decide), hline]
      rfl
    rw [List.flatMap_cons, List.cons_append, fromUtf8_append_ascii (by decide), hfirst, ih hfeed]
    simp

theorem lines_of_parseHeaders :
    ∀ {acc headers : List (List Char × List Char)}, parseHeaders acc texts = .ok headers →
      ∀ text ∈ texts, text ≠ [] ∧ '\r' ∉ text := by
  induction texts with
  | nil => intro acc headers _ text h; cases h
  | cons first texts ih =>
    intro acc headers h text hmem
    rw [parseHeaders] at h
    obtain ⟨hbare, h⟩ := ok_of_unless h
    obtain ⟨_, h⟩ := ok_of_unless h
    obtain ⟨_, h⟩ := ok_of_unless h
    obtain ⟨header, hheader, h⟩ := ok_of_bind h
    rcases List.mem_cons.mp hmem with rfl | hmem
    · refine ⟨fun hnil => ?_, fun hcr => hbare (by simp [hcr])⟩
      rw [hnil] at hheader
      cases hheader
    · exact ih h text hmem

theorem cr_not_mem_line {text : List Char} (h : fromUtf8 line = some text) (htext : '\r' ∉ text) :
    (13 : UInt8) ∉ line := by
  intro hmem
  obtain ⟨before, after, rfl⟩ := List.append_of_mem hmem
  rw [fromUtf8_append_ascii (by decide)] at h
  obtain ⟨left, -, h⟩ := Option.bind_eq_some_iff.mp h
  obtain ⟨right, -, rfl⟩ := Option.map_eq_some_iff.mp h
  exact htext (by simp)

theorem lines_of_texts (h : List.Forall₂ (fun line text => fromUtf8 line = some text) lines texts)
    (htexts : ∀ text ∈ texts, text ≠ [] ∧ '\r' ∉ text) :
    ∀ line ∈ lines, line ≠ [] ∧ (13 : UInt8) ∉ line := by
  induction h with
  | nil => intro line hmem; cases hmem
  | @cons first t lines texts hfirst _ ih =>
    intro line hmem
    rcases List.mem_cons.mp hmem with rfl | hmem
    · obtain ⟨hne, hcr⟩ := htexts t (by simp)
      refine ⟨fun hnil => hne ?_, cr_not_mem_line hfirst hcr⟩
      rw [hnil] at hfirst
      injection hfirst with hfirst
      exact hfirst.symm
    · exact ih (fun text ht => htexts text (by simp [ht])) line hmem

/-! ### A head with a printable authority. -/

def Printable (bs : List UInt8) : Prop := ∀ b ∈ bs, 0x21 ≤ b ∧ b ≤ 0x7e

theorem Printable.ascii (h : Printable bs) : ∀ b ∈ bs, b < 0x80 := by
  intro b hb
  have hle := UInt8.le_iff_toNat_le.mp (h b hb).2
  rw [UInt8.lt_iff_toNat_lt]
  exact Nat.lt_of_le_of_lt hle (by decide)

theorem Printable.not_mem (h : Printable bs) {b : UInt8} (hb : b < 0x21) :
    b ∉ bs :=
  fun hmem => absurd (h b hmem).1 (UInt8.not_le.mpr hb)

theorem digits_ascii (n : Nat) : ∀ c ∈ Nat.toDigits 10 n, c.toNat < 128 ∧ c.isDigit = true := by
  intro c hc
  have hdigit := Nat.isDigit_of_mem_toDigits (by decide) (by decide) hc
  refine ⟨?_, hdigit⟩
  exact Nat.lt_of_le_of_lt (Char.isDigit_iff_toNat.mp hdigit).2 (by decide)

theorem printable_digits (n : Nat) : Printable (bytes (Nat.toDigits 10 n)) := by
  intro b hb
  obtain ⟨c, hc, hb⟩ := List.mem_flatMap.mp hb
  obtain ⟨hascii, hdigit⟩ := digits_ascii n c hc
  rw [utf8EncodeChar_ascii hascii] at hb
  obtain ⟨hlow, hhigh⟩ := Char.isDigit_iff_toNat.mp hdigit
  rw [List.mem_singleton.mp hb, UInt8.le_iff_toNat_le, UInt8.le_iff_toNat_le,
    toNat_ofNat_byte hascii]
  exact ⟨Nat.le_trans (by decide) hlow, Nat.le_trans hhigh (by decide)⟩

theorem any_unprintable (h : Printable raw) :
    (raw.any fun byte => !(0x21 ≤ byte && byte ≤ 0x7e)) = false := by
  refine List.any_eq_false.mpr fun b hb => ?_
  simp [(h b hb).1, (h b hb).2]

theorem validateHostname_printable (h : Printable raw) (hfits : raw.length ≤ 255) (hne : raw ≠ []) :
    Socks5.validateHostname raw = .ok (chars raw) := by
  have hnul : raw.contains 0x00 = false := by
    have := h.not_mem (b := 0x00) (by decide)
    simpa using this
  unfold Socks5.validateHostname
  rw [if_neg (by simpa using hne), if_neg (by simpa [Socks5.maxDomainLen] using hfits), hnul,
    any_unprintable h, fromUtf8_ascii h.ascii]
  rfl

def authorityText (authority : List UInt8) (port : UInt16) : List Char :=
  chars authority ++ ':' :: Nat.toDigits 10 port.toNat

theorem chars_requestLine (authority : List UInt8) (port : UInt16) :
    chars (requestLine authority port) =
    List.intercalate [' '] ["CONNECT".toList, authorityText authority port, "HTTP/1.1".toList] := by
  have hmethod : chars (bytes "CONNECT ".toList) = "CONNECT".toList ++ [' '] := by decide
  have hversion : chars (bytes " HTTP/1.1".toList) = ' ' :: "HTTP/1.1".toList := by decide
  have hcolon : Char.ofNat (0x3A : UInt8).toNat = ':' := by decide
  rw [requestLine, chars_append, chars_append, chars_cons, chars_append, hmethod, hversion, hcolon,
    chars_bytes fun c hc => (digits_ascii _ c hc).1]
  simp [authorityText, List.intercalate]

theorem byteLen_digits (port : UInt16) : byteLen (Nat.toDigits 10 port.toNat) ≤ 5 := by
  rw [byteLen_ascii fun c hc => (digits_ascii _ c hc).1]
  exact (Nat.length_toDigits_le_iff (by decide) (by decide)).mpr
    (Nat.lt_trans port.toNat_lt (by decide))

section Printable

variable {authority : List UInt8} (hprintable : Printable authority) (port : UInt16)

include hprintable

theorem requestLine_mem {b : UInt8} (hb : b ∈ requestLine authority port) :
    0x20 ≤ b ∧ b < 0x80 := by
  have hword : ∀ {bs : List UInt8}, Printable bs → b ∈ bs → 0x20 ≤ b ∧ b < 0x80 := by
    intro bs hbs hmem
    exact ⟨UInt8.le_trans (by decide) (hbs b hmem).1, hbs.ascii b hmem⟩
  have hfixed : ∀ b ∈ bytes "CONNECT ".toList ++ 0x3A :: bytes " HTTP/1.1".toList,
      (0x20 : UInt8) ≤ b ∧ b < 0x80 := by decide +kernel
  simp only [requestLine, List.mem_append, List.mem_cons] at hb
  rcases hb with hb | hb | hb | hb | hb
  · exact hfixed b (List.mem_append_left _ hb)
  · exact hword hprintable hb
  · exact hfixed b (List.mem_append_right _ (by simp [hb]))
  · exact hword (printable_digits _) hb
  · exact hfixed b (List.mem_append_right _ (List.mem_cons_of_mem _ hb))

theorem requestLine_ascii : ∀ b ∈ requestLine authority port, b < 0x80 :=
  fun _ hb => (requestLine_mem hprintable port hb).2

theorem cr_not_mem_requestLine : '\r' ∉ chars (requestLine authority port) := by
  intro hmem
  have hcr := (mem_chars_iff (b := 13) (requestLine_ascii hprintable port) (by decide)).mp hmem
  exact absurd (requestLine_mem hprintable port hcr).1 (by decide)

theorem parseRequestLine_requestLine :
    parseRequestLine (chars (requestLine authority port)) = .ok (authorityText authority port) := by
  have hascii : (chars (requestLine authority port)).all (·.toNat < 128) = true := by
    refine List.all_eq_true.mpr fun c hc => ?_
    obtain ⟨b, hb, rfl⟩ := List.mem_map.mp hc
    have hlt := requestLine_ascii hprintable port b hb
    rw [toNat_ofNat_ascii hlt]
    exact decide_eq_true (UInt8.lt_iff_toNat_lt.mp hlt)
  have hblank : ' ' ∉ authorityText authority port := by
    intro hmem
    rcases List.mem_append.mp hmem with hmem | hmem
    · have := (mem_chars_iff (b := 0x20) hprintable.ascii (by decide)).mp hmem
      exact hprintable.not_mem (by decide) this
    · rcases List.mem_cons.mp hmem with hmem | hmem
      · exact absurd hmem (by decide)
      · exact absurd (digits_ascii _ _ hmem).2 (by decide)
  have hsplit : (chars (requestLine authority port)).splitOn ' ' =
      ["CONNECT".toList, authorityText authority port, "HTTP/1.1".toList] := by
    rw [chars_requestLine]
    refine List.splitOn_intercalate ' ' (fun part hpart => ?_) (by simp)
    simp only [List.mem_cons, List.not_mem_nil, or_false] at hpart
    rcases hpart with rfl | rfl | rfl
    · decide
    · exact hblank
    · decide
  have hne : authorityText authority port ≠ [] := by simp [authorityText]
  unfold parseRequestLine
  rw [hascii, hsplit]
  simp [hne]

variable {lines : List (List UInt8)}

theorem parseHead_requestHead (hshort : authority.length ≤ 257) {texts : List (List Char)}
    {headers : List (List Char × List Char)}
    (htexts : List.Forall₂ (fun line text => fromUtf8 line = some text) lines texts)
    (hheaders : parseHeaders [] texts = .ok headers)
    (hframing : rejectAmbiguousFraming headers = .ok ()) :
    ∃ text, fromUtf8 (requestHead authority port lines) = some text ∧
      parseHead text = .ok ⟨authorityText authority port, headers⟩ := by
  have hascii := requestLine_ascii hprintable port
  refine ⟨_, by rw [requestHead]; exact fromUtf8_lines htexts (fromUtf8_ascii hascii), ?_⟩
  have hlines := splitCrlf_lines (fun text ht => (lines_of_parseHeaders hheaders text ht).2)
    (cr_not_mem_requestLine hprintable port)
  unfold parseHead
  rw [hlines]
  have hlen : ¬ byteLen (chars (requestLine authority port)) > maxRequestLine := by
    have hdigits : (bytes (Nat.toDigits 10 port.toNat)).length ≤ 5 := by
      rw [length_bytes]
      exact byteLen_digits port
    have hmethod : (bytes "CONNECT ".toList).length = 8 := by decide
    have hversion : (bytes " HTTP/1.1".toList).length = 9 := by decide
    rw [byteLen_chars hascii, requestLine, List.length_append, List.length_append, List.length_cons,
      List.length_append, maxRequestLine]
    omega
  show (if _ then _ else _) = _
  rw [List.headD_cons, if_neg hlen, parseRequestLine_requestLine hprintable]
  show (parseHeaders [] texts).bind _ = _
  rw [hheaders]
  show (rejectAmbiguousFraming headers).map _ = _
  rw [hframing]
  rfl

theorem findTerminator_requestHead (hlines : ∀ line ∈ lines, line ≠ [] ∧ (13 : UInt8) ∉ line)
    (rest : List UInt8) :
    findTerminator (requestHead authority port lines ++ (terminator ++ rest)) =
      some (requestHead authority port lines).length := by
  have hcr : (13 : UInt8) ∉ requestLine authority port := fun hmem =>
    absurd (requestLine_mem hprintable port hmem).1 (by decide)
  rw [requestHead, List.append_assoc, findTerminator_skip hcr, findTerminator_lines hlines]
  simp
  omega

end Printable

end Http

end ThisConnect.Proxy
