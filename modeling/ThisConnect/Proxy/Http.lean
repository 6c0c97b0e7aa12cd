/-
  ThisConnect.Proxy.Http
  **THE HTTP CONNECT FRONT END.**

  Main results:
    • `talks_negotiate` — what the client must have sent for a negotiation to
      end in a target,
    • `dialsOnce_serve` — the dialer is invoked once, after such a negotiation.
-/
import ThisConnect.Base.Text
import ThisConnect.Proxy.Socks5

namespace ThisConnect.Proxy.Http

open Net Codec Text

/-! ## §1. Configuration and errors. -/

def maxHeadBytes : Nat := 8192
def maxRequestLine : Nat := 1024
def maxHeaderCount : Nat := 64
def readChunk : Nat := 1024
def maxHostLen : Nat := 255

def challengeLine : String :=
  "Proxy-Authenticate: Basic realm=\"thisconnect\", charset=\"UTF-8\""

/-- A status line: code and reason. -/
abbrev Status := Nat × String

def stBadRequest : Status := (400, "Bad Request")
def stForbidden : Status := (403, "Forbidden")
def stProxyAuthRequired : Status := (407, "Proxy Authentication Required")
def stRequestTimeout : Status := (408, "Request Timeout")
def stHeadTooLarge : Status := (431, "Request Header Fields Too Large")
def stNotImplemented : Status := (501, "Not Implemented")
def stBadGateway : Status := (502, "Bad Gateway")
def stUnavailable : Status := (503, "Service Unavailable")
def stGatewayTimeout : Status := (504, "Gateway Timeout")

structure HttpConfig where
  auth : AuthPolicy
  tunnelHasV6 : Bool
  handshakeTimeout : Duration
  connectTimeout : Duration

inductive HttpError where
  | io (e : IoError)
  | handshakeTimeout
  | malformed (what : String)
  | headTooLarge
  | tooManyHeaders
  | methodNotSupported (method : List Char)
  | absoluteFormUnsupported
  | invalidDestination (what : String)
  | authRequired
  | authFailed
  | authRateLimited
  | ipv6Unsupported
  | dialTimeout
  | dial (e : DialError)
  deriving DecidableEq, Repr

def dialStatus : DialError → Status
  | .networkUnreachable => stUnavailable
  | .policyRejected => stForbidden
  | .nameNotResolved | .hostUnreachable | .connectionRefused | .other => stBadGateway

def HttpError.status : HttpError → Option Status
  | .io _ => none
  | .handshakeTimeout => some stRequestTimeout
  | .malformed _ | .invalidDestination _ => some stBadRequest
  | .headTooLarge | .tooManyHeaders => some stHeadTooLarge
  | .methodNotSupported _ | .absoluteFormUnsupported => some stNotImplemented
  | .authRequired | .authFailed | .authRateLimited => some stProxyAuthRequired
  | .ipv6Unsupported => some stForbidden
  | .dialTimeout => some stGatewayTimeout
  | .dial e => some (dialStatus e)

def HttpError.isChallenge : HttpError → Bool
  | .authRequired | .authFailed | .authRateLimited => true
  | _ => false

/-! ## §2. Reading the head as a stream. -/

/-- `b"\r\n\r\n"`. -/
def terminator : List UInt8 := [13, 10, 13, 10]

def findTerminator : List UInt8 → Option Nat
  | [] => none
  | b :: rest =>
    if terminator.isPrefixOf (b :: rest) then some 0 else (findTerminator rest).map (· + 1)

structure RawHead where
  head : List UInt8
  pending : List UInt8

def readHeadLoop : Nat → List UInt8 → Session HttpError RawHead
  | fuel, buf =>
    match findTerminator buf with
    | some stop => pure ⟨buf.take stop, buf.drop (stop + 4)⟩
    | none =>
      if buf.length ≥ maxHeadBytes then throw .headTooLarge
      else
        match fuel with
        | 0 => throw .headTooLarge
        | fuel + 1 => do
            let chunk ← client .io (.read readChunk)
            if chunk.isEmpty then throw (.malformed "closed before end of request head")
            else readHeadLoop fuel (buf ++ chunk)

def readHead : Session HttpError RawHead := readHeadLoop maxHeadBytes []

/-! ## §3. Parsing. -/

structure Head where
  target : List Char
  headers : List (List Char × List Char)

def isTchar (byte : UInt8) : Bool :=
  (Char.ofNat byte.toNat).isAlphanum || (bytes "!#$%&'*+-.^_`|~".toList).contains byte

def parseRequestLine (line : List Char) : Except HttpError (List Char) :=
  if !line.all (·.toNat < 128) then .error (.malformed "non-ASCII request line")
  else
    match line.splitOn ' ' with
    | method :: target :: version :: more =>
      if !more.isEmpty then .error (.malformed "trailing data in request line")
      else if method.isEmpty || target.isEmpty then .error (.malformed "empty request line field")
      else if version != "HTTP/1.1".toList && version != "HTTP/1.0".toList then
        .error (.malformed "unsupported HTTP version")
      else if method != "CONNECT".toList then
        if "http://".toList.isPrefixOf target || "https://".toList.isPrefixOf target then
          .error .absoluteFormUnsupported
        else .error (.methodNotSupported method)
      else .ok target
    | _ => .error (.malformed "truncated request line")

def parseHeader (line : List Char) : Except HttpError (List Char × List Char) :=
  match splitOnce ':' line with
  | none => .error (.malformed "header without a colon")
  | some (name, value) =>
    if name.isEmpty || !(bytes name).all isTchar then .error (.malformed "invalid header name")
    else
      let value := trimMatches (fun c => c == ' ' || c == '\t') value
      if (bytes value).any fun b => b < 0x20 || b == 0x7f then
        .error (.malformed "control byte in header value")
      else .ok (name, value)

def parseHeaders (headers : List (List Char × List Char)) :
    List (List Char) → Except HttpError (List (List Char × List Char))
  | [] => .ok headers
  | line :: lines =>
    if line.contains '\r' || line.contains '\n' then
      .error (.malformed "bare CR or LF in header block")
    else if line.head? == some ' ' || line.head? == some '\t' then
      .error (.malformed "obsolete line folding")
    else if headers.length ≥ maxHeaderCount then .error .tooManyHeaders
    else (parseHeader line).bind fun header => parseHeaders (headers ++ [header]) lines

def isNamed (name : String) (header : List Char × List Char) : Bool :=
  eqIgnoreAsciiCase header.1 name.toList

def rejectAmbiguousFraming (headers : List (List Char × List Char)) : Except HttpError Unit :=
  if headers.any fun h => isNamed "content-length" h || isNamed "transfer-encoding" h then
    .error (.malformed "framing header on a CONNECT request")
  else if (headers.filter (isNamed "proxy-authorization")).length > 1 then
    .error (.malformed "duplicate Proxy-Authorization")
  else .ok ()

def parseHead (head : List Char) : Except HttpError Head :=
  let lines := splitCrlf head
  let requestLine := lines.headD []
  if byteLen requestLine > maxRequestLine then .error .headTooLarge
  else
    (parseRequestLine requestLine).bind fun target =>
    (parseHeaders [] lines.tail).bind fun headers =>
    (rejectAmbiguousFraming headers).map fun _ => ⟨target, headers⟩

/-! ## §4. Destinations. -/

def ipTarget (address : IpAddr) (port : UInt16) (config : HttpConfig) : Except HttpError Target :=
  if address.isIpv6 && !config.tunnelHasV6 then .error .ipv6Unsupported
  else .ok (.ip ⟨address, port⟩)

def validateHost (host : List Char) : Except HttpError Unit :=
  if host.isEmpty then .error (.invalidDestination "empty host")
  else if byteLen host > maxHostLen then .error (.invalidDestination "host too long")
  else if (bytes host).any fun byte => !(0x21 ≤ byte && byte ≤ 0x7e) then
    .error (.invalidDestination "non-printable host")
  else .ok ()

def parsePort (raw : List Char) : Except HttpError UInt16 :=
  if raw.isEmpty || byteLen raw > 5 || !raw.all Char.isDigit then
    .error (.invalidDestination "bad port")
  else
    match Numeral.parseUnsigned 65536 raw with
    | none => .error (.invalidDestination "port out of range")
    | some port => if port = 0 then .error (.invalidDestination "port 0") else .ok (.ofNat port)

def targetFromAuthority (authority : List Char) (config : HttpConfig) : Except HttpError Target :=
  match authority with
  | '[' :: rest =>
    match splitOnce ']' rest with
    | none => .error (.invalidDestination "unterminated IPv6 literal")
    | some (inside, ':' :: port) =>
      match parseIpv6 inside with
      | none => .error (.invalidDestination "bad IPv6 literal")
      | some address => (parsePort port).bind fun port => ipTarget (.v6 address) port config
    | some _ => .error (.invalidDestination "missing port")
  | _ =>
    match rsplitOnce ':' authority with
    | none => .error (.invalidDestination "missing port")
    | some (host, port) =>
      if host.contains ':' then .error (.invalidDestination "unbracketed IPv6 literal")
      else
        (parsePort port).bind fun port =>
        (validateHost host).bind fun _ =>
          match parseIpAddr host with
          | some address => ipTarget address port config
          | none => .ok (.domain host port)

/-! ## §5. The handshake. -/

def respond (status : Status) (challenge : Bool) : Session HttpError Unit :=
  let extra := if challenge then challengeLine ++ "\r\n" else ""
  send .io (bytes (s!"HTTP/1.1 {status.1} {status.2}\r\n{extra}Content-Length: 0\r\n" ++
    "Connection: close\r\n\r\n").toList)

section Decoding

variable (decode : List Char → Option (List UInt8))

def decodeBasic (value : List Char) : Option (List UInt8 × List UInt8) := do
  let (scheme, token) ← splitOnce ' ' value
  if !eqIgnoreAsciiCase scheme "basic".toList then none
  else
    let decoded ← decode (trim token)
    let colon ← decoded.findIdx? (· == 0x3A)
    pure (decoded.take colon, decoded.drop (colon + 1))

def authorize (head : Head) (peer : IpAddr) (config : HttpConfig) : Session HttpError Unit :=
  match config.auth with
  | .disabled => pure ()
  | .required credentials =>
    match head.headers.find? (isNamed "proxy-authorization") with
    -- how a client discovers the challenge: no failure is counted
    | none => throw .authRequired
    | some (_, value) => do
        let capacity ← hasCapacity peer
        if !capacity then throw .authRateLimited
        else if ((decodeBasic decode value).map fun (user, pass) =>
            credentials.verify user pass).getD false then pure ()
        else do
          recordFailure peer
          throw .authFailed

structure Negotiated where
  target : Target
  pending : List UInt8

def negotiateInner (peer : IpAddr) (config : HttpConfig) : Session HttpError Negotiated := do
  let raw ← readHead
  match fromUtf8 raw.head with
  | none => throw (.malformed "request head is not ASCII")
  | some text => do
      let request ← ExceptT.mk (pure (parseHead text))
      authorize decode request peer config
      let target ← ExceptT.mk (pure (targetFromAuthority request.target config))
      pure ⟨target, raw.pending⟩

def negotiate (peer : IpAddr) (config : HttpConfig) : Session HttpError Negotiated :=
  tryCatch (negotiateInner decode peer config) fun err => do
    (match err.status with
      | some status => respond status err.isChallenge
      | none => pure ())
    throw err

/-- The dial has a deadline of its own. -/
def dialUpstream (target : Target) (limit : Duration) :
    Session HttpError (Except HttpError Unit) := do
  match ← dialWithin limit target with
  | some (.ok ()) => pure (.ok ())
  | some (.error e) => pure (.error (.dial e))
  | none => pure (.error .dialTimeout)

def handshake (peer : IpAddr) (config : HttpConfig) : Session HttpError Negotiated := do
  match ← deadline config.handshakeTimeout (negotiate decode peer config) with
  | none => do
      respond stRequestTimeout false
      throw .handshakeTimeout
  | some head =>
    match ← dialUpstream head.target config.connectTimeout with
    | .ok () => do
        send .io (bytes "HTTP/1.1 200 Connection established\r\n\r\n".toList)
        pure head
    | .error err => do
        (match err.status with
          | some status => respond status false
          | none => pure ())
        throw err

def serve (peer : IpAddr) (config : HttpConfig) : Session HttpError (Nat × Nat) := do
  let session ← handshake decode peer config
  (if session.pending.isEmpty then pure () else forward .io session.pending)
  let (up, down) ← relay .io
  pure (up + session.pending.length, down)

end Decoding

/-! ## §6. What a negotiation has read. -/

def LineNamed (name : String) (line : List Char) : Prop :=
  ∃ written value, line = written ++ ':' :: value ∧ ':' ∉ written ∧
    eqIgnoreAsciiCase written name.toList = true

def BasicLine (username password : List UInt8) (line : List Char) : Prop :=
  ∃ written before scheme gap after,
    line = written ++ ':' :: (before ++ scheme ++ ' ' ::
      (gap ++ base64 (username ++ 0x3A :: password) ++ after)) ∧
    ':' ∉ written ∧ eqIgnoreAsciiCase written "proxy-authorization".toList = true ∧
    eqIgnoreAsciiCase scheme "basic".toList = true ∧ before.all isWhitespace = true ∧
    gap.all isWhitespace = true ∧ after.all isWhitespace = true

/-- The first CRLFCRLF of the stream begins at `stop`. -/
def FirstBlankLine (stream : List UInt8) (stop : Nat) : Prop :=
  terminator <+: stream.drop stop ∧ ∀ i < stop, ¬ terminator <+: stream.drop i

theorem findTerminator_eq_some_iff (stream : List UInt8) :
    ∀ stop, findTerminator stream = some stop ↔ FirstBlankLine stream stop := by
  induction stream with
  | nil =>
    intro stop
    refine ⟨(fun h => by cases h), fun ⟨h, _⟩ => ?_⟩
    rw [List.drop_nil] at h
    exact absurd h.length_le (by decide)
  | cons b rest ih =>
    intro stop
    rw [findTerminator]
    split
    · next hpre =>
      have hhere := List.isPrefixOf_iff_prefix.mp hpre
      constructor
      · intro h
        injection h with h
        subst h
        exact ⟨hhere, fun i hi => absurd hi (Nat.not_lt_zero i)⟩
      · rintro ⟨-, hfirst⟩
        cases stop with
        | zero => rfl
        | succ stop => exact absurd hhere (hfirst 0 (Nat.zero_lt_succ _))
    · next hpre =>
      have hnot : ¬ terminator <+: b :: rest := fun h =>
        hpre (List.isPrefixOf_iff_prefix.mpr h)
      cases stop with
      | zero =>
        refine ⟨fun h => ?_, fun h => absurd h.1 hnot⟩
        obtain ⟨_, -, h⟩ := Option.map_eq_some_iff.mp h
        cases h
      | succ stop =>
        have hmap : (findTerminator rest).map (· + 1) = some (stop + 1) ↔
            findTerminator rest = some stop := by
          cases findTerminator rest <;> simp
        rw [hmap, ih stop]
        constructor
        · rintro ⟨hstop, hfirst⟩
          refine ⟨hstop, fun i hi => ?_⟩
          cases i with
          | zero => exact hnot
          | succ i => exact hfirst i (Nat.lt_of_succ_lt_succ hi)
        · rintro ⟨hstop, hfirst⟩
          exact ⟨hstop, fun i hi => hfirst (i + 1) (Nat.succ_lt_succ hi)⟩

variable {stop : Nat} {buf : List UInt8} {line : List Char} {lines : List (List Char)}
  {header : List Char × List Char}

theorem FirstBlankLine.append {stream : List UInt8} (h : FirstBlankLine stream stop)
    (more : List UInt8) : FirstBlankLine (stream ++ more) stop := by
  have hlen : stop + 4 ≤ stream.length := by
    have hle := h.1.length_le
    rw [List.length_drop, show terminator.length = 4 from rfl] at hle
    omega
  have hdrop : ∀ i ≤ stop, (stream ++ more).drop i = stream.drop i ++ more :=
    fun i hi => List.drop_append_of_le_length (by omega)
  refine ⟨?_, fun i hi hpre => h.2 i hi ?_⟩
  · rw [hdrop stop (Nat.le_refl _)]
    exact h.1.trans (List.prefix_append _ _)
  · rw [hdrop i (Nat.le_of_lt hi)] at hpre
    refine List.prefix_of_prefix_length_le hpre (List.prefix_append _ _) ?_
    rw [List.length_drop, show terminator.length = 4 from rfl]
    omega

/-- The request head, which the first blank line ends, has one `Proxy-Authorization` line, and it
    carries the pair. -/
def Carries (username password stream : List UInt8) : Prop :=
  ∃ head rest text requestLine before line after,
    stream = head ++ terminator ++ rest ∧ FirstBlankLine stream head.length ∧
    fromUtf8 head = some text ∧
    text = List.intercalate ['\r', '\n'] (requestLine :: (before ++ line :: after)) ∧
    BasicLine username password line ∧
    ∀ other ∈ before ++ after, ¬ LineNamed "proxy-authorization" other

theorem findTerminator_spec (h : findTerminator buf = some stop) :
    buf = buf.take stop ++ terminator ++ buf.drop (stop + 4) := by
  induction buf generalizing stop with
  | nil => simp [findTerminator] at h
  | cons b rest ih =>
    rw [findTerminator] at h
    split at h
    · next hpre =>
      cases h
      obtain ⟨tail, htail⟩ := List.isPrefixOf_iff_prefix.mp hpre
      rw [← htail]
      simp [terminator]
    · obtain ⟨stop', hstop', rfl⟩ := Option.map_eq_some_iff.mp h
      have hrest := ih hstop'
      simpa using hrest

theorem found (h : findTerminator buf = some stop) :
    ([] : List Event) = [] ∧ buf ++ [] = buf.take stop ++ terminator ++ buf.drop (stop + 4) ∧
      FirstBlankLine (buf ++ []) (buf.take stop).length := by
  have hfirst := (findTerminator_eq_some_iff buf stop).mp h
  have hle := hfirst.1.length_le
  rw [List.length_drop, show terminator.length = 4 from rfl] at hle
  rw [List.append_nil, List.length_take_of_le (by omega)]
  exact ⟨rfl, findTerminator_spec h, hfirst⟩

theorem talks_readHeadLoop (fuel : Nat) : ∀ buf, Talks (readHeadLoop fuel buf) fun raw bytes log =>
    log = [] ∧ buf ++ bytes = raw.head ++ terminator ++ raw.pending ∧
      FirstBlankLine (buf ++ bytes) raw.head.length := by
  induction fuel with
  | zero =>
    intro buf
    rw [readHeadLoop]
    split
    · next stop hstop =>
      exact Talks.pure (found hstop)
    · split
      · exact Talks.throw
      · exact Talks.throw
  | succ fuel ih =>
    intro buf
    rw [readHeadLoop]
    split
    · next stop hstop =>
      exact Talks.pure (found hstop)
    · split
      · exact Talks.throw
      · refine (Talks.client (.read readChunk)).bind fun _ chunk log h => ?_
        obtain ⟨rfl, rfl⟩ := h
        split
        · exact Talks.throw
        · refine (ih (buf ++ chunk)).mono fun raw bytes log h => ?_
          rw [List.append_assoc] at h
          exact h

theorem parseHeader_spec {name value : List Char} (h : parseHeader line = .ok (name, value)) :
    ∃ written, line = name ++ ':' :: written ∧ ':' ∉ name ∧
      value = trimMatches (fun c => c == ' ' || c == '\t') written := by
  unfold parseHeader at h
  split at h
  · cases h
  · next written raw hsplit =>
    obtain ⟨hline, hcolon⟩ := splitOnce_eq_some.mp hsplit
    obtain ⟨_, h⟩ := ok_of_unless h
    dsimp only at h
    obtain ⟨_, ⟨⟩⟩ := ok_of_unless h
    exact ⟨raw, hline, hcolon, rfl⟩

theorem parseHeaders_spec :
    ∀ {acc headers : List (List Char × List Char)},
    parseHeaders acc lines = .ok headers → ∃ parsed, headers = acc ++ parsed ∧
      List.Forall₂ (fun line header => parseHeader line = .ok header) lines parsed := by
  induction lines with
  | nil =>
    intro acc headers h
    cases h
    exact ⟨[], by simp, .nil⟩
  | cons line lines ih =>
    intro acc headers h
    rw [parseHeaders] at h
    obtain ⟨_, h⟩ := ok_of_unless h
    obtain ⟨_, h⟩ := ok_of_unless h
    obtain ⟨_, h⟩ := ok_of_unless h
    obtain ⟨header, hheader, h⟩ := ok_of_bind h
    obtain ⟨parsed, rfl, hall⟩ := ih h
    exact ⟨header :: parsed, by simp, .cons hheader hall⟩

theorem find_unique {headers : List (List Char × List Char)}
    (hfind : headers.find? (isNamed "proxy-authorization") = some header)
    (hframing : rejectAmbiguousFraming headers = .ok ()) :
    isNamed "proxy-authorization" header = true ∧ ∃ before after,
      headers = before ++ header :: after ∧
      ∀ other ∈ before ++ after, isNamed "proxy-authorization" other = false := by
  obtain ⟨hnamed, before, after, rfl, hbefore⟩ := List.find?_eq_some_iff_append.mp hfind
  refine ⟨hnamed, before, after, rfl, fun other hother => ?_⟩
  rcases List.mem_append.mp hother with hmem | hmem
  · simpa using hbefore other hmem
  · unfold rejectAmbiguousFraming at hframing
    obtain ⟨_, hframing⟩ := ok_of_unless hframing
    obtain ⟨hcount, hframing⟩ := ok_of_unless hframing
    by_contra hother
    have hpos : 0 < (after.filter (isNamed "proxy-authorization")).length :=
      List.length_pos_of_mem (List.mem_filter.mpr ⟨hmem, by simpa using hother⟩)
    apply hcount
    rw [List.filter_append, List.filter_cons_of_pos hnamed, List.length_append,
      List.length_cons]
    omega

theorem lineNamed_of_parseHeader {name : String} (h : parseHeader line = .ok header)
    (hnot : isNamed name header = false) :
    ¬ LineNamed name line := by
  obtain ⟨value, hline, hcolon, -⟩ := parseHeader_spec h
  rintro ⟨written, value', hline', hcolon', hname⟩
  obtain ⟨rfl, -⟩ := Framing.append_sep_inj hcolon hcolon' (hline.symm.trans hline')
  rw [isNamed, hname] at hnot
  cases hnot

theorem exists_header {parsed : List (List Char × List Char)}
    (h : List.Forall₂ (fun line header => parseHeader line = .ok header) lines parsed)
    (hmem : line ∈ lines) :
    ∃ header ∈ parsed, parseHeader line = .ok header := by
  induction h with
  | nil => simp at hmem
  | @cons first header lines parsed hfirst _ ih =>
    rcases List.mem_cons.mp hmem with rfl | hmem
    · exact ⟨header, by simp, hfirst⟩
    · obtain ⟨header', hmem', hheader'⟩ := ih hmem
      exact ⟨header', List.mem_cons_of_mem _ hmem', hheader'⟩

section Authorisation

variable {decode : List Char → Option (List UInt8)}

theorem decodeBasic_spec (hsound : DecodesBase64 decode) {value : List Char}
    {user pass : List UInt8} (h : decodeBasic decode value = some (user, pass)) :
    ∃ scheme gap after, value = scheme ++ ' ' :: (gap ++ base64 (user ++ 0x3A :: pass) ++ after) ∧
      eqIgnoreAsciiCase scheme "basic".toList = true ∧ gap.all isWhitespace = true ∧
      after.all isWhitespace = true := by
  unfold decodeBasic at h
  obtain ⟨⟨scheme, token⟩, hsplit, h⟩ := Option.bind_eq_some_iff.mp h
  obtain ⟨hvalue, -⟩ := splitOnce_eq_some.mp hsplit
  dsimp only at h
  obtain ⟨hscheme, h⟩ := some_of_unless h
  obtain ⟨decoded, hdecoded, h⟩ := Option.bind_eq_some_iff.mp h
  obtain ⟨colon, hcolon, h⟩ := Option.bind_eq_some_iff.mp h
  cases h
  obtain ⟨hlt, hat, -⟩ := List.findIdx?_eq_some_iff_getElem.mp hcolon
  have hsplit' : decoded = decoded.take colon ++ 0x3A :: decoded.drop (colon + 1) := by
    have hbyte : decoded[colon] = 0x3A := by simpa using hat
    rw [← hbyte, List.getElem_cons_drop hlt, List.take_append_drop]
  obtain ⟨gap, after, htoken, hgap, hafter⟩ := trimMatches_spec isWhitespace token
  rw [← trim_eq_trimMatches, hsound _ _ hdecoded] at htoken
  rw [← hsplit']
  exact ⟨scheme, gap, after, by rw [hvalue, htoken], by simpa using hscheme, hgap, hafter⟩

theorem all_isWhitespace_of_blank {s : List Char}
    (h : s.all (fun c => c == ' ' || c == '\t') = true) : s.all isWhitespace = true := by
  refine List.all_eq_true.mpr fun c hc => ?_
  have hblank := List.all_eq_true.mp h c hc
  rcases Bool.or_eq_true_iff.mp hblank with hc | hc
  · rw [beq_iff_eq.mp hc]
    decide
  · rw [beq_iff_eq.mp hc]
    decide

theorem talks_authorize (head : Head) (peer : IpAddr) (config : HttpConfig) :
    Talks (authorize decode head peer config) fun _ bytes log => bytes = [] ∧
      (∀ credentials, config.auth = .required credentials →
        (∃ header, head.headers.find? (isNamed "proxy-authorization") = some header ∧
          decodeBasic decode header.2 = some (credentials.username, credentials.password)) ∧
        ∃ limiter now, log = [.checked peer limiter now] ∧
          limiter.hasCapacityAt peer now = true) := by
  unfold authorize
  split
  · next hauth => exact Talks.pure ⟨rfl, fun _ h => by rw [hauth] at h; cases h⟩
  · next credentials hauth =>
    split
    · exact Talks.throw
    · next name value hfind =>
      refine (Talks.hasCapacity peer).bind fun capacity bytes log h => ?_
      obtain ⟨rfl, limiter, now, rfl, hcapacity⟩ := h
      split
      · exact Talks.throw
      · next hfull =>
        split
        · next haccepted =>
          refine Talks.pure ⟨rfl, fun credentials' h => ?_⟩
          cases hauth.symm.trans h
          refine ⟨⟨(name, value), hfind, ?_⟩, limiter, now, rfl, ?_⟩
          · cases hdecode : decodeBasic decode value with
            | none =>
              rw [hdecode] at haccepted
              cases haccepted
            | some pair =>
              rw [hdecode] at haccepted
              have hverify : credentials.username = pair.1 ∧
                  credentials.password = pair.2 := by
                simpa [Credentials.verify] using haccepted
              rw [hverify.1, hverify.2]
          · rw [← hcapacity]
            simpa using hfull
        · exact (Talks.recordFailure peer).bind fun _ _ _ _ => Talks.throw

theorem carries_of_parseHead (hsound : DecodesBase64 decode) {raw : RawHead} {text : List Char}
    {request : Head} {header : List Char × List Char}
    {username password : List UInt8} (htext : fromUtf8 raw.head = some text)
    (hparse : parseHead text = .ok request)
    (hfind : request.headers.find? (isNamed "proxy-authorization") = some header)
    (hdecode : decodeBasic decode header.2 = some (username, password)) {rest : List UInt8}
    (hfirst : FirstBlankLine (raw.head ++ terminator ++ rest) raw.head.length) :
    Carries username password (raw.head ++ terminator ++ rest) := by
  unfold parseHead at hparse
  dsimp only at hparse
  obtain ⟨_, hparse⟩ := ok_of_unless hparse
  obtain ⟨target, -, hparse⟩ := ok_of_bind hparse
  obtain ⟨headers, hheaders, hparse⟩ := ok_of_bind hparse
  obtain ⟨_, hframing, rfl⟩ := ok_of_map hparse
  obtain ⟨parsed, rfl, hall⟩ := parseHeaders_spec hheaders
  obtain ⟨hnamed, before, after, rfl, hothers⟩ := find_unique hfind hframing
  -- the lines that became the headers before, at and after the one found
  have hbefore := List.forall₂_take_append _ _ _ hall
  have hrest := List.forall₂_drop_append _ _ _ hall
  obtain ⟨line, linesAfter, hline, hafter, hdrop⟩ := List.forall₂_cons_right_iff.mp hrest
  obtain ⟨written, hwritten, hcolon, hvalue⟩ := parseHeader_spec hline
  obtain ⟨pad, pad', hpads, hpad, hpad'⟩ :=
    trimMatches_spec (fun c => c == ' ' || c == '\t') written
  obtain ⟨scheme, gap, tail, hbasic, hscheme, hgap, htail⟩ := decodeBasic_spec hsound hdecode
  refine ⟨raw.head, rest, text, (splitCrlf text).headD [],
    (splitCrlf text).tail.take before.length, line, linesAfter, rfl, hfirst, htext, ?_, ?_, ?_⟩
  · have hcons : splitCrlf text = (splitCrlf text).headD [] :: (splitCrlf text).tail := by
      obtain ⟨l, ls, hls⟩ := List.exists_cons_of_ne_nil (splitCrlf_ne_nil text)
      rw [hls]
      rfl
    rw [← hdrop, List.take_append_drop, ← hcons, intercalate_splitCrlf]
  · refine ⟨header.1, pad, scheme, gap, tail ++ pad', ?_, hcolon, hnamed, hscheme,
      all_isWhitespace_of_blank hpad, hgap, ?_⟩
    · rw [hwritten, hpads, ← hvalue, hbasic]
      simp
    · rw [List.all_append, htail, all_isWhitespace_of_blank hpad']
      rfl
  · intro other hother
    rcases List.mem_append.mp hother with hmem | hmem
    · obtain ⟨parsed, hmem', hp⟩ := exists_header hbefore hmem
      exact lineNamed_of_parseHeader hp (hothers parsed (List.mem_append_left _ hmem'))
    · obtain ⟨parsed, hmem', hp⟩ := exists_header hafter hmem
      exact lineNamed_of_parseHeader hp (hothers parsed (List.mem_append_right _ hmem'))

theorem talks_negotiateInner (peer : IpAddr) (config : HttpConfig) :
    Talks (negotiateInner decode peer config) fun _ bytes log =>
      DecodesBase64 decode → config.auth.Vetted Carries peer bytes log := by
  refine (talks_readHeadLoop maxHeadBytes []).bind fun raw bytes log h => ?_
  obtain ⟨rfl, hbytes, hfirst⟩ := h
  rw [List.nil_append] at hbytes hfirst
  subst hbytes
  split
  · exact Talks.throw
  · next text htext =>
    refine (Talks.ofExcept (parseHead text)).bind fun request bytes log h => ?_
    obtain ⟨hparse, rfl, rfl⟩ := h
    refine (talks_authorize request peer config).bind fun _ bytes log h => ?_
    obtain ⟨rfl, hauthorized⟩ := h
    refine (Talks.ofExcept _).bind fun target bytes later h => ?_
    obtain ⟨-, rfl, rfl⟩ := h
    refine Talks.pure fun hsound => ?_
    cases hauth : config.auth with
    | disabled => trivial
    | required credentials =>
      obtain ⟨⟨header, hfind, hdecode⟩, limiter, now, rfl, hcapacity⟩ :=
        hauthorized credentials hauth
      have hcarries := carries_of_parseHead hsound htext hparse hfind hdecode hfirst
      exact ⟨by simpa using hcarries, limiter, now, rfl, hcapacity⟩

theorem talks_negotiate (peer : IpAddr) (config : HttpConfig) :
    Talks (negotiate decode peer config) fun _ bytes log =>
      DecodesBase64 decode → config.auth.Vetted Carries peer bytes log := by
  refine (talks_negotiateInner peer config).rethrow fun err => ?_
  split
  · exact (Talks.send _).bind fun _ _ _ _ => Talks.throw
  · exact (Talks.pure (P := fun _ _ _ => True) trivial).bind fun _ _ _ _ => Talks.throw

/-! ## §7. The dial. -/

theorem dialsOnce_dialUpstream {P : List UInt8 → List Event → Prop} (h : P [] []) (target : Target)
    (limit : Duration) : DialsOnce (dialUpstream target limit) P := by
  refine (DialsOnce.dialWithin h limit target).silent fun r => ?_
  split
  · exact Silent.pure
  · exact Silent.pure
  · exact Silent.pure

theorem dialsOnce_handshake (hsound : DecodesBase64 decode) (peer : IpAddr) (config : HttpConfig) :
    DialsOnce (handshake decode peer config) (config.auth.Vetted Carries peer) := by
  have hnegotiate := (talks_negotiate peer config).mono fun _ _ _ h => h hsound
  refine DialsOnce.after (hnegotiate.deadline _) fun outcome bytes log h => ?_
  cases outcome with
  | none =>
    exact DialsOnce.of_talks (Q := fun _ _ _ => True)
      ((Talks.send _).bind fun _ _ _ _ => Talks.throw)
  | some head =>
    refine (dialsOnce_dialUpstream ?_ head.target _).silent fun r => ?_
    · rw [List.append_nil, List.append_nil]
      exact h head rfl
    · cases r with
      | ok _ => exact (Silent.send _).bind fun _ => Silent.pure
      | error err =>
        refine Silent.bind ?_ fun _ => Silent.throw
        split
        · exact Silent.send _
        · exact Silent.pure

theorem dialsOnce_serve (hsound : DecodesBase64 decode) (peer : IpAddr) (config : HttpConfig) :
    DialsOnce (serve decode peer config) (config.auth.Vetted Carries peer) := by
  refine (dialsOnce_handshake hsound peer config).silent fun session => ?_
  refine Silent.bind ?_ fun _ => Silent.relay.bind fun _ => Silent.pure
  split
  · exact Silent.pure
  · exact Silent.forward _

end Authorisation

end ThisConnect.Proxy.Http
