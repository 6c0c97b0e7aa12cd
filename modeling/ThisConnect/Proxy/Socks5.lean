/-
  ThisConnect.Proxy.Socks5
  **THE SOCKS5 FRONT END.**

  Main results:
    • `talks_negotiate` — what the client must have sent for a negotiation to
      end in a target,
    • `dialsOnce_serve` — the dialer is invoked once, after such a negotiation.
-/
import Mathlib.Tactic.IntervalCases
import ThisConnect.Base.Codec
import ThisConnect.Proxy.Client

namespace ThisConnect.Proxy

open Net Codec

structure Credentials where
  username : List UInt8
  password : List UInt8
  deriving DecidableEq, Repr

def Credentials.verify (credentials : Credentials) (username password : List UInt8) : Bool :=
  credentials.username == username && credentials.password == password

inductive AuthPolicy where
  | required (credentials : Credentials)
  | disabled
  deriving DecidableEq, Repr

def AuthPolicy.Vetted (carries : List UInt8 → List UInt8 → List UInt8 → Prop) (auth : AuthPolicy)
    (peer : IpAddr) (bytes : List UInt8) (log : List Event) : Prop :=
  match auth with
  | .disabled => True
  | .required credentials => carries credentials.username credentials.password bytes ∧
      ∃ limiter now, log = [.checked peer limiter now] ∧ limiter.hasCapacityAt peer now = true

namespace Socks5

/-! ## §1. The wire. -/

def verSocks5 : UInt8 := 0x05

def verUserpass : UInt8 := 0x01

def methodNone : UInt8 := 0x00
def methodUserpass : UInt8 := 0x02
def methodUnacceptable : UInt8 := 0xFF

def authOk : UInt8 := 0x00
def authDenied : UInt8 := 0x01

def cmdConnect : UInt8 := 0x01

def atypV4 : UInt8 := 0x01
def atypDomain : UInt8 := 0x03
def atypV6 : UInt8 := 0x04

def repSuccess : UInt8 := 0x00
def repGeneralFailure : UInt8 := 0x01
def repNotAllowed : UInt8 := 0x02
def repNetworkUnreachable : UInt8 := 0x03
def repHostUnreachable : UInt8 := 0x04
def repConnectionRefused : UInt8 := 0x05
def repCommandNotSupported : UInt8 := 0x07
def repAddressTypeNotSupported : UInt8 := 0x08

def maxDomainLen : Nat := 255

def dialReplyCode : DialError → UInt8
  | .nameNotResolved | .hostUnreachable => repHostUnreachable
  | .networkUnreachable => repNetworkUnreachable
  | .connectionRefused => repConnectionRefused
  | .policyRejected => repNotAllowed
  | .other => repGeneralFailure

structure Socks5Config where
  auth : AuthPolicy
  tunnelHasV6 : Bool
  handshakeTimeout : Duration

def Socks5Config.offeredMethod (config : Socks5Config) : UInt8 :=
  match config.auth with
  | .required _ => methodUserpass
  | .disabled => methodNone

inductive Socks5Error where
  | io (e : IoError)
  | handshakeTimeout
  | badVersion (version : UInt8)
  | noAcceptableMethod
  | badAuthVersion (version : UInt8)
  | authFailed
  | authRateLimited
  | malformed (what : String)
  | invalidDestination (what : String)
  | commandNotSupported (command : UInt8)
  | addressTypeNotSupported
  | dial (e : DialError)
  deriving DecidableEq, Repr

def Socks5Error.replyCode : Socks5Error → Option UInt8
  | .commandNotSupported _ => some repCommandNotSupported
  | .addressTypeNotSupported => some repAddressTypeNotSupported
  | .invalidDestination _ => some repGeneralFailure
  | .dial e => some (dialReplyCode e)
  | _ => none

/-! ## §2. Destinations. -/

def finishIpTarget (address : IpAddr) (port : UInt16) (config : Socks5Config) :
    Except Socks5Error Target :=
  if address.isIpv6 && !config.tunnelHasV6 then .error .addressTypeNotSupported
  else if port = 0 then .error (.invalidDestination "port 0")
  else .ok (.ip ⟨address, port⟩)

def validateHostname (raw : List UInt8) : Except Socks5Error (List Char) :=
  if raw.isEmpty then .error (.invalidDestination "empty hostname")
  else if raw.length > maxDomainLen then .error (.invalidDestination "hostname too long")
  else if raw.contains 0x00 then .error (.invalidDestination "NUL in hostname")
  else if raw.any fun byte => !(0x21 ≤ byte && byte ≤ 0x7e) then
    .error (.invalidDestination "non-printable hostname")
  else
    match fromUtf8 raw with
    | some host => .ok host
    | none => .error (.invalidDestination "hostname is not UTF-8")

def domainTarget (raw : List UInt8) (port : UInt16) (config : Socks5Config) :
    Except Socks5Error Target :=
  (validateHostname raw).bind fun host =>
    -- an IP literal is an address, not a name
    match parseIpAddr host with
    | some address => finishIpTarget address port config
    | none =>
      if port = 0 then .error (.invalidDestination "port 0") else .ok (.domain host port)

/-! ## §3. The handshake. -/

def readExact (n : Nat) : Session Socks5Error (Vector UInt8 n) := client .io (.readExact n)

def writeReply (reply : UInt8) : Session Socks5Error Unit :=
  send .io [verSocks5, reply, 0x00, atypV4, 0, 0, 0, 0, 0, 0]

def greet (config : Socks5Config) : Session Socks5Error Unit := do
  let head ← readExact 2
  if head[0] ≠ verSocks5 then throw (.badVersion head[0])
  else
    let count := head[1].toNat
    if count = 0 then throw (.malformed "empty method list")
    else do
      let methods ← readExact count
      let wanted := config.offeredMethod
      if !methods.toList.contains wanted then do
        send .io [verSocks5, methodUnacceptable]
        throw .noAcceptableMethod
      else send .io [verSocks5, wanted]

def denyAuth : Session Socks5Error Unit := send .io [verUserpass, authDenied]

def readLengthPrefixed : Session Socks5Error (List UInt8) := do
  let len ← readExact 1
  if len[0].toNat = 0 then pure []
  else do
    let buf ← readExact len[0].toNat
    pure buf.toList

def authenticate (peer : IpAddr) (credentials : Credentials) : Session Socks5Error Unit := do
  let version ← readExact 1
  if version[0] ≠ verUserpass then throw (.badAuthVersion version[0])
  else do
    let username ← readLengthPrefixed
    let password ← readLengthPrefixed
    let capacity ← hasCapacity peer
    if !capacity then do
      denyAuth
      throw .authRateLimited
    else if credentials.verify username password then send .io [verUserpass, authOk]
    else do
      recordFailure peer
      denyAuth
      throw .authFailed

def readPort : Session Socks5Error UInt16 := do
  let port ← readExact 2
  pure (fromBeBytes port[0] port[1])

def readTarget (atyp : UInt8) (config : Socks5Config) : Session Socks5Error Target := do
  if atyp = atypV4 then do
    let o ← readExact 4
    let port ← readPort
    ExceptT.mk (pure (finishIpTarget (.v4 ⟨o[0], o[1], o[2], o[3]⟩) port config))
  else if atyp = atypV6 then do
    let o ← readExact 16
    let address : Ipv6Addr :=
      ⟨[fromBeBytes o[0] o[1], fromBeBytes o[2] o[3], fromBeBytes o[4] o[5], fromBeBytes o[6] o[7],
        fromBeBytes o[8] o[9], fromBeBytes o[10] o[11], fromBeBytes o[12] o[13],
        fromBeBytes o[14] o[15]], rfl⟩
    let port ← readPort
    ExceptT.mk (pure (finishIpTarget (.v6 address) port config))
  else if atyp = atypDomain then do
    let raw ← readLengthPrefixed
    let port ← readPort
    ExceptT.mk (pure (domainTarget raw port config))
  else throw (.malformed "unknown address type")

def readRequest (config : Socks5Config) : Session Socks5Error Target := do
  let head ← readExact 4
  if head[0] ≠ verSocks5 then throw (.badVersion head[0])
  else if head[2] ≠ 0x00 then throw (.malformed "RSV is not zero")
  else do
    -- the address is consumed before the command is judged
    let target ← readTarget head[3] config
    if head[1] ≠ cmdConnect then throw (.commandNotSupported head[1]) else pure target

def negotiate (peer : IpAddr) (config : Socks5Config) : Session Socks5Error Target := do
  greet config
  (match config.auth with
    | .required credentials => authenticate peer credentials
    | .disabled => pure ())
  tryCatch (readRequest config) fun err => do
    (match err.replyCode with
      | some rep => writeReply rep
      | none => pure ())
    throw err

def handshake (peer : IpAddr) (config : Socks5Config) : Session Socks5Error Target := do
  match ← deadline config.handshakeTimeout (negotiate peer config) with
  | none => throw .handshakeTimeout
  | some target =>
    match ← dial target with
    | .ok () => do
        writeReply repSuccess
        pure target
    | .error err => do
        writeReply (dialReplyCode err)
        throw (.dial err)

def serve (peer : IpAddr) (config : Socks5Config) : Session Socks5Error (Nat × Nat) := do
  let _ ← handshake peer config
  relay .io

/-! ## §4. What a negotiation has read. -/

/-- The greeting offers the method, and the sub-negotiation carries the credentials. -/
def Carries (username password bytes : List UInt8) : Prop :=
  ∃ (n ulen plen : UInt8) (methods rest : List UInt8),
    bytes = verSocks5 :: n :: methods ++
      (verUserpass :: ulen :: username ++ plen :: password) ++ rest ∧
    n.toNat = methods.length ∧ methodUserpass ∈ methods ∧
    ulen.toNat = username.length ∧ plen.toNat = password.length

theorem talks_readExact (n : Nat) :
    Talks (readExact n) fun v bytes log => bytes = v.toList ∧ log = [] :=
  Talks.client (.readExact n)

theorem toList_one (v : Vector UInt8 1) : v.toList = [v[0]] := by
  refine List.ext_getElem (by simp) fun i hi hi' => ?_
  have hi0 : i = 0 := by simpa using hi'
  subst hi0
  simp

theorem toList_two (v : Vector UInt8 2) : v.toList = [v[0], v[1]] := by
  refine List.ext_getElem (by simp) fun i hi hi' => ?_
  have hcases : i = 0 ∨ i = 1 := by
    have hlt : i < 2 := by simpa using hi'
    omega
  rcases hcases with rfl | rfl <;> simp

theorem toList_four (v : Vector UInt8 4) : v.toList = [v[0], v[1], v[2], v[3]] := by
  refine List.ext_getElem (by simp) fun i hi hi' => ?_
  have hcases : i = 0 ∨ i = 1 ∨ i = 2 ∨ i = 3 := by
    have hlt : i < 4 := by simpa using hi'
    omega
  rcases hcases with rfl | rfl | rfl | rfl <;> simp

theorem octets_two {v : Vector UInt8 2} {a b : UInt8} (h : v.toList = [a, b]) :
    v[0] = a ∧ v[1] = b := by
  simpa [toList_two] using h

theorem octets_four {v : Vector UInt8 4} {a b c d : UInt8} (h : v.toList = [a, b, c, d]) :
    v[0] = a ∧ v[1] = b ∧ v[2] = c ∧ v[3] = d := by
  simpa [toList_four] using h

theorem toList_sixteen (v : Vector UInt8 16) : v.toList = [v[0], v[1], v[2], v[3], v[4], v[5], v[6],
    v[7], v[8], v[9], v[10], v[11], v[12], v[13], v[14], v[15]] := by
  refine List.ext_getElem (by simp) fun i hi hi' => ?_
  have hlt : i < 16 := by simpa using hi'
  interval_cases i <;> simp

theorem talks_greet (config : Socks5Config) :
    Talks (greet config) fun _ bytes log => log = [] ∧ ∃ (n : UInt8) (methods : List UInt8),
      bytes = verSocks5 :: n :: methods ∧ n.toNat = methods.length ∧
        config.offeredMethod ∈ methods := by
  refine (talks_readExact 2).bind fun head bytes log h => ?_
  obtain ⟨rfl, rfl⟩ := h
  split
  · exact Talks.throw
  · next hversion =>
    dsimp only
    split
    · exact Talks.throw
    · refine (talks_readExact _).bind fun methods bytes log h => ?_
      obtain ⟨rfl, rfl⟩ := h
      split
      · exact (Talks.send _).bind fun _ _ _ _ => Talks.throw
      · next hoffered =>
        refine (Talks.send _).mono fun _ taken log h => ?_
        obtain ⟨rfl, rfl⟩ := h
        refine ⟨rfl, head[1], methods.toList, ?_, by simp, by simpa using hoffered⟩
        have hfirst : head[0] = verSocks5 := by simpa using hversion
        rw [toList_two, hfirst]
        simp

theorem talks_readLengthPrefixed :
    Talks readLengthPrefixed fun buf bytes log => log = [] ∧
      ∃ len : UInt8, bytes = len :: buf ∧ len.toNat = buf.length := by
  refine (talks_readExact 1).bind fun len bytes log h => ?_
  obtain ⟨rfl, rfl⟩ := h
  split
  · next hzero => exact Talks.pure ⟨rfl, len[0], by simp [toList_one], hzero⟩
  · refine (talks_readExact _).bind fun buf bytes log h => ?_
    obtain ⟨rfl, rfl⟩ := h
    exact Talks.pure ⟨rfl, len[0], by simp [toList_one], by simp⟩

theorem talks_authenticate (peer : IpAddr) (credentials : Credentials) :
    Talks (authenticate peer credentials) fun _ bytes log =>
      (∃ ulen plen : UInt8,
        bytes = verUserpass :: ulen :: credentials.username ++ plen :: credentials.password ∧
        ulen.toNat = credentials.username.length ∧ plen.toNat = credentials.password.length) ∧
      ∃ limiter now, log = [.checked peer limiter now] ∧
        limiter.hasCapacityAt peer now = true := by
  refine (talks_readExact 1).bind fun version bytes log h => ?_
  obtain ⟨rfl, rfl⟩ := h
  split
  · exact Talks.throw
  · next hversion =>
    refine talks_readLengthPrefixed.bind fun username bytes log h => ?_
    obtain ⟨rfl, ulen, rfl, hulen⟩ := h
    refine talks_readLengthPrefixed.bind fun password bytes log h => ?_
    obtain ⟨rfl, plen, rfl, hplen⟩ := h
    refine (Talks.hasCapacity peer).bind fun capacity bytes log h => ?_
    obtain ⟨rfl, limiter, now, rfl, hcapacity⟩ := h
    split
    · exact (Talks.send _).bind fun _ _ _ _ => Talks.throw
    · next hfull =>
      split
      · next hverify =>
        refine (Talks.send _).mono fun _ taken log h => ?_
        obtain ⟨rfl, rfl⟩ := h
        obtain ⟨rfl, rfl⟩ : credentials.username = username ∧
            credentials.password = password := by
          simpa [Credentials.verify] using hverify
        have hfirst : version[0] = verUserpass := by simpa using hversion
        refine ⟨⟨ulen, plen, ?_, hulen, hplen⟩, limiter, now, rfl, ?_⟩
        · rw [toList_one, hfirst]
          simp
        · rw [← hcapacity]
          simpa using hfull
      · refine (Talks.recordFailure peer).bind fun _ _ _ _ => ?_
        exact (Talks.send _).bind fun _ _ _ _ => Talks.throw

theorem talks_readPort : Talks readPort fun _ _ log => log = [] :=
  (talks_readExact 2).bind fun _ _ _ h => Talks.pure (by rw [h.2]; rfl)

theorem talks_readTarget (atyp : UInt8) (config : Socks5Config) :
    Talks (readTarget atyp config) fun _ _ log => log = [] := by
  unfold readTarget
  have hfinish : ∀ (log : List Event) (r : UInt16 → Except Socks5Error Target), log = [] →
      Talks (readPort >>= fun port => ExceptT.mk (pure (r port)))
        fun _ _ later => log ++ later = [] := by
    intro log r hlog
    refine talks_readPort.bind fun port _ later hlater => ?_
    refine (Talks.ofExcept (r port)).mono fun _ _ last h => ?_
    rw [hlog, hlater, h.2.2]
    rfl
  split
  · exact (talks_readExact 4).bind fun o _ log h => hfinish log _ h.2
  · split
    · exact (talks_readExact 16).bind fun o _ log h => hfinish log _ h.2
    · split
      · exact talks_readLengthPrefixed.bind fun raw _ log h => hfinish log _ h.1
      · exact Talks.throw

theorem talks_readRequest (config : Socks5Config) :
    Talks (readRequest config) fun _ _ log => log = [] := by
  refine (talks_readExact 4).bind fun head _ log h => ?_
  split
  · exact Talks.throw
  · split
    · exact Talks.throw
    · refine (talks_readTarget _ config).bind fun target _ later hlater => ?_
      split
      · exact Talks.throw
      · exact Talks.pure (by rw [h.2, hlater]; rfl)

theorem talks_negotiate (peer : IpAddr) (config : Socks5Config) :
    Talks (negotiate peer config) fun _ bytes log => config.auth.Vetted Carries peer bytes log := by
  refine (talks_greet config).bind fun _ bytes log h => ?_
  obtain ⟨rfl, n, methods, rfl, hn, hoffered⟩ := h
  have hrequest : Talks (tryCatch (readRequest config) fun err => do
      (match err.replyCode with
        | some rep => writeReply rep
        | none => pure ())
      throw err) fun _ _ log => log = [] := by
    refine (talks_readRequest config).rethrow fun err => ?_
    split
    · exact (Talks.send _).bind fun _ _ _ _ => Talks.throw
    · exact (Talks.pure (P := fun _ _ _ => True) trivial).bind fun _ _ _ _ => Talks.throw
  cases hauth : config.auth with
  | disabled =>
    refine (Talks.pure (P := fun _ _ _ => True) trivial).bind fun _ _ _ _ => ?_
    exact hrequest.mono fun _ _ _ _ => trivial
  | required credentials =>
    have hmethod : config.offeredMethod = methodUserpass := by
      unfold Socks5Config.offeredMethod
      rw [hauth]
    rw [hmethod] at hoffered
    refine (talks_authenticate peer credentials).bind fun _ bytes log h => ?_
    obtain ⟨⟨ulen, plen, rfl, hulen, hplen⟩, limiter, now, rfl, hcapacity⟩ := h
    refine hrequest.mono fun _ rest log hlog => ?_
    refine ⟨⟨n, ulen, plen, methods, rest, by simp, hn, hoffered, hulen, hplen⟩,
      limiter, now, by rw [hlog]; rfl, hcapacity⟩

/-! ## §5. The dial. -/

theorem dialsOnce_handshake (peer : IpAddr) (config : Socks5Config) :
    DialsOnce (handshake peer config) (config.auth.Vetted Carries peer) := by
  refine DialsOnce.after ((talks_negotiate peer config).deadline _) fun outcome bytes log h => ?_
  cases outcome with
  | none => exact DialsOnce.of_talks (Talks.throw (P := fun _ _ _ => True))
  | some target =>
    refine (DialsOnce.dial ?_ target).silent fun r => ?_
    · rw [List.append_nil, List.append_nil]
      exact h target rfl
    · cases r with
      | ok _ => exact (Silent.send _).bind fun _ => Silent.pure
      | error err => exact (Silent.send _).bind fun _ => Silent.throw

theorem dialsOnce_serve (peer : IpAddr) (config : Socks5Config) :
    DialsOnce (serve peer config) (config.auth.Vetted Carries peer) :=
  (dialsOnce_handshake peer config).silent fun _ => Silent.relay

end Socks5

end ThisConnect.Proxy
