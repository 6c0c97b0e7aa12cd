/-
  ThisConnect.Session.Push
  **THE RESOLVER IN A LOG LINE.**

  Main results:
    • `isPushReply_iff` — the grammar of the log texts that are recognised,
    • `observe_only_own_push_iff` — on which lines a change of the cell means
      that the text begins with openvpn's own wording.
-/
import ThisConnect.Mgmt.Event
import ThisConnect.Session.Capture
import ThisConnect.Session.Dns

namespace ThisConnect.Session.Capture

open Net Text Mgmt

/-! ## §1. A push reply. -/

def maxPushReplyBytes : Nat := 8192
def controlMessageMarker : List Char := "Received control message:".toList
def pushReplyKind : List Char := "PUSH_REPLY".toList
def maxDomainBytes : Nat := 253
def maxLabelBytes : Nat := 63
def usizeMax : Nat := 2 ^ 64 - 1

structure Ifconfig where
  localAddr : Ipv4Addr
  peerOrNetmask : Ipv4Addr
  deriving DecidableEq, Repr

structure PushReply where
  nameservers : List IpAddr := []
  searchDomains : List String := []
  ifconfig : Option Ifconfig := none
  hasIpv6 : Bool := false
  droppedAddresses : Nat := 0
  droppedDomains : Nat := 0
  deriving DecidableEq, Repr

namespace PushReply

def missingReason (reply : PushReply) : MissingDns :=
  match reply.nameservers.isEmpty, reply.droppedAddresses with
  | false, _ => .unreachableFamily reply.nameservers.length
  | true, 0 => .noDnsOptions
  | true, dropped => .allAddressesMalformed dropped

def capture (reply : PushReply) : DnsCapture :=
  let usable := reply.nameservers.filter fun server => reply.hasIpv6 || !server.isIpv6
  if usable.isEmpty then .missing reply.missingReason
  else .captured ⟨usable, reply.searchDomains, reply.hasIpv6⟩

end PushReply

def parseAddress (token : List Char) : Option IpAddr :=
  match parseIpAddr token with
  | some address => some address
  | none =>
    let head :=
      match token with
      | '[' :: rest => (splitOnce ']' rest).map Prod.fst
      | _ => (rsplitOnce ':' token).map Prod.fst
    head.bind parseIpAddr

def normaliseDomain (value : List Char) : Option String :=
  let trimmed := value.rdropWhile (· == '.')
  if trimmed.isEmpty || decide (maxDomainBytes < byteLen trimmed) then none
  else
    let sane := (trimmed.splitOn '.').all fun label =>
      !label.isEmpty && decide (byteLen label ≤ maxLabelBytes) &&
        label.all fun c => c.isAlphanum || c == '-' || c == '_'
    if sane then some (String.ofList (trimmed.map Char.toLower)) else none

/-- `str::split_whitespace`. -/
def splitWhitespace (s : List Char) : List (List Char) :=
  (s.splitOnP isWhitespace).filter fun token => !token.isEmpty

/-! ## §2. Folding the options. -/

structure Accumulator where
  reply : PushReply := {}
  inDnsAddressList : Bool := false
  deriving DecidableEq, Repr

namespace Accumulator

def withParsedAddress (acc : Accumulator) (address : IpAddr) : Accumulator :=
  if acc.reply.nameservers.contains address then acc
  else { acc with reply := { acc.reply with nameservers := acc.reply.nameservers ++ [address] } }

def withIfconfig (acc : Accumulator) (ifconfig : Ifconfig) : Accumulator :=
  { acc with reply := { acc.reply with ifconfig := some ifconfig } }

def withIpv6 (acc : Accumulator) : Accumulator :=
  { acc with reply := { acc.reply with hasIpv6 := true } }

def withDroppedAddress (acc : Accumulator) : Accumulator :=
  { acc with reply :=
    { acc.reply with droppedAddresses := min (acc.reply.droppedAddresses + 1) usizeMax } }

def withDroppedDomain (acc : Accumulator) : Accumulator :=
  { acc with reply :=
    { acc.reply with droppedDomains := min (acc.reply.droppedDomains + 1) usizeMax } }

def expectingMoreAddresses (acc : Accumulator) : Accumulator :=
  { acc with inDnsAddressList := true }

def withoutContinuation (acc : Accumulator) : Accumulator :=
  { acc with inDnsAddressList := false }

def withAddress (acc : Accumulator) (value : List Char) : Accumulator :=
  match parseAddress value with
  | some address => acc.withParsedAddress address
  | none => acc.withDroppedAddress

def withDomain (acc : Accumulator) (value : List Char) : Accumulator :=
  match normaliseDomain value with
  | none => acc.withDroppedDomain
  | some domain =>
    if acc.reply.searchDomains.contains domain then acc
    else
      { acc with reply :=
        { acc.reply with searchDomains := acc.reply.searchDomains ++ [domain] } }

def absorbDhcpOption (acc : Accumulator) (tokens : List (List Char)) : Accumulator :=
  match String.ofList ((tokens.headD []).map Char.toUpper) with
  | "DNS" | "DNS6" =>
    match tokens.tail.head? with
    | some value => acc.withAddress value
    | none => acc.withDroppedAddress
  | "DOMAIN" | "ADOMAIN" | "DOMAIN-SEARCH" =>
    match tokens.tail.head? with
    | some value => acc.withDomain value
    | none => acc.withDroppedDomain
  | _ => acc

def absorbDns (acc : Accumulator) (tokens : List (List Char)) : Accumulator :=
  match String.ofList ((tokens.headD []).map Char.toLower) with
  | "server" =>
    let rest := tokens.tail.tail
    match String.ofList ((rest.headD []).map Char.toLower) with
    | "address" => (rest.tail.foldl withAddress acc).expectingMoreAddresses
    | _ => acc
  | "search-domains" => tokens.tail.foldl withDomain acc
  | _ => acc

def absorbIfconfig (acc : Accumulator) (tokens : List (List Char)) : Accumulator :=
  match tokens[0]?.bind parseIpv4, tokens[1]?.bind parseIpv4 with
  | some localAddr, some peerOrNetmask => acc.withIfconfig ⟨localAddr, peerOrNetmask⟩
  | _, _ => acc.withDroppedAddress

def absorbAddressContinuation (acc : Accumulator) (option : List Char) : Accumulator :=
  if !acc.inDnsAddressList then acc.withoutContinuation
  else
    match (splitWhitespace option).mapM parseAddress with
    | some addresses =>
      if addresses.isEmpty then acc.withoutContinuation
      else addresses.foldl withParsedAddress acc
    | none => acc.withoutContinuation

def absorb (acc : Accumulator) (option : List Char) : Accumulator :=
  match splitWhitespace option with
  | [] => acc.withoutContinuation
  | keyword :: tokens =>
    match String.ofList (keyword.map Char.toLower) with
    | "dhcp-option" => acc.withoutContinuation.absorbDhcpOption tokens
    | "dns" => acc.withoutContinuation.absorbDns tokens
    | "ifconfig" => acc.withoutContinuation.absorbIfconfig tokens
    | "ifconfig-ipv6" | "route-ipv6" | "tun-ipv6" => acc.withoutContinuation.withIpv6
    | _ => acc.absorbAddressContinuation option

end Accumulator

def isQuote (c : Char) : Bool := c == '\'' || c == '"'

def pushReplyPayload (text : List Char) : Option (List Char) :=
  if maxPushReplyBytes < byteLen text then none
  else do
    let (_, afterMarker) ← splitOnceAt controlMessageMarker text
    let (_, afterKind) ← splitOnceAt pushReplyKind afterMarker
    let body := (afterKind.dropPrefix? [',']).getD afterKind
    return (trim body).rdropWhile isQuote

def PushReply.fromLogText (text : List Char) : Option PushReply :=
  (pushReplyPayload text).map fun payload =>
    (((payload.splitOn ',').map trim).foldl Accumulator.absorb {}).reply

/-! ## §3. The cell. -/

def isPushReply (text : List Char) : Bool :=
  match splitOnceAt controlMessageMarker text with
  | none => false
  | some (_, message) =>
    let message := trimStart message
    let body :=
      match message with
      | c :: rest => if isQuote c then rest else message
      | [] => message
    match body.dropPrefix? pushReplyKind with
    | none => false
    | some rest =>
      match rest with
      | [] => true
      | c :: _ => c == ',' || isQuote c

def absorb (slot capture : DnsCapture) : DnsCapture :=
  match capture, slot with
  | .captured _, _ => capture
  | .missing _, .captured _ => slot
  | .missing _, .missing _ => capture

def observeLine (slot : DnsCapture) (line : List Char) : DnsCapture :=
  match line.dropPrefix? ">LOG:".toList with
  | none => slot
  | some payload =>
    let text := (LogEvent.parse payload).text.toList
    if !isPushReply text then slot
    else
      match PushReply.fromLogText text with
      | none => slot
      | some reply => absorb slot reply.capture

/-! ## §4. The grammar of a recognised text. -/

structure FirstAt (sep s head tail : List Char) : Prop where
  eq : s = head ++ sep ++ tail
  first : ∀ before after, s = before ++ sep ++ after → head.length ≤ before.length

variable {head s sep tail quote rest space text : List Char}

theorem FirstAt.unique {head' tail' : List Char} (h : FirstAt sep s head tail)
    (h' : FirstAt sep s head' tail') : head = head' ∧ tail = tail' := by
  have hlength : head.length = head'.length :=
    le_antisymm (h.first _ _ h'.eq) (h'.first _ _ h.eq)
  have heq : head ++ (sep ++ tail) = head' ++ (sep ++ tail') := by
    rw [← List.append_assoc, ← List.append_assoc, ← h.eq, ← h'.eq]
  obtain ⟨hhead, hrest⟩ := List.append_inj heq hlength
  exact ⟨hhead, List.append_cancel_left hrest⟩

theorem splitOnceAt_firstAt (hsep : sep ≠ []) :
    ∀ {s head tail : List Char}, splitOnceAt sep s = some (head, tail) →
      FirstAt sep s head tail := by
  intro s
  induction s with
  | nil =>
    intro head tail h
    simp [splitOnceAt, hsep] at h
  | cons c s ih =>
    intro head tail h
    rw [splitOnceAt] at h
    split at h
    · next hpre =>
      injection h with h
      injection h with hhead htail
      obtain ⟨rest, hrest⟩ := List.isPrefixOf_iff_prefix.mp hpre
      subst hhead htail
      refine ⟨?_, fun _ _ _ => Nat.zero_le _⟩
      rw [← hrest, List.drop_left, List.nil_append]
    · next hpre =>
      obtain ⟨⟨head', tail'⟩, hs, heq⟩ := Option.map_eq_some_iff.mp h
      injection heq with hhead htail
      subst hhead htail
      obtain ⟨hsplit, hfirst⟩ := ih hs
      refine ⟨by rw [hsplit]; rfl, ?_⟩
      intro before after heq
      cases before with
      | nil =>
        -- an occurrence at the very start is what the guard has excluded
        refine absurd (List.isPrefixOf_iff_prefix.mpr ⟨after, ?_⟩) hpre
        rw [heq, List.nil_append]
      | cons d before =>
        rw [List.cons_append, List.cons_append] at heq
        injection heq with _ heq
        exact Nat.succ_le_succ (hfirst before after heq)

theorem splitOnceAt_isSome : ∀ {s : List Char}, sep <:+: s →
    ∃ head tail, splitOnceAt sep s = some (head, tail) := by
  intro s
  induction s with
  | nil =>
    intro h
    have hnil : sep = [] := List.infix_nil.mp h
    exact ⟨[], [], by simp [splitOnceAt, hnil]⟩
  | cons c s ih =>
    intro h
    rw [splitOnceAt]
    by_cases hpre : sep.isPrefixOf (c :: s) = true
    · rw [if_pos hpre]
      exact ⟨_, _, rfl⟩
    · rw [if_neg hpre]
      rcases List.infix_cons_iff.mp h with hstart | hlater
      · exact absurd (List.isPrefixOf_iff_prefix.mpr hstart) hpre
      · obtain ⟨head, tail, hs⟩ := ih hlater
        exact ⟨c :: head, tail, by rw [hs]; rfl⟩

theorem splitOnceAt_eq_some_iff (hsep : sep ≠ []) :
    splitOnceAt sep s = some (head, tail) ↔ FirstAt sep s head tail := by
  constructor
  · exact splitOnceAt_firstAt hsep
  · intro h
    obtain ⟨head', tail', hs⟩ := @splitOnceAt_isSome sep s
      ⟨head, tail, h.eq.symm⟩
    obtain ⟨rfl, rfl⟩ := h.unique (splitOnceAt_firstAt hsep hs)
    exact hs

structure Recognised (text head space quote rest : List Char) : Prop where
  marker : FirstAt controlMessageMarker text head (space ++ (quote ++ (pushReplyKind ++ rest)))
  space : ∀ c ∈ space, isWhitespace c = true
  quote : quote = [] ∨ ∃ c, isQuote c = true ∧ quote = [c]
  rest : ∀ c ∈ rest.head?, c = ',' ∨ isQuote c = true

theorem isWhitespace_of_isQuote {c : Char} (h : isQuote c = true) : isWhitespace c = false := by
  have hc : c = '\'' ∨ c = '"' := by simpa [isQuote] using h
  rcases hc with rfl | rfl <;> decide

theorem trimStart_recognised (hspace : ∀ c ∈ space, isWhitespace c = true)
    (hquote : quote = [] ∨ ∃ c, isQuote c = true ∧ quote = [c]) :
    trimStart (space ++ (quote ++ (pushReplyKind ++ rest))) = quote ++ (pushReplyKind ++ rest) := by
  rw [trimStart, List.dropWhile_append_of_pos hspace]
  rcases hquote with rfl | ⟨c, hc, rfl⟩
  · rfl
  · show List.dropWhile isWhitespace (c :: (pushReplyKind ++ rest)) = _
    rw [List.dropWhile_cons_of_neg (by simp [isWhitespace_of_isQuote hc])]
    rfl

def kindFollows (message : List Char) : Bool :=
  let body :=
    match message with
    | c :: rest => if isQuote c then rest else message
    | [] => message
  match body.dropPrefix? pushReplyKind with
  | none => false
  | some rest =>
    match rest with
    | [] => true
    | c :: _ => c == ',' || isQuote c

theorem isPushReply_eq (text : List Char) :
    isPushReply text = match splitOnceAt controlMessageMarker text with
      | none => false
      | some (_, message) => kindFollows (trimStart message) := by
  unfold isPushReply
  split <;> rfl

theorem kindFollows_iff (message : List Char) :
    kindFollows message = true ↔ ∃ quote rest, message = quote ++ (pushReplyKind ++ rest) ∧
      (quote = [] ∨ ∃ c, isQuote c = true ∧ quote = [c]) ∧
      ∀ c ∈ rest.head?, c = ',' ∨ isQuote c = true := by
  have hend : ∀ rest : List Char, (match rest with
      | [] => true
      | c :: _ => c == ',' || isQuote c) = true ↔ ∀ c ∈ rest.head?, c = ',' ∨ isQuote c = true := by
    intro rest
    cases rest <;> simp
  constructor
  · intro h
    unfold kindFollows at h
    dsimp only at h
    split at h
    · cases h
    · next rest hdrop =>
      obtain ⟨kind, hbody, hkind⟩ := List.dropPrefix?_eq_some_iff.mp hdrop
      rw [beq_iff_eq] at hkind
      subst hkind
      have hrest := (hend rest).mp h
      split at hbody
      · next c tail =>
        split at hbody
        · next hc => exact ⟨[c], rest, by rw [hbody]; rfl, .inr ⟨c, hc, rfl⟩, hrest⟩
        · exact ⟨[], rest, hbody, .inl rfl, hrest⟩
      · exact ⟨[], rest, hbody, .inl rfl, hrest⟩
  · rintro ⟨quote, rest, rfl, hquote, hrest⟩
    have hlast := (hend rest).mpr hrest
    unfold kindFollows
    rcases hquote with rfl | ⟨c, hc, rfl⟩
    · show (match (pushReplyKind ++ rest).dropPrefix? pushReplyKind with
        | none => false
        | some rest => _) = true
      rw [dropPrefix_append]
      exact hlast
    · simp only [List.cons_append, List.nil_append, if_pos hc, dropPrefix_append]
      exact hlast

theorem isPushReply_iff (text : List Char) :
    isPushReply text = true ↔ ∃ head space quote rest, Recognised text head space quote rest := by
  have hmarker : controlMessageMarker ≠ [] := by decide
  rw [isPushReply_eq]
  constructor
  · intro h
    split at h
    · cases h
    · next head message hsplit =>
      obtain ⟨quote, rest, htrim, hquote, hrest⟩ := (kindFollows_iff _).mp h
      refine ⟨head, message.takeWhile isWhitespace, quote, rest, ?_, ?_, hquote, hrest⟩
      · rw [← htrim, trimStart, List.takeWhile_append_dropWhile]
        exact (splitOnceAt_eq_some_iff hmarker).mp hsplit
      · intro c hc
        exact List.mem_takeWhile_imp hc
  · rintro ⟨head, space, quote, rest, hfirst, hspace, hquote, hrest⟩
    rw [(splitOnceAt_eq_some_iff hmarker).mpr hfirst]
    show kindFollows (trimStart _) = true
    rw [trimStart_recognised hspace hquote]
    exact (kindFollows_iff _).mpr ⟨quote, rest, rfl, hquote, hrest⟩

theorem fromLogText_isSome_iff (h : isPushReply text = true) :
    (∃ reply, PushReply.fromLogText text = some reply) ↔ byteLen text ≤ maxPushReplyBytes := by
  obtain ⟨head, space, quote, rest, hrecognised⟩ := (isPushReply_iff text).mp h
  have hmarker := (splitOnceAt_eq_some_iff (by decide)).mpr hrecognised.marker
  obtain ⟨skipped, options, hkind⟩ := @splitOnceAt_isSome pushReplyKind
    (space ++ (quote ++ (pushReplyKind ++ rest)))
    ⟨space ++ quote, rest, by simp only [List.append_assoc]⟩
  by_cases hlen : maxPushReplyBytes < byteLen text
  · simp [PushReply.fromLogText, pushReplyPayload, hlen]
  · simp [PushReply.fromLogText, pushReplyPayload, hlen, hmarker, hkind, Nat.not_lt.mp hlen]

/-! ## §5. Whose push it is. -/

def logText (line : List Char) : Option (List Char) :=
  (line.dropPrefix? ">LOG:".toList).map fun payload => (LogEvent.parse payload).text.toList

def ownWording : List Char := "PUSH: Received control message: 'PUSH_REPLY".toList

theorem capture_ne_noneReceived (reply : PushReply) : reply.capture ≠ .noneReceived := by
  unfold PushReply.capture DnsCapture.noneReceived PushReply.missingReason
  dsimp only
  split
  · split <;> simp
  · simp

theorem absorb_noneReceived (capture : DnsCapture) : absorb .noneReceived capture = capture := by
  cases capture <;> rfl

theorem observeLine_eq (slot : DnsCapture) (line : List Char) :
    observeLine slot line = match (logText line).bind fun text =>
        if isPushReply text then PushReply.fromLogText text else none with
      | none => slot
      | some reply => absorb slot reply.capture := by
  unfold observeLine logText
  cases line.dropPrefix? ">LOG:".toList with
  | none => rfl
  | some payload =>
    simp only [Option.map_some, Option.bind_some]
    cases hpush : isPushReply (LogEvent.parse payload).text.toList with
    | false => simp
    | true =>
      simp only [if_true]
      cases PushReply.fromLogText (LogEvent.parse payload).text.toList <;> rfl

theorem observeLine_noneReceived_iff (line : List Char) :
    observeLine .noneReceived line ≠ .noneReceived ↔
      ∃ text, logText line = some text ∧ isPushReply text = true ∧
        byteLen text ≤ maxPushReplyBytes := by
  rw [observeLine_eq]
  cases hline : logText line with
  | none => simp
  | some text =>
    rw [Option.bind_some]
    cases hpush : isPushReply text with
    | false => simp [hpush]
    | true =>
      have hsome := fromLogText_isSome_iff hpush
      cases hreply : PushReply.fromLogText text with
      | none => simpa [hpush, hreply] using hsome
      | some reply =>
        have hlen := hsome.mp ⟨reply, hreply⟩
        simp [hpush, hlen, absorb_noneReceived, capture_ne_noneReceived]

theorem ownWording_eq :
    ownWording = "PUSH: ".toList ++ controlMessageMarker ++ (" '".toList ++ pushReplyKind) := by
  decide

theorem recognised_own_iff (h : Recognised text head space quote rest) :
    ownWording <+: text ↔ head = "PUSH: ".toList ∧ space = [' '] ∧ quote = ['\''] := by
  obtain ⟨hfirst, hspace, hquote, -⟩ := h
  constructor
  · rintro ⟨more, hmore⟩
    rw [ownWording_eq] at hmore
    have hown : FirstAt controlMessageMarker text "PUSH: ".toList
        (" '".toList ++ (pushReplyKind ++ more)) := by
      refine ⟨by rw [← hmore]; simp only [List.append_assoc], ?_⟩
      intro before after heq
      -- the marker begins with a letter that `PUSH: ` does not have
      by_contra hshort
      have hget : text[before.length]? = some 'R' := by
        rw [heq, List.append_assoc, List.getElem?_append_right (le_refl _), Nat.sub_self]
        rfl
      have hlt : before.length < 6 := Nat.lt_of_not_le hshort
      rw [← hmore, List.append_assoc, List.append_assoc,
        List.getElem?_append_left (by exact hlt)] at hget
      exact absurd (List.mem_of_getElem? hget) (by decide)
    obtain ⟨hhead, htail⟩ := hfirst.unique hown
    have htrim := congrArg trimStart htail
    rw [trimStart_recognised hspace hquote] at htrim
    have hquoted : quote ++ (pushReplyKind ++ rest) = ['\''] ++ (pushReplyKind ++ more) := htrim
    have hone : quote = ['\''] := by
      rcases hquote with rfl | ⟨c, -, rfl⟩
      · cases hquoted
      · injection hquoted with hc _
        rw [hc]
    refine ⟨hhead, ?_, hone⟩
    rw [hone] at htail hquoted
    have hspaces : space ++ (['\''] ++ (pushReplyKind ++ rest)) =
        [' '] ++ (['\''] ++ (pushReplyKind ++ rest)) := by
      rw [htail, hquoted]
      rfl
    exact List.append_cancel_right hspaces
  · rintro ⟨rfl, rfl, rfl⟩
    refine ⟨rest, ?_⟩
    rw [hfirst.eq, ownWording_eq]
    simp only [List.append_assoc]
    rfl

/-- Wherever a log text that is not too long has the form of a push, it is openvpn's own: nothing
    but `PUSH: ` before the marker, one blank and a single quote after it. -/
def PushInPlace (line : List Char) : Prop :=
  ∀ text head space quote rest, logText line = some text → byteLen text ≤ maxPushReplyBytes →
    Recognised text head space quote rest →
    head = "PUSH: ".toList ∧ space = [' '] ∧ quote = ['\'']

/-- **On which lines only openvpn's own push can set the resolver.**  The recogniser looks for the
    marker at its first occurrence, not at the start of the text, so a line moves the cell without
    beginning with openvpn's wording exactly when a text of the form of a push stands elsewhere in
    it, or with other white space or another quote. -/
theorem observe_only_own_push_iff (line : List Char) :
    (∀ slot, observeLine slot line ≠ slot →
        ∃ text, logText line = some text ∧ ownWording <+: text) ↔ PushInPlace line := by
  constructor
  · intro hown text head space quote rest htext hlen hrecognised
    have hpush := (isPushReply_iff text).mpr ⟨head, space, quote, rest, hrecognised⟩
    obtain ⟨text', htext', hwording⟩ := hown .noneReceived
      ((observeLine_noneReceived_iff line).mpr ⟨text, htext, hpush, hlen⟩)
    rw [htext] at htext'
    injection htext' with htext'
    exact (recognised_own_iff hrecognised).mp (htext' ▸ hwording)
  · intro hplace slot hmoved
    rw [observeLine_eq] at hmoved
    cases htext : logText line with
    | none => simp [htext] at hmoved
    | some text =>
      refine ⟨text, rfl, ?_⟩
      rw [htext, Option.bind_some] at hmoved
      cases hpush : isPushReply text with
      | false => simp [hpush] at hmoved
      | true =>
        obtain ⟨head, space, quote, rest, hrecognised⟩ := (isPushReply_iff text).mp hpush
        have hlen : byteLen text ≤ maxPushReplyBytes := by
          by_contra hlong
          have hnone : PushReply.fromLogText text = none := by
            rw [Option.eq_none_iff_forall_ne_some]
            exact fun reply hreply =>
              hlong ((fromLogText_isSome_iff hpush).mp ⟨reply, hreply⟩)
          simp [hnone] at hmoved
        exact (recognised_own_iff hrecognised).mpr
          (hplace text head space quote rest htext hlen hrecognised)

def quotedPush : List Char :=
  (">LOG:1700000000,I,VERIFY OK: depth=0, CN=PUSH: Received control message: " ++
    "'PUSH_REPLY,dhcp-option DNS 6.6.6.6'").toList

/-- The name in the certificate sets the resolver. -/
theorem quoted_push_captured :
    (∀ text, logText quotedPush = some text → ¬ ownWording <+: text) ∧
      observeLine .noneReceived quotedPush = .captured ⟨[.v4 ⟨6, 6, 6, 6⟩], [], false⟩ := by
  refine ⟨?_, by decide +kernel⟩
  intro text htext
  have htext' : logText quotedPush =
      some ("VERIFY OK: depth=0, CN=PUSH: Received control message: " ++
        "'PUSH_REPLY,dhcp-option DNS 6.6.6.6'").toList := by decide +kernel
  rw [htext'] at htext
  injection htext with htext
  rw [← htext]
  decide +kernel

def ownPush : List Char :=
  ">LOG:1700000000,,PUSH: Received control message: 'PUSH_REPLY,dhcp-option DNS 10.8.0.1'".toList

theorem observe_only_own_push_iff_own :
    observeLine .noneReceived ownPush ≠ .noneReceived ∧
      ∃ text, logText ownPush = some text ∧ ownWording <+: text := by
  have htext : logText ownPush = some
      "PUSH: Received control message: 'PUSH_REPLY,dhcp-option DNS 10.8.0.1'".toList := by
    decide +kernel
  have hmoved : observeLine .noneReceived ownPush ≠ .noneReceived := by decide +kernel
  refine ⟨hmoved, (observe_only_own_push_iff ownPush).mpr ?_ _ hmoved⟩
  intro text head space quote rest hline _ hrecognised
  rw [htext] at hline
  injection hline with hline
  subst hline
  exact (recognised_own_iff hrecognised).mp (by decide +kernel)

end ThisConnect.Session.Capture
