/-
  ThisConnect.Proxy.Chunking
  **AN HTTP HEAD AND THE PACKETS IT COMES IN.**

  `scan` is the loop as a function of the reads to come.  Main results:
    • `scan_cases` — what it finds, by where the first blank line ends,
    • `negotiateInner_steady_iff` — the outcome is the same for every cut of the
      stream exactly if the first blank line does not end within `readChunk`
      bytes past the limit, or the request line is too long anyway.
-/
import ThisConnect.Proxy.Requests
import ThisConnect.Proxy.Listener

namespace ThisConnect.Proxy.Http

open Net Codec Text

/-! ## §1. The loop over the reads to come. -/

/-- A cut of the stream into reads the buffer can hold. -/
structure Cut (stream : List UInt8) (reads : List (List UInt8)) : Prop where
  flatten : reads.flatten = stream
  proper : ∀ chunk ∈ reads, chunk ≠ []
  fits : ∀ chunk ∈ reads, chunk.length ≤ readChunk

variable {chunk stream : List UInt8} {reads : List (List UInt8)} {α β : Type}

theorem Cut.tail (h : Cut stream (chunk :: reads)) : Cut reads.flatten reads where
  flatten := rfl
  proper := fun c hc => h.proper c (List.mem_cons_of_mem _ hc)
  fits := fun c hc => h.fits c (List.mem_cons_of_mem _ hc)

def scan (buf : List UInt8) (reads : List (List UInt8)) :
    Except HttpError RawHead × List (List UInt8) :=
  match findTerminator buf with
  | some stop => (.ok ⟨buf.take stop, buf.drop (stop + 4)⟩, reads)
  | none =>
    if maxHeadBytes ≤ buf.length then (.error .headTooLarge, reads)
    else
      match reads with
      | [] => (.error (.malformed "closed before end of request head"), [])
      | chunk :: reads => scan (buf ++ chunk) reads

variable {stop : Nat} {e : HttpError}

section Scanning

variable {buf : List UInt8} {reads : List (List UInt8)}

theorem scan_found (h : findTerminator buf = some stop) :
    scan buf reads = (.ok ⟨buf.take stop, buf.drop (stop + 4)⟩, reads) := by
  rw [scan.eq_def, h]

theorem scan_full (h : findTerminator buf = none) (hfull : maxHeadBytes ≤ buf.length) :
    scan buf reads = (.error .headTooLarge, reads) := by
  rw [scan.eq_def, h]
  exact if_pos hfull

theorem scan_nil (h : findTerminator buf = none) (hroom : buf.length < maxHeadBytes) :
    scan buf [] = (.error (.malformed "closed before end of request head"), []) := by
  rw [scan.eq_def, h]
  exact if_neg (by omega)

theorem scan_cons {chunk : List UInt8} (h : findTerminator buf = none)
    (hroom : buf.length < maxHeadBytes) :
    scan buf (chunk :: reads) = scan (buf ++ chunk) reads := by
  rw [scan.eq_def, h]
  exact if_neg (by omega)

theorem readHeadLoop_found (h : findTerminator buf = some stop) (fuel : Nat) :
    readHeadLoop fuel buf = pure ⟨buf.take stop, buf.drop (stop + 4)⟩ := by
  cases fuel with
  | zero => rw [readHeadLoop, h]
  | succ fuel => rw [readHeadLoop, h]

theorem readHeadLoop_full (h : findTerminator buf = none) (hfull : maxHeadBytes ≤ buf.length)
    (fuel : Nat) : readHeadLoop fuel buf = throw .headTooLarge := by
  cases fuel with
  | zero =>
    rw [readHeadLoop, h]
    exact if_pos hfull
  | succ fuel =>
    rw [readHeadLoop, h]
    exact if_pos hfull

theorem readHeadLoop_next (h : findTerminator buf = none) (hroom : buf.length < maxHeadBytes)
    (fuel : Nat) : readHeadLoop (fuel + 1) buf = (do
      let chunk ← client .io (.read readChunk)
      if chunk.isEmpty then throw (.malformed "closed before end of request head")
      else readHeadLoop fuel (buf ++ chunk)) := by
  rw [readHeadLoop, h]
  exact if_neg (by omega)

theorem over_or_reads (buf : List UInt8) :
    ((findTerminator buf).isSome = true ∨ maxHeadBytes ≤ buf.length) ∨
      findTerminator buf = none ∧ buf.length < maxHeadBytes := by
  cases findTerminator buf with
  | some stop => exact .inl (.inl rfl)
  | none =>
    rcases Nat.lt_or_ge buf.length maxHeadBytes with hroom | hfull
    · exact .inr ⟨rfl, hroom⟩
    · exact .inl (.inr hfull)

theorem run_readHeadLoop_over (dialer : Target → Except DialError Unit) (s : Script)
    (h : (findTerminator buf).isSome = true ∨ maxHeadBytes ≤ buf.length) (fuel : Nat) :
    run dialer (readHeadLoop fuel buf) s =
      ((scan buf s.reads).1, { s with reads := (scan buf s.reads).2 }) := by
  cases hfind : findTerminator buf with
  | some stop =>
    rw [readHeadLoop_found hfind, scan_found hfind]
    rfl
  | none =>
    rw [hfind] at h
    have hfull : maxHeadBytes ≤ buf.length := h.resolve_left (by simp)
    rw [readHeadLoop_full hfind hfull, scan_full hfind hfull]
    rfl

theorem run_readHeadLoop (dialer : Target → Except DialError Unit) (reads : List (List UInt8)) :
    ∀ {fuel : Nat} {buf : List UInt8} {s : Script}, s.reads = reads → Cut reads.flatten reads →
      maxHeadBytes ≤ fuel + buf.length →
      run dialer (readHeadLoop fuel buf) s =
        ((scan buf reads).1, { s with reads := (scan buf reads).2 }) := by
  induction reads with
  | nil =>
    intro fuel buf s hs hcut hfuel
    rcases over_or_reads buf with hover | ⟨hfind, hroom⟩
    · rw [run_readHeadLoop_over dialer s hover, hs]
    · obtain ⟨fuel, rfl⟩ : ∃ k, fuel = k + 1 := ⟨fuel - 1, by omega⟩
      have hread : s.complete (.read readChunk) = (.ok [], s) := by
        rw [Script.complete, if_neg (by decide), hs]
      rw [readHeadLoop_next hfind hroom, scan_nil hfind hroom,
        run_bind_ok dialer (run_client_ok dialer hread), ← hs]
      rfl
  | cons chunk reads ih =>
    intro fuel buf s hs hcut hfuel
    rcases over_or_reads buf with hover | ⟨hfind, hroom⟩
    · rw [run_readHeadLoop_over dialer s hover, hs]
    · obtain ⟨fuel, rfl⟩ : ∃ k, fuel = k + 1 := ⟨fuel - 1, by omega⟩
      have hne := hcut.proper chunk (by simp)
      have hpos := List.length_pos_of_ne_nil hne
      have hread : s.complete (.read readChunk) = (.ok chunk, { s with reads := reads }) := by
        rw [Script.complete, if_neg (by decide), hs]
        exact if_pos (hcut.fits chunk (by simp))
      rw [readHeadLoop_next hfind hroom, scan_cons hfind hroom,
        run_bind_ok dialer (run_client_ok dialer hread), if_neg (by simpa using hne)]
      refine ih rfl hcut.tail ?_
      rw [List.length_append]
      omega

/-! ## §2. What the loop comes to. -/

variable {more : List UInt8}

theorem findTerminator_of_prefix_none (h : findTerminator (buf ++ more) = none) :
    findTerminator buf = none := by
  cases hbuf : findTerminator buf with
  | none => rfl
  | some stop =>
    rw [findTerminator_append hbuf] at h
    cases h

theorem findTerminator_not_yet (h : findTerminator (buf ++ more) = some stop)
    (hlen : buf.length < stop + 4) : findTerminator buf = none := by
  cases hbuf : findTerminator buf with
  | none => rfl
  | some stop' =>
    have hlength := findTerminator_length hbuf
    rw [findTerminator_append hbuf] at h
    injection h with hsame
    omega

theorem scan_none (reads : List (List UInt8)) : ∀ {buf : List UInt8}, Cut reads.flatten reads →
    findTerminator (buf ++ reads.flatten) = none →
    (scan buf reads).1 = .error (if maxHeadBytes ≤ (buf ++ reads.flatten).length then .headTooLarge
      else .malformed "closed before end of request head") := by
  induction reads with
  | nil =>
    intro buf _ h
    rw [List.flatten_nil, List.append_nil] at h ⊢
    by_cases hfull : maxHeadBytes ≤ buf.length
    · rw [scan_full h hfull, if_pos hfull]
    · rw [scan_nil h (by omega), if_neg hfull]
  | cons chunk reads ih =>
    intro buf hcut h
    have hbuf := findTerminator_of_prefix_none h
    by_cases hfull : maxHeadBytes ≤ buf.length
    · have hlong : maxHeadBytes ≤ (buf ++ (chunk :: reads).flatten).length := by
        rw [List.length_append]
        omega
      rw [scan_full hbuf hfull, if_pos hlong]
    · rw [List.flatten_cons, ← List.append_assoc] at h ⊢
      rw [scan_cons hbuf (by omega)]
      exact ih hcut.tail h

def Found (stream : List UInt8) (stop : Nat)
    (result : Except HttpError RawHead × List (List UInt8)) : Prop :=
  ∃ pending, result.1 = .ok ⟨stream.take stop, pending⟩ ∧
    pending ++ result.2.flatten = stream.drop (stop + 4)

theorem scan_cases (reads : List (List UInt8)) {stop : Nat} : ∀ {buf : List UInt8},
    Cut reads.flatten reads → buf.length < maxHeadBytes + readChunk →
    findTerminator (buf ++ reads.flatten) = some stop →
    Found (buf ++ reads.flatten) stop (scan buf reads) ∧ stop + 4 < maxHeadBytes + readChunk ∨
      (scan buf reads).1 = .error .headTooLarge ∧ maxHeadBytes < stop + 4 := by
  induction reads with
  | nil =>
    intro buf _ hroom h
    rw [List.flatten_nil, List.append_nil] at h ⊢
    have hlength := findTerminator_length h
    refine .inl ⟨⟨_, congrArg Prod.fst (scan_found h), ?_⟩, by omega⟩
    rw [scan_found h]
    simp
  | cons chunk reads ih =>
    intro buf hcut hroom h
    cases hfind : findTerminator buf with
    | some stop' =>
      have hlength := findTerminator_length hfind
      rw [findTerminator_append hfind] at h
      injection h with hsame
      subst hsame
      refine .inl ⟨⟨buf.drop (stop' + 4), ?_, ?_⟩, by omega⟩
      · rw [scan_found hfind, List.take_append_of_le_length (by omega)]
      · rw [scan_found hfind, List.drop_append_of_le_length hlength]
    | none =>
      by_cases hfull : maxHeadBytes ≤ buf.length
      · -- the limit is reached before the blank line has arrived
        refine .inr ⟨congrArg Prod.fst (scan_full hfind hfull), ?_⟩
        by_contra hwithin
        rw [findTerminator_of_append h (by omega)] at hfind
        cases hfind
      · have hfits := hcut.fits chunk (by simp)
        rw [List.flatten_cons, ← List.append_assoc] at h ⊢
        rw [scan_cons hfind (by omega)]
        refine ih hcut.tail ?_ h
        rw [List.length_append]
        omega

end Scanning

/-! ## §3. What becomes of a head. -/

section Judging

variable (decode : List Char → Option (List UInt8)) (peer : IpAddr) (config : HttpConfig)
variable (limiter : AuthRateLimiter) (now : Instant)

def authorized (head : Head) : Except HttpError Unit :=
  match config.auth with
  | .disabled => .ok ()
  | .required credentials =>
    match head.headers.find? (isNamed "proxy-authorization") with
    | none => .error .authRequired
    | some (_, value) =>
      if !limiter.hasCapacityAt peer now then .error .authRateLimited
      else if ((decodeBasic decode value).map fun (user, pass) =>
          credentials.verify user pass).getD false then .ok ()
      else .error .authFailed

def verdict (head : List UInt8) : Except HttpError Target :=
  match fromUtf8 head with
  | none => .error (.malformed "request head is not ASCII")
  | some text =>
    (parseHead text).bind fun request =>
    (authorized decode peer config limiter now request).bind fun _ =>
    targetFromAuthority request.target config

end Judging

section Negotiating

variable {dialer : Target → Except DialError Unit} {decode : List Char → Option (List UInt8)}
variable {peer : IpAddr} {config : HttpConfig}

theorem run_authorize (head : Head) (s : Script) :
    (run dialer (authorize decode head peer config) s).1 =
        authorized decode peer config s.limiter s.now head ∧
      (run dialer (authorize decode head peer config) s).2.reads = s.reads := by
  unfold authorize authorized
  cases config.auth with
  | disabled => exact ⟨rfl, rfl⟩
  | required credentials =>
    cases head.headers.find? (isNamed "proxy-authorization") with
    | none => exact ⟨rfl, rfl⟩
    | some header =>
      have hasked : run dialer (hasCapacity peer : Session HttpError Bool) s =
          (.ok (s.limiter.hasCapacityAt peer s.now),
            { s with events := s.events ++ [.checked peer s.limiter s.now] }) := rfl
      dsimp only
      rw [run_bind_ok dialer hasked]
      split
      · exact ⟨rfl, rfl⟩
      · split
        · exact ⟨rfl, rfl⟩
        · exact ⟨rfl, rfl⟩

theorem run_negotiateInner {s : Script} (hcut : Cut s.reads.flatten s.reads) :
    (run dialer (negotiateInner decode peer config) s).1 =
        ((scan [] s.reads).1.bind fun raw =>
          (verdict decode peer config s.limiter s.now raw.head).map fun target =>
            ⟨target, raw.pending⟩) ∧
      (run dialer (negotiateInner decode peer config) s).2.reads = (scan [] s.reads).2 := by
  have hloop := @run_readHeadLoop dialer s.reads maxHeadBytes [] s rfl hcut (Nat.le_add_right _ _)
  cases hscan : (scan [] s.reads).1 with
  | error e =>
    rw [hscan] at hloop
    have hrun : run dialer (negotiateInner decode peer config) s = _ :=
      run_bind_error dialer hloop
    rw [hrun]
    exact ⟨rfl, rfl⟩
  | ok raw =>
    rw [hscan] at hloop
    have hrun : run dialer (negotiateInner decode peer config) s = _ := run_bind_ok dialer hloop
    rw [hrun]
    dsimp only [Except.bind]
    unfold verdict
    cases fromUtf8 raw.head with
    | none => exact ⟨rfl, rfl⟩
    | some text =>
      dsimp only
      cases hparse : parseHead text with
      | error e => exact ⟨rfl, rfl⟩
      | ok request =>
        obtain ⟨hauthorized, hreads⟩ := @run_authorize dialer decode peer config request
          { s with reads := (scan [] s.reads).2 }
        have hparsed : run dialer (ExceptT.mk (pure (.ok request)) : Session HttpError Head)
            { s with reads := (scan [] s.reads).2 } =
          (.ok request, { s with reads := (scan [] s.reads).2 }) := rfl
        rw [run_bind_ok dialer hparsed]
        dsimp only [Except.bind]
        cases hverdict : authorized decode peer config s.limiter s.now request with
        | error e =>
          rw [run_bind_error dialer (Prod.ext (hauthorized.trans hverdict) rfl)]
          exact ⟨rfl, hreads⟩
        | ok _ =>
          rw [run_bind_ok dialer (Prod.ext (hauthorized.trans hverdict) rfl)]
          dsimp only
          cases targetFromAuthority request.target config with
          | error e => exact ⟨rfl, hreads⟩
          | ok target => exact ⟨rfl, hreads⟩

end Negotiating

/-! ## §4. Which heads are too large. -/

def NotTooLarge {α : Type} (r : Except HttpError α) : Prop := r ≠ .error .headTooLarge

theorem NotTooLarge.bind {r : Except HttpError α} {f : α → Except HttpError β} (hr : NotTooLarge r)
    (hf : ∀ a, NotTooLarge (f a)) : NotTooLarge (r.bind f) := by
  cases r with
  | ok a => exact hf a
  | error e =>
    intro h
    injection h with h
    exact hr (congrArg Except.error h)

theorem NotTooLarge.map {r : Except HttpError α} (hr : NotTooLarge r) (f : α → β) :
    NotTooLarge (r.map f) := by
  cases r with
  | ok a => exact fun h => by cases h
  | error e =>
    intro h
    injection h with h
    exact hr (congrArg Except.error h)

theorem notTooLarge_ok (a : α) : NotTooLarge (.ok a) := fun h => by cases h

theorem notTooLarge_parseRequestLine (line : List Char) : NotTooLarge (parseRequestLine line) := by
  intro h
  unfold parseRequestLine at h
  repeat' split at h
  all_goals cases h

theorem notTooLarge_parseHeader (line : List Char) : NotTooLarge (parseHeader line) := by
  intro h
  unfold parseHeader at h
  dsimp only at h
  repeat' split at h
  all_goals cases h

theorem notTooLarge_parseHeaders (lines : List (List Char)) :
    ∀ headers, NotTooLarge (parseHeaders headers lines) := by
  induction lines with
  | nil => exact fun headers => notTooLarge_ok headers
  | cons line lines ih =>
    intro headers
    rw [parseHeaders]
    split
    · exact fun h => by cases h
    · split
      · exact fun h => by cases h
      · split
        · exact fun h => by cases h
        · exact (notTooLarge_parseHeader line).bind fun header => ih _

theorem notTooLarge_rejectAmbiguousFraming (headers : List (List Char × List Char)) :
    NotTooLarge (rejectAmbiguousFraming headers) := by
  intro h
  unfold rejectAmbiguousFraming at h
  repeat' split at h
  all_goals cases h

theorem notTooLarge_parsePort (raw : List Char) : NotTooLarge (parsePort raw) := by
  intro h
  unfold parsePort at h
  repeat' split at h
  all_goals cases h

theorem notTooLarge_validateHost (host : List Char) : NotTooLarge (validateHost host) := by
  intro h
  unfold validateHost at h
  repeat' split at h
  all_goals cases h

theorem notTooLarge_ipTarget (ip : IpAddr) (port : UInt16) (config : HttpConfig) :
    NotTooLarge (ipTarget ip port config) := by
  intro h
  unfold ipTarget at h
  split at h
  all_goals cases h

theorem notTooLarge_targetFromAuthority (authority : List Char) (config : HttpConfig) :
    NotTooLarge (targetFromAuthority authority config) := by
  unfold targetFromAuthority
  split
  · split
    · exact fun h => by cases h
    · split
      · exact fun h => by cases h
      · exact (notTooLarge_parsePort _).bind fun port => notTooLarge_ipTarget _ port config
    · exact fun h => by cases h
  · split
    · exact fun h => by cases h
    · split
      · exact fun h => by cases h
      · refine (notTooLarge_parsePort _).bind fun port =>
          (notTooLarge_validateHost _).bind fun _ => ?_
        split
        · exact notTooLarge_ipTarget _ port config
        · exact notTooLarge_ok _

section Verdicts

variable {decode : List Char → Option (List UInt8)} {peer : IpAddr} {config : HttpConfig}
variable {limiter : AuthRateLimiter} {now : Instant}

theorem notTooLarge_authorized (head : Head) :
    NotTooLarge (authorized decode peer config limiter now head) := by
  intro h
  unfold authorized at h
  repeat' split at h
  all_goals cases h

/-- The first line of the head is longer than a request line may be. -/
def LongRequestLine (head : List UInt8) : Prop :=
  ∃ text, fromUtf8 head = some text ∧ maxRequestLine < byteLen ((splitCrlf text).headD [])

theorem verdict_eq_headTooLarge_iff (head : List UInt8) :
    verdict decode peer config limiter now head = .error .headTooLarge ↔ LongRequestLine head := by
  unfold verdict LongRequestLine
  cases fromUtf8 head with
  | none => exact ⟨(fun h => by cases h), (fun ⟨_, h, _⟩ => by cases h)⟩
  | some text =>
    dsimp only
    constructor
    · intro h
      refine ⟨text, rfl, ?_⟩
      by_contra hshort
      refine absurd h (NotTooLarge.bind ?_ fun request => (notTooLarge_authorized request).bind
        fun _ => notTooLarge_targetFromAuthority _ config)
      unfold parseHead
      dsimp only
      rw [if_neg (by omega)]
      exact (notTooLarge_parseRequestLine _).bind fun target =>
        (notTooLarge_parseHeaders _ _).bind fun headers =>
          (notTooLarge_rejectAmbiguousFraming headers).map _
    · rintro ⟨text', htext, hlong⟩
      injection htext with htext
      subst htext
      unfold parseHead
      dsimp only
      rw [if_pos hlong]
      rfl

end Verdicts

/-! ## §5. Cuts. -/

/-- A read for every byte. -/
def singles (bs : List UInt8) : List (List UInt8) := bs.map fun b => [b]

theorem cut_singles (bs : List UInt8) : Cut bs (singles bs) where
  flatten := by simp [singles, ← List.flatMap_def]
  proper := fun chunk hchunk => by
    obtain ⟨b, -, rfl⟩ := List.mem_map.mp hchunk
    exact List.cons_ne_nil b []
  fits := fun chunk hchunk => by
    obtain ⟨b, -, rfl⟩ := List.mem_map.mp hchunk
    exact (by decide : 1 ≤ readChunk)

theorem Cut.append {xs ys : List UInt8} {reads' : List (List UInt8)} (h : Cut xs reads)
    (h' : Cut ys reads') : Cut (xs ++ ys) (reads ++ reads') where
  flatten := by rw [List.flatten_append, h.flatten, h'.flatten]
  proper := fun chunk hchunk =>
    (List.mem_append.mp hchunk).elim (h.proper chunk) (h'.proper chunk)
  fits := fun chunk hchunk => (List.mem_append.mp hchunk).elim (h.fits chunk) (h'.fits chunk)

theorem Cut.single (hne : chunk ≠ []) (hfits : chunk.length ≤ readChunk) :
    Cut chunk [chunk] where
  flatten := by simp
  proper := fun c hc => List.mem_singleton.mp hc ▸ hne
  fits := fun c hc => List.mem_singleton.mp hc ▸ hfits

theorem scan_skip {later : List (List UInt8)} (pre : List (List UInt8)) : ∀ {buf : List UInt8},
    Cut pre.flatten pre → findTerminator (buf ++ pre.flatten) = none →
    (buf ++ pre.flatten).length ≤ maxHeadBytes →
    scan buf (pre ++ later) = scan (buf ++ pre.flatten) later := by
  induction pre with
  | nil =>
    intro buf _ _ _
    rw [List.flatten_nil, List.append_nil, List.nil_append]
  | cons chunk pre ih =>
    intro buf hcut hnone hlength
    have hpos := List.length_pos_of_ne_nil (hcut.proper chunk (by simp))
    have hroom : buf.length < maxHeadBytes := by
      rw [List.flatten_cons, List.length_append, List.length_append] at hlength
      omega
    have hbuf := findTerminator_of_prefix_none hnone
    rw [List.flatten_cons, ← List.append_assoc] at hnone hlength ⊢
    rw [List.cons_append, scan_cons hbuf hroom, ih hcut.tail hnone hlength]

theorem scan_singles (h : findTerminator stream = some stop) (hpast : maxHeadBytes < stop + 4) :
    (scan [] (singles stream)).1 = .error .headTooLarge := by
  have hlength := findTerminator_length h
  have hsplit : singles stream =
      singles (stream.take maxHeadBytes) ++ singles (stream.drop maxHeadBytes) := by
    rw [singles, singles, singles, ← List.map_append, List.take_append_drop]
  have htake : (stream.take maxHeadBytes).length = maxHeadBytes :=
    List.length_take_of_le (by omega)
  have hcut := cut_singles (stream.take maxHeadBytes)
  have hflat := hcut.flatten
  have hnone : findTerminator (stream.take maxHeadBytes) = none := by
    rw [← List.take_append_drop maxHeadBytes stream] at h
    exact findTerminator_not_yet h (by omega)
  rw [hsplit, scan_skip _ (by rw [hflat]; exact hcut) (by rw [hflat]; exact hnone)
    (by rw [hflat, List.nil_append]; omega), hflat, List.nil_append,
    scan_full hnone (by omega)]

def overshoot (stream : List UInt8) : List (List UInt8) :=
  singles (stream.take (maxHeadBytes - 1)) ++
    ([(stream.drop (maxHeadBytes - 1)).take readChunk] ++
      singles ((stream.drop (maxHeadBytes - 1)).drop readChunk))

theorem cut_overshoot (h : maxHeadBytes ≤ stream.length) :
    Cut stream (overshoot stream) := by
  have hne : (stream.drop (maxHeadBytes - 1)).take readChunk ≠ [] := by
    intro hnil
    have hzero := congrArg List.length hnil
    rw [List.length_take, List.length_drop, List.length_nil] at hzero
    unfold maxHeadBytes readChunk at *
    omega
  have hcut := (cut_singles (stream.take (maxHeadBytes - 1))).append
    ((Cut.single hne (List.length_take_le _ _)).append
      (cut_singles ((stream.drop (maxHeadBytes - 1)).drop readChunk)))
  rwa [List.take_append_drop, List.take_append_drop] at hcut

theorem scan_overshoot (h : findTerminator stream = some stop) (hpast : maxHeadBytes < stop + 4)
    (hnear : stop + 4 < maxHeadBytes + readChunk) :
    ∃ pending, (scan [] (overshoot stream)).1 = .ok ⟨stream.take stop, pending⟩ := by
  have hlength := findTerminator_length h
  have hcut := cut_singles (stream.take (maxHeadBytes - 1))
  have hflat := hcut.flatten
  have htake : (stream.take (maxHeadBytes - 1)).length = maxHeadBytes - 1 :=
    List.length_take_of_le (by omega)
  have hnone : findTerminator (stream.take (maxHeadBytes - 1)) = none := by
    rw [← List.take_append_drop (maxHeadBytes - 1) stream] at h
    exact findTerminator_not_yet h (by omega)
  have hbuffer : stream.take (maxHeadBytes - 1) ++
      (stream.drop (maxHeadBytes - 1)).take readChunk =
        stream.take (maxHeadBytes - 1 + readChunk) := List.take_add.symm
  have hfound : findTerminator (stream.take (maxHeadBytes - 1 + readChunk)) = some stop := by
    rw [← List.take_append_drop (maxHeadBytes - 1 + readChunk) stream] at h
    refine findTerminator_of_append h ?_
    rw [List.length_take]
    unfold maxHeadBytes readChunk at *
    omega
  have hmax : 0 < maxHeadBytes := by decide
  refine ⟨(stream.take (maxHeadBytes - 1 + readChunk)).drop (stop + 4), ?_⟩
  rw [overshoot, scan_skip _ (by rw [hflat]; exact hcut) (by rw [hflat]; exact hnone)
    (by rw [hflat, List.nil_append]; omega), hflat, List.nil_append, List.singleton_append,
    scan_cons hnone (by omega), hbuffer, scan_found hfound, List.take_take]
  rw [Nat.min_eq_left (by unfold maxHeadBytes readChunk at *; omega)]

/-! ## §6. When the cut does not matter. -/

def SameOutcome : Except HttpError Negotiated → Except HttpError Negotiated → Prop
  | .ok a, .ok b => a.target = b.target
  | .error e, .error e' => e.ctorIdx = e'.ctorIdx
  | _, _ => False

section Outcomes

variable (dialer : Target → Except DialError Unit) (decode : List Char → Option (List UInt8))
variable (peer : IpAddr) (config : HttpConfig) (s : Script)

def negotiated (reads : List (List UInt8)) : Except HttpError Negotiated × Script :=
  run dialer (negotiateInner decode peer config) { s with reads := reads }

/-- **The outcome does not depend on the cut**; a success leaves the stream after the first blank
    line, and the head was within the limit. -/
structure Steady (stream : List UInt8) : Prop where
  same : ∀ reads reads', Cut stream reads → Cut stream reads' →
    SameOutcome (negotiated dialer decode peer config s reads).1
      (negotiated dialer decode peer config s reads').1
  rest : ∀ reads, Cut stream reads →
    ∀ result, (negotiated dialer decode peer config s reads).1 = .ok result →
      ∃ stop, FirstBlankLine stream stop ∧
        result.pending ++ (negotiated dialer decode peer config s reads).2.reads.flatten =
          stream.drop (stop + 4) ∧ stop + 4 ≤ maxHeadBytes

variable {dialer decode peer config s} {stream : List UInt8} {reads : List (List UInt8)}

theorem negotiated_found {stop : Nat} (hcut : Cut stream reads)
    (h : Found stream stop (scan [] reads)) : ∃ pending,
      (negotiated dialer decode peer config s reads).1 =
        (verdict decode peer config s.limiter s.now (stream.take stop)).map
          (fun target => ⟨target, pending⟩) ∧
      pending ++ (negotiated dialer decode peer config s reads).2.reads.flatten =
        stream.drop (stop + 4) := by
  obtain ⟨pending, hscan, hrest⟩ := h
  obtain ⟨hresult, hreads⟩ := @run_negotiateInner dialer decode peer config
    { s with reads := reads } (by rw [hcut.flatten]; exact hcut)
  rw [hscan] at hresult
  refine ⟨pending, hresult, ?_⟩
  rw [negotiated, hreads]
  exact hrest

theorem negotiated_error (hcut : Cut stream reads) (h : (scan [] reads).1 = .error e) :
    (negotiated dialer decode peer config s reads).1 = .error e := by
  have hresult := (@run_negotiateInner dialer decode peer config { s with reads := reads }
    (by rw [hcut.flatten]; exact hcut)).1
  rw [h] at hresult
  exact hresult

theorem negotiated_none (hcut : Cut stream reads) (h : findTerminator stream = none) :
    (negotiated dialer decode peer config s reads).1 =
      .error (if maxHeadBytes ≤ stream.length then .headTooLarge
        else .malformed "closed before end of request head") := by
  have hscan := @scan_none reads [] (by rw [hcut.flatten]; exact hcut)
    (by rw [hcut.flatten]; exact h)
  rw [hcut.flatten, List.nil_append] at hscan
  exact negotiated_error hcut hscan

theorem scan_stream (hcut : Cut stream reads) (h : findTerminator stream = some stop) :
    Found stream stop (scan [] reads) ∧ stop + 4 < maxHeadBytes + readChunk ∨
      (scan [] reads).1 = .error .headTooLarge ∧ maxHeadBytes < stop + 4 := by
  have hcases := @scan_cases reads stop [] (by rw [hcut.flatten]; exact hcut) (by decide)
    (by rw [hcut.flatten]; exact h)
  rwa [hcut.flatten, List.nil_append] at hcases

theorem negotiated_too_large (hcut : Cut stream reads) (h : findTerminator stream = some stop)
    (hlarge : maxHeadBytes + readChunk ≤ stop + 4 ∨ LongRequestLine (stream.take stop)) :
    (negotiated dialer decode peer config s reads).1 = .error .headTooLarge := by
  rcases scan_stream hcut h with ⟨hfound, hnear⟩ | ⟨herror, -⟩
  · rcases hlarge with hfar | hlong
    · omega
    · obtain ⟨pending, hresult, -⟩ :=
        @negotiated_found dialer decode peer config s _ _ _ hcut hfound
      rw [(verdict_eq_headTooLarge_iff _).mpr hlong] at hresult
      exact hresult
  · exact negotiated_error hcut herror

theorem kind_headTooLarge (h : e.ctorIdx = HttpError.headTooLarge.ctorIdx) : e = .headTooLarge := by
  cases e <;> first | rfl | cases h

theorem negotiated_overshoot {stop : Nat} (hfind : findTerminator stream = some stop)
    (hpast : maxHeadBytes < stop + 4) (hnear : stop + 4 < maxHeadBytes + readChunk) : ∃ pending,
      (negotiated dialer decode peer config s (overshoot stream)).1 =
        (verdict decode peer config s.limiter s.now (stream.take stop)).map
          (fun target => ⟨target, pending⟩) := by
  have hlength := findTerminator_length hfind
  have hcut : Cut stream (overshoot stream) := cut_overshoot (by omega)
  obtain ⟨pending, hscan⟩ := scan_overshoot hfind hpast hnear
  have hresult := (@run_negotiateInner dialer decode peer config
    { s with reads := overshoot stream } (by rw [hcut.flatten]; exact hcut)).1
  rw [hscan] at hresult
  exact ⟨pending, hresult⟩

theorem long_of_same (hfind : findTerminator stream = some stop) (hpast : maxHeadBytes < stop + 4)
    (hnear : stop + 4 < maxHeadBytes + readChunk)
    (hsame : SameOutcome (negotiated dialer decode peer config s (singles stream)).1
      (negotiated dialer decode peer config s (overshoot stream)).1) :
    LongRequestLine (stream.take stop) := by
  obtain ⟨pending, hresult⟩ := @negotiated_overshoot dialer decode peer config s stream stop hfind
    hpast hnear
  rw [negotiated_error (cut_singles stream) (scan_singles hfind hpast), hresult] at hsame
  refine (@verdict_eq_headTooLarge_iff decode peer config s.limiter s.now _).mp ?_
  cases hverdict : verdict decode peer config s.limiter s.now (stream.take stop) with
  | ok target =>
    rw [hverdict] at hsame
    cases hsame
  | error e =>
    rw [hverdict] at hsame
    exact congrArg Except.error (kind_headTooLarge hsame.symm)

theorem steady_of_within (hfind : findTerminator stream = some stop)
    (hwithin : stop + 4 ≤ maxHeadBytes) : Steady dialer decode peer config s stream := by
  have hfound : ∀ reads, Cut stream reads → ∃ pending,
      (negotiated dialer decode peer config s reads).1 =
        (verdict decode peer config s.limiter s.now (stream.take stop)).map
          (fun target => ⟨target, pending⟩) ∧
      pending ++ (negotiated dialer decode peer config s reads).2.reads.flatten =
        stream.drop (stop + 4) := fun reads hcut => by
    rcases scan_stream hcut hfind with ⟨hfound, -⟩ | ⟨-, hpast⟩
    · exact negotiated_found hcut hfound
    · omega
  refine ⟨fun reads reads' hcut hcut' => ?_, fun reads hcut result hok => ?_⟩
  · obtain ⟨pending, hresult, -⟩ := hfound reads hcut
    obtain ⟨pending', hresult', -⟩ := hfound reads' hcut'
    rw [hresult, hresult']
    cases verdict decode peer config s.limiter s.now (stream.take stop) with
    | ok target => exact rfl
    | error e => exact rfl
  · obtain ⟨pending, hresult, hrest⟩ := hfound reads hcut
    rw [hresult] at hok
    obtain ⟨target, -, rfl⟩ := ok_of_map hok
    exact ⟨stop, (findTerminator_eq_some_iff stream stop).mp hfind, hrest, hwithin⟩

theorem steady_of_error
    (h : ∀ reads, Cut stream reads → (negotiated dialer decode peer config s reads).1 = .error e) :
    Steady dialer decode peer config s stream where
  same := fun reads reads' hcut hcut' => by
    rw [h reads hcut, h reads' hcut']
    exact rfl
  rest := fun reads hcut result hok => by
    rw [h reads hcut] at hok
    cases hok

end Outcomes

/-- **The cut does not matter exactly if** the first blank line ends within the limit, or a whole
    read past it, or the request line is too long anyway. -/
theorem negotiateInner_steady_iff (dialer : Target → Except DialError Unit)
    (decode : List Char → Option (List UInt8)) (peer : IpAddr) (config : HttpConfig) (s : Script)
    (stream : List UInt8) :
    Steady dialer decode peer config s stream ↔ ∀ stop, FirstBlankLine stream stop →
      stop + 4 ≤ maxHeadBytes ∨ maxHeadBytes + readChunk ≤ stop + 4 ∨
        LongRequestLine (stream.take stop) := by
  constructor
  · intro hsteady stop hstop
    have hfind := (findTerminator_eq_some_iff stream stop).mpr hstop
    by_contra hbetween
    simp only [not_or, not_le] at hbetween
    obtain ⟨hpast, hnear, hshort⟩ := hbetween
    have hlength := findTerminator_length hfind
    exact hshort (long_of_same hfind hpast hnear
      (hsteady.same _ _ (cut_singles stream) (cut_overshoot (by omega))))
  · intro hcondition
    cases hfind : findTerminator stream with
    | none => exact steady_of_error fun reads hcut => negotiated_none hcut hfind
    | some stop =>
      rcases hcondition stop ((findTerminator_eq_some_iff stream stop).mp hfind) with
        hwithin | hlarge
      · exact steady_of_within hfind hwithin
      · exact steady_of_error fun reads hcut => negotiated_too_large hcut hfind hlarge

/-- A request of ordinary size. -/
theorem negotiateInner_steady_short : Steady (fun _ => .ok ()) (fun _ => none) (.v4 ⟨127, 0, 0, 1⟩)
    ⟨.disabled, false, 10000000000, 30000000000⟩ ⟨[], [], [], 0, []⟩
    (bytes "CONNECT example.com:443 HTTP/1.1\r\n\r\n".toList) := by
  refine (negotiateInner_steady_iff _ _ _ _ _ _).mpr fun stop hstop => .inl ?_
  have hlength := findTerminator_length ((findTerminator_eq_some_iff _ stop).mpr hstop)
  have hsize : (bytes "CONNECT example.com:443 HTTP/1.1\r\n\r\n".toList).length = 36 := by decide
  unfold maxHeadBytes
  omega

/-- A header of no meaning. -/
def padding (n : Nat) : List UInt8 := 0x58 :: 0x3A :: List.replicate n 0x61

theorem padding_ascii (n : Nat) : ∀ b ∈ padding n, b < 0x80 := by
  intro b hb
  simp only [padding, List.mem_cons, List.mem_replicate] at hb
  rcases hb with rfl | rfl | ⟨-, rfl⟩ <;> decide

theorem chars_padding (n : Nat) : chars (padding n) = 'X' :: ':' :: List.replicate n 'a' := by
  simp [padding, chars]

theorem parseHeader_padding (n : Nat) :
    parseHeader (chars (padding n)) = .ok (['X'], List.replicate n 'a') := by
  have htrim : trimMatches (fun c => c == ' ' || c == '\t') (List.replicate n 'a') =
      List.replicate n 'a' := by
    refine trimMatches_eq_self fun c hc => ?_
    rw [List.eq_of_mem_replicate hc]
    decide
  have hbytes : bytes (List.replicate n 'a') = List.replicate n 0x61 := by
    have hascii : ∀ b ∈ List.replicate n (0x61 : UInt8), b < 0x80 := fun b hb => by
      rw [List.eq_of_mem_replicate hb]
      decide
    have hchars : chars (List.replicate n 0x61) = List.replicate n 'a' := by simp [chars]
    rw [← hchars, bytes_chars hascii]
  have hplain : ((bytes (List.replicate n 'a')).any fun b => b < 0x20 || b == 0x7f) = false := by
    rw [hbytes]
    refine List.any_eq_false.mpr fun b hb => ?_
    rw [List.eq_of_mem_replicate hb]
    decide
  have hsplit : splitOnce ':' (chars (padding n)) = some (['X'], List.replicate n 'a') := by
    rw [chars_padding]
    rfl
  rw [parseHeader, hsplit]
  dsimp only
  rw [htrim, hplain]
  rfl

theorem parseHeaders_padding (n : Nat) :
    parseHeaders [] [chars (padding n)] = .ok [(['X'], List.replicate n 'a')] := by
  have hbare : ((chars (padding n)).contains '\r' ||
      (chars (padding n)).contains '\n') = false := by
    rw [chars_padding]
    simp
  rw [parseHeaders, hbare, parseHeader_padding, chars_padding]
  rfl

def paddedRequest (n : Nat) : List UInt8 :=
  requestHead (bytes "example.com".toList) 443 [padding n]

theorem length_paddedRequest (n : Nat) : (paddedRequest n).length = n + 36 := by
  have hline : (requestLine (bytes "example.com".toList) 443).length = 32 := by decide +kernel
  rw [paddedRequest, requestHead, List.length_append, hline]
  simp [padding]
  omega

theorem printable_example : Printable (bytes "example.com".toList) := by
  unfold Printable
  decide +kernel

theorem findTerminator_paddedRequest (n : Nat) (rest : List UInt8) :
    findTerminator (paddedRequest n ++ (terminator ++ rest)) = some (n + 36) := by
  have hline : (13 : UInt8) ∉ requestLine (bytes "example.com".toList) 443 := fun hmem =>
    absurd (requestLine_mem printable_example 443 hmem).1 (by decide)
  have hpadding : ∀ line ∈ [padding n], line ≠ [] ∧ (13 : UInt8) ∉ line := fun line hline => by
    rw [List.mem_singleton.mp hline]
    refine ⟨List.cons_ne_nil _ _, fun hmem => ?_⟩
    simp [padding] at hmem
  have hfind := findTerminator_lines hpadding rest
  have hlength := length_paddedRequest n
  rw [paddedRequest, requestHead, List.length_append] at hlength
  rw [paddedRequest, requestHead, List.append_assoc, findTerminator_skip hline, hfind]
  exact congrArg some ((Nat.add_comm _ _).trans hlength)

theorem verdict_paddedRequest (n : Nat) (limiter : AuthRateLimiter) (now : Instant) :
    verdict (fun _ => none) (.v4 ⟨127, 0, 0, 1⟩) ⟨.disabled, false, 10000000000, 30000000000⟩
      limiter now (paddedRequest n) = .ok (.domain "example.com".toList 443) := by
  obtain ⟨text, htext, hparse⟩ := parseHead_requestHead printable_example 443 (by decide +kernel)
    (.cons (fromUtf8_ascii (padding_ascii n)) .nil) (parseHeaders_padding n) rfl
  have htarget : targetFromAuthority (authorityText (bytes "example.com".toList) 443)
      ⟨.disabled, false, 10000000000, 30000000000⟩ = .ok (.domain "example.com".toList 443) := by
    rfl
  rw [verdict, paddedRequest, htext]
  dsimp only
  rw [hparse]
  exact htarget

/-- **The same request, accepted or refused.**  Its head has 8336 bytes and a blank line after it:
    byte by byte it is too large, and with a read of 149 bytes at the limit it is accepted. -/
theorem padded_request_accepted_or_refused :
    Cut (paddedRequest 8300 ++ terminator) (singles (paddedRequest 8300 ++ terminator)) ∧
    Cut (paddedRequest 8300 ++ terminator) (overshoot (paddedRequest 8300 ++ terminator)) ∧
    (negotiated (fun _ => .ok ()) (fun _ => none) (.v4 ⟨127, 0, 0, 1⟩)
      ⟨.disabled, false, 10000000000, 30000000000⟩ ⟨[], [], [], 0, []⟩
      (singles (paddedRequest 8300 ++ terminator))).1 = .error .headTooLarge ∧
    ∃ pending, (negotiated (fun _ => .ok ()) (fun _ => none) (.v4 ⟨127, 0, 0, 1⟩)
      ⟨.disabled, false, 10000000000, 30000000000⟩ ⟨[], [], [], 0, []⟩
      (overshoot (paddedRequest 8300 ++ terminator))).1 =
        .ok ⟨.domain "example.com".toList 443, pending⟩ := by
  have hlength : (paddedRequest 8300 ++ terminator).length = 8340 := by
    rw [List.length_append, length_paddedRequest]
    rfl
  have hfind : findTerminator (paddedRequest 8300 ++ terminator) = some 8336 := by
    have hany := findTerminator_paddedRequest 8300 []
    rwa [List.append_nil] at hany
  have hpast : maxHeadBytes < 8336 + 4 := by decide
  refine ⟨cut_singles _, cut_overshoot (by rw [hlength]; decide),
    negotiated_error (cut_singles _) (scan_singles hfind hpast), ?_⟩
  have hhead : (paddedRequest 8300 ++ terminator).take 8336 = paddedRequest 8300 :=
    List.take_left' (length_paddedRequest 8300)
  obtain ⟨pending, hresult⟩ := negotiated_overshoot hfind hpast (by decide)
  rw [hhead, verdict_paddedRequest] at hresult
  exact ⟨pending, hresult⟩

end ThisConnect.Proxy.Http
