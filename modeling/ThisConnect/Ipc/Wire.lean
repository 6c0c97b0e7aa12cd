/-
  ThisConnect.Ipc.Wire
  **MESSAGES AS LINES.**
-/
import ThisConnect.Base.Encoding
import ThisConnect.Base.Framing
import ThisConnect.Base.Json
import ThisConnect.Ipc.Connection

namespace ThisConnect.Ipc

open Text

/-! ## §1. The codec and its framing. -/

structure Serde (M : Type) where
  toStr : M → String
  fromStr : String → Option M
  roundTrip : ∀ m, fromStr (toStr m) = some m
  noBreak : ∀ m, '\n' ∉ (toStr m).toList ∧ '\r' ∉ (toStr m).toList
  object : ∀ m, (toStr m).toList.getLast? = some '}'

inductive CodecError where
  | tooLarge (bytes : Nat)
  | embeddedNewline
  | json
  deriving DecidableEq, Repr

section Codec

variable {M : Type} (serde : Serde M)

def encodeLine (message : M) : Except CodecError String :=
  let line := serde.toStr message
  if maxMessageBytes < byteLen line.toList then .error (.tooLarge (byteLen line.toList))
  else if '\n' ∈ line.toList ∨ '\r' ∈ line.toList then .error .embeddedNewline
  else .ok line

def decodeLine (line : String) : Except CodecError M :=
  if maxMessageBytes < byteLen line.toList then .error (.tooLarge (byteLen line.toList))
  else
    match serde.fromStr line with
    | some message => .ok message
    | none => .error .json

def lineBytes (message : M) : List UInt8 := bytes (serde.toStr message).toList

def writeLines (messages : List M) : List UInt8 :=
  Framing.stream newline (messages.map (lineBytes serde))

theorem length_lineBytes (m : M) : (lineBytes serde m).length = byteLen (serde.toStr m).toList :=
  Codec.length_bytes _

theorem newline_not_mem_lineBytes (m : M) : newline ∉ lineBytes serde m := by
  intro hmem
  have hchar := Codec.mem_of_ascii_mem_bytes (by decide) hmem
  exact (serde.noBreak m).1 hchar

theorem return_not_mem_lineBytes (m : M) : (0x0D : UInt8) ∉ lineBytes serde m := by
  intro hmem
  have hchar := Codec.mem_of_ascii_mem_bytes (by decide) hmem
  exact (serde.noBreak m).2 hchar

theorem encodeLine_ok_iff (m : M) (line : String) :
    encodeLine serde m = .ok line ↔
      line = serde.toStr m ∧ (lineBytes serde m).length ≤ maxMessageBytes := by
  rw [length_lineBytes]
  have hbreak := serde.noBreak m
  unfold encodeLine
  dsimp only
  split
  · next hlarge => exact ⟨fun h => (by cases h), fun h => absurd h.2 (by omega)⟩
  · next hfits =>
    rw [if_neg (by simp [hbreak])]
    exact ⟨fun h => ⟨(Except.ok.inj h).symm, by omega⟩, fun h => congrArg Except.ok h.1.symm⟩

/-- The messages sent, and the lines they were encoded as. -/
def Encoded (messages : List M) (lines : List String) : Prop :=
  List.Forall₂ (fun m line => encodeLine serde m = .ok line) messages lines

theorem decodeLine_toStr_iff (m : M) :
    decodeLine serde (serde.toStr m) = .ok m ↔ (lineBytes serde m).length ≤ maxMessageBytes := by
  rw [length_lineBytes]
  unfold decodeLine
  split
  · next hlarge => exact ⟨fun h => (by cases h), fun h => absurd h (by omega)⟩
  · next hfits =>
    rw [serde.roundTrip]
    exact ⟨fun _ => by omega, fun _ => rfl⟩

end Codec

def sendLines (lines : List String) : List UInt8 :=
  Framing.stream newline (lines.map fun line => bytes line.toList)

theorem Encoded.sendLines_eq {M : Type} {serde : Serde M} {messages : List M} {lines : List String}
    (h : Encoded serde messages lines) : sendLines lines = writeLines serde messages := by
  have hlines : lines = messages.map serde.toStr := by
    induction h with
    | nil => rfl
    | cons hline _ ih => rw [List.map_cons, ((encodeLine_ok_iff serde _ _).mp hline).1, ← ih]
  rw [sendLines, writeLines, hlines, List.map_map]
  rfl

/-! ## §2. The GUI's `LineReader`. -/

def takeLine (buf : List UInt8) : Option (String × List UInt8) :=
  (buf.idxOf? newline).map fun pos =>
    let line := buf.take pos
    let line := if line.getLast? = some 0x0D then line.dropLast else line
    (String.ofList (Codec.fromUtf8Lossy line), buf.drop (pos + 1))

structure LineReader where
  buf : List UInt8 := []
  taken : List String := []

inductive ReaderAction where
  | readMore (chunk : List UInt8)
  | takeLine

namespace LineReader

def step (r : LineReader) : ReaderAction → Option LineReader
  | .readMore chunk => some { r with buf := r.buf ++ chunk }
  | .takeLine =>
    (takeLine r.buf).map fun (line, rest) => { buf := rest, taken := r.taken ++ [line] }

end LineReader

theorem idxOf?_append {body rest : List UInt8} (h : newline ∉ body) :
    (body ++ newline :: rest).idxOf? newline = some body.length := by
  rw [List.idxOf?_eq_some_iff]
  refine ⟨by simp, by simp, ?_⟩
  intro i hi heq
  rw [List.getElem_append_left hi] at heq
  exact h (heq ▸ List.getElem_mem hi)

theorem takeLine_line {M : Type} (serde : Serde M) (m : M) (rest : List UInt8) :
    takeLine (lineBytes serde m ++ newline :: rest) = some (serde.toStr m, rest) := by
  unfold takeLine
  have hlast : (lineBytes serde m).getLast? ≠ some 0x0D := fun h =>
    return_not_mem_lineBytes serde m (List.mem_of_getLast? h)
  rw [idxOf?_append (newline_not_mem_lineBytes serde m), Option.map_some, List.take_left]
  dsimp only
  rw [if_neg hlast, lineBytes, Codec.fromUtf8Lossy_bytes, String.ofList_toList]
  simp

theorem takeLine_eq_none {buf : List UInt8} (h : newline ∉ buf) : takeLine buf = none := by
  unfold takeLine
  rw [List.idxOf?_eq_none_iff.mpr h]
  rfl

/-! ## §3. The daemon's `read_until`. -/

theorem readUntil_line {body : List UInt8} (hbody : newline ∉ body) :
    ∀ {limit : Nat} (rest : List UInt8), body.length < limit →
      readUntil limit (body ++ newline :: rest) = (body ++ [newline], rest) := by
  induction body with
  | nil =>
    intro limit rest hlimit
    obtain ⟨limit, rfl⟩ := Nat.exists_eq_succ_of_ne_zero (Nat.ne_of_gt hlimit)
    rfl
  | cons b body ih =>
    intro limit rest hlimit
    simp only [List.mem_cons, not_or] at hbody
    obtain ⟨limit, rfl⟩ := Nat.exists_eq_succ_of_ne_zero (Nat.ne_of_gt (Nat.zero_lt_of_lt hlimit))
    rw [List.cons_append, readUntil, if_neg (Ne.symm hbody.1),
      ih hbody.2 rest (Nat.lt_of_succ_lt_succ hlimit)]
    rfl

theorem readUntil_open : ∀ {limit : Nat} {bytes : List UInt8}, newline ∉ bytes.take limit →
    readUntil limit bytes = (bytes.take limit, bytes.drop limit) := by
  intro limit
  induction limit with
  | zero => intro bytes _; rfl
  | succ limit ih =>
    intro bytes h
    cases bytes with
    | nil => rfl
    | cons b bytes =>
      simp only [List.take_succ_cons, List.mem_cons, not_or] at h
      rw [readUntil, if_neg (Ne.symm h.1), ih h.2]
      rfl

theorem decodeMessage_line (serde : Serde ClientMessage) (m : ClientMessage) :
    decodeMessage serde.fromStr (lineBytes serde m ++ [newline]) = some m := by
  have htext : Codec.fromUtf8 (lineBytes serde m ++ [newline]) =
      some ((serde.toStr m).toList ++ ['\n']) := Codec.fromUtf8_bytes_append (by decide) _
  obtain ⟨body, hbody⟩ := List.getLast?_eq_some_iff.mp (serde.object m)
  have htrim : ((serde.toStr m).toList ++ ['\n']).rdropWhile isWhitespace =
      (serde.toStr m).toList := by
    rw [List.rdropWhile_concat_pos _ _ _ (by decide), hbody,
      List.rdropWhile_concat_neg _ _ _ (by decide)]
  unfold decodeMessage
  rw [htext, Option.bind_some, htrim, String.ofList_toList, serde.roundTrip]

/-! ## §4. The client's messages as JSON. -/

def object (fields : List (String × Json.Value)) : Json.Value :=
  .object (fields.foldr (fun field rest => .cons field.1.toList field.2 rest) .nil)

def tagged (tag : String) (fields : List (String × Json.Value)) : Json.Value :=
  object (("type", .text tag.toList) :: fields)

def Request.toJson : Request → Json.Value
  | .profileImport name config =>
    tagged "profile_import" [("name", .text name.toList), ("config", .text config.toList)]
  | .profileList => tagged "profile_list" []
  | .profileGet profileId => tagged "profile_get" [("profile_id", .text profileId.toList)]
  | .profileDelete profileId => tagged "profile_delete" [("profile_id", .text profileId.toList)]
  | .connect profileId => tagged "connect" [("profile_id", .text profileId.toList)]
  | .disconnect => tagged "disconnect" []
  | .status => tagged "status" []
  | .proxyInfo => tagged "proxy_info" []
  | .proxyStats => tagged "proxy_stats" []

def PromptReply.toJson : PromptReply → Json.Value
  | .usernamePassword username password =>
    tagged "username_password"
      [("username", .text username.toList), ("password", .text password.toList)]
  | .challengeResponse response =>
    tagged "challenge_response" [("response", .text response.toList)]
  | .cancel => tagged "cancel" []

def ClientMessage.toJson : ClientMessage → Json.Value
  | .hello id version name =>
    tagged "hello" [("id", .text id.toList), ("protocol_version", .number version.toNat),
      ("client_name", .text name.toList)]
  | .request id req => tagged "request" [("id", .text id.toList), ("request", req.toJson)]
  | .promptReply id promptId reply =>
    tagged "prompt_reply" [("id", .text id.toList), ("prompt_id", .text promptId.toList),
      ("reply", reply.toJson)]

def ClientMessage.toStr (m : ClientMessage) : String := String.ofList m.toJson.render

theorem Request.toJson_injective : Function.Injective Request.toJson := by
  intro r r' h
  cases r <;> cases r' <;> simp_all [Request.toJson, tagged, object, String.toList_inj]

theorem PromptReply.toJson_injective : Function.Injective PromptReply.toJson := by
  intro r r' h
  cases r <;> cases r' <;> simp_all [PromptReply.toJson, tagged, object, String.toList_inj]

theorem ClientMessage.toJson_injective : Function.Injective ClientMessage.toJson := by
  intro m m' h
  cases m <;> cases m' <;>
    simp_all [ClientMessage.toJson, tagged, object, String.toList_inj,
      Request.toJson_injective.eq_iff, PromptReply.toJson_injective.eq_iff, UInt32.toNat_inj]

theorem ClientMessage.toStr_injective : Function.Injective ClientMessage.toStr := by
  intro m m' h
  have hrender := congrArg String.toList h
  simp only [ClientMessage.toStr, String.toList_ofList] at hrender
  exact ClientMessage.toJson_injective (Json.Value.render_injective hrender)

theorem ClientMessage.toJson_object (m : ClientMessage) :
    ∃ fields, m.toJson = Json.Value.object fields := by
  cases m <;> exact ⟨_, rfl⟩

noncomputable def jsonSerde : Serde ClientMessage where
  toStr := ClientMessage.toStr
  fromStr := Function.partialInv ClientMessage.toStr
  roundTrip := Function.partialInv_left ClientMessage.toStr_injective
  noBreak := by
    intro m
    have hplain := m.toJson.le_of_mem_render
    simp only [ClientMessage.toStr, String.toList_ofList]
    exact ⟨fun h => absurd (hplain _ h) (by decide), fun h => absurd (hplain _ h) (by decide)⟩
  object := by
    intro m
    obtain ⟨fields, hfields⟩ := m.toJson_object
    rw [ClientMessage.toStr, hfields, String.toList_ofList, Json.Value.render]
    simp [List.getLast?_cons]

end ThisConnect.Ipc
