/-
  ThisConnect.Mgmt.Codec
  **LINES OF THE MANAGEMENT CHANNEL, AND THE REPLIES MADE OF THEM.**
-/
import ThisConnect.Base.Codec
import ThisConnect.Base.Framing
import ThisConnect.Mgmt.Event

namespace ThisConnect.Mgmt

/-! ## §1. Lines. -/

def lineFeed : UInt8 := 10

def carriageReturn : UInt8 := 13

def decodeLine (raw : List UInt8) : List Char :=
  Codec.fromUtf8Lossy (if raw.getLast? = some carriageReturn then raw.dropLast else raw)

structure LineSplitter where
  buffered : List UInt8 := []
  deriving DecidableEq, Repr

def LineSplitter.push (splitter : LineSplitter) (chunk : List UInt8) :
    Except MgmtError (LineSplitter × List (List Char)) :=
  let (lines, rest) := Framing.frames lineFeed (splitter.buffered ++ chunk)
  if maxInboundLineBytes < rest.length then .error (.lineTooLong rest.length)
  else .ok (⟨rest⟩, lines.map decodeLine)

/-! ## §2. Frames. -/

inductive Frame where
  | event (event : Event)
  | success (text : List Char)
  | error (text : List Char)
  | ending
  | data (line : List Char)
  deriving DecidableEq, Repr

def classify (line : List Char) : Frame :=
  if line.head? = some '>' then .event (Event.parse line)
  else
    match line.dropPrefix? "SUCCESS: ".toList with
    | some text => .success text
    | none =>
      match line.dropPrefix? "ERROR: ".toList with
      | some text => .error text
      | none => if line = "END".toList then .ending else .data line

/-! ## §3. Replies. -/

inductive ReplyStatus where
  | success
  | error
  | ending
  deriving DecidableEq, Repr

structure CommandReply where
  status : ReplyStatus
  text : List Char
  lines : List (List Char)
  deriving DecidableEq, Repr

def CommandReply.isError (reply : CommandReply) : Bool := reply.status == .error

structure ReplyAccumulator where
  lines : List (List Char) := []
  deriving DecidableEq, Repr

namespace ReplyAccumulator

def finish (accumulator : ReplyAccumulator) (status : ReplyStatus) (text : List Char) :
    CommandReply :=
  ⟨status, text, accumulator.lines⟩

def accept (accumulator : ReplyAccumulator) : Frame → ReplyAccumulator × Option CommandReply
  | .event _ => (accumulator, none)
  | .data line => (⟨accumulator.lines ++ [line]⟩, none)
  | .success text => ({}, some (accumulator.finish .success text))
  | .error text => ({}, some (accumulator.finish .error text))
  | .ending => ({}, some (accumulator.finish .ending []))

end ReplyAccumulator

/-! ## §4. What kind of line it is. -/

/-- A notification. -/
def isNotification (line : List Char) : Bool := line.head? = some '>'

/-- A line that ends a reply. -/
def isTerminal (line : List Char) : Bool :=
  !isNotification line &&
    ((line.dropPrefix? "SUCCESS: ".toList).isSome || (line.dropPrefix? "ERROR: ".toList).isSome ||
      line == "END".toList)

/-- A line of the body of a reply. -/
def isBody (line : List Char) : Bool := !isNotification line && !isTerminal line

variable {line : List Char}

theorem classify_notification (h : isNotification line = true) :
    classify line = .event (Event.parse line) := by
  simp only [isNotification, decide_eq_true_eq] at h
  simp [classify, h]

theorem classify_ne_event (h : isNotification line = false) (event : Event) :
    classify line ≠ .event event := by
  simp only [isNotification, decide_eq_false_iff_not] at h
  unfold classify
  rw [if_neg h]
  split
  · simp
  · split
    · simp
    · split <;> simp

theorem classify_body (h : isBody line = true) : classify line = .data line := by
  simp only [isBody, isTerminal, isNotification, Bool.and_eq_true, Bool.not_eq_true',
    Bool.and_eq_false_iff, decide_eq_false_iff_not, Bool.not_eq_false', Bool.or_eq_false_iff,
    decide_eq_true_eq, beq_eq_false_iff_ne, Option.isSome_eq_false_iff, Option.isNone_iff_eq_none]
    at h
  obtain ⟨hhead, hnot⟩ := h
  obtain habsurd | ⟨⟨hsuccess, herror⟩, hend⟩ := hnot
  · exact absurd habsurd hhead
  · simp only [classify, hsuccess, herror, if_neg hhead, if_neg hend]

def terminalOf (line : List Char) : ReplyStatus × List Char :=
  match classify line with
  | .success text => (.success, text)
  | .error text => (.error, text)
  | _ => (.ending, [])

theorem accept_terminal (h : isTerminal line = true) (accumulator : ReplyAccumulator) :
    accumulator.accept (classify line) =
      ({}, some ⟨(terminalOf line).1, (terminalOf line).2, accumulator.lines⟩) := by
  simp only [isTerminal, isNotification, Bool.and_eq_true, Bool.not_eq_true',
    decide_eq_false_iff_not, Bool.or_eq_true, beq_iff_eq] at h
  obtain ⟨hhead, hkind⟩ := h
  unfold terminalOf classify
  rw [if_neg hhead]
  split
  · rfl
  · next hsuccess =>
    split
    · rfl
    · next herror =>
      have hend : line = "END".toList := by
        rcases hkind with (hstarts | hstarts) | hend
        · rw [hsuccess] at hstarts
          exact absurd hstarts (by simp)
        · rw [herror] at hstarts
          exact absurd hstarts (by simp)
        · exact hend
      rw [if_pos hend]
      rfl

end ThisConnect.Mgmt
