/-
  ThisConnect.Mgmt.Client
  **THE MANAGEMENT CLIENT AND ITS PEER, AS ONE SYSTEM OF STEPS.**
-/
import ThisConnect.Base.Transition
import ThisConnect.Mgmt.Codec
import ThisConnect.Mgmt.Tunnel

namespace ThisConnect.Mgmt

open Text Numeral

def commandChannel : Nat := 16

def outboxLimit : Nat := 32

def readChunk : Nat := 4096

/-! ## §1. The two sides. -/

structure Command where
  line : List Char
  reply : Option Nat
  expectsReply : Bool
  stamp : Nat := 0
  deriving DecidableEq, Repr

def versionLine (n : Nat) : List Char := "version ".toList ++ (toString n).toList

def holdRelease : List Char := "hold release".toList

def parseGreetingVersion (text : List Char) : Option Nat :=
  (splitOnceAt "Version ".toList text).bind fun (_, tail) =>
    parseUnsigned (2 ^ 32) (tail.takeWhile Char.isDigit)

structure Peer where
  version : Nat
  answers : List Char → Bool
  silent : version < replyBearingVersion → ∀ n, answers (versionLine n) = false

def Peer.honest (peer : Peer) (greeting : Option (Option Nat)) : Bool :=
  greeting.all (·.all (· == peer.version))

structure Reply where
  body : List (List UInt8)
  terminal : List UInt8
  deriving DecidableEq, Repr

def Reply.lines (reply : Reply) : List (List UInt8) := reply.body ++ [reply.terminal]

def Reply.wellFormed (reply : Reply) : Bool :=
  reply.lines.all (fun raw => !raw.contains lineFeed) &&
    reply.body.all (fun raw => isBody (decodeLine raw)) && isTerminal (decodeLine reply.terminal)

/-- What a caller is to be told of it. -/
def Reply.decoded (reply : Reply) : CommandReply :=
  let (status, text) := terminalOf (decodeLine reply.terminal)
  ⟨status, text, reply.body.map decodeLine⟩

structure Answer where
  command : Command
  reply : Reply
  deriving DecidableEq, Repr

structure World where
  running : Bool := true
  channel : List Command := []
  outbox : List Command := []
  pending : Option (Option Nat) := none
  splitter : LineSplitter := {}
  accumulator : ReplyAccumulator := {}
  tracker : TunnelTracker := {}
  sink : Sink := {}
  greeting : Option (Option Nat) := none
  hello : Option (Option Nat) := none
  announced : Bool := false
  toPeer : List Command := []
  toClient : List UInt8 := []
  answering : List (List UInt8) := []
  calls : List (List Char) := []
  results : List (Nat × Except MgmtError CommandReply) := []
  written : List Command := []
  answered : List Answer := []
  outstanding : List Command := []
  history : List Event := []
  holds : Nat := 0
  occupancy : List Nat := []
  aborted : Bool := false

/-! ## §2. The actor. -/

namespace World

def answerPending (w : World) (outcome : Except MgmtError CommandReply) : World :=
  match w.pending with
  | some (some ticket) => { w with pending := none, results := w.results ++ [(ticket, outcome)] }
  | _ => { w with pending := none }

def waiting (w : World) : List Nat :=
  w.pending.toList.filterMap id ++ w.outbox.filterMap (·.reply) ++ w.channel.filterMap (·.reply)

def drop (w : World) : World :=
  { w with
    running := false, pending := none, outbox := [], channel := []
    results := w.results ++ w.waiting.map (·, .error .closed) }

def finish (w : World) : World := { w.drop with sink := w.sink.publishDisconnected }

def submit (w : World) (line : List Char) (acknowledged : Bool) : Option World :=
  let ticket := w.calls.length
  let asked := { w with calls := w.calls ++ [line] }
  match checkLineLength line with
  | .error error => some { asked with results := w.results ++ [(ticket, .error error)] }
  | .ok () =>
    if w.running = false then
      some { asked with results := w.results ++ [(ticket, .error .closed)] }
    else if w.channel.length < commandChannel then
      let reply := if acknowledged then some ticket else none
      some { asked with channel := w.channel ++ [⟨line, reply, acknowledged, 0⟩] }
    else none

def queueRelease (w : World) : World :=
  let w := { w with holds := w.holds + 1, occupancy := w.occupancy ++ [w.outbox.length] }
  if w.outbox.length < outboxLimit then
    { w with outbox := w.outbox ++ [⟨holdRelease, none, true, w.holds⟩] }
  else w

def isHold : Event → Bool
  | .hold _ _ => true
  | _ => false

/-- The version of the first `>INFO:`. -/
def greet (greeting : Option (Option Nat)) : Event → Option (Option Nat)
  | .info text => greeting.or (some (parseGreetingVersion text.toList))
  | _ => greeting

def handleEvent (w : World) (event : Event) : World :=
  let w := if isHold event then w.queueRelease else w
  match observeAndPublish w.tracker event w.sink with
  | (.ok tracker, sink) =>
    { w with
      tracker, sink, greeting := greet w.greeting event, history := w.history ++ [event] }
  | (.error _, sink) => { w with sink }.finish

def handleLine (w : World) (line : List Char) : World :=
  match classify line with
  | .event event => w.handleEvent event
  | frame =>
    if w.pending.isNone then { w with accumulator := {} }
    else
      match w.accumulator.accept frame with
      | (accumulator, none) => { w with accumulator }
      | (accumulator, some reply) =>
        { w with accumulator, outstanding := w.outstanding.tail }.answerPending (.ok reply)

def handleLines : List (List Char) → World → World
  | [], w => w
  | line :: rest, w => if w.running then handleLines rest (w.handleLine line) else w

def selecting (w : World) : Bool := w.running && (w.pending.isSome || w.outbox.isEmpty)

end World

/-! ## §3. Steps. -/

inductive Action where
  | send (line : List Char)
  | announce
  | enqueue
  | write
  | read (count : Nat)
  | expire
  | eof
  | fail
  | close
  | abort
  | take (reply : Reply)
  | reply
  | notify (raw : List UInt8)

namespace World

/-- `handshake`, once the greeting is in. -/
def announce (w : World) : Option World :=
  match w.greeting with
  | some (some greeted) =>
    if w.running ∧ w.announced = false ∧ minManagementVersion ≤ greeted then
      { w with announced := true }.submit (versionLine (min greeted announcedVersion))
        (decide (replyBearingVersion ≤ greeted))
    else none
  | _ => none

def enqueue (w : World) : Option World :=
  if w.selecting ∧ w.outbox.length < outboxLimit then
    match w.channel with
    | [] => none
    | command :: rest =>
      some { w with channel := rest, outbox := w.outbox ++ [{ command with stamp := w.holds }] }
  else none

def write (peer : Peer) (w : World) : Option World :=
  match w.pending, w.outbox with
  | none, command :: rest =>
    if w.running = false then none
    else
      match checkLineLength command.line with
      | .error _ => some { w with outbox := rest }.finish
      | .ok () => some { w with
          outbox := rest
          pending := if command.expectsReply then some command.reply else none
          toPeer := w.toPeer ++ [command]
          written := w.written ++ [command]
          outstanding :=
            if peer.answers command.line then w.outstanding ++ [command] else w.outstanding }
  | _, _ => none

def read (w : World) (count : Nat) : Option World :=
  if w.selecting ∧ 0 < count ∧ count ≤ readChunk ∧ count ≤ w.toClient.length then
    match w.splitter.push (w.toClient.take count) with
    | .error _ => some w.finish
    | .ok (splitter, lines) =>
      some (handleLines lines { w with splitter, toClient := w.toClient.drop count })
  else none

def take (peer : Peer) (w : World) (reply : Reply) : Option World :=
  match w.answering, w.toPeer with
  | [], command :: rest =>
    if peer.answers command.line then
      if reply.wellFormed then
        some { w with
          toPeer := rest, answering := reply.lines, answered := w.answered ++ [⟨command, reply⟩] }
      else none
    else some { w with toPeer := rest }
  | _, _ => none

end World

def step (peer : Peer) (w : World) : Action → Option World
  | .send line => w.submit line true
  | .announce => w.announce
  | .enqueue => w.enqueue
  | .write => w.write peer
  | .read count => w.read count
  | .expire =>
    if w.selecting ∧ w.pending.isSome then some (w.answerPending (.error .timeout)).finish
    else none
  | .eof => if w.selecting then some (w.answerPending (.error .eof)).finish else none
  | .fail => if w.running then some w.finish else none
  | .close => if w.selecting ∧ w.channel = [] then some w.finish else none
  | .abort => if w.running then some { w.drop with aborted := true } else none
  | .take reply => w.take peer reply
  | .reply =>
    match w.answering with
    | [] => none
    | raw :: rest => some { w with
        answering := rest, toClient := w.toClient ++ (raw ++ [lineFeed]) }
  | .notify raw =>
    let hello := World.greet w.hello (Event.parse (decodeLine raw))
    if !raw.contains lineFeed && isNotification (decodeLine raw) && peer.honest hello
    then some { w with toClient := w.toClient ++ (raw ++ [lineFeed]), hello }
    else none

def samplePeer : Peer := ⟨6, fun _ => true, fun h => absurd h (by decide)⟩

def wire (text : String) : List UInt8 := bytes text.toList

end ThisConnect.Mgmt
