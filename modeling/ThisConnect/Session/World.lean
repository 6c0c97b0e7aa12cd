/-
  ThisConnect.Session.World
  **THE SESSION MANAGER AS INTERLEAVED TASKS.**
-/
import ThisConnect.Base.Transition
import ThisConnect.Session.State

namespace ThisConnect.Session

open Function (update)

/-! ## §1. Tasks. -/

/-- Where a connect call is. -/
inductive Pc where
  | idle
  | claimed
  | armed
  | loaded
  | bound
  | spawned
  | managed
  | authenticating
  | asking
  | authenticated
  | secured
  | cleared
  | established
  | committed
  | noted
  | stored
  | live
  | unwinding (error : SessionError)
  | reporting (error : SessionError)
  | announcing (error : SessionError)
  | failed
  deriving DecidableEq, Repr

/-- The next thing a teardown does. -/
inductive Stage where
  | stop
  | reset
  | submit
  | removing
  | signal
  | terminate
  | withdraw
  deriving DecidableEq, Repr

inductive Teardown where
  | none
  | running (behalf : Nat) (stage : Stage)
  | finished
  deriving DecidableEq, Repr

inductive Ender where
  | taking
  | tearing (session : Nat)
  | noting
  | forcing
  deriving DecidableEq, Repr

inductive LossReason where
  | channelClosed
  | wentDown
  | newIdentity
  deriving DecidableEq, Repr

def LossReason.text : LossReason → String
  | .channelClosed => "the management channel closed"
  | .wentDown => "the tunnel went down"
  | .newIdentity => "the tunnel reconnected under a new identity"

inductive Supervisor where
  | none
  | watching
  | ending (reason : LossReason) (ender : Ender)
  | done
  deriving DecidableEq, Repr

inductive Disconnect where
  | none
  | signalling (previous : SessionState)
  | ending (ender : Ender)
  | done
  deriving DecidableEq, Repr

/-! ## §2. The state. -/

structure Attempt where
  pc : Pc := .idle
  teardown : Teardown := .none
  supervisor : Supervisor := .none
  cancelled : Bool := false
  spawned : Bool := false
  stopped : Bool := false
  streaming : Bool := false
  binding : Bool := false
  removal : Option Nat := none
  established : Bool := false
  released : Bool := false
  deriving DecidableEq, Repr

structure Snapshot where
  shown : Option Nat := none
  bytesIn : Nat := 0
  bytesOut : Nat := 0
  lastError : Option String := none
  deriving DecidableEq, Repr

structure World where
  cell : SessionState := .disconnected
  setBy : Option Nat := none
  status : Snapshot := {}
  active : Option Nat := none
  cancelTo : Option Nat := none
  listener : Option Nat := none
  capture : Option Nat := none
  installed : Option Nat := none
  prompts : List Nat := []
  next : Nat := 0
  attempts : Nat → Attempt := fun _ => {}
  nextDisconnect : Nat := 0
  disconnects : Nat → Disconnect := fun _ => .none
  behalf : Nat → Nat := fun _ => 0

namespace World

def setAttempt (w : World) (k : Nat) (a : Attempt) : World :=
  { w with attempts := update w.attempts k a }

def setDisconnect (w : World) (d : Nat) (p : Disconnect) : World :=
  { w with disconnects := update w.disconnects d p }

def publish (w : World) (state : SessionState) (k : Nat) : World :=
  if w.cell = state then w else { w with cell := state, setBy := some k }

end World

/-! ## §3. Connect calls. -/

inductive Move where
  | arm
  | load (fail : Option String)
  | bind (fail : Option String)
  | spawn (fail : Option String)
  | attach (fail : Option String)
  | enter
  | ask
  | answer
  | abort
  | reject (detail : String)
  | ready
  | install (fail : Option String)
  | clear
  | publish (fail : Option String)
  | commit
  | note
  | store
  | supervise
  | unwound
  | report
  | announce
  deriving DecidableEq, Repr

namespace Attempt

def dropped (a : Attempt) : Attempt :=
  { a with streaming := false, stopped := true, released := true }

def unwind (a : Attempt) (k : Nat) (error : SessionError) : Attempt :=
  { a with pc := .unwinding error, teardown := .running k .stop }

end Attempt

def World.seesCancel (w : World) (k : Nat) : Bool :=
  (w.attempts k).cancelled || w.cancelTo != some k

def attemptStep (w : World) (k : Nat) (move : Move) : Option World :=
  let a := w.attempts k
  match a.pc, move with
  | .claimed, .arm => some ({ w with cancelTo := some k }.setAttempt k { a with pc := .armed })
  | .armed, .load none => some (w.setAttempt k { a with pc := .loaded })
  | .armed, .load (some detail) =>
    some (w.setAttempt k { a with pc := .reporting (.collaborator detail) })
  -- a new management socket is a new session: the capture is reset whether or not `bind` succeeds
  | .loaded, .bind none => some ({ w with capture := none }.setAttempt k { a with pc := .bound })
  | .loaded, .bind (some detail) =>
    some ({ w with capture := none }.setAttempt k
      { a with pc := .reporting (.collaborator detail) })
  | .bound, .spawn none => some (w.setAttempt k { a with pc := .spawned, spawned := true })
  | .bound, .spawn (some detail) =>
    some (w.setAttempt k { a with pc := .reporting (.collaborator detail) })
  | .spawned, .attach none => some (w.setAttempt k { a with pc := .managed, streaming := true })
  -- `start_openvpn` returns without teardown: the half-built resources are dropped
  | .spawned, .attach (some detail) =>
    some (w.setAttempt k { a.dropped with pc := .reporting (.collaborator detail) })
  | .managed, .enter =>
    match w.cell.advance .authenticating with
    | .ok state => some ((w.publish state k).setAttempt k { a with pc := .authenticating })
    | .error error => some (w.setAttempt k (a.unwind k error))
  | .authenticating, .ask =>
    some ({ w with prompts := k :: w.prompts }.setAttempt k { a with pc := .asking })
  | .asking, .answer =>
    if k ∈ w.prompts then
      some ({ w with prompts := w.prompts.erase k }.setAttempt k { a with pc := .authenticating })
    else none
  -- dropping an unanswered `ask` leaves its prompt with the broker
  | .authenticating, .abort | .asking, .abort =>
    if w.seesCancel k then some (w.setAttempt k (a.unwind k .cancelled)) else none
  | .authenticating, .reject detail | .asking, .reject detail =>
    some (w.setAttempt k (a.unwind k (.collaborator detail)))
  | .authenticating, .ready => some (w.setAttempt k { a with pc := .authenticated })
  | .authenticated, .install none =>
    some ({ w with installed := some k }.setAttempt k { a with pc := .secured, binding := true })
  | .authenticated, .install (some detail) =>
    some (w.setAttempt k (a.unwind k (.collaborator detail)))
  | .secured, .clear => some ({ w with listener := none }.setAttempt k { a with pc := .cleared })
  | .cleared, .publish none =>
    some ({ w with listener := some k }.setAttempt k
      { a with pc := .established, established := true })
  | .cleared, .publish (some detail) =>
    some (w.setAttempt k (a.unwind k (.collaborator detail)))
  | .established, .commit =>
    match w.cell.advance .connected with
    | .ok state => some ((w.publish state k).setAttempt k { a with pc := .committed })
    | .error error => some (w.setAttempt k (a.unwind k error))
  | .committed, .note =>
    some ({ w with status := { shown := some k } }.setAttempt k { a with pc := .noted })
  -- whatever the slot held is dropped without teardown
  | .noted, .store =>
    match w.active with
    | some j =>
      some ({ w.setAttempt j (w.attempts j).dropped with active := some k }.setAttempt k
        { a with pc := .stored })
    | none => some ({ w with active := some k }.setAttempt k { a with pc := .stored })
  | .stored, .supervise =>
    some (w.setAttempt k { a with pc := .live, supervisor := .watching })
  | .unwinding error, .unwound =>
    if a.teardown = .finished then some (w.setAttempt k { a with pc := .reporting error })
    else none
  | .reporting error, .report =>
    some ({ w with status := { lastError := some error.userFacing } }.setAttempt k
      { a with pc := .announcing error })
  -- a cancelled attempt is a user decision, not a failure
  | .announcing error, .announce =>
    some ((w.publish (if error = .cancelled then .disconnected else .failed) k).setAttempt k
      { a with pc := .failed })
  | _, _ => none

/-! ## §4. Teardown. -/

def Attempt.finish (a : Attempt) : Attempt := { a.dropped with teardown := .finished }

def tearStep (w : World) (k : Nat) : Option World :=
  let a := w.attempts k
  match a.teardown with
  | .running b .stop =>
    some ({ w with listener := none }.setAttempt k { a with teardown := .running b .reset })
  | .running b .reset =>
    some ({ w with capture := none }.setAttempt k { a with teardown := .running b .submit })
  | .running b .submit =>
    if a.binding then
      some (w.setAttempt k
        { a with binding := false, removal := some b, teardown := .running b .removing })
    else some (w.setAttempt k { a with teardown := .running b .signal })
  | .running b .removing =>
    if a.removal = none then some (w.setAttempt k { a with teardown := .running b .signal })
    else none
  | .running b .signal =>
    some (w.setAttempt k
      { a with streaming := false, stopped := true, teardown := .running b .terminate })
  | .running b .terminate =>
    some (w.setAttempt k { a with stopped := true, teardown := .running b .withdraw })
  | .running _ .withdraw => some ({ w with prompts := [] }.setAttempt k a.finish)
  | _ => none

def Stage.waits : Stage → Bool
  | .removing | .signal | .terminate | .withdraw => true
  | .stop | .reset | .submit => false

def expireStep (w : World) (k : Nat) : Option World :=
  match (w.attempts k).teardown with
  | .running _ stage => if stage.waits then some (w.setAttempt k (w.attempts k).finish) else none
  | _ => none

def removeStep (w : World) (k : Nat) : Option World :=
  match (w.attempts k).removal with
  | some _ =>
    some ({ w with installed := none }.setAttempt k { w.attempts k with removal := none })
  | none => none

/-! ## §5. Disconnects and losses. -/

def enderStep (w : World) (behalf : Nat) (final : SessionState) (snapshot : Snapshot) :
    Ender → Option (World × Option Ender)
  | .taking =>
    match w.active with
    | some j =>
      some ({ w with active := none }.setAttempt j
        { w.attempts j with teardown := .running behalf .stop }, some (.tearing j))
    | none => some (w, some .noting)
  | .tearing j =>
    if (w.attempts j).teardown = .finished then some (w, some .noting) else none
  | .noting => some ({ w with status := snapshot }, some .forcing)
  | .forcing => some (w.publish final behalf, none)

def Disconnect.after : Option Ender → Disconnect
  | .some ender => .ending ender
  | .none => .done

def Supervisor.after (reason : LossReason) : Option Ender → Supervisor
  | .some ender => .ending reason ender
  | .none => .done

/-- `lock(cancel).send(true)`. -/
def World.sendCancel (w : World) : World :=
  match w.cancelTo with
  | some j => w.setAttempt j { w.attempts j with cancelled := true }
  | none => w

def signalStep (w : World) (d : Nat) : Option World :=
  match w.disconnects d with
  | .signalling previous =>
    some (w.sendCancel.setDisconnect d (if previous.inFlight then .done else .ending .taking))
  | _ => none

def disconnectEndStep (w : World) (d : Nat) : Option World :=
  match w.disconnects d with
  | .ending ender =>
    (enderStep w (w.behalf d) .disconnected {} ender).map fun r =>
      r.1.setDisconnect d (.after r.2)
  | _ => none

def lossStep (w : World) (s : Nat) (reason : LossReason) : Option World :=
  match (w.attempts s).supervisor with
  | .watching =>
    some ((w.publish .disconnecting s).setAttempt s
      { w.attempts s with supervisor := .ending reason .taking })
  | _ => none

def lossEndStep (w : World) (s : Nat) : Option World :=
  match (w.attempts s).supervisor with
  | .ending reason ender =>
    (enderStep w s .failed { lastError := some reason.text } ender).map fun r =>
      r.1.setAttempt s { r.1.attempts s with supervisor := .after reason r.2 }
  | _ => none

/-! ## §6. The system. -/

inductive Act where
  | connect
  | attempt (k : Nat) (move : Move)
  | push (k : Nat)
  | tear (k : Nat)
  | expire (k : Nat)
  | remove (k : Nat)
  | disconnect
  | signal (d : Nat)
  | disconnectEnd (d : Nat)
  | bytes (s bytesIn bytesOut : Nat)
  | loss (s : Nat) (reason : LossReason)
  | lossEnd (s : Nat)
  deriving DecidableEq, Repr

def step (w : World) : Act → Option World
  | .connect =>
    match w.cell.beginConnect with
    | .ok state =>
      some ({ w.publish state w.next with next := w.next + 1 }.setAttempt w.next
        { pc := .claimed })
    | .error _ => some w
  | .attempt k move => attemptStep w k move
  | .push k => if (w.attempts k).streaming then some { w with capture := some k } else none
  | .tear k => tearStep w k
  | .expire k => expireStep w k
  | .remove k => removeStep w k
  | .disconnect =>
    match w.cell.beginDisconnect with
    | .ok state =>
      some ({ w.publish state (w.next - 1) with
        nextDisconnect := w.nextDisconnect + 1
        behalf := update w.behalf w.nextDisconnect (w.next - 1) }.setDisconnect
          w.nextDisconnect (.signalling w.cell))
    | .error _ => some w
  | .signal d => signalStep w d
  | .disconnectEnd d => disconnectEndStep w d
  | .bytes s bytesIn bytesOut =>
    if (w.attempts s).supervisor = .watching then
      some { w with status := { w.status with bytesIn, bytesOut } }
    else none
  | .loss s reason => lossStep w s reason
  | .lossEnd s => lossEndStep w s

/-- The daemon as it starts. -/
def World.start : World := {}

end ThisConnect.Session
