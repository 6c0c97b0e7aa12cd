/-
  ThisConnect.Session.State
  **THE CONNECTION STATE MACHINE.**
-/
import Mathlib.Tactic.Common

namespace ThisConnect.Session

inductive SessionState where
  | disconnected
  | connecting
  | authenticating
  | connected
  | disconnecting
  | failed
  deriving DecidableEq, Repr

inductive SessionError where
  | alreadyConnected
  | notConnected
  | busy
  | illegalTransition (src dst : SessionState)
  | cancelled
  | collaborator (detail : String)
  deriving DecidableEq, Repr

def SessionState.debug : SessionState → String
  | .disconnected => "Disconnected"
  | .connecting => "Connecting"
  | .authenticating => "Authenticating"
  | .connected => "Connected"
  | .disconnecting => "Disconnecting"
  | .failed => "Failed"

def SessionError.userFacing : SessionError → String
  | .alreadyConnected => "a connection is already up"
  | .notConnected => "nothing is connected"
  | .busy => "another connect or disconnect is already in flight"
  | .illegalTransition src dst => s!"cannot move from {src.debug} to {dst.debug}"
  | .cancelled => "the connection attempt was cancelled"
  | .collaborator detail => detail

namespace SessionState

def isBusy : SessionState → Bool
  | .connecting | .authenticating | .connected | .disconnecting => true
  | .disconnected | .failed => false

def permits : SessionState → SessionState → Bool
  | _, .failed => true
  | .disconnected, .connecting | .failed, .connecting => true
  | .connecting, .authenticating | .connecting, .connected | .connecting, .disconnecting => true
  | .authenticating, .connected | .authenticating, .disconnecting => true
  | .connected, .disconnecting => true
  | .disconnecting, .disconnected | .failed, .disconnected => true
  | _, _ => false

/-- Claims the session slot. -/
def beginConnect (current : SessionState) : Except SessionError SessionState :=
  if current = .connected then .error .alreadyConnected
  else if current.isBusy then .error .busy
  else .ok .connecting

def beginDisconnect (current : SessionState) : Except SessionError SessionState :=
  if !current.isBusy && current != .failed then .error .notConnected
  else if current = .disconnecting then .error .busy
  else .ok .disconnecting

def advance (current next : SessionState) : Except SessionError SessionState :=
  if current = next then .ok current
  else if current.permits next then .ok next
  else .error (.illegalTransition current next)

def inFlight : SessionState → Bool
  | .connecting | .authenticating => true
  | _ => false

def isFree : SessionState → Bool
  | .disconnected | .failed => true
  | _ => false

end SessionState

end ThisConnect.Session
