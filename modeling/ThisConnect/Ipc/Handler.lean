/-
  ThisConnect.Ipc.Handler
  **COMMAND DISPATCH.**
-/
import ThisConnect.Base.Interaction
import ThisConnect.Ipc.Message
import ThisConnect.Session.State

namespace ThisConnect.Ipc

open Interaction

/-! ## §1. What the handler calls. -/

inductive SessionError where
  | alreadyConnected
  | notConnected
  | busy
  | illegalTransition (src dst : Session.SessionState)
  | profileNotFound (id : String)
  | profile (detail : String)
  | workspace (what detail : String)
  | openvpnNotFound (detail : String)
  | spawn (command detail : String)
  | openvpnExited (code signal : Option Int)
  | openvpnFatal (detail : String)
  | managementTimeout
  | mgmt (detail : String)
  | auth (detail : String)
  | authRejected (detail : String)
  | policy (detail : String)
  | missingTunnelAddress
  | cancelled
  | internal (detail : String)
  deriving DecidableEq, Repr

/-- `Option<i32>` under `{:?}`. -/
def debugOption : Option Int → String
  | none => "None"
  | some n => s!"Some({n})"

def SessionError.userFacing : SessionError → String
  | .alreadyConnected => "a connection is already up"
  | .notConnected => "nothing is connected"
  | .busy => "another connect or disconnect is already in flight"
  | .illegalTransition src dst => s!"cannot move from {src.debug} to {dst.debug}"
  | .profileNotFound _ => "no profile with that id"
  | .profile detail => s!"the profile did not pass validation: {detail}"
  | .workspace what detail => s!"could not {what}: {detail}"
  | .openvpnNotFound detail => s!"could not find an openvpn binary: {detail}"
  | .spawn command detail => s!"could not start {command}: {detail}"
  | .openvpnExited code signal =>
    s!"openvpn exited (code {debugOption code}, signal {debugOption signal})"
  | .openvpnFatal detail => s!"openvpn reported a fatal error: {detail}"
  | .managementTimeout => "openvpn did not connect back to the management socket in time"
  | .mgmt detail => detail
  | .auth detail => detail
  | .authRejected detail => s!"authentication was rejected: {detail}"
  | .policy detail => s!"tunnel policy failed: {detail}"
  | .missingTunnelAddress => "the tunnel came up without an address to bind egress sockets to"
  | .cancelled => "the connection attempt was cancelled"
  | .internal detail => s!"internal error: {detail}"

inductive PromptError where
  | cancelled
  | timedOut
  | noClient
  | mismatchedReply
  | unknownPrompt
  deriving DecidableEq, Repr

inductive Call where
  | connect (profileId : String)
  | disconnect
  | status
  | importProfile (name config : String)
  | list
  | get (profileId : String)
  | delete (profileId : String)
  | info
  | stats
  | deliver (promptId : String) (reply : PromptReply)
  deriving DecidableEq, Repr

def Call.Answer : Call → Type
  | .connect _ => Except SessionError ConnectionStatus
  | .disconnect => Except SessionError Unit
  | .status => ConnectionStatus
  | .importProfile _ _ => Except SessionError ProfileSummary
  | .list => Except SessionError (List ProfileSummary)
  | .get _ => Except SessionError ProfileSummary
  | .delete _ => Except SessionError Unit
  | .info => Option ProxyInfo
  | .stats => Option ProxySessionStats
  | .deliver _ _ => Except PromptError Unit

abbrev Handler := Prog Call Call.Answer DaemonMessage

/-! ## §2. Answers. -/

def codeFor : SessionError → ErrorCode
  | .alreadyConnected => .alreadyConnected
  | .notConnected => .notConnected
  | .busy | .illegalTransition _ _ => .busy
  | .profileNotFound _ => .profileNotFound
  | .profile _ => .profileInvalid
  | .auth _ | .authRejected _ => .authFailed
  | .missingTunnelAddress | .policy _ => .tunnelNotReady
  | _ => .internal

def ok (id : String) (response : Response) : DaemonMessage := .response id response

def fail (id : String) (error : SessionError) : DaemonMessage :=
  .error id ⟨codeFor error, error.userFacing⟩

def notReady : IpcError :=
  ⟨.tunnelNotReady, "the proxy listener is not up; connect a profile first"⟩

def daemonVersion : String := "0.1.0"

def hello (id : String) (version : UInt32) : DaemonMessage :=
  match checkProtocolVersion version with
  | .ok () => .hello id protocolVersion daemonVersion
  | .error mismatch => .error id mismatch

def answered {α : Type} (id : String) (response : α → Response) :
    Except SessionError α → DaemonMessage
  | .ok a => ok id (response a)
  | .error error => fail id error

/-! ## §3. Dispatch. -/

def request (id : String) : Request → Handler
  | .connect profileId => .call (.connect profileId) fun r => .ret (answered id .status r)
  | .disconnect => .call .disconnect fun r => .ret (answered id (fun _ => .ack) r)
  | .status => .call .status fun status => .ret (ok id (.status status))
  | .profileImport name config =>
    .call (.importProfile name config) fun r => .ret (answered id .profile r)
  | .profileList => .call .list fun r => .ret (answered id .profiles r)
  | .profileGet profileId => .call (.get profileId) fun r => .ret (answered id .profile r)
  | .profileDelete profileId =>
    .call .status fun status =>
      -- disconnecting first is the user's job
      if status.profileId = some profileId then .ret (fail id .alreadyConnected)
      else .call (.delete profileId) fun r => .ret (answered id (fun _ => .ack) r)
  | .proxyInfo => .call .info fun
      | some proxy => .ret (ok id (.proxy proxy))
      | none => .ret (.error id notReady)
  | .proxyStats => .call .stats fun
      | some stats => .ret (ok id (.proxyStats stats))
      | none => .ret (.error id notReady)

def promptReply (id promptId : String) (reply : PromptReply) : Handler :=
  .call (.deliver promptId reply) fun
    | .ok () => .ret (ok id .ack)
    | .error .unknownPrompt =>
      .ret (.error id ⟨.promptExpired, "the daemon already withdrew that prompt"⟩)
    | .error _ => .ret (.error id ⟨.internal, "could not deliver the prompt reply"⟩)

def dispatch : ClientMessage → Handler
  | .hello id version _ => .ret (hello id version)
  | .request id r => request id r
  | .promptReply id promptId reply => promptReply id promptId reply

end ThisConnect.Ipc
