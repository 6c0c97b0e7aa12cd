/-
  ThisConnect.Ipc.Message
  **THE VOCABULARY OF THE CONTROL CHANNEL.**
-/
import ThisConnect.Session.Publisher

namespace ThisConnect.Ipc

open Net Session

/-! ## §1. From the client. -/

def protocolVersion : UInt32 := 1

def maxMessageBytes : Nat := 1024 * 1024

inductive Request where
  | profileImport (name config : String)
  | profileList
  | profileGet (profileId : String)
  | profileDelete (profileId : String)
  | connect (profileId : String)
  | disconnect
  | status
  | proxyInfo
  | proxyStats
  deriving DecidableEq, Repr

inductive PromptReply where
  | usernamePassword (username password : String)
  | challengeResponse (response : String)
  | cancel
  deriving DecidableEq, Repr

inductive ClientMessage where
  | hello (id : String) (protocolVersion : UInt32) (clientName : String)
  | request (id : String) (request : Request)
  | promptReply (id promptId : String) (reply : PromptReply)
  deriving DecidableEq, Repr

/-! ## §2. To the client. -/

inductive ErrorCode where
  | protocolVersionMismatch
  | handshakeRequired
  | malformedMessage
  | profileInvalid
  | profileNotFound
  | alreadyConnected
  | notConnected
  | busy
  | authFailed
  | tunnelNotReady
  | promptExpired
  | unauthorized
  | internal
  deriving DecidableEq, Repr

structure IpcError where
  code : ErrorCode
  message : String
  deriving DecidableEq, Repr

inductive Transport where
  | udp
  | tcp
  deriving DecidableEq, Repr

structure RemoteSummary where
  host : String
  port : UInt16
  transport : Transport
  deriving DecidableEq, Repr

structure StaticChallengeSummary where
  text : String
  echo : Bool
  deriving DecidableEq, Repr

structure ProfileSummary where
  id : String
  name : String
  remotes : List RemoteSummary
  requiresUsernamePassword : Bool
  staticChallenge : Option StaticChallengeSummary
  hasInlineCa : Bool
  hasInlineCert : Bool
  hasInlineKey : Bool
  canonicalSha256 : String
  importedUnixSecs : UInt64
  deriving DecidableEq, Repr

inductive ConnectionState where
  | disconnected
  | connecting
  | authenticating
  | connected
  | reconnecting
  | disconnecting
  | failed
  deriving DecidableEq, Repr

structure ConnectionStatus where
  state : ConnectionState
  profileId : Option String
  connectedSinceUnixSecs : Option UInt64
  bytesIn : UInt64
  bytesOut : UInt64
  tunnel : Option TunnelInfo
  lastError : Option String
  deriving DecidableEq

inductive ProxyAuth where
  | disabled
  | credentials (username password : String)
  deriving DecidableEq, Repr

structure ProxyInfo where
  listenAddrs : List SocketAddr
  auth : ProxyAuth
  isLoopbackOnly : Bool
  allowedCidrs : List String
  socks5hUrl : String
  deriving DecidableEq

structure ProxySessionStats where
  activeSessions : UInt32
  totalSessions : UInt64
  bytesToTunnel : UInt64
  bytesFromTunnel : UInt64
  tunnelDnsLookups : UInt64
  localDnsLookups : UInt64
  authFailures : UInt64
  distinctRemotePeers : UInt32
  tunnelHasV6 : Bool
  deriving DecidableEq, Repr

inductive Response where
  | ack
  | profile (profile : ProfileSummary)
  | profiles (profiles : List ProfileSummary)
  | status (status : ConnectionStatus)
  | proxy (proxy : ProxyInfo)
  | proxyStats (stats : ProxySessionStats)
  deriving DecidableEq

inductive DaemonMessage where
  | hello (id : String) (protocolVersion : UInt32) (daemonVersion : String)
  | response (id : String) (response : Response)
  | error (id : String) (error : IpcError)
  deriving DecidableEq

def checkProtocolVersion (peerVersion : UInt32) : Except IpcError Unit :=
  if peerVersion = protocolVersion then .ok ()
  else .error ⟨.protocolVersionMismatch,
    s!"daemon speaks protocol {protocolVersion}, client speaks {peerVersion}"⟩

end ThisConnect.Ipc
