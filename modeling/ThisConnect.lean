import ThisConnect.Auth.Broker
import ThisConnect.Auth.Correlation
import ThisConnect.Auth.Disclosure
import ThisConnect.Auth.Expiry
import ThisConnect.Auth.Flow
import ThisConnect.Auth.Replay
import ThisConnect.Auth.Totp
import ThisConnect.Base.Ascii
import ThisConnect.Base.Codec
import ThisConnect.Base.Encoding
import ThisConnect.Base.Fairness
import ThisConnect.Base.Framing
import ThisConnect.Base.Interaction
import ThisConnect.Base.IpAddr
import ThisConnect.Base.Json
import ThisConnect.Base.Numeral
import ThisConnect.Base.Outcome
import ThisConnect.Base.Places
import ThisConnect.Base.Text
import ThisConnect.Base.TokenBucket
import ThisConnect.Base.Transition
import ThisConnect.Base.Utf8
import ThisConnect.Ipc.Connection
import ThisConnect.Ipc.Framing
import ThisConnect.Ipc.Handler
import ThisConnect.Ipc.Message
import ThisConnect.Ipc.Outbound
import ThisConnect.Ipc.Wire
import ThisConnect.Mgmt.Announcements
import ThisConnect.Mgmt.Attribution
import ThisConnect.Mgmt.Challenge
import ThisConnect.Mgmt.Client
import ThisConnect.Mgmt.Codec
import ThisConnect.Mgmt.Conversation
import ThisConnect.Mgmt.Escape
import ThisConnect.Mgmt.Event
import ThisConnect.Mgmt.History
import ThisConnect.Mgmt.Hold
import ThisConnect.Mgmt.Quoting
import ThisConnect.Mgmt.Splitting
import ThisConnect.Mgmt.Tunnel
import ThisConnect.Ovpn.Allowlist
import ThisConnect.Ovpn.Args
import ThisConnect.Ovpn.Canonical
import ThisConnect.Ovpn.Directive
import ThisConnect.Ovpn.Emission
import ThisConnect.Ovpn.Error
import ThisConnect.Ovpn.Escaping
import ThisConnect.Ovpn.Inline
import ThisConnect.Ovpn.Lexer
import ThisConnect.Ovpn.Numbers
import ThisConnect.Ovpn.Parse
import ThisConnect.Ovpn.Profile
import ThisConnect.Ovpn.Reparse
import ThisConnect.Ovpn.Reread
import ThisConnect.Ovpn.Verdict
import ThisConnect.Policy.Entries
import ThisConnect.Policy.FailClosed
import ThisConnect.Policy.Kernel
import ThisConnect.Policy.Linux
import ThisConnect.Policy.Listing
import ThisConnect.Policy.Managed
import ThisConnect.Policy.Plan
import ThisConnect.Policy.Reassert
import ThisConnect.Policy.Reconcile
import ThisConnect.Policy.Recovery
import ThisConnect.Policy.Staged
import ThisConnect.Policy.Types
import ThisConnect.Proxy.Admission
import ThisConnect.Proxy.Agreement
import ThisConnect.Proxy.Budget
import ThisConnect.Proxy.Chunking
import ThisConnect.Proxy.Client
import ThisConnect.Proxy.Deadline
import ThisConnect.Proxy.Dialer
import ThisConnect.Proxy.Egress
import ThisConnect.Proxy.Exchange
import ThisConnect.Proxy.Http
import ThisConnect.Proxy.Identity
import ThisConnect.Proxy.Listener
import ThisConnect.Proxy.Replies
import ThisConnect.Proxy.Requests
import ThisConnect.Proxy.Resolver
import ThisConnect.Proxy.Script
import ThisConnect.Proxy.Socks5
import ThisConnect.Session.Admission
import ThisConnect.Session.Cancellation
import ThisConnect.Session.Capture
import ThisConnect.Session.Children
import ThisConnect.Session.Cleanup
import ThisConnect.Session.Dns
import ThisConnect.Session.Enders
import ThisConnect.Session.Endings
import ThisConnect.Session.Ids
import ThisConnect.Session.Invariant
import ThisConnect.Session.Loss
import ThisConnect.Session.Ownership
import ThisConnect.Session.Process
import ThisConnect.Session.Publisher
import ThisConnect.Session.Push
import ThisConnect.Session.Separation
import ThisConnect.Session.Slot
import ThisConnect.Session.State
import ThisConnect.Session.Seen
import ThisConnect.Session.Status
import ThisConnect.Session.Store
import ThisConnect.Session.Watchdog
import ThisConnect.Session.World
import ThisConnect.Ui.Client
import ThisConnect.Ui.GivenUp
