import HomeTunnel.Agent.AllowLists
import HomeTunnel.Agent.HttpsTargets
import HomeTunnel.Agent.Injection
import HomeTunnel.Agent.Outcome
import HomeTunnel.App.Client
import HomeTunnel.App.Synchronized
import HomeTunnel.Clipboard.Echo
import HomeTunnel.Clipboard.Transfer
import HomeTunnel.Clipboard.Written
import HomeTunnel.Credentials.Once
import HomeTunnel.Desk.Whitelist
import HomeTunnel.Engine.Latest
import HomeTunnel.Engine.Raw
import HomeTunnel.Features.Controller
import HomeTunnel.Features.Host
import HomeTunnel.Features.Replies
import HomeTunnel.Features.Toggles
import HomeTunnel.Features.Turns
import HomeTunnel.Files.Bounded
import HomeTunnel.Files.Limits
import HomeTunnel.Files.Message
import HomeTunnel.Files.Moves
import HomeTunnel.Files.Nesting
import HomeTunnel.Files.Receiver
import HomeTunnel.Files.Tables
import HomeTunnel.Files.Transfer
import HomeTunnel.Files.Wire
import HomeTunnel.Gui.Accounts
import HomeTunnel.Gui.Newest
import HomeTunnel.Host.Approvals
import HomeTunnel.Host.Authority
import HomeTunnel.Host.Busy
import HomeTunnel.Host.CloseAck
import HomeTunnel.Host.CloseAckDebt
import HomeTunnel.Host.Enable
import HomeTunnel.Host.EngineOrder
import HomeTunnel.Host.GrantLife
import HomeTunnel.Host.Invites
import HomeTunnel.Host.Jws
import HomeTunnel.Host.Keyset
import HomeTunnel.Host.Revocation
import HomeTunnel.Host.SetOnce
import HomeTunnel.Host.Strict
import HomeTunnel.Lib.Base64
import HomeTunnel.Lib.GoJson
import HomeTunnel.Lib.Json
import HomeTunnel.Lib.JsonText
import HomeTunnel.Lib.Rfc3339
import HomeTunnel.Lib.Trace
import HomeTunnel.Lib.Words
import HomeTunnel.Native.AudioBlocks
import HomeTunnel.Native.Authorization
import HomeTunnel.Native.AuthorizationSound
import HomeTunnel.Native.Compact
import HomeTunnel.Native.GateAuthority
import HomeTunnel.Native.GateLedger
import HomeTunnel.Native.GateOnward
import HomeTunnel.Native.GateOrder
import HomeTunnel.Native.GateRelease
import HomeTunnel.Native.GateShrinks
import HomeTunnel.Native.KeysetSound
import HomeTunnel.Native.LeaseAgreement
import HomeTunnel.Native.Reader
import HomeTunnel.Native.SessionClaims
import HomeTunnel.Native.SessionGate
import HomeTunnel.Native.Utf8
import HomeTunnel.NestLink.Account
import HomeTunnel.NestLink.Authorization
import HomeTunnel.NestLink.Browser
import HomeTunnel.NestLink.Guard
import HomeTunnel.NestLink.Released
import HomeTunnel.Peers.AcceptedOnce
import HomeTunnel.Peers.Order
import HomeTunnel.Peers.Proofs
import HomeTunnel.Report.Reporter
import HomeTunnel.Tunnel.Runtime
import HomeTunnel.Tunnel.Stopped
import HomeTunnel.X11.Released
import HomeTunnel.X11.Wheel
