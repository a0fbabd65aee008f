import JdRelay.Base.Runs
import JdRelay.Base.Worker
import JdRelay.Base.Receiver
import JdRelay.Base.Text
import JdRelay.Base.Base64
import JdRelay.Base.Number
import JdRelay.Base.Json
import JdRelay.Base.Codecs
import JdRelay.Base.Dict
import JdRelay.Base.Python
import JdRelay.Base.RoundTrip
import JdRelay.Base.Utf8
import JdRelay.Base.Lines
import JdRelay.Base.Percent
import JdRelay.Base.Url
import JdRelay.Base.Transaction
import JdRelay.Base.Query
import JdRelay.Base.Fields
import JdRelay.Crypto.Base64
import JdRelay.Crypto.ReplayGuard
import JdRelay.Crypto.Envelope
import JdRelay.Crypto.Codec
import JdRelay.Crypto.Channel
import JdRelay.Agent.ReplayGuard
import JdRelay.Agent.Nlohmann
import JdRelay.Agent.CryptoCodec
import JdRelay.Agent.Interop
import JdRelay.Agent.Transit
import JdRelay.Agent.NonceCache
import JdRelay.Agent.Rejected
import JdRelay.Agent.WsClient
import JdRelay.Agent.AgentMain
import JdRelay.Agent.Review
import JdRelay.Agent.Verdicts
import JdRelay.Agent.ActiveBuilds
import JdRelay.Agent.Jenkins
import JdRelay.Agent.BuildPoll
import JdRelay.Agent.TriggerReport
import JdRelay.Agent.TriggerBuild
import JdRelay.Agent.ReportedStatus
import JdRelay.Agent.PollBuild
import JdRelay.Agent.SameGuard
import JdRelay.Agent.SpecialMd
import JdRelay.Agent.Delivery
import JdRelay.Agent.ReviewRequests
import JdRelay.Agent.Handshake
import JdRelay.Agent.Base64Text
import JdRelay.Agent.HexKey
import JdRelay.Agent.LoadConfig
import JdRelay.Agent.ConfigFile
import JdRelay.Agent.ConfigMeaning
import JdRelay.Agent.Reconnect
import JdRelay.Crypto.Replay
import JdRelay.State
import JdRelay.Services.Relay
import JdRelay.Services.Lifecycle
import JdRelay.Services.Lifespan
import JdRelay.Services.SensitiveReview
import JdRelay.Services.BuildReport
import JdRelay.Services.LogSnippet
import JdRelay.Models
import JdRelay.Base.Overrides
import JdRelay.Config
import JdRelay.Api.Dingtalk
import JdRelay.Api.Redelivery
import JdRelay.Api.Concurrent
import JdRelay.Api.Session
import JdRelay.Api.Pending
import JdRelay.Services.Dingtalk
import JdRelay.Services.AccessToken
import JdRelay.Api.Callback
import JdRelay.Api.Orders
import JdRelay.Ws.AgentManager
import JdRelay.Api.Agents
import JdRelay.Ws.Routing
import JdRelay.Ws.AgentHandler
import JdRelay.Ws.Handshake
import JdRelay.Ws.Registration
import JdRelay.Ws.Cleanup
import JdRelay.Ws.RawWs
import JdRelay.Ws.RawRecv
import JdRelay.Ws.Sending
import JdRelay.Ws.Framing
import JdRelay.Ws.SocketReader
import JdRelay.Ws.HandshakeAnswer
import JdRelay.Ws.IoLoop
import JdRelay.Ws.DecryptReports
import JdRelay.Ws.Dispatch
import JdRelay.Ws.ManualServer
import JdRelay.Ws.ManualHandshake
import JdRelay.Ws.SameHandshake
import JdRelay.Base.Nested
import JdRelay.Agent.Tools
import JdRelay.Ws.Establish
import JdRelay.Ws.Traffic
import JdRelay.Ws.Settling
import JdRelay.Ws.ManualClient
import JdRelay.Ws.ManualSession
import JdRelay.Base.ReadLoop
import JdRelay.Ws.SameLoop
import JdRelay.Ws.UpgradeRequest
import JdRelay.Ws.RawUpgrade
import JdRelay.Services.Approvers
import JdRelay.Services.DoubleTrigger
import JdRelay.Services.Submission
import JdRelay.Ws.BuildOrders
import JdRelay.Api.Deployed
import JdRelay.Base.Grouping
import JdRelay.Api.Stats
