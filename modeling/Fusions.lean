import Fusions.Hetuflow.Contract.Replay
import Fusions.Hetuflow.Contract.Advances
import Fusions.Hetuflow.Contract.Joins
import Fusions.Hetuflow.Contract.Idempotency
import Fusions.Hetuflow.Contract.Rounds
import Fusions.Hetuflow.Contract.DomainDriven
import Fusions.Hetuflow.Contract.Callbacks
import Fusions.Hetuflow.Contract.Leases
import Fusions.Hetuflow.Contract.OutboxDrains
import Fusions.Hetuflow.Contract.Tenants
import Fusions.Hetuflow.Contract.Statuses
import Fusions.Hetuflow.Contract.Resolvable
import Fusions.Hetuflow.Contract.OpenInstances
import Fusions.Hetuflow.Contract.Quiescence
import Fusions.Hetuflow.Contract.Rework
import Fusions.Hetuflow.Contract.Routing
import Fusions.Hetuflow.Contract.LastBranch
import Fusions.Hetuflow.Contract.RoundLimit
import Fusions.Hetuflow.Contract.ContextWrites
import Fusions.Hetuflow.Contract.FalseAlarms
import Fusions.Hetuflow.Contract.EndResults
import Fusions.Hetuflow.Contract.Scopes
import Fusions.Hetuflow.Contract.Lint
import Fusions.Hetuflow.Contract.Drift
import Fusions.Hetuflow.Contract.EventLog
import Fusions.Hetuflow.Contract.TimerFirings
import Fusions.Hetuflow.Contract.Lineage
import Fusions.Hetuflow.Core.Canonical
import Fusions.Hetuflow.Service.Script
import Fusions.Hetuflow.Service.Backoff
import Fusions.Ai.GraphFlow.Runner
import Fusions.Ai.GraphFlow.Builder
import Fusions.Ai.GraphFlow.FanOutOrders
import Fusions.Ai.GraphFlow.Storage
import Fusions.Ai.Llm.UsageBatch
import Fusions.Ai.Llm.TokenUsage
import Fusions.Ai.Llm.Meanings
import Fusions.Ai.Llm.ToolLoop
import Fusions.Ai.OpenAiCompatible.ResponsesStream
import Fusions.Ai.OpenAiCompatible.ToolCalls
import Fusions.Ai.OpenAiCompatible.Schemas
import Fusions.Ai.OpenAiCompatible.Pairing
import Fusions.Ai.AudioHex
import Fusions.Ai.SseData
import Fusions.Ai.Wav
import Fusions.Ai.VideoGeneration
import Fusions.Ai.Minimax.Tts
import Fusions.Ai.DashScope.FunAsr
import Fusions.Ai.DashScope.RealtimeSession
import Fusions.Ai.DashScope.TextSegments
import Fusions.Ai.DashScope.QwenTts
import Fusions.Ai.Volcengine.Chunking
import Fusions.Web.Admission
import Fusions.Mq.Retries
import Fusions.Mq.Settling
import Fusions.Mq.Ownership
import Fusions.Rpc.Forgery
import Fusions.Rpc.Resolver
import Fusions.Rpc.IdentityHeaders
import Fusions.Core.ServiceTask
import Fusions.Core.Shutdown
import Fusions.Core.Plugins
import Fusions.Core.BuildOrder
import Fusions.Core.ConfigRegistry
import Fusions.Core.Components
import Fusions.Sql.Transactions
import Fusions.Sql.SqliteTransactions
import Fusions.Sql.SessionVars
import Fusions.Sql.UriString
import Fusions.Security.Captcha
import Fusions.Weixin.PushFrame
import Fusions.Weixin.SameEvent
import Fusions.Weixin.SignData
import Fusions.Weixin.StableToken
import Fusions.Web.ErrorHops
import Fusions.Rpc.ContextValidation
import Fusions.Weixin.WeRun
import Fusions.Weixin.XmlFields
import Fusions.Security.OAuth
import Fusions.Security.Acs3.Verification
import Fusions.Security.TokenLifetime
import Fusions.Storage.Expiry
import Fusions.Storage.Hmac
import Fusions.Storage.Disposition
import Fusions.Storage.FsUrls
import Fusions.Security.OAuthSessions
