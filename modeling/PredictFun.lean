import PredictFun.Analysis.Quotable
import PredictFun.Auth.Answers
import PredictFun.Chain.ApprovalRuns
import PredictFun.Chain.Checks
import PredictFun.Chain.OrderHash
import PredictFun.Chain.Quantities
import PredictFun.Chain.Routing
import PredictFun.Execution.Definite
import PredictFun.Execution.Refused
import PredictFun.Execution.Settled
import PredictFun.Execution.ShareAmount
import PredictFun.Execution.Snapshot
import PredictFun.Lifecycle.Canonical
import PredictFun.Lifecycle.Durability
import PredictFun.Lifecycle.Evidence
import PredictFun.Lifecycle.Report
import PredictFun.Lifecycle.Spelling
import PredictFun.Net.Http
import PredictFun.Net.Releases
import PredictFun.Net.StormBreaker
import PredictFun.Net.WriteQueue
import PredictFun.Order.Limit
import PredictFun.Order.Value
import PredictFun.Rest.Payment
import PredictFun.Rest.TargetText
import PredictFun.Tools.Confirmation
import PredictFun.Trading.Wire
import PredictFun.Types.Prices
import PredictFun.Wss.Fence
import PredictFun.Wss.Gaps
import PredictFun.Wss.Live
import PredictFun.Wss.Reconciled
import PredictFun.Wss.Topics
