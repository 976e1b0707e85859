import ContextEngine.Action.ActionPerformProofs
import ContextEngine.Adapters.FeishuConnectorProofs
import ContextEngine.Adapters.FileSourceProofs
import ContextEngine.Adapters.VectorDiscovery
import ContextEngine.Control.ChangePageLogProofs
import ContextEngine.Control.FailClosed
import ContextEngine.Control.SourceAclFloor
import ContextEngine.Learning.EvaluationReportProofs
import ContextEngine.Learning.ReleasePromotionProofs
import ContextEngine.Learning.ThresholdsProofs
import ContextEngine.Runtime.FieldRendering
import ContextEngine.Runtime.KernelProofs
import ContextEngine.Runtime.ModelInferenceProofs
import ContextEngine.Runtime.Noninterference
import ContextEngine.Runtime.OneHopScan
import ContextEngine.Runtime.Packing
import ContextEngine.Runtime.ResolveProofs
import ContextEngine.Runtime.ScopeOracle
import ContextEngine.Scheduler.FileDispatchProofs
import ContextEngine.Supply.ExecutionBridgeProofs
