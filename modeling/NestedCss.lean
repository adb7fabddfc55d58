import NestedCss.Main
import NestedCss.Proofs.AnonymousClass
import NestedCss.Proofs.BlockIsolation
import NestedCss.Proofs.CamelCaseNames
import NestedCss.Proofs.CapturedScope
import NestedCss.Proofs.ChainGrowth
import NestedCss.Proofs.DedupGate
import NestedCss.Proofs.DepthGuard
import NestedCss.Proofs.EmissionAccount
import NestedCss.Proofs.EscapedBlanks
import NestedCss.Proofs.FingerprintDigits
import NestedCss.Proofs.FirstUnsupported
import NestedCss.Proofs.FlattenedScopes
import NestedCss.Proofs.OneFlushPerBatch
import NestedCss.Proofs.ReentrantEmission
import NestedCss.Proofs.SchedulerRuns
import NestedCss.Proofs.SelectorNesting
import NestedCss.Proofs.SettledValues
import NestedCss.Proofs.SharedExpansion
import NestedCss.Proofs.SingleBatch
import NestedCss.Proofs.SplitNodes
import NestedCss.Proofs.TableExport
import NestedCss.Proofs.TaskOrder
import NestedCss.Proofs.TokenDivision
import NestedCss.Proofs.WellNestedOutput
import NestedCss.Session.Command
