import ExtensionGraph.Main
import ExtensionGraph.Proofs.ShutdownCount
import ExtensionGraph.Proofs.ReadinessBarrier
import ExtensionGraph.Proofs.Quiescence
import ExtensionGraph.Proofs.ThreadReports
import ExtensionGraph.Proofs.ShutdownProgress
import ExtensionGraph.Proofs.AllOrNothing
import ExtensionGraph.Proofs.Operations
import ExtensionGraph.Proofs.HostedExtensions
import ExtensionGraph.Proofs.ReadyTraffic
import ExtensionGraph.Proofs.MessageOrder
import ExtensionGraph.Proofs.ReferentialClosure
import ExtensionGraph.Proofs.Addressing
import ExtensionGraph.Proofs.Replies
import ExtensionGraph.Proofs.LiveGraphs
import ExtensionGraph.Proofs.Spelling
import ExtensionGraph.Proofs.JsonReading
import ExtensionGraph.Proofs.Dispatch
import ExtensionGraph.Proofs.GraphFormat
import ExtensionGraph.Proofs.ThreadCourse
import ExtensionGraph.Proofs.GraphChecks
import ExtensionGraph.Proofs.DeclaredRoutes
import ExtensionGraph.Proofs.GroupMembers
import ExtensionGraph.Proofs.AbortedStart
import ExtensionGraph.Proofs.NodeOrder
import ExtensionGraph.Proofs.Preview
import ExtensionGraph.Proofs.Sending
import ExtensionGraph.Proofs.ClosingAll
import ExtensionGraph.Proofs.MessageFormat
import ExtensionGraph.Proofs.ConfigLayers
import ExtensionGraph.Proofs.FirstBeats
import ExtensionGraph.Proofs.FirstRegistration
import ExtensionGraph.Proofs.OneReport
import ExtensionGraph.Proofs.WildcardLookup
