import Provenant.Confinement.Chunking
import Provenant.Confinement.LaneRoots
import Provenant.Graph.SettledJson
import Provenant.Graph.Cancellation
import Provenant.Graph.LaunchAllowance
import Provenant.Graph.Subtree
import Provenant.Graph.Authority
import Provenant.Graph.LandRecords
import Provenant.Graph.LoopDecisions
import Provenant.Graph.GateBranches
import Provenant.Graph.DisplayIds
import Provenant.Graph.EventLog
import Provenant.Graph.Outcome
import Provenant.Graph.CompositeExcerpt
import Provenant.Graph.Fallback
import Provenant.Graph.SharedWorktrees
import Provenant.Run.StartSpacing
import Provenant.Supervisor.Turns
import Provenant.Workflow.Permission
import Provenant.Workflow.ChairLog
import Provenant.Fabric.WorkClaims
import Provenant.Fabric.LandingPush
import Provenant.Fabric.HookPages
import Provenant.Os.Capture
