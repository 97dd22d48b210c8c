import CodexMarathon.Store.Registry
import CodexMarathon.Store.Binding
import CodexMarathon.Store.Collector
import CodexMarathon.Store.Listing
import CodexMarathon.Store.Legacy
import CodexMarathon.Policy.Evaluate
import CodexMarathon.Policy.AutoReset
import CodexMarathon.Policy.Transitions
import CodexMarathon.Expiry.Frame
import CodexMarathon.Jobs.Scheduler
import CodexMarathon.Jobs.Paging
import CodexMarathon.Auth.Revisions
import CodexMarathon.Auth.Race
import CodexMarathon.Service.Interleaving
import CodexMarathon.Adapter.Native
import CodexMarathon.Adapter.Delivery
import CodexMarathon.Adapter.Boundary
import CodexMarathon.Adapter.Wire
import CodexMarathon.Adapter.Emission
import CodexMarathon.Tui.Release
import CodexMarathon.Tui.Completion
import CodexMarathon.Tui.Wizard
import CodexMarathon.Executor.Replay
import CodexMarathon.Executor.Publication
import CodexMarathon.Transfer.Replace
import CodexMarathon.Transfer.Again
import CodexMarathon.Transfer.Output
import CodexMarathon.Service.Rotation
import CodexMarathon.Service.Tasks
import CodexMarathon.Service.Attribution
import CodexMarathon.Service.Effects
import CodexMarathon.Service.Status
import CodexMarathon.Bridge.Handoff
import CodexMarathon.Bridge.Calls
import CodexMarathon.Bridge.Observations
import CodexMarathon.Accountd.Call
