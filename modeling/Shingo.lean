import Shingo.Properties.BucketScopes
import Shingo.Properties.ReserveStability
import Shingo.Properties.DigDwell
import Shingo.Properties.LaneBlocker
import Shingo.Properties.Handover
import Shingo.Properties.Compound
import Shingo.Properties.Rebind
import Shingo.Properties.Admission
import Shingo.Properties.Scanner
import Shingo.Properties.HoldReplay
import Shingo.Properties.Counter
import Shingo.Properties.RuntimeBin
import Shingo.Properties.DemandSync
import Shingo.Properties.ThresholdMonitor
import Shingo.Properties.LoaderReplenish
import Shingo.Properties.ChangeoverRelease
import Shingo.Properties.Poller
import Shingo.Properties.OrderMirror
import Shingo.Properties.LateReport
import Shingo.Properties.EpisodeKey
import Shingo.Properties.DeltaLedger
import Shingo.Properties.Destinations
import Shingo.Properties.Drainer
import Shingo.Properties.SlotReserve
import Shingo.Properties.LaneSplice
import Shingo.Properties.PayloadAttribution
import Shingo.Properties.ReserveOutcome
import Shingo.Properties.LaneAcquire
import Shingo.Properties.BinSource
import Shingo.Properties.DropoffCapacity
import Shingo.Properties.StepReplay
import Shingo.Properties.NodeTree
import Shingo.Properties.Maintainer
import Shingo.Properties.TickCharge
import Shingo.Properties.LinesideCapture
import Shingo.Properties.DailyCounts
import Shingo.Properties.ChangeoverCutover
import Shingo.Properties.CountTx
import Shingo.Properties.OrderCancel
import Shingo.Properties.TextArray
import Shingo.Properties.Sourceability
import Shingo.Properties.RollUp
