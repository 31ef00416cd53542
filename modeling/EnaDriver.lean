import EnaDriver.Admin.CommandIds
import EnaDriver.Admin.Phases
import EnaDriver.Admin.RecoveryTrigger
import EnaDriver.Datapath.IdlePoll
import EnaDriver.Datapath.TransmitDrain
import EnaDriver.Datapath.TransmitOwner
import EnaDriver.Lifecycle.AddDevice
import EnaDriver.Lifecycle.AllocationFailure
import EnaDriver.Lifecycle.DestroyRuns
import EnaDriver.Lifecycle.QueueDepths
import EnaDriver.Lifecycle.RegisterWrites
import EnaDriver.Lifecycle.RingPointers
import EnaDriver.Lifecycle.Rollback
import EnaDriver.Netdev.BounceRace
import EnaDriver.Netdev.BuildsAgree
import EnaDriver.Netdev.FailedTransmit
import EnaDriver.Netdev.ReceiveBounds
import EnaDriver.Netdev.ReceiveDiagnostics
import EnaDriver.Netdev.SentBytes
import EnaDriver.Platform.Capabilities
import EnaDriver.Platform.Devices
