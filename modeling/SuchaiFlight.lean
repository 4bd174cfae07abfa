import SuchaiFlight.Library.ByteMemory
import SuchaiFlight.Library.CString
import SuchaiFlight.Library.SlotTable
import SuchaiFlight.Library.NonVolatile
import SuchaiFlight.Library.Runs
import SuchaiFlight.Library.BoundedQueue
import SuchaiFlight.Library.Decimal
import SuchaiFlight.Library.Blocks
import SuchaiFlight.Library.Scan
import SuchaiFlight.Library.ByteOrder
import SuchaiFlight.Library.RowTable
import SuchaiFlight.Library.Replication
import SuchaiFlight.Library.SignificantBits
import SuchaiFlight.Library.CountedLoops
import SuchaiFlight.Library.RowMajor
import SuchaiFlight.Library.KalmanGain
import SuchaiFlight.StorageApi
import SuchaiFlight.RepoData
import SuchaiFlight.StatusVariables
import SuchaiFlight.RamStorage
import SuchaiFlight.RepoFlightPlan
import SuchaiFlight.RamFlightPlan
import SuchaiFlight.FlightPlanCalls
import SuchaiFlight.RepoCommand
import SuchaiFlight.FlightPlanTask
import SuchaiFlight.FlightPlanDrain
import SuchaiFlight.FlightPlanInterleaving
import SuchaiFlight.FlightPlanCommands
import SuchaiFlight.Telecommands
import SuchaiFlight.FlashStorage
import SuchaiFlight.FlashOperations
import SuchaiFlight.FlashSections
import SuchaiFlight.FlashFaults
import SuchaiFlight.FlashTable
import SuchaiFlight.FreeSlotSentinel
import SuchaiFlight.FlashRebuild
import SuchaiFlight.FlashRestart
import SuchaiFlight.FlashPowerLoss
import SuchaiFlight.FlashPayload
import SuchaiFlight.FlashPayloadBounds
import SuchaiFlight.FlashPayloadCapacity
import SuchaiFlight.SqliteStorage
import SuchaiFlight.SqliteFlightPlan
import SuchaiFlight.SqliteScan
import SuchaiFlight.CommandPipeline
import SuchaiFlight.PipelineDeadlock
import SuchaiFlight.CommandCustody
import SuchaiFlight.CommandOwnership
import SuchaiFlight.FileFrames
import SuchaiFlight.FileReceiver
import SuchaiFlight.FileTransfer
import SuchaiFlight.FileLoss
import SuchaiFlight.FileParts
import SuchaiFlight.FileCollection
import SuchaiFlight.PayloadData
import SuchaiFlight.PayloadCalls
import SuchaiFlight.RamPayload
import SuchaiFlight.RamSamples
import SuchaiFlight.RamPayloadLists
import SuchaiFlight.RamPayloadBounds
import SuchaiFlight.SqlitePayload
import SuchaiFlight.SqliteSamples
import SuchaiFlight.PayloadBackEnds
import SuchaiFlight.TelemetryFrames
import SuchaiFlight.TelemetryTransfer
import SuchaiFlight.TelemetryFields
import SuchaiFlight.CommandRegistry
import SuchaiFlight.TripleWriting
import SuchaiFlight.FileEnd
import SuchaiFlight.PartRequests
import SuchaiFlight.StatusTelemetry
import SuchaiFlight.TelemetryBounds
import SuchaiFlight.PurgeScan
import SuchaiFlight.FlightPlanPurge
import SuchaiFlight.FlashPurgeFaults
import SuchaiFlight.WatchdogTask
import SuchaiFlight.AcknowledgedSamples
import SuchaiFlight.CommandParameters
import SuchaiFlight.FlightPlanTelemetry
import SuchaiFlight.MergeReport
import SuchaiFlight.SensorInterleaving
import SuchaiFlight.StatusCommands
import SuchaiFlight.TelemetryWindow
import SuchaiFlight.IntegerVariables
import SuchaiFlight.FlatMatrices
import SuchaiFlight.MatrixBlocks
import SuchaiFlight.Attitude
import SuchaiFlight.RotationRecovery
import SuchaiFlight.ErrorCovariance
import SuchaiFlight.MagnetometerUpdate
import SuchaiFlight.QueueWakeups
import SuchaiFlight.TaskTiming
import SuchaiFlight.CommunicationsTask
import SuchaiFlight.PartExchange
import SuchaiFlight.PlanBackEnds
import SuchaiFlight.MissionCounters
import SuchaiFlight.PayloadDownlink
import SuchaiFlight.AdcsTask
import SuchaiFlight.CommandList
import SuchaiFlight.Library.DelimitedText
import SuchaiFlight.PayloadDump
