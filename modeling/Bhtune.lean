import Bhtune.Core.LoopConfig
import Bhtune.Core.Constants
import Bhtune.Core.Template
import Bhtune.Core.Mrft
import Bhtune.Core.TuningMath
import Bhtune.Core.RelayRun
import Bhtune.Core.Completion
import Bhtune.Library.StepMachine
import Bhtune.Library.MachineInt
import Bhtune.Library.ExtendedNumber
import Bhtune.Core.RelayWrites
import Bhtune.Core.CounterWidth
import Bhtune.Core.Equivariance
import Bhtune.Core.ExtremaGap
import Bhtune.Library.Effect
import Bhtune.Library.EventLog
import Bhtune.Runtime.Types
import Bhtune.Runtime.World
import Bhtune.Runtime.Quality
import Bhtune.Runtime.Actuation
import Bhtune.Runtime.Poll
import Bhtune.Runtime.Restore
import Bhtune.Core.PidTarget
import Bhtune.Runtime.Writeback
import Bhtune.Runtime.Prepare
import Bhtune.Runtime.Verification
import Bhtune.Runtime.RelayDiscipline
import Bhtune.Runtime.RestoreSteps
import Bhtune.Runtime.AutoRelease
import Bhtune.Runtime.RestoreOnExit
import Bhtune.Runtime.PollTimeout
import Bhtune.Runtime.InterruptDiscipline
import Bhtune.Runtime.PidWrites
import Bhtune.Runtime.PidRollback
import Bhtune.Library.Table
import Bhtune.Library.Transaction
import Bhtune.Db.LiveOwnership
import Bhtune.Db.OwnershipSteps
import Bhtune.Db.TuneRuns
import Bhtune.Db.OwnershipInvariant
import Bhtune.Db.LiveSystem
import Bhtune.Db.Deletion
import Bhtune.Library.Json
import Bhtune.Runtime.Recovery
import Bhtune.Runtime.RecoveryRetry
import Bhtune.Runtime.SweepAnswers
import Bhtune.Runtime.RestoreIntent
import Bhtune.Runtime.RelayStepCheck
import Bhtune.Runtime.RelaySteps
import Bhtune.Core.InactiveTerms
import Bhtune.Runtime.TerminalOutcome
import Bhtune.Runtime.WriteGating
import Bhtune.Runtime.ModeWrites
import Bhtune.Runtime.Preflight
import Bhtune.Runtime.PreflightAgreement
import Bhtune.Library.ActionRun
import Bhtune.Server.ActiveRun
import Bhtune.Runtime.Revert
import Bhtune.Runtime.WriteAuthority
import Bhtune.Db.OwnershipAnswers
import Bhtune.Server.OwnedOperation
import Bhtune.Runtime.CrashEvidence
import Bhtune.Core.ExtremaWindows
import Bhtune.Library.Marks
import Bhtune.Core.NoiseProtection
import Bhtune.Core.PvOrientation
import Bhtune.Library.DecimalGrid
import Bhtune.Library.DecimalText
import Bhtune.Core.PidRounding
import Bhtune.Runtime.ExternalFaults
import Bhtune.Runtime.VerificationSchedule
import Bhtune.Runtime.VerificationRuns
import Bhtune.Library.LogCursor
import Bhtune.Server.RunStream
import Bhtune.Server.StreamOrder
import Bhtune.Runtime.DriverWaits
import Bhtune.Runtime.DriverCalls
import Bhtune.Server.OriginCheck
import Bhtune.Runtime.HistoryReplay
import Bhtune.Library.SlidingWindow
import Bhtune.Server.StartQuota
import Bhtune.Library.LatestEntry
import Bhtune.Runtime.RevertTarget
import Bhtune.Runtime.ActuationRuns
import Bhtune.Runtime.MvActuations
import Bhtune.Runtime.ActuationSequence
import Bhtune.Runtime.AuditedDriver
import Bhtune.Runtime.UnmovedValve
import Bhtune.Runtime.SampleCausality
import Bhtune.Server.VisitorPermits
import Bhtune.Driver.FopdtProcess
import Bhtune.Runtime.TagBuilding
import Bhtune.Server.ClientQuota
import Bhtune.Library.CrashFiles
import Bhtune.Runtime.ConfigStore
import Bhtune.Runtime.ConfigSave
import Bhtune.Runtime.ConfigPatch
import Bhtune.Server.ConfigPage
import Bhtune.Library.SharedPrograms
import Bhtune.Library.SinglePrecision
import Bhtune.Core.RelaySides
import Bhtune.Library.RankedRows
import Bhtune.Db.DemoSessions
import Bhtune.Server.DemoRoutes
import Bhtune.Server.VisitorIsolation
import Bhtune.Server.VisitorHistory
