import Mirage.EventRun
import Mirage.RowLocks
import Mirage.JsonSchema
import Mirage.KeyedTable
import Mirage.AgentDatabase
import Mirage.AgentQueue
import Mirage.EventEnvelope
import Mirage.TelemetryIngestion
import Mirage.DirectOvertaking
import Mirage.RoutineDelivery
import Mirage.AgentEnrollment
import Mirage.AuditOutbox
import Mirage.CaseStateMachine
import Mirage.CommandSerialisation
import Mirage.EnrollmentRoles
import Mirage.ReconnectSafety
import Mirage.CaseIsolation
import Mirage.SnapshotOrigin
import Mirage.VersionLedger
import Mirage.CanonicalJson
import Mirage.RelayOrder
import Mirage.DeadLetters
import Mirage.UniqueIndex
import Mirage.DetectionCorrelation
import Mirage.ControllerRollback
import Mirage.ControllerConfinement
import Mirage.PythonText
import Mirage.RawJson
import Mirage.ContractEnvelope
import Mirage.CanonicalInjective
import Mirage.ContractTotality
import Mirage.ContractDialects
import Mirage.DashboardRecords
import Mirage.DashboardProjection
import Mirage.DashboardRun
import Mirage.DashboardGaps
import Mirage.DashboardRebuild
import Mirage.EvidenceAcquisition
import Mirage.EvidenceLedger
import Mirage.KeyedSort
import Mirage.RawValues
import Mirage.JsonLoads
import Mirage.SignedPackage
import Mirage.EvidenceExport
import Mirage.ExportSoundness
import Mirage.ReportPackage
import Mirage.ReleasePackage
import Mirage.AcceptancePackage
import Mirage.ExportEligibility
import Mirage.ExportGeneration
import Mirage.ReportRun
import Mirage.ReportDescription
import Mirage.ReportRequests
import Mirage.ReportCompletion
import Mirage.ExportRequests
import Mirage.ExportQueue
import Mirage.ReportWorkers
import Mirage.ReportSelection
import Mirage.FinaliseCase
import Mirage.Teardown
import Mirage.TeardownOrder
import Mirage.TeardownOverride
import Mirage.TeardownJournal
import Mirage.AnalystDirectives
import Mirage.DirectiveLifecycle
import Mirage.AnalystMessages
import Mirage.KeyedRequests
import Mirage.AnalystRequests
import Mirage.ConcludedMessages
import Mirage.MessageDelivery
import Mirage.MessageLifecycle
import Mirage.OrderedJson
import Mirage.ManifestOrder
import Mirage.ExportRoundTrip
import Mirage.ReportBinding
import Mirage.ReleaseSoundness
import Mirage.LoadsReadable
import Mirage.AcceptanceSoundness
import Mirage.PackageSeparation
import Mirage.TrustAnchor
import Mirage.AiProposals
import Mirage.AiOrchestrator
import Mirage.AiConcurrency
import Mirage.IpAddress
import Mirage.Canary
import Mirage.CanaryIngestion
import Mirage.ArtifactRevocation
import Mirage.ArtifactScanner
import Mirage.AsciiJson
import Mirage.CanaryCollector
import Mirage.CanaryConcurrency
import Mirage.CanarySequences
import Mirage.CanaryTokens
import Mirage.CanaryLoss
import Mirage.ReportDownload
import Mirage.AcceptanceRepeat
import Mirage.DashboardStream
import Mirage.RealtimeClient
import Mirage.Routing
import Mirage.RouteAdmission
import Mirage.CaseListing
import Mirage.ServerInstaller
import Mirage.ReleaseAnchors
import Mirage.ManifestSeparation
import Mirage.BreakerGauge
import Mirage.RateLimiter
import Mirage.ExportRows
import Mirage.ExportChronology
import Mirage.ExportItems
import Mirage.ProposalContent
import Mirage.SseFraming
import Mirage.EvidenceVerification
import Mirage.SnapshotTrimming
import Mirage.ReportRedaction
import Mirage.ArchiveExpansion
import Mirage.RollbackOnce
import Mirage.ResetHistory
import Mirage.FailedActions
import Mirage.FaultRecovery
import Mirage.GraphSampling
import Mirage.ReportContent
import Mirage.ReportOrder
import Mirage.ReportClassification
import Mirage.GraphConnectivity
import Mirage.ArchiveConfinement
import Mirage.EventSubjects
import Mirage.EvidenceKeys
import Mirage.QueueLedger
import Mirage.Timestamps
import Mirage.DisplaySafety
import Mirage.GlobPatterns
import Mirage.BehaviourProfile
import Mirage.CaseHistory
import Mirage.DisplayedMessages
