import KaggleRelay.Prog
import KaggleRelay.JsonText
import KaggleRelay.Dict
import KaggleRelay.Errors
import KaggleRelay.VerificationState
import KaggleRelay.FileVerification
import KaggleRelay.ResumableVerification
import KaggleRelay.Binary64
import KaggleRelay.Tiling
import KaggleRelay.Archive
import KaggleRelay.JobRow
import KaggleRelay.ChunkUpload
import KaggleRelay.ChunkUploadSound
import KaggleRelay.Protocol
import KaggleRelay.RelayOps
import KaggleRelay.DatasetWait
import KaggleRelay.DatasetAdapter
import KaggleRelay.KernelMetadata
import KaggleRelay.Worker
import KaggleRelay.Service
import KaggleRelay.Machine
import KaggleRelay.Lifecycle
import KaggleRelay.LifecycleSound
import KaggleRelay.Conduct
import KaggleRelay.WorkerConduct
import KaggleRelay.ServiceConduct
import KaggleRelay.JobView
import KaggleRelay.Refinement
import KaggleRelay.Simulation
import KaggleRelay.Runs
import KaggleRelay.Scheduling
import KaggleRelay.Cancellation
import KaggleRelay.Announcement
import KaggleRelay.BatchProgress
import KaggleRelay.LoginLimiter
import KaggleRelay.Pacing
import KaggleRelay.WaitDiscipline
import KaggleRelay.Retention
import KaggleRelay.Regex
import KaggleRelay.Redaction
import KaggleRelay.StopReason
import KaggleRelay.StopEvidence
import KaggleRelay.StopVocabulary
import KaggleRelay.StopDetails
import KaggleRelay.StopRuns
import KaggleRelay.SubmissionLock
import KaggleRelay.DatasetSources
import KaggleRelay.RegexLanguage
import KaggleRelay.Masking
import KaggleRelay.RedactionSound
import KaggleRelay.Packaging
import KaggleRelay.PythonValues
import KaggleRelay.P6Result
import KaggleRelay.P6Accepted
import KaggleRelay.P6Package
import KaggleRelay.ZipExtract
import KaggleRelay.CnnOnnx
import KaggleRelay.CnnBound
import KaggleRelay.SyntaxTree
import KaggleRelay.PythonAst
import KaggleRelay.InventoryListing
import KaggleRelay.GpuPolicy
import KaggleRelay.GpuPolicySound
import KaggleRelay.GpuNotebook
import KaggleRelay.DinoTransport
import KaggleRelay.DinoGuards
import KaggleRelay.DinoThreshold
import KaggleRelay.DinoThresholdRetry
import KaggleRelay.DinoThresholdSettled
import KaggleRelay.StartupProgress
import KaggleRelay.RestartAssembly
import KaggleRelay.AuthStore
import KaggleRelay.JobCreation
import KaggleRelay.JobVisibility
import KaggleRelay.UiSession
import KaggleRelay.AuthConfig
import KaggleRelay.OwnerDeletion
import KaggleRelay.Reservation
import KaggleRelay.Footprint
import KaggleRelay.UploadOnce
import KaggleRelay.Recording
import KaggleRelay.PinnedVersion
import KaggleRelay.PayloadContract
import KaggleRelay.PayloadArchive
import KaggleRelay.Outcome
import KaggleRelay.PayloadAgreement
import KaggleRelay.Occupancy
import KaggleRelay.Monitoring
