import ManagedPrometheus.Amp
import ManagedPrometheus.AmpReply
import ManagedPrometheus.AmpRequest
import ManagedPrometheus.Backend
import ManagedPrometheus.Backoff
import ManagedPrometheus.Base64
import ManagedPrometheus.Blank
import ManagedPrometheus.CallerIdentity
import ManagedPrometheus.Decimal
import ManagedPrometheus.Definition
import ManagedPrometheus.Delta
import ManagedPrometheus.Duration
import ManagedPrometheus.Exposition
import ManagedPrometheus.Http
import ManagedPrometheus.Json
import ManagedPrometheus.JsonText
import ManagedPrometheus.Kind
import ManagedPrometheus.Main
import ManagedPrometheus.Manifest
import ManagedPrometheus.MergePatch
import ManagedPrometheus.Metrics
import ManagedPrometheus.Outcome
import ManagedPrometheus.Phase
import ManagedPrometheus.Plan
import ManagedPrometheus.Pointer
import ManagedPrometheus.Policy
import ManagedPrometheus.Probe
import ManagedPrometheus.Reconcile
import ManagedPrometheus.Resource
import ManagedPrometheus.Script
import ManagedPrometheus.Session
import ManagedPrometheus.Settings
import ManagedPrometheus.Simulation
import ManagedPrometheus.Snapshot
import ManagedPrometheus.Spec
import ManagedPrometheus.Status
import ManagedPrometheus.TagChange
import ManagedPrometheus.TextMap
import ManagedPrometheus.Timestamp
import ManagedPrometheus.Utf8
import ManagedPrometheus.Visit
import ManagedPrometheus.Xml
import ManagedPrometheus.Yaml
import ManagedPrometheus.Proofs.Course
import ManagedPrometheus.Proofs.Exits
import ManagedPrometheus.Proofs.CallDiscipline
import ManagedPrometheus.Proofs.Binding
import ManagedPrometheus.Proofs.StableBinding
import ManagedPrometheus.Proofs.WorkspaceBinding
import ManagedPrometheus.Proofs.RecordStore
import ManagedPrometheus.Proofs.Utf8RoundTrip
import ManagedPrometheus.Proofs.Differences
import ManagedPrometheus.Proofs.RecordPasses
import ManagedPrometheus.Proofs.Convergence
import ManagedPrometheus.Proofs.Decisions
import ManagedPrometheus.Proofs.UpdateTrace
import ManagedPrometheus.Proofs.Conditions
import ManagedPrometheus.Proofs.Signals
import ManagedPrometheus.Proofs.Descriptions
import ManagedPrometheus.Proofs.QuietPasses
import ManagedPrometheus.Proofs.LostAnswers
import ManagedPrometheus.Proofs.Cancellation
import ManagedPrometheus.Proofs.FailedValidation
import ManagedPrometheus.Proofs.SyncedPhase
import ManagedPrometheus.Proofs.DeclaredAddress
import ManagedPrometheus.Proofs.ServiceClient
import ManagedPrometheus.Proofs.Absence
import ManagedPrometheus.Proofs.ClientTokens
import ManagedPrometheus.Proofs.JsonRecords
import ManagedPrometheus.Proofs.ManifestRoundTrip
import ManagedPrometheus.Proofs.JsonTextRoundTrip
import ManagedPrometheus.Proofs.ManifestPersistence
import ManagedPrometheus.Proofs.StatusPatch
import ManagedPrometheus.Proofs.Cluster
import ManagedPrometheus.Proofs.Visits
import ManagedPrometheus.Proofs.Finalizers
import ManagedPrometheus.Proofs.FinalizerUpdates
import ManagedPrometheus.Proofs.AssignedIdentity
import ManagedPrometheus.Proofs.StoredStatus
import ManagedPrometheus.Proofs.FibonacciBackoff
import ManagedPrometheus.Proofs.Accounting
import ManagedPrometheus.Proofs.FreshestReports
import ManagedPrometheus.Proofs.UserFields
import ManagedPrometheus.Proofs.SnapshotContents
import ManagedPrometheus.Proofs.DifferencesServed
import ManagedPrometheus.Proofs.Utf8Reading
import ManagedPrometheus.Proofs.LeastTagChange
import ManagedPrometheus.Proofs.PayloadDrift
import ManagedPrometheus.Proofs.StartedChanges
import ManagedPrometheus.Proofs.TerminalMessages
import ManagedPrometheus.Proofs.ConditionSteps
import ManagedPrometheus.Proofs.TransitionTimes
import ManagedPrometheus.Proofs.BackoffCalls
import ManagedPrometheus.Proofs.LoadedSettings
import ManagedPrometheus.Proofs.CodeTexts
