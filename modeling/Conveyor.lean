import Conveyor.Cluster.Basic
import Conveyor.Cluster.Observed
import Conveyor.Cluster.Store
import Conveyor.CommandLine.Flag
import Conveyor.CommandLine.Help
import Conveyor.CommandLine.Invocation
import Conveyor.CommandLine.UsageError
import Conveyor.Definition.Documents
import Conveyor.Definition.Schema
import Conveyor.Deletion
import Conveyor.Dict
import Conveyor.Environment
import Conveyor.Error
import Conveyor.Finalizers
import Conveyor.Http.Api
import Conveyor.Http.Client
import Conveyor.Http.Message
import Conveyor.Http.Recorder
import Conveyor.Http.Scripted
import Conveyor.Json.Basic
import Conveyor.Json.Decode
import Conveyor.Json.Patch
import Conveyor.Json.Printer
import Conveyor.Json.Reader
import Conveyor.Json.Real
import Conveyor.Logging.Filter
import Conveyor.Logging.Line
import Conveyor.Logging.Severity
import Conveyor.Notice
import Conveyor.Ordering
import Conveyor.Platform
import Conveyor.Program
import Conveyor.Provision.Access
import Conveyor.Provision.Gates
import Conveyor.Provision.Job
import Conveyor.Provision.Promotion
import Conveyor.Provision.Steps
import Conveyor.Provision.Target
import Conveyor.Reconcile
import Conveyor.Resource.Access
import Conveyor.Resource.Basic
import Conveyor.Resource.Component
import Conveyor.Resource.ImageStream
import Conveyor.Resource.Kind
import Conveyor.Resource.Metadata
import Conveyor.Resource.Pipeline
import Conveyor.Resource.ReleaseJob
import Conveyor.Resource.Stage
import Conveyor.Resource.Untyped
import Conveyor.Retirement
import Conveyor.Session.Basic
import Conveyor.Session.Request
import Conveyor.Text.Alphanumeric
import Conveyor.Text.Blank
import Conveyor.Text.Bytes
import Conveyor.Text.CaseTables
import Conveyor.Text.Hex
import Conveyor.Text.Lowercase
import Conveyor.Text.Pattern
import Conveyor.Text.Pattern.Class
import Conveyor.Text.Pattern.Item
import Conveyor.Text.Quoted
import Conveyor.Text.Ranges
import Conveyor.Text.Separated
import Conveyor.Text.Similarity
import Conveyor.Text.Styled
import Conveyor.Text.Terminal
import Conveyor.Text.Unprintable
import Conveyor.Time.Basic
import Conveyor.Time.Text
import Conveyor.Yaml
import Conveyor.Main
import Conveyor.Proofs.Faults
import Conveyor.Proofs.Reachable
import Conveyor.Proofs.Footprint
import Conveyor.Proofs.Deletion
import Conveyor.Proofs.Scenario
import Conveyor.Proofs.DeletionOrder
import Conveyor.Proofs.History
import Conveyor.Proofs.Retirement
import Conveyor.Proofs.Cleanup
import Conveyor.Proofs.Records
import Conveyor.Proofs.Instants
import Conveyor.Proofs.Statuses
import Conveyor.Proofs.Contents
import Conveyor.Proofs.Aim
import Conveyor.Proofs.Course
import Conveyor.Proofs.Provisioning
import Conveyor.Proofs.Publishing
import Conveyor.Proofs.Reconciling
import Conveyor.Proofs.Retries
import Conveyor.Proofs.Exchanges
import Conveyor.Proofs.FixedPoint
import Conveyor.Proofs.Supplies
import Conveyor.Proofs.Completion
import Conveyor.Proofs.Rounds
import Conveyor.Proofs.Teardown
import Conveyor.Proofs.Targets
import Conveyor.Proofs.Streams
import Conveyor.Proofs.Convergence
import Conveyor.Proofs.Strictness
import Conveyor.Proofs.Delivery
import Conveyor.Proofs.Predecessors
import Conveyor.Proofs.Gate
import Conveyor.Proofs.SteadyState
import Conveyor.Proofs.Tenancy
import Conveyor.Proofs.Versions
import Conveyor.Proofs.WrittenForms
import Conveyor.Proofs.Snapshots
import Conveyor.Proofs.Ownership
import Conveyor.Proofs.Changes
import Conveyor.Proofs.Frame
import Conveyor.Proofs.Transparency
import Conveyor.Proofs.Reports
import Conveyor.Proofs.Twins
import Conveyor.Proofs.Lockstep
import Conveyor.Proofs.Isolation
import Conveyor.Proofs.RoundTrips
import Conveyor.Proofs.Patches
import Conveyor.Proofs.Rendering
import Conveyor.Proofs.QualityGates
import Conveyor.Proofs.JobParameters
import Conveyor.Proofs.StaleCopies
import Conveyor.Proofs.Passes
import Conveyor.Proofs.Recording
import Conveyor.Proofs.Publication
import Conveyor.Proofs.Grants
import Conveyor.Proofs.Causes
import Conveyor.Proofs.Siblings
import Conveyor.Proofs.MergePatch
