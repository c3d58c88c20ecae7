import FacetQuery.Batch.Pool
import FacetQuery.Main
import FacetQuery.Selection.Grammar
import FacetQuery.Proofs.Selection.Forms
import FacetQuery.Proofs.Selection.Grammar
import FacetQuery.Proofs.Query.Meaning
import FacetQuery.Proofs.FileStore.Tree
import FacetQuery.Proofs.Batch.Alone
import FacetQuery.Proofs.Batch.Course
import FacetQuery.Proofs.Batch.Invariant
import FacetQuery.Proofs.Batch.Progress
import FacetQuery.Proofs.Batch.Schedule
import FacetQuery.Proofs.Batch.Inputs
import FacetQuery.Proofs.Batch.Outputs
import FacetQuery.Proofs.Conversion.Lifecycle
import FacetQuery.Proofs.Json.RoundTrip
import FacetQuery.Proofs.Query.Layout
import FacetQuery.Proofs.Conversion.Ends
import FacetQuery.Proofs.Query.Shape
import FacetQuery.Proofs.Query.Artifact
import FacetQuery.Proofs.Batch.Record
import FacetQuery.Proofs.Batch.Claims
import FacetQuery.Proofs.Output.Persistence
import FacetQuery.Proofs.CommandLine.Accounts
import FacetQuery.Proofs.Selection.Position
import FacetQuery.Proofs.Settings.Layering
import FacetQuery.Proofs.Selection.Breaks
import FacetQuery.Proofs.Query.Leftovers
import FacetQuery.Proofs.Conversion.Reuse
import FacetQuery.Proofs.Query.Renaming
import FacetQuery.Proofs.Batch.Sinks
import FacetQuery.Proofs.Query.Repeats
import FacetQuery.Proofs.Path.Outputs
import FacetQuery.Proofs.Settings.Extensions
import FacetQuery.Proofs.Query.Notices
import FacetQuery.Proofs.Settings.Names
import FacetQuery.Proofs.CommandLine.Workers
