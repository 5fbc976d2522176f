import AccessControl.Application.Roles
import AccessControl.Application.Rulebook
import AccessControl.Audit
import AccessControl.CommandLine.Execution
import AccessControl.CommandLine.Grammar
import AccessControl.CommandLine.Inquiry
import AccessControl.CommandLine.Reading
import AccessControl.CommandLine.Usage
import AccessControl.Decimal.Binary
import AccessControl.Decimal.Read
import AccessControl.Decimal.Render
import AccessControl.Decimal.Shortest
import AccessControl.Decision
import AccessControl.Definition
import AccessControl.Directory.Basic
import AccessControl.Directory.Call
import AccessControl.Directory.Fault
import AccessControl.Directory.Seed
import AccessControl.Directory.User
import AccessControl.Fault
import AccessControl.Http.Admission
import AccessControl.Http.Body
import AccessControl.Http.Caller
import AccessControl.Http.Concurrent
import AccessControl.Http.Failure
import AccessControl.Http.Handler
import AccessControl.Http.Message
import AccessControl.Http.Presentation
import AccessControl.Http.RegistryRoutes
import AccessControl.Http.Routing
import AccessControl.Http.Server
import AccessControl.Http.Url
import AccessControl.Http.UserBody
import AccessControl.Http.UserRoutes
import AccessControl.Interpretation
import AccessControl.Issue
import AccessControl.Json.Printer
import AccessControl.Json.Reader
import AccessControl.Main
import AccessControl.Options.Feature
import AccessControl.Options.Field
import AccessControl.Options.Root
import AccessControl.Proofs.Application.Authority
import AccessControl.Proofs.Application.Engine
import AccessControl.Proofs.CommandLine.DryRun
import AccessControl.Proofs.Decision.Agreement
import AccessControl.Proofs.Decision.Answers
import AccessControl.Proofs.Decision.Errors
import AccessControl.Proofs.Decision.Events
import AccessControl.Proofs.Decision.Faithfulness
import AccessControl.Proofs.Decision.FirstDecisive
import AccessControl.Proofs.Decision.Gate
import AccessControl.Proofs.Decision.Grants
import AccessControl.Proofs.Decision.Isolation
import AccessControl.Proofs.Decision.Record
import AccessControl.Proofs.Decision.Relevance
import AccessControl.Proofs.Decision.Screening
import AccessControl.Proofs.Decision.Spelling
import AccessControl.Proofs.Decision.Transparency
import AccessControl.Proofs.Decision.Wording
import AccessControl.Proofs.Directory.Account
import AccessControl.Proofs.Directory.FailedChange
import AccessControl.Proofs.Directory.InsertionOrder
import AccessControl.Proofs.Directory.SeedFile
import AccessControl.Proofs.Directory.SeedRank
import AccessControl.Proofs.Http.Access
import AccessControl.Proofs.Http.AccessSummary
import AccessControl.Proofs.Http.Assignments
import AccessControl.Proofs.Http.Atomicity
import AccessControl.Proofs.Http.AuditTrail
import AccessControl.Proofs.Http.Authentication
import AccessControl.Proofs.Http.Denials
import AccessControl.Proofs.Http.Endings
import AccessControl.Proofs.Http.FullList
import AccessControl.Proofs.Http.Hierarchy
import AccessControl.Proofs.Http.Introspection
import AccessControl.Proofs.Http.Listing
import AccessControl.Proofs.Http.Presentation
import AccessControl.Proofs.Http.Privilege
import AccessControl.Proofs.Http.Probing
import AccessControl.Proofs.Http.Quiet
import AccessControl.Proofs.Http.Reload
import AccessControl.Proofs.Http.RoundTrip
import AccessControl.Proofs.Http.Routes
import AccessControl.Proofs.Http.Serialisability
import AccessControl.Proofs.Http.Serving
import AccessControl.Proofs.Http.Transition
import AccessControl.Proofs.Json.Document
import AccessControl.Proofs.Json.RoundTrip
import AccessControl.Proofs.Json.Scalars
import AccessControl.Proofs.Outcome
import AccessControl.Proofs.Registry.Acceptance
import AccessControl.Proofs.Registry.Coherence
import AccessControl.Proofs.Registry.CommandSpelling
import AccessControl.Proofs.Registry.Consistency
import AccessControl.Proofs.Registry.Declaration
import AccessControl.Proofs.Registry.FeatureOrder
import AccessControl.Proofs.Registry.FeaturePrefix
import AccessControl.Proofs.Registry.Growth
import AccessControl.Proofs.Registry.InPlace
import AccessControl.Proofs.Registry.Index
import AccessControl.Proofs.Registry.Permanence
import AccessControl.Proofs.Registry.References
import AccessControl.Proofs.Registry.RoleIndex
import AccessControl.Proofs.Registry.RootOptions
import AccessControl.Proofs.Registry.Spelling
import AccessControl.Proofs.Registry.Startup
import AccessControl.Proofs.Registry.TextNames
import AccessControl.Proofs.Text.Utf8
import AccessControl.Proofs.Value.Names
import AccessControl.Proofs.Value.Order
import AccessControl.Proofs.Value.Spelling
import AccessControl.Registry.Basic
import AccessControl.Registry.Boot
import AccessControl.Registry.Validation
import AccessControl.RoleReport
import AccessControl.Run
import AccessControl.Scope
import AccessControl.Settings.Basic
import AccessControl.Settings.Dotenv
import AccessControl.Text.Blank
import AccessControl.Text.Case
import AccessControl.Text.Digit
import AccessControl.Text.Encoding
import AccessControl.Text.Lines
import AccessControl.Text.Printable
import AccessControl.Text.Quoted
import AccessControl.Text.Utf8
import AccessControl.Value.Basic
import AccessControl.Value.Equality
import AccessControl.Value.Flatten
import AccessControl.Value.Text
