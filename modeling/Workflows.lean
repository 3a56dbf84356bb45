import Workflows.Text.Blank
import Workflows.Text.Word
import Workflows.Text.Printable
import Workflows.Text.Lower
import Workflows.Text.Pieces
import Workflows.Number.Binary64
import Workflows.Number
import Workflows.Value
import Workflows.Value.Literal
import Workflows.Value.Flow
import Workflows.Value.Reader
import Workflows.Value.Printer
import Workflows.Shape.Decoded
import Workflows.Document
import Workflows.Walk
import Workflows.Walk.Walker
import Workflows.Expression
import Workflows.Expression.Format
import Workflows.NodeType
import Workflows.Visibility.Resolver
import Workflows.Profile
import Workflows.Rules
import Workflows.NodeConfig
import Workflows.Report.Reader
import Workflows.Validation
import Workflows.Edit
import Workflows.Catalog.Bundled
import Workflows.Catalog.Cache
import Workflows.Schema
import Workflows.Path
import Workflows.Files
import Workflows.Settings.File
import Workflows.Catalog.File
import Workflows.Display
import Workflows.Edit.Reader
import Workflows.Command
import Workflows.Main
import Workflows.Proofs.Entries
import Workflows.Proofs.NameSet
import Workflows.Proofs.Rewiring
import Workflows.Proofs.Tidy
import Workflows.Proofs.Unwiring
import Workflows.Proofs.Decoded
import Workflows.Proofs.TypeName
import Workflows.Proofs.Catalog.Coherence
import Workflows.Proofs.Document.RoundTrip
import Workflows.Proofs.Edit.Step
import Workflows.Proofs.Edit.Run
import Workflows.Proofs.Edit.WellFormed
import Workflows.Proofs.Edit.Addressable
import Workflows.Proofs.Edit.PassingNode
import Workflows.Proofs.Edit.ChangedLink
import Workflows.Proofs.Edit.Outputs
import Workflows.Proofs.Visibility.Script
import Workflows.Proofs.Visibility.QuestionOrder
import Workflows.Proofs.Edit.RenamedLinks
import Workflows.Proofs.Edit.Reread
import Workflows.Proofs.Edit.Answer
import Workflows.Proofs.Edit.Sequence
import Workflows.Proofs.Edit.Saved
import Workflows.Proofs.Profile.StyleCodes
import Workflows.Proofs.Profile.Monotone
import Workflows.Proofs.Profile.Policy
import Workflows.Proofs.Walk
import Workflows.Proofs.Visibility.Plain
import Workflows.Proofs.Visibility.Acyclic
import Workflows.Proofs.Validation.Reported
import Workflows.Proofs.Validation.Unread
import Workflows.Proofs.Graph.Walks
import Workflows.Proofs.Graph.Elementary
import Workflows.Proofs.Graph.DepthFirst
import Workflows.Proofs.Validation.MainGraph
import Workflows.Proofs.Validation.Rearranged
import Workflows.Proofs.Validation.CycleCodes
import Workflows.Proofs.Validation.CycleErrors
import Workflows.Proofs.Cleared
import Workflows.Proofs.Edit.Metadata
import Workflows.Proofs.Edit.Removal
import Workflows.Proofs.Edit.WireForm
import Workflows.Proofs.Assignment
import Workflows.Proofs.Document.Fields
import Workflows.Proofs.Edit.Settled
import Workflows.Proofs.Edit.Runs
import Workflows.Proofs.Edit.FirstRun
import Workflows.Proofs.Edit.SecondRun
import Workflows.Proofs.Edit.InOrder
import Workflows.Proofs.Edit.Spelling
import Workflows.Proofs.Edit.Commuting
import Workflows.Proofs.Edit.LinkEnds
import Workflows.Proofs.Edit.AddedLink
import Workflows.Proofs.Edit.Tags
import Workflows.Proofs.Number
import Workflows.Proofs.Graph.Chains
import Workflows.Proofs.Graph.Reaching
import Workflows.Proofs.Validation.Outline
import Workflows.Proofs.Validation.Accounting
import Workflows.Proofs.Validation.LongChains
import Workflows.Proofs.Validation.LoopWiring
import Workflows.Proofs.Validation.Codes
import Workflows.Proofs.Validation.NodeByNode
import Workflows.Proofs.Validation.Filed
import Workflows.Proofs.Validation.Counts
import Workflows.Proofs.Validation.Rewired
import Workflows.Proofs.Validation.Elsewhere
import Workflows.Proofs.Validation.EmptyEntries
import Workflows.Proofs.Validation.Skipped
import Workflows.Proofs.Validation.Essentials
import Workflows.Proofs.Validation.ShortNames
import Workflows.Proofs.Validation.Locators
import Workflows.Proofs.Validation.MalformedEntries
import Workflows.Proofs.Text.Pieces
import Workflows.Proofs.Expression.Template
import Workflows.Proofs.Expression.Accessor
import Workflows.Proofs.Expression.Origins
import Workflows.Proofs.Validation.Located
import Workflows.Proofs.Replacement
import Workflows.Proofs.Expression.Correction
import Workflows.Proofs.Expression.Mending
import Workflows.Proofs.Visibility.Frame
import Workflows.Proofs.NodeConfig.Required
import Workflows.Proofs.NodeConfig.Layouts
import Workflows.Proofs.NodeConfig.Findings
import Workflows.Proofs.NodeConfig.Proposals
import Workflows.Proofs.NodeConfig.Applied
import Workflows.Proofs.NodeConfig.Demands
import Workflows.Proofs.NodeConfig.Explicit
import Workflows.Proofs.Value.Content
import Workflows.Proofs.Catalog.Recency
import Workflows.Proofs.Catalog.Suggestions
import Workflows.Proofs.Validation.Suggested
import Workflows.Proofs.Rules.Comments
import Workflows.Proofs.Rules.Literals
import Workflows.Proofs.Visibility.Lasting
import Workflows.Proofs.Visibility.Absent
import Workflows.Proofs.Walk.Positions
import Workflows.Proofs.Walk.Exact
import Workflows.Proofs.Walk.Walker
import Workflows.Proofs.Walk.FieldPath
import Workflows.Proofs.Assignment.InPlace
import Workflows.Proofs.Visibility.Nesting
import Workflows.Proofs.Validation.TypeForms
import Workflows.Proofs.Validation.TypesRead
import Workflows.Proofs.Catalog.Transparency
