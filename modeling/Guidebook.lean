import Guidebook.Batch.Plan
import Guidebook.Batch.Run
import Guidebook.Candidates
import Guidebook.Command.Arguments
import Guidebook.Command.Run
import Guidebook.Config
import Guidebook.Directive.Basic
import Guidebook.Directive.Lexeme
import Guidebook.EntryPoint
import Guidebook.Event
import Guidebook.Failure
import Guidebook.FileTree.Basic
import Guidebook.FileTree.FileSystem
import Guidebook.FrontMatter
import Guidebook.Glob.Basic
import Guidebook.Glob.Basis
import Guidebook.Glob.Expression
import Guidebook.Glob.Match
import Guidebook.Glob.Parser
import Guidebook.Guide.Basic
import Guidebook.Guide.Braces
import Guidebook.Guide.Fault
import Guidebook.Guide.Publication
import Guidebook.Guide.Reader
import Guidebook.GuideFile
import Guidebook.Literal
import Guidebook.Main
import Guidebook.Path.Basic
import Guidebook.Settings
import Guidebook.Table
import Guidebook.Text.Alphanumeric
import Guidebook.Text.Basic
import Guidebook.Text.ControlSequence
import Guidebook.Text.Line
import Guidebook.Text.UpperCase
import Guidebook.Toml.Document
import Guidebook.Toml.Node
import Guidebook.Toml.Quoted
import Guidebook.Toml.Scalar
import Guidebook.Proofs.Guide.Grammar
import Guidebook.Proofs.Guide.Reading
import Guidebook.Proofs.Guide.Composition
import Guidebook.Proofs.Guide.Decoration
import Guidebook.Proofs.Guide.FrontMatter
import Guidebook.Proofs.Directive.Quoting
import Guidebook.Proofs.Text.Lines
import Guidebook.Proofs.Guide.Printing
import Guidebook.Proofs.Path.Components
import Guidebook.Proofs.Path.Resolution
import Guidebook.Proofs.FileTree.Writing
import Guidebook.Proofs.FileTree.Following
import Guidebook.Proofs.Batch.Programs
import Guidebook.Proofs.Batch.Links
import Guidebook.Proofs.FileTree.Change
import Guidebook.Proofs.Batch.Continuation
import Guidebook.Proofs.Batch.Decision
import Guidebook.Proofs.Batch.Isolation
import Guidebook.Proofs.Batch.Account
import Guidebook.Proofs.Batch.Chronicle
import Guidebook.Proofs.Batch.Regeneration
import Guidebook.Proofs.FileTree.Between
import Guidebook.Proofs.Batch.Elsewhere
import Guidebook.Proofs.Batch.Reordering
import Guidebook.Proofs.Path.Descending
import Guidebook.Proofs.Path.Ordering
import Guidebook.Proofs.Scan.Findings
import Guidebook.Proofs.Batch.Confinement
import Guidebook.Proofs.Batch.Collisions
import Guidebook.Proofs.FileTree.Agreement
import Guidebook.Proofs.Scan.Agreement
import Guidebook.Proofs.Scan.Completeness
import Guidebook.Proofs.Batch.Leftovers
import Guidebook.Proofs.EntryPoint.Packages
import Guidebook.Proofs.Batch.Provenance
import Guidebook.Proofs.Batch.Sources
import Guidebook.Proofs.Batch.Yield
import Guidebook.Proofs.EntryPoint.Identity
import Guidebook.Proofs.EntryPoint.Exported
import Guidebook.Proofs.EntryPoint.Listing
import Guidebook.Proofs.FileTree.Relocation
import Guidebook.Proofs.Scan.Relocation
import Guidebook.Proofs.Batch.Relocation
import Guidebook.Proofs.Batch.Project
import Guidebook.Proofs.Path.Relocation
import Guidebook.Proofs.FileTree.Subtree
import Guidebook.Proofs.Directive.Grammar
import Guidebook.Proofs.Guide.BraceCount
import Guidebook.Proofs.Guide.CodeExtent
import Guidebook.Proofs.ItemByItem
import Guidebook.Proofs.Scan.Exactness
import Guidebook.Proofs.Scan.Inside
import Guidebook.Proofs.Text.Dedenting
import Guidebook.Proofs.Guide.CodeRouting
import Guidebook.Proofs.Guide.LineNumbers
import Guidebook.Proofs.Guide.Insertion
import Guidebook.Proofs.Guide.BehindComments
import Guidebook.Proofs.Guide.Reindentation
import Guidebook.Proofs.Guide.LexicalRules
import Guidebook.Proofs.Guide.PlainCode
import Guidebook.Proofs.Guide.Markers
import Guidebook.Proofs.Guide.AddedDirective
import Guidebook.Proofs.Guide.Fences
import Guidebook.Proofs.EntryPoint.Labels
import Guidebook.Proofs.Directive.Literals
import Guidebook.Proofs.Text.LineEnds
import Guidebook.Proofs.Guide.UnifiedLineEnds
import Guidebook.Proofs.Guide.NamedLines
import Guidebook.Proofs.Text.ExactDedenting
import Guidebook.Proofs.Guide.PreambleOrder
import Guidebook.Proofs.Text.Margins
import Guidebook.Proofs.Guide.Trailers
import Guidebook.Proofs.FileTree.Contents
import Guidebook.Proofs.Batch.Contents
import Guidebook.Proofs.Command.Overrides
import Guidebook.Proofs.Path.Spelling
import Guidebook.Proofs.GuideFile
