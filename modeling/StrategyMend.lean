import StrategyMend.Text.Lines
import StrategyMend.Source.Branch
import StrategyMend.Json.Reader
import StrategyMend.Json.Writer
import StrategyMend.Python.Tree
import StrategyMend.Python.Identifier
import StrategyMend.Python.Lexeme
import StrategyMend.Python.Cursor
import StrategyMend.Python.Grammar.Reader
import StrategyMend.Python.Grammar.Expression
import StrategyMend.Python.Grammar.Statement
import StrategyMend.Python.Module
import StrategyMend.Python.SelfAttribute
import StrategyMend.Python.Definition
import StrategyMend.Python.Scope
import StrategyMend.Issue.Report
import StrategyMend.Config.Basic
import StrategyMend.Strategy.Inheritance
import StrategyMend.Source.Script
import StrategyMend.Source.Cache
import StrategyMend.Config.Json
import StrategyMend.Detection.Validator
import StrategyMend.Error
import StrategyMend.Source.Function
import StrategyMend.Text.Search
import StrategyMend.Repair.Fix
import StrategyMend.Repair.Patch
import StrategyMend.Repair.Json
import StrategyMend.Repair.Generator
import StrategyMend.Repair.Branches
import StrategyMend.Repair.Strategy
import StrategyMend.Execution.Outcome
import StrategyMend.Pipeline.Result
import StrategyMend.Pipeline.Batch
import StrategyMend.Pipeline.Basic
import StrategyMend.Pipeline.Listing
import StrategyMend.Execution.Process
import StrategyMend.Execution.Shell.Run
import StrategyMend.Toml.Document
import StrategyMend.Toml.Scalar
import StrategyMend.Toml.Reader
import StrategyMend.Config.Toml
import StrategyMend.Files.Path
import StrategyMend.Files.Tree
import StrategyMend.Files.Glob
import StrategyMend.Files.Ignore
import StrategyMend.Files.Discovery
import StrategyMend.Number.Reader
import StrategyMend.Command.Invocation
import StrategyMend.Command.Run
import StrategyMend.Main
import StrategyMend.Proofs.Number.Order
import StrategyMend.Proofs.Repair.Ranking
import StrategyMend.Proofs.Repair.Selection
import StrategyMend.Proofs.Repair.Edits
import StrategyMend.Proofs.Repair.Application
import StrategyMend.Proofs.Repair.BranchRepair
import StrategyMend.Proofs.Pipeline.Stages
import StrategyMend.Proofs.Pipeline.Ledger
import StrategyMend.Proofs.Pipeline.Reports
import StrategyMend.Proofs.Pipeline.Discard
import StrategyMend.Proofs.Source.Marks
import StrategyMend.Proofs.Source.Opener
import StrategyMend.Proofs.Source.Stray
import StrategyMend.Proofs.Source.Header
import StrategyMend.Proofs.Python.Position
import StrategyMend.Proofs.Python.Reading
import StrategyMend.Proofs.Source.Block
import StrategyMend.Proofs.Repair.Mending
import StrategyMend.Proofs.Source.Layout
import StrategyMend.Proofs.Python.Clauses
import StrategyMend.Proofs.Python.Beginnings
import StrategyMend.Proofs.Python.FieldAssignment
import StrategyMend.Proofs.Python.ScopeComposition
import StrategyMend.Proofs.Python.NameRows
import StrategyMend.Proofs.Python.StatementRows
import StrategyMend.Proofs.Python.DefinitionRows
import StrategyMend.Proofs.Python.JointLines
import StrategyMend.Proofs.Source.Attached
import StrategyMend.Proofs.Pipeline.SoundBranches
import StrategyMend.Proofs.Issue.Blocking
import StrategyMend.Proofs.Pipeline.Gate
import StrategyMend.Proofs.Pipeline.Batches
import StrategyMend.Proofs.Command.Agreement
import StrategyMend.Proofs.Text.Endings
import StrategyMend.Proofs.Repair.Rendering
import StrategyMend.Proofs.Repair.Threshold
import StrategyMend.Proofs.Source.Cache
import StrategyMend.Proofs.Strategy.Ancestors
import StrategyMend.Proofs.Strategy.SuperCalls
import StrategyMend.Proofs.Strategy.Collection
import StrategyMend.Proofs.Python.Enclosure
import StrategyMend.Proofs.Detection.Undefined
import StrategyMend.Proofs.Detection.Distinct
import StrategyMend.Proofs.Repair.Bounds
import StrategyMend.Proofs.Repair.Proposals
import StrategyMend.Proofs.Pipeline.Initializers
import StrategyMend.Proofs.Pipeline.InitialValue
import StrategyMend.Proofs.Text.Pieces
import StrategyMend.Proofs.Repair.Rearrangement
import StrategyMend.Proofs.Repair.SoleFix
import StrategyMend.Proofs.Repair.IdleElse
import StrategyMend.Proofs.Source.Nearest
import StrategyMend.Proofs.Source.Lexer
import StrategyMend.Proofs.Source.WholeText
import StrategyMend.Proofs.Source.Alike
import StrategyMend.Proofs.Source.Comments
import StrategyMend.Proofs.Source.Literals
import StrategyMend.Proofs.Source.BodyTop
import StrategyMend.Proofs.Source.Signature
import StrategyMend.Proofs.Repair.TopOfBody
import StrategyMend.Proofs.Source.Extent
import StrategyMend.Proofs.Source.Silenced
import StrategyMend.Proofs.Repair.Relocation
import StrategyMend.Proofs.Repair.Realignment
import StrategyMend.Proofs.Text.Joining
import StrategyMend.Proofs.Repair.Rereading
import StrategyMend.Proofs.Source.Nesting
import StrategyMend.Proofs.Source.InnermostFunction
import StrategyMend.Proofs.Source.BodyLines
import StrategyMend.Proofs.Repair.Guard
import StrategyMend.Proofs.Detection.History
import StrategyMend.Proofs.Files.Components
import StrategyMend.Proofs.Files.RepairedPath
import StrategyMend.Proofs.Files.Unseen
import StrategyMend.Proofs.Files.RepairedFiles
