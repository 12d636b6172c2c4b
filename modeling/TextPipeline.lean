import TextPipeline.CommandLine.Program
import TextPipeline.Main
import TextPipeline.Pipeline.FreshId
import TextPipeline.Session
import TextPipeline.Proofs.Pipeline.CycleSearch
import TextPipeline.Proofs.Pipeline.PlainSearch
import TextPipeline.Proofs.Pipeline.Validity
import TextPipeline.Proofs.Pipeline.Loading
import TextPipeline.Proofs.Editing
import TextPipeline.Proofs.Decimal.ReadBack
import TextPipeline.Proofs.Decimal.Stepwise
import TextPipeline.Proofs.Json.Numerals
import TextPipeline.Proofs.Json.Strings
import TextPipeline.Proofs.Json.Spelling
import TextPipeline.Proofs.Json.Grammar
import TextPipeline.Proofs.Json.Tokens
import TextPipeline.Proofs.Json.Pass
import TextPipeline.Proofs.Json.ReadBack
import TextPipeline.Proofs.Json.Records
import TextPipeline.Proofs.Pipeline.NodeData
import TextPipeline.Proofs.Pipeline.NodeFields
import TextPipeline.Proofs.Json.Outcomes
import TextPipeline.Proofs.Pipeline.DocumentForms
import TextPipeline.Proofs.Pipeline.DocumentText
import TextPipeline.Proofs.Pipeline.Renaming
import TextPipeline.Proofs.Script.Literal
import TextPipeline.Proofs.Script.ExecutionOrder
import TextPipeline.Proofs.IdleCommands
import TextPipeline.Proofs.EdgeIds
import TextPipeline.Proofs.Pipeline.Inspection
import TextPipeline.Proofs.Pipeline.Connection
import TextPipeline.Proofs.Script.Compiler
import TextPipeline.Proofs.Script.VisitedNodes
import TextPipeline.Proofs.Script.FirstOccurrences
import TextPipeline.Proofs.Script.VisitingInTurn
import TextPipeline.Proofs.Script.BreadthFirst
import TextPipeline.Proofs.Script.RenamedGraphs
import TextPipeline.Proofs.Undoing
import TextPipeline.Proofs.Script.EditedGraphs
import TextPipeline.Proofs.Json.Meaning
import TextPipeline.Proofs.Text.Trimmed
import TextPipeline.Proofs.Execution
import TextPipeline.Proofs.CommandLine.Program
import TextPipeline.Proofs.Script.Setups
import TextPipeline.Proofs.Script.MappedKinds
import TextPipeline.Proofs.Script.Definitions
import TextPipeline.Proofs.Toml.Tables
import TextPipeline.Proofs.Settings.Layers
import TextPipeline.Proofs.Settings.Parts
import TextPipeline.Proofs.Settings.Load
import TextPipeline.Proofs.Submission
import TextPipeline.Proofs.Pipeline.SearchRuns
import TextPipeline.Proofs.Script.TourRuns
