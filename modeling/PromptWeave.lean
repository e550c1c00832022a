import PromptWeave.CommandLine.Arguments
import PromptWeave.CommandLine.Commands
import PromptWeave.CommandLine.Failure
import PromptWeave.CommandLine.Invocation
import PromptWeave.CommandLine.Processing
import PromptWeave.CommandLine.Request
import PromptWeave.Configuration
import PromptWeave.Decimal.Binary
import PromptWeave.Decimal.Double
import PromptWeave.Decimal.Shortest
import PromptWeave.Decimal.Text
import PromptWeave.Dictionary
import PromptWeave.Files.Disk
import PromptWeave.Files.FileTree
import PromptWeave.Json.Number
import PromptWeave.Json.Record
import PromptWeave.Json.Token
import PromptWeave.Json.Tree
import PromptWeave.Json.Value
import PromptWeave.Main
import PromptWeave.Pattern.Anchor
import PromptWeave.Pattern.AsciiClass
import PromptWeave.Pattern.Encoding
import PromptWeave.Pattern.Extent
import PromptWeave.Pattern.Meaning
import PromptWeave.Pattern.Node
import PromptWeave.Pattern.Normal
import PromptWeave.Pattern.Program
import PromptWeave.Pattern.Property.Age
import PromptWeave.Pattern.Property.Breaks
import PromptWeave.Pattern.Property.Category
import PromptWeave.Pattern.Property.Folding
import PromptWeave.Pattern.Property.Lookup
import PromptWeave.Pattern.Property.Script
import PromptWeave.Pattern.Property.Trait
import PromptWeave.Pattern.Reader
import PromptWeave.Pattern.Replacement
import PromptWeave.Pattern.Search
import PromptWeave.Pattern.Tree
import PromptWeave.Prompt.Context
import PromptWeave.Prompt.Formatting
import PromptWeave.Prompt.Hooks
import PromptWeave.Prompt.Processing
import PromptWeave.Prompt.ScriptHook
import PromptWeave.Prompt.Session
import PromptWeave.Prompt.Settings
import PromptWeave.Prompt.SourceRow
import PromptWeave.Prompt.Tags
import PromptWeave.Random.Draw
import PromptWeave.Random.Generator
import PromptWeave.Script.Arguments
import PromptWeave.Script.Evaluation
import PromptWeave.Script.Execution
import PromptWeave.Script.Fault
import PromptWeave.Script.Functions
import PromptWeave.Script.Host
import PromptWeave.Script.Lexer
import PromptWeave.Script.Libraries
import PromptWeave.Script.Machine
import PromptWeave.Script.Methods
import PromptWeave.Script.Operators
import PromptWeave.Script.Parser
import PromptWeave.Script.Screening
import PromptWeave.Script.Syntax
import PromptWeave.Script.Token
import PromptWeave.Script.Value
import PromptWeave.Text.Blank
import PromptWeave.Text.CaseRun
import PromptWeave.Text.Casing
import PromptWeave.Text.CharSet
import PromptWeave.Text.CharTable
import PromptWeave.Text.Letter
import PromptWeave.Text.Pieces
import PromptWeave.Text.Printable
import PromptWeave.Text.Utf8
import PromptWeave.Wildcard.Chooser
import PromptWeave.Wildcard.Expansion
import PromptWeave.Wildcard.Reference
import PromptWeave.Wildcard.Store
import PromptWeave.Wildcard.Table
import PromptWeave.Words
import PromptWeave.Proofs.Script.Budget
import PromptWeave.Proofs.Script.Checked
import PromptWeave.Proofs.Script.CheckedCalls
import PromptWeave.Proofs.Script.Course
import PromptWeave.Proofs.Script.Growth
import PromptWeave.Proofs.Script.Keeping
import PromptWeave.Proofs.Script.Names
import PromptWeave.Proofs.Script.Congruence
import PromptWeave.Proofs.Script.Simulation
import PromptWeave.Proofs.Script.Termination
import PromptWeave.Proofs.Script.Within
import PromptWeave.Proofs.Wildcard.Stepwise
import PromptWeave.Proofs.Wildcard.Cycling
import PromptWeave.Proofs.Prompt.Sessions
import PromptWeave.Proofs.Prompt.NormalTags
import PromptWeave.Proofs.Wildcard.Extension
import PromptWeave.Proofs.Wildcard.Conservation
import PromptWeave.Proofs.Wildcard.Cutting
import PromptWeave.Proofs.Wildcard.Blocks
import PromptWeave.Proofs.Wildcard.Depth
import PromptWeave.Proofs.Wildcard.Echoes
import PromptWeave.Proofs.Text.Slices
import PromptWeave.Proofs.Wildcard.BareExpansion
import PromptWeave.Proofs.Wildcard.StoreHistory
import PromptWeave.Proofs.Outcome
import PromptWeave.Proofs.Prompt.ScriptTags
import PromptWeave.Proofs.Script.Grammar
import PromptWeave.Proofs.Script.Cursor
import PromptWeave.Proofs.Script.ParserSoundness
import PromptWeave.Proofs.Script.ParserCompleteness
import PromptWeave.Proofs.Script.StatementCompleteness
import PromptWeave.Proofs.Script.Recognition
import PromptWeave.Proofs.Script.Lines
import PromptWeave.Proofs.Script.Alignment
import PromptWeave.Proofs.Script.Brackets
import PromptWeave.Proofs.Script.Flow
import PromptWeave.Proofs.Script.CountingParser
import PromptWeave.Proofs.Script.Counters
import PromptWeave.Proofs.Script.Concatenation
import PromptWeave.Proofs.Prompt.Progress
import PromptWeave.Proofs.Prompt.RenderedTags
import PromptWeave.Proofs.Prompt.CounterLimit
import PromptWeave.Proofs.Prompt.FailingHooks
import PromptWeave.Proofs.Script.Literals
import PromptWeave.Proofs.Script.ReadingBack
import PromptWeave.Proofs.Text.Bytes
import PromptWeave.Proofs.Script.Output
import PromptWeave.Proofs.Prompt.FinalText
import PromptWeave.Proofs.Decimal.Digits
import PromptWeave.Proofs.Json.Tokens
import PromptWeave.Proofs.Json.ReadingBack
import PromptWeave.Proofs.Prompt.SessionText
import PromptWeave.Proofs.Files.Changes
import PromptWeave.Proofs.CommandLine.SessionFiles
import PromptWeave.Proofs.CommandLine.SessionRuns
import PromptWeave.Proofs.Script.ValueFaults
import PromptWeave.Proofs.Script.Confinement
import PromptWeave.Proofs.Script.AcceptedRuns
import PromptWeave.Proofs.Script.TreeHeight
import PromptWeave.Proofs.Script.TallestTrees
import PromptWeave.Proofs.Script.Inversion
import PromptWeave.Proofs.Script.Mutation
import PromptWeave.Proofs.Script.Agreement
import PromptWeave.Proofs.Script.Paths
import PromptWeave.Proofs.Script.Places
import PromptWeave.Proofs.Script.SideBySide
import PromptWeave.Proofs.Script.Sufficiency
import PromptWeave.Proofs.Script.Effects
import PromptWeave.Proofs.Script.Assignment
import PromptWeave.Proofs.Script.Comprehension
import PromptWeave.Proofs.StableOrder
import PromptWeave.Proofs.Prompt.HookOrder
import PromptWeave.Proofs.Script.Layout
import PromptWeave.Proofs.Script.LineNumbers
import PromptWeave.Proofs.Files.Paths
import PromptWeave.Proofs.Files.Listing
import PromptWeave.Proofs.Wildcard.Scans
import PromptWeave.Proofs.Wildcard.TextFiles
import PromptWeave.Proofs.Wildcard.Reloading
import PromptWeave.Proofs.Script.ValueOrder
import PromptWeave.Proofs.Script.FaultLines
import PromptWeave.Proofs.Script.RefusedTokens
import PromptWeave.Proofs.Script.Duplicates
import PromptWeave.Proofs.Script.Integers
import PromptWeave.Proofs.Script.Operands
import PromptWeave.Proofs.Script.Progressions
import PromptWeave.Proofs.Script.ExactArithmetic
import PromptWeave.Proofs.Script.Sequences
import PromptWeave.Proofs.Script.StrictArithmetic
import PromptWeave.Proofs.Script.StrictCalls
import PromptWeave.Proofs.Script.StrictMachine
import PromptWeave.Proofs.Script.StrictRuns
import PromptWeave.Proofs.Text.Search
import PromptWeave.Proofs.Script.Searching
import PromptWeave.Proofs.Script.Repetitions
import PromptWeave.Proofs.Script.ListCalls
import PromptWeave.Proofs.Script.WalkingParser
import PromptWeave.Proofs.Script.Walking
import PromptWeave.Proofs.Script.Halting
