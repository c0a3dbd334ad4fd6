import BlockLang.Text.CodeRange
import BlockLang.Text.Blank
import BlockLang.Text.DecimalDigit
import BlockLang.Text.WordChar
import BlockLang.Text.Printable
import BlockLang.Text.Quoted
import BlockLang.Text.Lines
import BlockLang.Text.Utf8
import BlockLang.Numeral
import BlockLang.Token
import BlockLang.Lexeme
import BlockLang.Lexeme.Piece
import BlockLang.Lexeme.Scan
import BlockLang.Node
import BlockLang.Node.Printer
import BlockLang.Program.Draft
import BlockLang.Program.Parse
import BlockLang.Ty
import BlockLang.Scope
import BlockLang.Scope.Stack
import BlockLang.Scope.Command
import BlockLang.Diagnostic
import BlockLang.Fault
import BlockLang.Check
import BlockLang.Exec
import BlockLang.Session
import BlockLang.Files
import BlockLang.Files.Directory
import BlockLang.Run
import BlockLang.CommandLine
import BlockLang.Main
import BlockLang.Proofs.Walk
import BlockLang.Proofs.Scopes
import BlockLang.Proofs.Execution
import BlockLang.Proofs.Checking
import BlockLang.Proofs.Typing
import BlockLang.Proofs.Mirror
import BlockLang.Proofs.Progress
import BlockLang.Proofs.BooleanDomain
import BlockLang.Proofs.Grammar
import BlockLang.Proofs.Derivation
import BlockLang.Proofs.Unambiguity
import BlockLang.Proofs.Drafting
import BlockLang.Proofs.Parsing
import BlockLang.Proofs.Scanning
import BlockLang.Proofs.TypeSystem
import BlockLang.Proofs.Completion
import BlockLang.Proofs.SourceOrder
import BlockLang.Proofs.Tiling
import BlockLang.Proofs.Places
import BlockLang.Proofs.Rendering
import BlockLang.Proofs.SourceFaults
import BlockLang.Proofs.Sessions
import BlockLang.Proofs.Relabelling
import BlockLang.Proofs.Layout
import BlockLang.Proofs.FileSources
import BlockLang.Proofs.Stages
import BlockLang.Proofs.CommandLines
import BlockLang.Proofs.Messages
import BlockLang.Proofs.Visits
import BlockLang.Proofs.Suppression
import BlockLang.Proofs.Resolution
import BlockLang.Proofs.Redeclaration
import BlockLang.Proofs.CheckingFrame
import BlockLang.Proofs.BlockEffects
import BlockLang.Proofs.FailureStates
import BlockLang.Proofs.Numerals
import BlockLang.Proofs.Arithmetic
import BlockLang.Proofs.PrintedTrees
import BlockLang.Proofs.ScopeCommands
