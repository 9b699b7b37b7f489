import FieldLint.Command.Console
import FieldLint.Command.Options
import FieldLint.Command.Run
import FieldLint.Command.Similar
import FieldLint.Diagnostic
import FieldLint.Docstring.Clean
import FieldLint.Docstring.Directive
import FieldLint.Docstring.Field
import FieldLint.Docstring.Fold
import FieldLint.Docstring.Marker
import FieldLint.Docstring.Parse
import FieldLint.Files.Glob
import FieldLint.Files.Path
import FieldLint.Files.Resolve
import FieldLint.Files.System
import FieldLint.Files.Utf8
import FieldLint.Lint.Batch
import FieldLint.Lint.Module
import FieldLint.Main
import FieldLint.Proofs.Batches
import FieldLint.Proofs.ChosenFiles
import FieldLint.Proofs.Cleaned
import FieldLint.Proofs.CleanedLines
import FieldLint.Proofs.CodeUnits
import FieldLint.Proofs.CombinedForm
import FieldLint.Proofs.Comments
import FieldLint.Proofs.ErrorNodes
import FieldLint.Proofs.Extraction
import FieldLint.Proofs.FieldList
import FieldLint.Proofs.FieldOrder
import FieldLint.Proofs.FileEntries
import FieldLint.Proofs.Folding
import FieldLint.Proofs.InlineRoles
import FieldLint.Proofs.Isolation
import FieldLint.Proofs.LedgerTotals
import FieldLint.Proofs.Literals
import FieldLint.Proofs.Locality
import FieldLint.Proofs.MarkerGrammar
import FieldLint.Proofs.MarkupBlocks
import FieldLint.Proofs.Mentions
import FieldLint.Proofs.MissingParam
import FieldLint.Proofs.Nesting
import FieldLint.Proofs.ParameterNames
import FieldLint.Proofs.PrintedReport
import FieldLint.Proofs.Reachable
import FieldLint.Proofs.Records
import FieldLint.Proofs.Renumber
import FieldLint.Proofs.Roles
import FieldLint.Proofs.Runs
import FieldLint.Proofs.Scan
import FieldLint.Proofs.SignatureShape
import FieldLint.Proofs.Spacing
import FieldLint.Proofs.Spellings
import FieldLint.Proofs.TabStops
import FieldLint.Proofs.Tabs
import FieldLint.Proofs.TextLines
import FieldLint.Proofs.TrailingBlanks
import FieldLint.Proofs.TypeHints
import FieldLint.Proofs.Values
import FieldLint.Proofs.Verdict
import FieldLint.Proofs.Written
import FieldLint.Python.Grammar
import FieldLint.Python.Identifier
import FieldLint.Python.Lexeme
import FieldLint.Python.Parse
import FieldLint.Python.Pattern
import FieldLint.Python.Scanner
import FieldLint.Python.Token
import FieldLint.Report.Basic
import FieldLint.Report.Layout
import FieldLint.Report.Ledger
import FieldLint.Rule
import FieldLint.Signature
import FieldLint.Source.Extract
import FieldLint.Source.Literal
import FieldLint.Source.Tree
import FieldLint.Text.Basic
import FieldLint.Text.Blank
import FieldLint.Text.Lines
import FieldLint.Text.Units
