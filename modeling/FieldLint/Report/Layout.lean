import FieldLint.Report.Basic

/-!
# Printed reports

A report is laid out as a list of `ReportLine`s, which say what each line is for, and then printed
in a `Style`. The style decorates parts of lines; which lines there are does not depend on it.

A file without issues has no lines. Any other file has a divider, its path, and its entries: the
module always, other declarations if something was found about them. The summary follows when there
are lines at all.
-/

namespace FieldLint

/-! ## Styles -/

/-- How the parts of a printed report are decorated. -/
structure Style where
  /-- the line between files -/
  divider : Text → Text
  /-- the path of a file -/
  path : Text → Text
  /-- the header of an entry -/
  header : Text → Text
  /-- the mark of an error -/
  error : Text → Text
  /-- the mark of a warning -/
  warning : Text → Text
  /-- the head of the summary -/
  summary : Text → Text

/-- Nothing is decorated. -/
def Style.plain : Style :=
  ⟨id, id, id, id, id, id⟩

/-! ## Lines -/

/-- What a line of a printed report is for. -/
inductive ReportLine where
  | divider
  | path (filePath : Text)
  | header (declaration : Declaration)
  | diagnostic (d : Diagnostic)
  | summary
  | errors (count : Nat)
  | warnings (count : Nat)
  deriving DecidableEq, Repr

/-- The names shown in parentheses after a callable: the receiver first. -/
def Callable.shownNames (c : Callable) : List Text :=
  c.receiver.toList ++ c.parameters.map (·.name)

/-- The word for a callable in a header. -/
def CallableKind.word : CallableKind → Text
  | .function => "function".toList
  | .method => "method".toList
  | .staticmethod => "method".toList

/-- The header of an entry. -/
def Declaration.header (d : Declaration) : Text :=
  match d.form with
  | .module _ => "module: ".toList ++ d.name
  | .classdef => Text.ofNat d.line ++ ": class: ".toList ++ d.name
  | .callable c =>
    Text.ofNat d.line ++ ": ".toList ++ c.kind.word ++ ": ".toList ++ d.name ++
      '(' :: Text.join [','] c.shownNames ++ [')']

/-- A diagnostic in a style: the mark is decorated, the message is not. -/
def Diagnostic.format (style : Style) (d : Diagnostic) : Text :=
  let mark := match d.severity with
    | .error => style.error "E:".toList
    | .warning => style.warning "W:".toList
  "  ".toList ++ mark ++ ' ' :: d.message

/-- Print one line. -/
def ReportLine.print (style : Style) : ReportLine → Text
  | divider => style.divider (List.replicate 80 '*')
  | path filePath => style.path filePath
  | header d => style.header d.header
  | diagnostic d => d.format style
  | summary => style.summary "SUMMARY".toList
  | errors count => "errors: ".toList ++ Text.ofNat count
  | warnings count => "warnings: ".toList ++ Text.ofNat count

/-! ## Layout -/

/-- The lines of an entry. -/
def Entry.layout (e : Entry) : List ReportLine :=
  if e.declaration.isModule || !e.diagnostics.isEmpty then
    .header e.declaration :: e.diagnostics.map .diagnostic
  else []

/-- The lines of a file. -/
def FileReport.layout (r : FileReport) : List ReportLine :=
  if r.hasIssues then .divider :: .path r.filePath :: r.entries.flatMap Entry.layout else []

/-- The lines at the end of a run. -/
def Report.summary (r : Report) : List ReportLine :=
  [.divider, .summary, .errors r.errors, .warnings r.warnings]

/-- The lines of a run. -/
def Report.layout (r : Report) : List ReportLine :=
  match r.files.flatMap FileReport.layout with
  | [] => []
  | line :: rest => line :: rest ++ r.summary

/-- A file report in print. -/
def FileReport.print (style : Style) (r : FileReport) : List Text :=
  r.layout.map (ReportLine.print style)

/-- A report in print. -/
def Report.print (style : Style) (r : Report) : List Text :=
  r.layout.map (ReportLine.print style)

end FieldLint
