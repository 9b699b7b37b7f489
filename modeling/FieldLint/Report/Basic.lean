import FieldLint.Diagnostic

/-!
# Reports

* `FileReport`: what was found in one file, entry by entry, with running totals.
* `Report`: the file reports of a run and the files that could not be analysed.
-/

namespace FieldLint

/-- A declaration with what was found about it. -/
structure Entry where
  /-- the declaration -/
  declaration : Declaration
  /-- what was found -/
  diagnostics : List Diagnostic
  deriving DecidableEq, Repr

/-- What was found in one file. -/
structure FileReport where
  /-- the file, as displayed -/
  filePath : Text
  /-- the declarations in the order they were added -/
  entries : List Entry
  /-- how many errors the entries hold -/
  errors : Nat
  /-- how many warnings the entries hold -/
  warnings : Nat
  deriving DecidableEq, Repr

namespace FileReport

/-- A report without entries. -/
def empty (filePath : Text) : FileReport :=
  ⟨filePath, [], 0, 0⟩

/-- Add an entry. -/
def add (r : FileReport) (e : Entry) : FileReport :=
  { r with
    entries := r.entries ++ [e]
    errors := r.errors + e.diagnostics.countP Diagnostic.isError
    warnings := r.warnings + e.diagnostics.countP Diagnostic.isWarning }

/-- Something was found. -/
def hasIssues (r : FileReport) : Bool :=
  0 < r.errors + r.warnings

/-- The report with these entries. -/
def ofEntries (filePath : Text) (entries : List Entry) : FileReport :=
  entries.foldl add (empty filePath)

end FileReport

/-- A file that could not be analysed. -/
structure Unanalyzable where
  /-- the file -/
  filePath : Text
  /-- why not -/
  reason : Text
  deriving DecidableEq, Repr

/-- What a run found. -/
structure Report where
  /-- the reports of the files that were analysed -/
  files : List FileReport
  /-- the files that were not -/
  unanalyzable : List Unanalyzable
  deriving DecidableEq, Repr

namespace Report

/-- Nothing analysed yet. -/
def empty : Report := ⟨[], []⟩

/-- Add the report of a file. -/
def add (r : Report) (file : FileReport) : Report :=
  { r with files := r.files ++ [file] }

/-- Add a file that could not be analysed. -/
def addUnanalyzable (r : Report) (u : Unanalyzable) : Report :=
  { r with unanalyzable := r.unanalyzable ++ [u] }

/-- Put everything of another report after what is there. -/
def merge (r other : Report) : Report :=
  ⟨r.files ++ other.files, r.unanalyzable ++ other.unanalyzable⟩

/-- How many errors the files have. -/
def errors (r : Report) : Nat :=
  r.files.foldr (fun file n => file.errors + n) 0

/-- How many warnings the files have. -/
def warnings (r : Report) : Nat :=
  r.files.foldr (fun file n => file.warnings + n) 0

/-- Something was found in a file. -/
def hasIssues (r : Report) : Bool :=
  r.files.any (·.hasIssues)

end Report

end FieldLint
