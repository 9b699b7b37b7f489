import FieldLint.Report.Basic
import FieldLint.Rule

/-!
# Linting a module

Every declaration of a module that needs documentation is checked, in the order of the source.
-/

namespace FieldLint

/-- A declaration with its diagnostics. -/
def Declaration.entry (d : Declaration) : Entry :=
  ⟨d, d.check⟩

/-- Check a module and report it under a path. -/
def lintModule (module : Signature) (displayPath : Text) : FileReport :=
  FileReport.ofEntries displayPath (module.checked.map Declaration.entry)

end FieldLint
