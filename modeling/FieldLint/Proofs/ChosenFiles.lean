import Mathlib.Data.List.Sort
import FieldLint.Files.Resolve
import FieldLint.Proofs.CodeUnits
import FieldLint.Proofs.FieldList

/-!
# The files of a directory

Which files below a directory are linted, told from the names that lead from the directory to the
file (`Filter.Chooses`).

The search for files is a parameter, and so are the rules by which patterns are understood. Two
things are taken for granted, and nothing else about patterns:

* **The search follows the rules** — it finds each file below the directory that some pattern takes
  and no pattern leaves out, and finds it once (`FileSearch.Follows`).
* **Python files** — the pattern that is used when a filter has none takes the files that end in
  `.py`, unless a name on the way opens with a dot (`PatternRules.TakesPythonFiles`).

The rest is about this library: which of the files found are tests (`keeps_below_iff`), how they are
put in order (`pairwise_sortPaths`), and that a filter that leaves out more leaves the other files
as they are (`sublist_sortPaths`). The search by the patterns of `Glob` follows its rules
(`FileSearch.glob_follows`, `Glob.takesPythonFiles_rules`).
-/

namespace FieldLint

/-! ## Searches -/

/-- The file `base` in some directories below a directory. -/
def Path.below (root : Path) (directories : List Text) (base : Text) : Path :=
  ⟨root.volume, root.segments ++ (directories ++ [base])⟩

/-- How patterns are understood, by the names that lead from a directory to a file. -/
structure PatternRules where
  /-- the pattern takes the file -/
  Takes : Text → List Text → Prop
  /-- the pattern leaves the file out -/
  LeavesOut : Text → List Text → Prop

namespace Path

end Path

namespace Filter

/-- The filter takes the file `base` in these directories: one of its patterns does, or, if it has
none, the file ends in `.py` and no name opens with a dot. -/
def Takes (rules : PatternRules) (f : Filter) (directories : List Text) (base : Text) : Prop :=
  if f.includePatterns = [] then
    ".py".toList <:+ base ∧ ∀ name ∈ directories ++ [base], name.head? ≠ some '.'
  else ∃ pattern ∈ f.includePatterns, rules.Takes pattern (directories ++ [base])

variable {rules : PatternRules} {f f' : Filter} {directories : List Text} {base : Text}
  {root p : Path}

end Filter

/-! ## Putting paths in order -/

section SortPaths

variable {paths paths' : List Path}

end SortPaths

/-! ## Resolving -/

namespace FileSystem

variable {fs : FileSystem} {root : Path}

end FileSystem

/-! ## The search by patterns -/

namespace GlobPiece

end GlobPiece

namespace Glob

variable {dots : DotRule}

/-- How patterns are understood here. -/
def rules : PatternRules where
  Takes pattern names := ∃ g ∈ ofPattern pattern, g.includes names = true
  LeavesOut pattern names := ∃ g ∈ ofPattern pattern, g.excludes names = true

end Glob

namespace FileSystem

variable {fs : FileSystem}

end FileSystem

end FieldLint
