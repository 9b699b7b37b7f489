import FieldLint.Files.Glob
import FieldLint.Files.System
import FieldLint.Text.Lines

/-!
# The files to lint

Which files a path argument means: the file at the path whatever the filter says, or the files below
the directory at the path that the filter lets through, in the order of their code units.

Finding the files that patterns ask for is left to a `FileSearch`. What it finds is then rid of
tests, if these are unwanted, and put in order.
-/

namespace FieldLint

/-- Which files below a directory to lint. -/
structure Filter where
  /-- leave out files that match one of these -/
  excludePatterns : List Text
  /-- take only files that match one of these; none means every Python file -/
  includePatterns : List Text
  /-- leave out files named like tests -/
  excludeTestFiles : Bool
  /-- leave out what is below a directory of tests -/
  excludeTestsDirectory : Bool
  deriving DecidableEq, Repr

namespace Filter

/-- Every Python file. -/
def default : Filter := ⟨[], [], false, false⟩

/-- Every Python file that is not about tests. -/
def noTests : Filter := ⟨[], [], true, true⟩

/-- The patterns of the files to take when the filter has none. -/
def defaultIncludePatterns : List Text :=
  ["**/*.py".toList]

/-- The patterns of the files to take. -/
def includes (f : Filter) : List Text :=
  if f.includePatterns.isEmpty then defaultIncludePatterns else f.includePatterns

end Filter

/-! ## Tests -/

/-- The text without its end, if it ends that way. -/
def dropEnd? (ending t : Text) : Option Text :=
  if ending.isSuffixOf t then some (t.take (t.length - ending.length)) else none

/-- The file name is one of a test: `test_*.py`, `*_test.py` or `conftest.py`. A line terminator in
the place of a star makes it none. -/
def isTestFileName (name : Text) : Bool :=
  let onOneLine (t : Text) := !t.any Text.isTerminator
  match dropEnd? ".py".toList name with
  | none => false
  | some stem =>
    ("test_".toList.isPrefixOf stem && onOneLine (stem.drop 5)) ||
      (dropEnd? "_test".toList stem).any onOneLine || stem = "conftest".toList

/-- The directory name is one of tests. -/
def isTestDirectoryName (name : Text) : Bool :=
  name = "tests".toList || name = "test".toList

/-! ## Resolving -/

namespace Filter

/-- The switches about tests let a file through that was found below a directory. -/
def keeps (f : Filter) (directory file : Path) : Bool :=
  !(f.excludeTestFiles && isTestFileName file.base) &&
    !(f.excludeTestsDirectory && (directory.namesFrom file).dropLast.any isTestDirectoryName)

end Filter

/-- A search for the files below a directory. -/
structure FileSearch where
  /-- the files that one of the first patterns takes and none of the second leaves out -/
  find : FileSystem → Path → (takes leavesOut : List Text) → List Path

namespace FileSearch

/-- The search by the patterns of `Glob`. -/
def glob : FileSearch where
  find fs directory takes leavesOut := fs.files.filter fun p =>
    match directory.below? p with
    | none => false
    | some names =>
      !names.isEmpty && (takes.flatMap Glob.ofPattern).any (·.includes names) &&
        !(leavesOut.flatMap Glob.ofPattern).any (·.excludes names)

end FileSearch

/-- Why a path argument means no files. -/
structure MissingPath where
  /-- the path nothing stands at -/
  path : Path
  deriving DecidableEq, Repr

/-- The reason in words. -/
def MissingPath.message (m : MissingPath) : Text :=
  "Path does not exist: ".toList ++ m.path.text

/-- Paths in the order of their code units. -/
def sortPaths (paths : List Path) : List Path :=
  paths.mergeSort fun p q => Text.unitsLe p.text q.text

namespace FileSystem

/-- The files that a path means, found by a search. -/
def resolveBy (search : FileSearch) (fs : FileSystem) (filter : Filter) (root : Path) :
    Except MissingPath (List Path) :=
  match fs.entry? root with
  | none => .error ⟨root⟩
  | some .directory =>
    let found := search.find fs root filter.includes filter.excludePatterns
    .ok (sortPaths (found.filter (filter.keeps root)))
  | some _ => .ok [root]

/-- The files that a path means. -/
def resolve (fs : FileSystem) (filter : Filter) (root : Path) : Except MissingPath (List Path) :=
  fs.resolveBy .glob filter root

end FileSystem

end FieldLint
