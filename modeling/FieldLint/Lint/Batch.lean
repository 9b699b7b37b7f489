import FieldLint.Files.System
import FieldLint.Lint.Module
import FieldLint.Python.Parse
import FieldLint.Source.Extract

/-!
# Linting sources and files

A `Frontend` turns sources into syntax trees once it has a grammar. With it a source, a file or a
batch of files is linted.

A file of a batch that cannot be read, or whose source cannot be analysed, is recorded as such and
the batch goes on. Only a front end without a grammar stops it.
-/

namespace FieldLint

/-- What turns sources into syntax trees. -/
structure Frontend where
  /-- the parser of the grammar, once there is one -/
  parse? : Option (Text → Tree)

namespace Frontend

/-- A front end without a grammar. -/
def unloaded : Frontend := ⟨none⟩

/-- The front end for Python. -/
def python : Frontend := ⟨some Python.parse⟩

end Frontend

/-- Why a source or a file cannot be linted. -/
inductive LintError where
  /-- the front end has no grammar -/
  | notLoaded
  /-- the file cannot be read -/
  | unreadable (e : ReadError)
  /-- the source has an error -/
  | unanalyzable (filePath : Text) (fault : SyntaxFault)
  deriving DecidableEq, Repr

namespace LintError

/-- The reason in words. -/
def message : LintError → Text
  | notLoaded => "Parser not initialized. Call initialize() first.".toList
  | unreadable e => e.message
  | unanalyzable filePath fault =>
    "Cannot analyze ".toList ++ filePath ++ ": ".toList ++ fault.message

/-- The reason under which a batch records the file; `none` if the batch cannot go on. -/
def reason? : LintError → Option Text
  | notLoaded => none
  | unreadable e => some e.message
  | unanalyzable _ fault => some fault.message

end LintError

/-- The signature of a source. -/
def extractSource (frontend : Frontend) (source filePath : Text) : Except LintError Signature :=
  match frontend.parse? with
  | none => .error .notLoaded
  | some parse =>
    match extractModule source filePath (parse source) with
    | .error fault => .error (.unanalyzable filePath fault)
    | .ok module => .ok module

/-- Lint a source under the path of its file. -/
def lintSource (frontend : Frontend) (source filePath : Text) : Except LintError FileReport :=
  match extractSource frontend source filePath with
  | .error e => .error e
  | .ok module => .ok (lintModule module module.filePath)

/-- Lint a file. It is read before it is parsed. -/
def lintFile (frontend : Frontend) (fs : FileSystem) (path : Path) : Except LintError FileReport :=
  match fs.read path with
  | .error e => .error (.unreadable e)
  | .ok source => lintSource frontend source path.text

/-- Add what linting a file gave to a report. -/
def Report.record (r : Report) (path : Path) :
    Except LintError FileReport → Except LintError Report
  | .ok file => .ok (r.add file)
  | .error e =>
    match e.reason? with
    | some reason => .ok (r.addUnanalyzable ⟨path.text, reason⟩)
    | none => .error e

/-- Lint a batch of files, in order, on top of a report. -/
def lintFilesInto (frontend : Frontend) (fs : FileSystem) (r : Report) :
    List Path → Except LintError Report
  | [] => .ok r
  | path :: rest =>
    match r.record path (lintFile frontend fs path) with
    | .error e => .error e
    | .ok r' => lintFilesInto frontend fs r' rest

/-- Lint a batch of files, in order. -/
def lintFiles (frontend : Frontend) (fs : FileSystem) (paths : List Path) :
    Except LintError Report :=
  lintFilesInto frontend fs .empty paths

end FieldLint
