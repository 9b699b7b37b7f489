import FieldLint.Lint.Module
import FieldLint.Report.Layout

/-!
# A ledger of reports

Several reports are kept at once, and one file report can stand in more than one of them: a report
holds places of file reports, not copies, so an entry added to a file shows in every report that
holds the file.

* `Ledger`: the file reports and reports made so far, each under its newest name.
* `LedgerStep`: what can be done with them.
* `Ledger.step`: one step, with what it answers.
* `Ledger.run`: a sequence of steps with all answers. An answer about a report shows its files as
  they were at the step; its list of files that could not be analysed is the list of the report
  itself, so in the answers of a run it shows everything that was ever put into it.
-/

namespace FieldLint

/-- A report in a ledger: the places of its files and the files that could not be analysed. -/
structure Sheet where
  /-- the places of the files -/
  files : List Nat
  /-- the files that could not be analysed -/
  unanalyzable : List Unanalyzable
  deriving DecidableEq, Repr

/-- Put everything of another sheet after what is there. -/
def Sheet.merge (s other : Sheet) : Sheet :=
  ⟨s.files ++ other.files, s.unanalyzable ++ other.unanalyzable⟩

/-- The file reports and reports made so far, in the order they were made. -/
structure Ledger where
  /-- the file reports -/
  files : List FileReport
  /-- the reports -/
  sheets : List Sheet
  /-- where the file report of each name is, newest names first -/
  fileNames : List (Text × Nat)
  /-- where the report of each name is, newest names first -/
  sheetNames : List (Text × Nat)
  deriving DecidableEq, Repr

namespace Ledger

/-- Nothing made yet. -/
def empty : Ledger := ⟨[], [], [], []⟩

/-- The place of the file report with a name. -/
def filePlace? (l : Ledger) (name : Text) : Option Nat :=
  l.fileNames.lookup name

/-- The place of the report with a name. -/
def sheetPlace? (l : Ledger) (name : Text) : Option Nat :=
  l.sheetNames.lookup name

/-- The file report with a name, as it is now. -/
def file? (l : Ledger) (name : Text) : Option FileReport :=
  (l.filePlace? name).bind fun place => l.files[place]?

/-- The sheet of the report with a name. -/
def sheet? (l : Ledger) (name : Text) : Option Sheet :=
  (l.sheetPlace? name).bind fun place => l.sheets[place]?

/-- A sheet with its files as they are now. -/
def expand (l : Ledger) (s : Sheet) : Report :=
  ⟨s.files.filterMap fun place => l.files[place]?, s.unanalyzable⟩

/-- The report with a name, as it is now. -/
def report? (l : Ledger) (name : Text) : Option Report :=
  (l.sheet? name).map l.expand

/-- Make a file report under a name. -/
def newFile (l : Ledger) (name : Text) (r : FileReport) : Ledger :=
  { l with
    files := l.files ++ [r]
    fileNames := (name, l.files.length) :: l.fileNames }

/-- Make a report under a name. -/
def newSheet (l : Ledger) (name : Text) : Ledger :=
  { l with
    sheets := l.sheets ++ [⟨[], []⟩]
    sheetNames := (name, l.sheets.length) :: l.sheetNames }

/-- Change the file report with a name, wherever it stands. -/
def updateFile (l : Ledger) (name : Text) (f : FileReport → FileReport) : Ledger :=
  match l.filePlace? name with
  | none => l
  | some place => { l with files := l.files.modify place f }

/-- Change the report with a name. -/
def updateSheet (l : Ledger) (name : Text) (f : Sheet → Sheet) : Ledger :=
  match l.sheetPlace? name with
  | none => l
  | some place => { l with sheets := l.sheets.modify place f }

end Ledger

/-! ## Steps -/

/-- One thing to do with a ledger. -/
inductive LedgerStep where
  /-- make a file report without entries -/
  | newFile (file path : Text)
  /-- add an entry to a file report -/
  | addEntry (file : Text) (entry : Entry)
  /-- check a declaration and add it to a file report -/
  | check (file : Text) (declaration : Declaration)
  /-- make the file report of a module -/
  | lint (file : Text) (module : Signature) (displayPath : Text)
  /-- make a report without files -/
  | newReport (report : Text)
  /-- put a file report into a report -/
  | addFile (report file : Text)
  /-- put a file that could not be analysed into a report -/
  | addUnanalyzable (report : Text) (unit : Unanalyzable)
  /-- put everything of one report into another -/
  | merge (report source : Text)
  /-- look at a file report -/
  | showFile (file : Text)
  /-- look at a report -/
  | showReport (report : Text)
  /-- print a file report -/
  | printFile (file : Text) (style : Style)
  /-- print a report -/
  | printReport (report : Text) (style : Style)

/-- What a step answers. -/
inductive LedgerAnswer where
  /-- a file report as it is now -/
  | file (r : FileReport)
  /-- the report at a place, as it is now -/
  | report (place : Nat) (r : Report)
  /-- lines of print -/
  | lines (ls : List Text)
  deriving DecidableEq, Repr

namespace Ledger

/-- The ledger after a step; a name that was never given leaves it as it is. -/
def apply (l : Ledger) : LedgerStep → Ledger
  | .newFile file path => l.newFile file (.empty path)
  | .addEntry file entry => l.updateFile file (·.add entry)
  | .check file declaration => l.updateFile file (·.add declaration.entry)
  | .lint file module displayPath => l.newFile file (lintModule module displayPath)
  | .newReport report => l.newSheet report
  | .addFile report file =>
    match l.filePlace? file with
    | none => l
    | some place => l.updateSheet report fun s => { s with files := s.files ++ [place] }
  | .addUnanalyzable report unit =>
    l.updateSheet report fun s => { s with unanalyzable := s.unanalyzable ++ [unit] }
  | .merge report source =>
    match l.sheet? source with
    | none => l
    | some other => l.updateSheet report (·.merge other)
  | .showFile _ => l
  | .showReport _ => l
  | .printFile _ _ => l
  | .printReport _ _ => l

/-- The answer about the file report with a name. -/
def fileAnswer? (l : Ledger) (name : Text) : Option LedgerAnswer :=
  (l.file? name).map .file

/-- The answer about the report with a name. -/
def reportAnswer? (l : Ledger) (name : Text) : Option LedgerAnswer :=
  match l.sheetPlace? name, l.report? name with
  | some place, some r => some (.report place r)
  | _, _ => none

/-- What a step answers once it is done; `none` if it speaks of a name that was never given. -/
def answer? (l : Ledger) : LedgerStep → Option LedgerAnswer
  | .newFile file _ => l.fileAnswer? file
  | .addEntry file _ => l.fileAnswer? file
  | .check file _ => l.fileAnswer? file
  | .lint file _ _ => l.fileAnswer? file
  | .newReport report => l.reportAnswer? report
  | .addFile report _ => l.reportAnswer? report
  | .addUnanalyzable report _ => l.reportAnswer? report
  | .merge report _ => l.reportAnswer? report
  | .showFile file => l.fileAnswer? file
  | .showReport report => l.reportAnswer? report
  | .printFile file style => (l.file? file).map fun r => .lines (r.print style)
  | .printReport report style => (l.report? report).map fun r => .lines (r.print style)

/-- One step: the ledger after it and the answer. -/
def step (l : Ledger) (s : LedgerStep) : Ledger × Option LedgerAnswer :=
  (l.apply s, (l.apply s).answer? s)

/-- The ledger after a sequence of steps, and the answer of each step when it was done. -/
def steps (l : Ledger) : List LedgerStep → Ledger × List (Option LedgerAnswer)
  | [] => (l, [])
  | s :: rest =>
    let after := steps (l.apply s) rest
    (after.1, (l.apply s).answer? s :: after.2)

/-- An answer as it reads when the ledger has come to `l`: the list of files that could not be
analysed is the one its report has by then. -/
def settle (l : Ledger) : LedgerAnswer → LedgerAnswer
  | .report place r =>
    match l.sheets[place]? with
    | some sheet => .report place { r with unanalyzable := sheet.unanalyzable }
    | none => .report place r
  | other => other

/-- The answers of a sequence of steps, read at its end. -/
def run (l : Ledger) (ss : List LedgerStep) : List (Option LedgerAnswer) :=
  let after := l.steps ss
  after.2.map (Option.map after.1.settle)

end Ledger

end FieldLint
