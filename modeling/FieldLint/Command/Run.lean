import FieldLint.Command.Console
import FieldLint.Command.Options
import FieldLint.Lint.Batch

/-!
# Runs

A run reads its arguments, lints the files they mean, prints the report, and ends with an exit code:
1 if something is an error, could not be analysed, or is a warning and warnings fail the run.

A path with nothing at it ends the run at once. What a verbose run tells about itself goes to the
error output only.

What a run gets from elsewhere is gathered in `Services`. `Services.standard` is what `main` uses:
the parts of this library that stand in the place of packages.
-/

namespace FieldLint

namespace Command

/-- What a run leaves behind. -/
structure Outcome where
  /-- the exit code -/
  exitCode : Nat
  /-- the lines of the output -/
  output : List Text
  /-- the lines of the error output -/
  errorOutput : List Text
  deriving DecidableEq, Repr

/-- Where a run takes place. -/
structure Setting where
  /-- the files there are -/
  fileSystem : FileSystem
  /-- the directory the run is started in -/
  directory : Path
  /-- the console shows colours -/
  color : Bool

/-- What a run gets from elsewhere. -/
structure Services where
  /-- what the arguments of a run ask for -/
  read : List Text → Request
  /-- the search for files below a directory -/
  search : FileSearch
  /-- what turns sources into syntax trees -/
  frontend : Frontend
  /-- how a text is decorated, on a console with or without colours -/
  paint : Bool → Paint → Text → Text
  /-- the lines that the display of progress prints -/
  display : Bool → Status → List Text

/-- What the library has to offer itself. -/
def Services.standard : Services where
  read := Request.ofArguments
  search := .glob
  frontend := .python
  paint := Paint.apply
  display := Status.print

/-- A run that is under way. -/
structure Progress where
  /-- what was found so far -/
  report : Report
  /-- what was told so far -/
  notes : List Note
  deriving DecidableEq, Repr

namespace Progress

/-- The front end is there, and nothing is linted yet. -/
def start : Progress :=
  ⟨.empty, [.status (.started "Initializing parser...".toList),
    .status (.succeeded "Parser initialized".toList)]⟩

/-- Tell something. -/
def tell (p : Progress) (notes : List Note) : Progress :=
  { p with notes := p.notes ++ notes }

end Progress

/-- What ends a run before its report. -/
inductive Failure where
  | missingPath (m : MissingPath)
  | lint (e : LintError)
  deriving DecidableEq, Repr

/-- The reason in words. -/
def Failure.message : Failure → Text
  | missingPath m => m.message
  | lint e => e.message

/-- The note that files are looked for. -/
def discovering (written : Text) : Note :=
  .status (.started ("Discovering Python files in ".toList ++ written ++ "...".toList))

/-- The notes about the files that were found, and that they are linted. -/
def foundFiles (directory : Path) (written : Text) (paths : List Path) : List Note :=
  .status (.succeeded
      ("Found ".toList ++ Text.ofNat paths.length ++ " Python files in ".toList ++ written)) ::
    paths.map (fun p => .found (p.relativeTo directory)) ++
      [.status (.started "Checking docstrings...".toList)]

/-- The note at the end of a run. -/
def verdict (r : Report) : Note :=
  .status <|
    if r.hasIssues then
      .warned (Text.ofNat r.errors ++ " errors, ".toList ++ Text.ofNat r.warnings ++
        " warnings".toList)
    else .succeeded "All docstrings match their signatures".toList

/-- The run failed. -/
def isFailure (options : Options) (r : Report) : Bool :=
  0 < r.errors || !r.unanalyzable.isEmpty || (options.failOnWarning && 0 < r.warnings)

section Run

variable (services : Services) (setting : Setting)

/-- Lint what one path argument means. -/
def lintArgument (filter : Filter) (p : Progress) (written : Text) : Progress × Option Failure :=
  let p := p.tell [discovering written]
  let root := setting.directory.resolve written
  match setting.fileSystem.resolveBy services.search filter root with
  | .error m => (p, some (.missingPath m))
  | .ok paths =>
    let p := p.tell (foundFiles setting.directory written paths)
    match lintFiles services.frontend setting.fileSystem paths with
    | .error e => (p, some (.lint e))
    | .ok r => ({ p with report := p.report.merge r }, none)

/-- Lint what the path arguments mean, up to the first that fails. -/
def lintArguments (filter : Filter) (p : Progress) : List Text → Progress × Option Failure
  | [] => (p, none)
  | written :: rest =>
    match lintArgument services setting filter p written with
    | (p', some failure) => (p', some failure)
    | (p', none) => lintArguments filter p' rest

/-- A decorated text. -/
def painted (paint : Paint) (t : Text) : Text :=
  services.paint setting.color paint t

/-- A note in print. -/
def printNote : Note → List Text
  | .status s => services.display setting.color s
  | .found path => [painted services setting .gray ("  ".toList ++ path)]

/-- The notes in print, if they are wanted. -/
def printNotes (options : Options) (notes : List Note) : List Text :=
  if options.verbose then notes.flatMap (printNote services setting) else []

/-- The line about a file that could not be analysed. -/
def unanalyzableLine (u : Unanalyzable) : Text :=
  painted services setting .red
    ("Error: could not analyze ".toList ++ u.filePath ++ ": ".toList ++ u.reason)

/-- What a run leaves behind that went through. -/
def reported (options : Options) (p : Progress) : Outcome where
  exitCode := if isFailure options p.report then 1 else 0
  output := p.report.print (consoleStyle (painted services setting))
  errorOutput := printNotes services setting options (p.notes ++ [verdict p.report]) ++
    p.report.unanalyzable.map (unanalyzableLine services setting)

/-- What a run leaves behind that had to stop. -/
def stopped (options : Options) (p : Progress) (failure : Failure) : Outcome where
  exitCode := 1
  output := []
  errorOutput :=
    let complaint := "Error: ".toList ++ failure.message
    let notes := p.notes ++ [.status (.failed "Lint failed".toList)]
    printNotes services setting options notes ++
      [painted services setting .red ('\n' :: complaint)] ++
      if options.verbose then [painted services setting .gray complaint] else []

/-- Lint paths. -/
def lint (options : Options) (paths : List Text) : Outcome :=
  match lintArguments services setting options.filter .start paths with
  | (p, none) => reported services setting options p
  | (p, some failure) => stopped services setting options p failure

/-- Answer a request. -/
def answer : Request → Outcome
  | .lint given operands => lint services setting (.ofGiven given) (pathsOf operands)
  | .version => ⟨0, [versionText], []⟩
  | .help => ⟨0, helpLines, []⟩
  | .missingValue f => ⟨1, [], [missingValueLine f]⟩
  | .unknownOption written => ⟨1, [], unknownOptionLines written⟩

/-- A run with arguments, by some services. -/
def runWith (arguments : List Text) : Outcome :=
  answer services setting (services.read arguments)

end Run

/-- A run with arguments. -/
def run (setting : Setting) (arguments : List Text) : Outcome :=
  runWith .standard setting arguments

end Command

end FieldLint
