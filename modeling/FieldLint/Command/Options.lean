import FieldLint.Command.Similar
import FieldLint.Files.Resolve

/-!
# The command line

What the arguments of a run ask for: a run with options and paths, the version, the help, or nothing
that makes sense.

* Options may stand anywhere among the paths; `--` ends them.
* The value of an option is the next argument, or follows `=` in the same one.
* Several one-letter options may share a dash.
* The version is printed as soon as it is asked for, and a missing value is reported as soon as it
  is missed. The help comes next, before an option that nobody knows.

The options there are, what each of them does and which paths are meant by default are the business
of this program. Telling options, values and paths apart is that of the `commander` package, in
whose place `Request.ofArguments` stands, with the answers that come without a run. Left out is what
it offers and this program does not use: commands below a command, values that may be missing,
options that take several values, and settings from the environment.
-/

namespace FieldLint

namespace Command

/-- What a run is told by its options. -/
structure Options where
  /-- leave out files that match one of these -/
  excludes : List Text
  /-- take only files that match one of these -/
  includes : List Text
  /-- lint tests too -/
  tests : Bool
  /-- a warning fails the run -/
  failOnWarning : Bool
  /-- tell what is going on -/
  verbose : Bool
  deriving DecidableEq, Repr

namespace Options

/-- The options of a run that names none. -/
def default : Options := ⟨[], [], true, false, false⟩

/-- The filter the options ask for. -/
def filter (o : Options) : Filter :=
  { (if o.tests then Filter.default else Filter.noTests) with
    excludePatterns := o.excludes
    includePatterns := o.includes }

end Options

/-- The options that can be given. -/
inductive Flag where
  | version
  | exclude
  | only
  | noTests
  | failOnWarning
  | verbose
  deriving DecidableEq, Repr

namespace Flag

/-- All flags, in the order of the help. -/
def all : List Flag :=
  [version, exclude, only, noTests, failOnWarning, verbose]

/-- The long spelling of a flag. -/
def long : Flag → Text
  | version => "--version".toList
  | exclude => "--exclude".toList
  | only => "--include".toList
  | noTests => "--no-tests".toList
  | failOnWarning => "--fail-on-warning".toList
  | verbose => "--verbose".toList

/-- The short spelling of a flag. -/
def short? : Flag → Option Text
  | version => some "-V".toList
  | verbose => some "-v".toList
  | _ => none

/-- The flag takes a value. -/
def takesValue : Flag → Bool
  | exclude => true
  | only => true
  | _ => false

/-- The flag with the name of its value, as in the help. -/
def usage (f : Flag) : Text :=
  f.long ++ if f.takesValue then " <pattern>".toList else []

/-- The flag with a spelling. -/
def ofSpelling? (spelling : Text) : Option Flag :=
  all.find? fun f => f.long == spelling || f.short? == some spelling

end Flag

/-- Change the options as a flag says. -/
def Options.set (o : Options) (f : Flag) (value : Text) : Options :=
  match f with
  | .version => o
  | .exclude => { o with excludes := o.excludes ++ [value] }
  | .only => { o with includes := o.includes ++ [value] }
  | .noTests => { o with tests := false }
  | .failOnWarning => { o with failOnWarning := true }
  | .verbose => { o with verbose := true }

namespace Options

/-- The options of a run, from the flags that are given, in order, with their values. -/
def ofGiven (given : List (Flag × Text)) : Options :=
  given.foldl (fun o x => o.set x.1 x.2) default

end Options

/-- The paths of a run that names some; the current directory if it names none. -/
def pathsOf (operands : List Text) : List Text :=
  if operands.isEmpty then [['.']] else operands

/-! ## Reading the arguments -/

/-- What the arguments ask for. -/
inductive Request where
  /-- lint, with these flags and their values, in order, and these paths -/
  | lint (given : List (Flag × Text)) (operands : List Text)
  /-- print the version -/
  | version
  /-- print the help -/
  | help
  /-- an option is missing its value -/
  | missingValue (flag : Flag)
  /-- an option is not known -/
  | unknownOption (written : Text)
  deriving DecidableEq, Repr

/-- What was read so far: the flags, the paths, and the arguments from the first unknown option
on. -/
structure Reading where
  /-- the flags so far, with their values -/
  given : List (Flag × Text)
  /-- the paths so far -/
  operands : List Text
  /-- the first unknown option and the arguments after it that are no known options -/
  unknown : List Text
  deriving DecidableEq, Repr

namespace Reading

/-- Nothing read yet. -/
def start : Reading := ⟨[], [], []⟩

/-- Take a flag with its value. -/
def give (r : Reading) (f : Flag) (value : Text) : Reading :=
  { r with given := r.given ++ [(f, value)] }

/-- Take an argument that is no known option. -/
def take (r : Reading) (argument : Text) (looksLikeOption : Bool) : Reading :=
  if looksLikeOption || !r.unknown.isEmpty then { r with unknown := r.unknown ++ [argument] }
  else { r with operands := r.operands ++ [argument] }

/-- What the arguments ask for once all are read. -/
def request (r : Reading) : Request :=
  if r.unknown.any fun a => a = "-h".toList || a = "--help".toList then .help
  else
    match r.unknown with
    | first :: _ => .unknownOption first
    | [] => .lint r.given r.operands

end Reading

/-- The argument looks like an option. -/
def looksLikeOption (argument : Text) : Bool :=
  argument.head? == some '-' && 1 < argument.length

/-- Read `--option=value` for a flag that takes a value. -/
def inlineValue? (argument : Text) : Option (Flag × Text) :=
  let spelling := argument.takeWhile (· != '=')
  match argument.dropWhile (· != '='), Flag.ofSpelling? spelling with
  | _ :: value, some f =>
    if f.takesValue && "--".toList.isPrefixOf spelling then some (f, value) else none
  | _, _ => none

/-- Read a flag without value that shares its dash with others: the flag, and the argument that is
left for the others. -/
def sharedDash? : Text → Option (Flag × Text)
  | '-' :: letter :: next :: rest =>
    if letter = '-' then none
    else (Flag.ofSpelling? ['-', letter]).map fun f => (f, '-' :: next :: rest)
  | _ => none

/-- Read one argument that is not `--`. The result is a request to answer at once, or what is read
and how many of the arguments after it were taken. -/
def readArgument : Nat → Reading → Text → List Text → Except Request (Reading × List Text)
  | 0, r, argument, rest => .ok (r.take argument (looksLikeOption argument), rest)
  | fuel + 1, r, argument, rest =>
    if looksLikeOption argument then
      match Flag.ofSpelling? argument with
      | some .version => .error .version
      | some f =>
        if f.takesValue then
          match rest with
          | [] => .error (.missingValue f)
          | value :: rest => .ok (r.give f value, rest)
        else .ok (r.give f [], rest)
      | none =>
        match sharedDash? argument with
        | some (.version, _) => .error .version
        | some (f, others) => readArgument fuel (r.give f []) others rest
        | none =>
          match inlineValue? argument with
          | some (f, value) => .ok (r.give f value, rest)
          | none => .ok (r.take argument true, rest)
    else .ok (r.take argument false, rest)

/-- Read arguments. Each step takes at least one, so as much fuel as there are arguments is
enough. -/
def readArguments : Nat → Reading → List Text → Except Request Reading
  | 0, r, _ => .ok r
  | _ + 1, r, [] => .ok r
  | fuel + 1, r, argument :: rest =>
    if argument = "--".toList then
      if r.unknown.isEmpty then .ok { r with operands := r.operands ++ rest }
      else .ok { r with unknown := r.unknown ++ argument :: rest }
    else
      match readArgument argument.length r argument rest with
      | .error request => .error request
      | .ok (r', rest') => readArguments fuel r' rest'

/-- What the arguments of a run ask for. -/
def Request.ofArguments (arguments : List Text) : Request :=
  match readArguments arguments.length .start arguments with
  | .error request => request
  | .ok r => r.request

/-! ## Answers without a run -/

/-- The version. -/
def versionText : Text :=
  "0.1.0".toList

/-- The help, line by line. -/
def helpLines : List Text :=
  ["Usage: docfield-lint [options] [paths...]",
    "",
    "Check that Python docstrings document their signatures with Sphinx field lists",
    "",
    "Arguments:",
    "  paths                Python files or directories to lint (default: [\".\"])",
    "",
    "Options:",
    "  -V, --version        output the version number",
    "  --exclude <pattern>  Exclude files matching pattern (repeatable) (default:",
    "                       [])",
    "  --include <pattern>  Include only files matching pattern (repeatable)",
    "                       (default: [])",
    "  --no-tests           Exclude test_*.py, *_test.py, conftest.py and tests/",
    "                       directories",
    "  --fail-on-warning    Exit non-zero when warnings are reported (default:",
    "                       false)",
    "  -v, --verbose        Show detailed progress (default: false)",
    "  -h, --help           display help for command"].map String.toList

/-- The long options that can be suggested, without their dashes. -/
def longOptions : List Text :=
  (Flag.all.map Flag.long ++ ["--help".toList]).map (·.drop 2)

/-- What may have been meant by an unknown option, in words. -/
def suggestion (written : Text) : List Text :=
  if "--".toList.isPrefixOf written then
    let similar := (similarWords (written.drop 2) longOptions).map ("--".toList ++ ·)
    match similar with
    | [] => []
    | [one] => ["(Did you mean ".toList ++ one ++ "?)".toList]
    | several =>
      ["(Did you mean one of ".toList ++ Text.join ", ".toList several ++ "?)".toList]
  else []

/-- The complaint about an unknown option. -/
def unknownOptionLines (written : Text) : List Text :=
  ("error: unknown option '".toList ++ written ++ ['\'']) :: suggestion written

/-- The complaint about a missing value. -/
def missingValueLine (f : Flag) : Text :=
  "error: option '".toList ++ f.usage ++ "' argument missing".toList

end Command

end FieldLint
