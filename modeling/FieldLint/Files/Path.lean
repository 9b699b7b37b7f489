import FieldLint.Text.Basic

/-!
# Paths

An absolute path: the volume it is on and the names that lead to it. The volume without a name is
the root of the file system. A path that was written with a slash at its end keeps it as an empty
last name, which says that the path has to be a directory.
-/

namespace FieldLint

/-- An absolute path. -/
structure Path where
  /-- the volume; the unnamed one is the root of the file system -/
  volume : Text
  /-- the names from the root of the volume down -/
  segments : List Text
  deriving DecidableEq, Repr

namespace Path

/-- The path as it is written. -/
def text (p : Path) : Text :=
  match p.volume, p.segments with
  | [], [] => ['/']
  | volume, segments => volume ++ segments.flatMap fun segment => '/' :: segment

/-- Follow one name: a dot stays, two dots go up, and an empty name is nothing. -/
def follow (segments : List Text) (name : Text) : List Text :=
  if name.isEmpty || name = ['.'] then segments
  else if name = ['.', '.'] then segments.dropLast
  else segments ++ [name]

/-- The path without a slash at its end. -/
def withoutSlash (p : Path) : Path :=
  if p.segments.getLast? = some [] then { p with segments := p.segments.dropLast } else p

/-- The path was written with a slash at its end. -/
def hasSlash (p : Path) : Bool :=
  p.segments.getLast? == some []

/-- The path that `written` means in the directory `base`. -/
def resolve (base : Path) (written : Text) : Path :=
  let names := Text.splitAt '/' written
  if written.head? = some '/' then ⟨[], names.foldl follow []⟩
  else { base with segments := names.foldl follow base.withoutSlash.segments }

/-- The same, with a slash at the end kept. -/
def join (base : Path) (written : Text) : Path :=
  let p := base.resolve written
  if written.getLast? = some '/' && !p.segments.isEmpty then
    { p with segments := p.segments ++ [[]] }
  else p

/-- The names that lead from a directory down to a path, if it is below the directory. -/
def below? (directory p : Path) : Option (List Text) :=
  if p.volume = directory.volume && directory.segments.isPrefixOf p.segments then
    some (p.segments.drop directory.segments.length)
  else none

/-- How many names two lists open with in common. -/
def commonLength : List Text → List Text → Nat
  | a :: as, b :: bs => if a = b then commonLength as bs + 1 else 0
  | _, _ => 0

/-- The names that lead from a directory to a path: up from the directory, and down again. -/
def namesFrom (directory p : Path) : List Text :=
  let shared := commonLength directory.segments p.segments
  List.replicate (directory.segments.length - shared) ['.', '.'] ++ p.segments.drop shared

/-- The path as it is written in a directory. -/
def relativeTo (p directory : Path) : Text :=
  Text.join ['/'] (directory.namesFrom p)

/-- The last name of a path. -/
def base (p : Path) : Text :=
  p.segments.getLastD []

end Path

end FieldLint
