import FieldLint.Text.Units

/-!
# Path patterns

A pattern is matched against the names that lead from a directory to a file, in code units.

* `*` stands for any characters of a name, `?` for one, `[ab]` for one of some, `[!ab]` for one that
  is none of them.
* `**` as a name of its own stands for any number of names.
* `{a,b}` makes a pattern for each alternative.
* A pattern may open with `./`; one that ends with `/` is about directories.

Patterns that choose files do not let a wildcard match a leading dot; patterns that leave files out
do.

These are the common patterns of the `glob` package, in whose place they stand. Its other patterns
are left out: a range in braces (`{a..c}`), `@(a|b)` and the like, a named class (`[[:alpha:]]`), a
pattern that is an absolute path and one that goes up by `..`. What is said about the files to lint
does not rest on this module: there the search for files is a parameter (`FileSearch`).
-/

namespace FieldLint

/-! ## Alternatives -/

/-- Cut at commas outside braces. `depth` is the number of braces around the text. -/
def splitAlternatives : Nat → Text → List Text
  | _, [] => [[]]
  | depth, c :: rest =>
    if c = ',' && depth = 0 then [] :: splitAlternatives 0 rest
    else
      let inner := if c = '\x7b' then depth + 1 else if c = '\x7d' then depth - 1 else depth
      (splitAlternatives inner rest).modifyHead (c :: ·)

/-- The inside of a brace and what follows the one that closes it, from the text after the opening
brace. -/
def closeBrace? : Nat → Text → Option (Text × Text)
  | _, [] => none
  | depth, c :: rest =>
    if c = '\x7d' then
      if depth = 0 then some ([], rest)
      else (closeBrace? (depth - 1) rest).map fun (inside, after) => (c :: inside, after)
    else
      let deeper := if c = '\x7b' then depth + 1 else depth
      (closeBrace? deeper rest).map fun (inside, after) => (c :: inside, after)

/-- The patterns a pattern with alternatives stands for. Each step consumes a brace, so as much fuel
as the text is long is enough. -/
def expandAlternatives : Nat → Text → List Text
  | 0, t => [t]
  | fuel + 1, t =>
    let before := t.takeWhile (· != '\x7b')
    match t.dropWhile (· != '\x7b') with
    | [] => [t]
    | brace :: rest =>
      match closeBrace? 0 rest with
      | none => (expandAlternatives fuel rest).map fun after => before ++ brace :: after
      | some (inside, after) =>
        let choices := match splitAlternatives 0 inside with
          | [_] => (expandAlternatives fuel inside).map fun t => '\x7b' :: t ++ ['\x7d']
          | parts => parts.flatMap (expandAlternatives fuel)
        let afters := expandAlternatives fuel after
        choices.flatMap fun choice => afters.map fun after => before ++ choice ++ after

/-! ## Names -/

/-- A piece of a pattern for one name. -/
inductive GlobPiece where
  /-- a code unit itself -/
  | unit (u : Nat)
  /-- any units -/
  | anyRun
  /-- any one unit -/
  | anyUnit
  /-- one unit in, or in none of, some ranges -/
  | oneOf (negated : Bool) (ranges : List (Nat × Nat))
  deriving DecidableEq, Repr

namespace GlobPiece

/-- The piece stands for one unit, and `u` is such a one. -/
def acceptsUnit (u : Nat) : GlobPiece → Bool
  | unit v => u == v
  | anyRun => false
  | anyUnit => true
  | oneOf negated ranges => (ranges.any fun r => r.1 ≤ u && u ≤ r.2) != negated

/-- The piece is a wildcard. -/
def isWild : GlobPiece → Bool
  | unit _ => false
  | _ => true

/-- The units match the pieces one after the other. -/
def allMatch : List GlobPiece → List Nat → Bool
  | [], [] => true
  | [], _ :: _ => false
  | anyRun :: pieces, [] => allMatch pieces []
  | anyRun :: pieces, u :: units =>
    allMatch pieces (u :: units) || allMatch (anyRun :: pieces) units
  | _ :: _, [] => false
  | piece :: pieces, u :: units => piece.acceptsUnit u && allMatch pieces units
  termination_by pieces units => pieces.length + units.length

/-- The ranges in the text of a class. -/
def classRanges : Text → List (Nat × Nat)
  | a :: '-' :: b :: rest => (a.toNat, b.toNat) :: classRanges rest
  | a :: rest => (a.toNat, a.toNat) :: classRanges rest
  | [] => []

/-- The class a text opens with after its bracket, and what follows it. A closing bracket in the
first place is an ordinary character. -/
def class? (t : Text) : Option (GlobPiece × Text) :=
  let negated := t.head? == some '!' || t.head? == some '^'
  let body := if negated then t.drop 1 else t
  match body with
  | [] => none
  | first :: rest =>
    match rest.dropWhile (· != ']') with
    | [] => none
    | _ :: after =>
      some (oneOf negated (classRanges (first :: rest.takeWhile (· != ']'))), after)

/-- Read the pattern for one name. Each piece consumes a character, so as much fuel as the text is
long is enough. -/
def ofText : Nat → Text → List GlobPiece
  | 0, _ => []
  | _ + 1, [] => []
  | fuel + 1, c :: rest =>
    let plain (c : Char) := (Text.charCodeUnits c).map unit
    match c, rest with
    | '*', _ => anyRun :: ofText fuel rest
    | '?', _ => anyUnit :: ofText fuel rest
    | '[', _ =>
      match class? rest with
      | some (piece, after) => piece :: ofText fuel after
      | none => plain c ++ ofText fuel rest
    | '\\', escaped :: after => plain escaped ++ ofText fuel after
    | _, _ => plain c ++ ofText fuel rest

end GlobPiece

/-! ## Patterns -/

/-- A part of a pattern between slashes. -/
inductive GlobSegment where
  /-- any number of names -/
  | anyDepth
  /-- one name -/
  | name (pieces : List GlobPiece)
  deriving DecidableEq, Repr

/-- A pattern without alternatives. -/
structure Glob where
  /-- the parts between slashes -/
  segments : List GlobSegment
  /-- the pattern ends with a slash -/
  forDirectories : Bool
  /-- the pattern starts at the root of the file system -/
  isAbsolute : Bool
  deriving DecidableEq, Repr

namespace Glob

/-- Whether a wildcard may match a leading dot. -/
inductive DotRule where
  | wildcardsSkipDots
  | wildcardsMatchDots
  deriving DecidableEq, Repr

/-- A wildcard may match the start of the name. -/
def DotRule.allows (dots : DotRule) (name : Text) : Bool :=
  dots == .wildcardsMatchDots || name.head? != some '.'

/-- The pieces match the name. -/
def nameMatches (dots : DotRule) (pieces : List GlobPiece) (name : Text) : Bool :=
  (dots.allows name || !pieces.head?.any GlobPiece.isWild) &&
    GlobPiece.allMatch pieces (Text.codeUnits name)

/-- The parts match the names one after the other. -/
def allMatch (dots : DotRule) : List GlobSegment → List Text → Bool
  | [], [] => true
  | [], _ :: _ => false
  | .anyDepth :: segments, [] => allMatch dots segments []
  | .anyDepth :: segments, name :: names =>
    allMatch dots segments (name :: names) ||
      (dots.allows name && allMatch dots (.anyDepth :: segments) names)
  | .name _ :: _, [] => false
  | .name pieces :: segments, name :: names =>
    nameMatches dots pieces name && allMatch dots segments names
  termination_by segments names => segments.length + names.length

/-- Read a pattern without alternatives. -/
def ofText (t : Text) : Glob :=
  let parts := Text.splitAt '/' t
  { segments := (parts.filter fun part => !part.isEmpty && part != ['.']).map fun part =>
      if part = ['*', '*'] then .anyDepth else .name (GlobPiece.ofText part.length part)
    forDirectories := parts.getLast? == some []
    isAbsolute := t.head? == some '/' }

/-- The patterns that a text with alternatives stands for. -/
def ofPattern (t : Text) : List Glob :=
  (expandAlternatives t.length t).map ofText

/-- The pattern chooses the file with these names. -/
def includes (g : Glob) (names : List Text) : Bool :=
  !g.isAbsolute && !g.forDirectories && allMatch .wildcardsSkipDots g.segments names

/-- The pattern leaves out the file with these names. A slash at its end makes no difference. -/
def excludes (g : Glob) (names : List Text) : Bool :=
  !g.isAbsolute && allMatch .wildcardsMatchDots g.segments names

end Glob

end FieldLint
