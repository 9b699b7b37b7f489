import FieldLint.Text.Lines

/-!
# Cleaning the indentation of a docstring

A docstring in a source file carries the indentation of the code around it. Cleaning removes it:
a tab counts as eight spaces, the first line loses its own indentation, the other lines lose the
margin they share, trailing blanks go, and so do empty lines at both ends.
-/

namespace FieldLint

/-- The text with eight spaces for every tab. -/
def expandTabs (t : Text) : Text :=
  t.flatMap fun c => if c = '\t' then List.replicate 8 ' ' else [c]

/-- The smallest indentation of the lines that are not blank, if there are such lines. -/
def margin? (lines : List Text) : Option Nat :=
  ((lines.filter (!Text.isBlank ·)).map Text.indent).min?

/-- Lines without the empty ones at both ends. -/
def dropOuterEmpty (lines : List Text) : List Text :=
  ((lines.dropWhile List.isEmpty).reverse.dropWhile List.isEmpty).reverse

/-- Clean the lines of a docstring: the first one on its own, the others together. -/
def cleanLines : List Text → List Text
  | [] => []
  | first :: rest =>
    let margin := (margin? rest).getD 0
    Text.trim first :: rest.map fun line => Text.trimEnd (line.drop margin)

/-- Clean a docstring. `none` when nothing is left of it. -/
def cleanDocstring (raw : Text) : Option Text :=
  match dropOuterEmpty (cleanLines (Text.lines (expandTabs raw))) with
  | [] => none
  | line :: rest => some (Text.unlines (line :: rest))

end FieldLint
