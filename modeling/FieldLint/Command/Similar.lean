import FieldLint.Text.Units

/-!
# Words that are spelled alike

An edit inserts, deletes or replaces one code unit, or swaps two neighbours; no unit is edited
twice. A word that is mistyped gets the candidates suggested that are fewest edits away from it, at
most three, if they share enough with it.

This stands in the place of the suggestions that the `commander` package makes for an unknown
option. Nothing of them is left out for the options of this program.
-/

namespace FieldLint

/-- One word becomes the other by at most `k` edits. -/
def withinEdits : Nat → List Nat → List Nat → Bool
  | _, [], [] => true
  | 0, [], _ :: _ => false
  | 0, _ :: _, [] => false
  | k + 1, [], _ :: bs => withinEdits k [] bs
  | k + 1, _ :: as, [] => withinEdits k as []
  | 0, a :: as, b :: bs => a == b && withinEdits 0 as bs
  | k + 1, a :: as, b :: bs =>
    (a == b && withinEdits (k + 1) as bs) || withinEdits k as (b :: bs) ||
      withinEdits k (a :: as) bs || withinEdits k as bs ||
      match as, bs with
      | a' :: as', b' :: bs' => a == b' && a' == b && withinEdits k as' bs'
      | _, _ => false
  termination_by _ as bs => as.length + bs.length

/-- A word further away than this many edits is not suggested. -/
def maxEdits : Nat := 3

/-- How many edits lead from one word to another, if they are few enough. -/
def edits? (word candidate : Text) : Option Nat :=
  (List.range (maxEdits + 1)).find? fun k =>
    withinEdits k (Text.codeUnits word) (Text.codeUnits candidate)

/-- A candidate that many edits away shares enough with the word: more than four tenths of the
longer of the two. -/
def sharesEnough (word candidate : Text) (edits : Nat) : Bool :=
  let length := max (Text.units word) (Text.units candidate)
  4 * length < 10 * (length - edits)

/-- The candidates worth suggesting, with how many edits away they are. -/
def closeWords (word : Text) (candidates : List Text) : List (Text × Nat) :=
  candidates.filterMap fun candidate =>
    (edits? word candidate).bind fun k =>
      if 1 < Text.units candidate && sharesEnough word candidate k then some (candidate, k)
      else none

/-- The candidates fewest edits away from a word, in alphabetical order. -/
def similarWords (word : Text) (candidates : List Text) : List Text :=
  let close := closeWords word candidates
  let nearest := ((close.map (·.2)).min?).getD 0
  ((close.filter (·.2 == nearest)).map (·.1)).mergeSort Text.unitsLe

end FieldLint
