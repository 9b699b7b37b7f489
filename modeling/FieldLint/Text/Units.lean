import FieldLint.Text.Basic

/-!
# Code units

Positions in a source text and the order of paths count 16-bit code units: a character of the
basic plane is one unit, any other is a pair of surrogates.
-/

namespace FieldLint

namespace Text

/-- How many units a character takes. -/
def charUnits (c : Char) : Nat :=
  if c.toNat < 0x10000 then 1 else 2

/-- How many units a text takes. -/
def units : Text → Nat
  | [] => 0
  | c :: rest => charUnits c + units rest

/-- The text without its first `n` units. A pair that `n` cuts in two is left out whole. -/
def dropUnits : Nat → Text → Text
  | _, [] => []
  | 0, c :: rest => c :: rest
  | n + 1, c :: rest => dropUnits (n + 1 - charUnits c) rest

/-- The longest opening of the text with at most `n` units. -/
def takeUnits : Nat → Text → Text
  | _, [] => []
  | n, c :: rest => if charUnits c ≤ n then c :: takeUnits (n - charUnits c) rest else []

/-- The part of a text from unit `start` up to unit `stop`. -/
def slice (start stop : Nat) (t : Text) : Text :=
  takeUnits (stop - start) (dropUnits start t)

/-- The units of a character: itself, or the two surrogates that stand for it. -/
def charCodeUnits (c : Char) : List Nat :=
  let n := c.toNat
  if n < 0x10000 then [n]
  else [0xD800 + (n - 0x10000) / 0x400, 0xDC00 + (n - 0x10000) % 0x400]

/-- The units of a text, the key by which texts are put in order. -/
def codeUnits (t : Text) : List Nat :=
  t.flatMap charCodeUnits

/-- The first list comes no later than the second in the order of dictionaries. -/
def lexLe : List Nat → List Nat → Bool
  | [], _ => true
  | _ :: _, [] => false
  | a :: as, b :: bs => a < b || (a == b && lexLe as bs)

/-- `t` comes no later than `u` in the order of code units. -/
def unitsLe (t u : Text) : Bool :=
  lexLe (codeUnits t) (codeUnits u)

end Text

end FieldLint
