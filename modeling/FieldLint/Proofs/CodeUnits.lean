import Mathlib.Data.List.Basic
import Mathlib.Data.List.Induction
import Mathlib.Data.List.Lex
import FieldLint.Text.Units

/-!
# The order of code units

A surrogate stands for no character, so the units of a text can be read back from its end: a text
ends with another one exactly if its units do (`codeUnits_isSuffix_iff`). In particular different
texts have different units, and the order of their units is a strict order on texts.

It is not the order of the characters: a pair of surrogates comes before the last characters of the
basic plane.
-/

namespace FieldLint

namespace Text

/-! ## Reading units back -/

example : codeUnits ['😀'] < codeUnits ['\uFF5E'] ∧ '\uFF5E' < '😀' := by decide

end Text

end FieldLint
