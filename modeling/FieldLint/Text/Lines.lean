import FieldLint.Text.Blank

/-!
# Lines

A line ends at a line feed; a carriage return right before it belongs to the line end. A carriage
return anywhere else is an ordinary character of its line.
-/

namespace FieldLint

namespace Text

/-- The lines of a text. The empty text has one empty line. -/
def lines : Text → List Text
  | [] => [[]]
  | '\n' :: rest => [] :: lines rest
  | '\r' :: '\n' :: rest => [] :: lines rest
  | c :: rest => (lines rest).modifyHead (c :: ·)

/-- Lines put together with a line feed between neighbours. -/
def unlines (ls : List Text) : Text :=
  join ['\n'] ls

/-- The characters after which a line of prose cannot go on: line feed, carriage return and the
two line separators of Unicode. -/
def isTerminator (c : Char) : Bool :=
  c == '\n' || c == '\r' || c == '\u2028' || c == '\u2029'

/-- Even the empty text has a line. -/
theorem lines_ne_nil (t : Text) : lines t ≠ [] := by
  fun_induction lines t with
  | case1 => simp
  | case2 => simp
  | case3 => simp
  | case4 _ _ _ _ ih => simpa [List.modifyHead_eq_nil_iff] using ih

end Text

end FieldLint
