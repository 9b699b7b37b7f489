import FieldLint.Text.Blank

/-!
# Folding

The text of a field may run over many lines. Folding makes one line of it: each piece is trimmed,
empty pieces are dropped, and the others are joined by single spaces.
-/

namespace FieldLint

/-- Fold pieces of text into one line. -/
def foldText (pieces : List Text) : Text :=
  Text.join [' '] ((pieces.map Text.trim).filter (!·.isEmpty))

/-- Nothing folds to nothing. -/
@[simp]
theorem foldText_nil : foldText [] = [] := by
  simp [foldText]

end FieldLint
