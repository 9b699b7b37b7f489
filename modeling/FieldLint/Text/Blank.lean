import FieldLint.Text.Basic

/-!
# Blank characters

A character is blank when it stands in the table `blankRanges`: the controls from tab to carriage
return, the space, the space separators of Unicode, its two line separators, and the byte order
mark. The next-line control and the zero-width space are not blank.

Trimming removes blanks at the ends, the indentation of a line is the number of blanks it opens
with, and a line is blank when it has nothing else.
-/

namespace FieldLint

namespace Text

/-- The blank characters, as closed ranges of code points in increasing order. -/
def blankRanges : List (Nat × Nat) :=
  [(0x09, 0x0D), (0x20, 0x20), (0xA0, 0xA0), (0x1680, 0x1680), (0x2000, 0x200A), (0x2028, 0x2029),
    (0x202F, 0x202F), (0x205F, 0x205F), (0x3000, 0x3000), (0xFEFF, 0xFEFF)]

/-- The character is blank. -/
def isBlankChar (c : Char) : Bool :=
  blankRanges.any fun range => range.1 ≤ c.toNat && c.toNat ≤ range.2

/-- The text has no character but blanks. -/
def isBlank (t : Text) : Bool :=
  t.all isBlankChar

/-- The text without the blanks it opens with. -/
def trimStart (t : Text) : Text :=
  t.dropWhile isBlankChar

/-- The text without the blanks it ends with. -/
def trimEnd (t : Text) : Text :=
  (t.reverse.dropWhile isBlankChar).reverse

/-- The text without the blanks at its two ends. -/
def trim (t : Text) : Text :=
  trimEnd (trimStart t)

/-- How many blanks the text opens with. -/
def indent (t : Text) : Nat :=
  (t.takeWhile isBlankChar).length

@[simp]
theorem trimStart_nil : trimStart [] = [] := rfl

@[simp]
theorem trimEnd_nil : trimEnd [] = [] := rfl

@[simp]
theorem trim_nil : trim [] = [] := rfl

/-- The blanks in front and the rest make up the text. -/
theorem takeWhile_append_trimStart (t : Text) : t.takeWhile isBlankChar ++ trimStart t = t :=
  List.takeWhile_append_dropWhile

/-- Nothing is left of a text by trimming exactly when it is blank. -/
theorem trimStart_eq_nil_iff {t : Text} : trimStart t = [] ↔ isBlank t = true := by
  induction t with
  | nil => simp [isBlank]
  | cons c rest ih =>
    by_cases h : isBlankChar c <;> simp_all [trimStart, isBlank]

end Text

end FieldLint
