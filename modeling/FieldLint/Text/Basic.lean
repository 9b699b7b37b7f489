/-!
# Text

Every text of the library is a list of characters, so that a statement about a line, a name or a
message is a statement about lists.

* `Text.Basic`: the type and joining with a separator.
* `Text.Blank`: which characters are blank, trimming and indentation.
* `Text.Lines`: cutting a text into lines and putting lines together.
* `Text.Units`: measuring, cutting and ordering by 16-bit code units.
-/

namespace FieldLint

/-- A text: its characters in order. -/
abbrev Text := List Char

namespace Text

/-- The pieces one after the other with `separator` between neighbours. -/
def join (separator : Text) (pieces : List Text) : Text :=
  separator.intercalate pieces

/-- Cut at every `separator`; the pieces hold none of them, and there is always at least one. -/
def splitAt (separator : Char) : Text → List Text
  | [] => [[]]
  | c :: rest =>
    if c = separator then [] :: splitAt separator rest
    else (splitAt separator rest).modifyHead (c :: ·)

/-- `none` for the empty text. -/
def nonempty? : Text → Option Text
  | [] => none
  | c :: rest => some (c :: rest)

/-- The decimal digits of a number. -/
def ofNat (n : Nat) : Text :=
  Nat.toDigits 10 n

@[simp]
theorem join_nil (separator : Text) : join separator [] = [] := by
  simp [join]

/-- One piece needs no separator. -/
@[simp]
theorem join_singleton (separator piece : Text) : join separator [piece] = piece := by
  simp [join]

/-- Only the empty text is none. -/
@[simp]
theorem nonempty?_eq_none_iff {t : Text} : nonempty? t = none ↔ t = [] := by
  cases t <;> simp [nonempty?]

/-- A text that is not empty is kept. -/
@[simp]
theorem nonempty?_eq_some_iff {t u : Text} : nonempty? t = some u ↔ t = u ∧ u ≠ [] := by
  cases t <;> simp [nonempty?]
  rintro rfl
  simp

end Text

end FieldLint
