import FieldLint.Text.Lines

/-!
# Explicit markup

A line that opens with `..` and a blank starts a block of explicit markup: a directive with its
options, a comment, a target. The block goes on over blank lines and over lines indented deeper
than its opener. No line of it opens a field.
-/

namespace FieldLint

/-- The line opens a block of explicit markup. -/
def opensDirective (line : Text) : Bool :=
  match Text.trimStart line with
  | '.' :: '.' :: c :: _ => Text.isBlankChar c
  | _ => false

/-- The line goes on with the block whose opener is indented by `block`. -/
def continuesDirective (block : Option Nat) (line : Text) : Bool :=
  match block with
  | none => false
  | some depth => Text.isBlank line || depth < Text.indent line

/-- For every line, whether it belongs to a block of explicit markup. `block` is the indentation of
the block that is open before the first line. -/
def directiveFlags (block : Option Nat) : List Text → List Bool
  | [] => []
  | line :: rest =>
    if continuesDirective block line then true :: directiveFlags block rest
    else if opensDirective line then true :: directiveFlags (some (Text.indent line)) rest
    else false :: directiveFlags none rest

/-- Every line has a flag. -/
@[simp]
theorem length_directiveFlags (block : Option Nat) (lines : List Text) :
    (directiveFlags block lines).length = lines.length := by
  induction lines generalizing block with
  | nil => rfl
  | cons line rest ih =>
    simp only [directiveFlags]
    split
    · simp [ih]
    · split <;> simp [ih]

end FieldLint
