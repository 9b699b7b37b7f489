import FieldLint.Python.Identifier
import FieldLint.Text.Basic

/-!
# Pieces of Python source

How long the word, number or string is that a text opens with. Each function gives the characters
that belong to the piece; what follows them is left to the scanner.

The pieces are those of the `tree-sitter-python` package, in whose place the scanner stands. It cuts
a string further, into its quotes, its escapes and the text between them; that is left out.
-/

namespace FieldLint

namespace Python

/-! ## Numbers -/

/-- Digits with single underscores between them, from a text that is inside a number. -/
def digitRun (isDigit : Char → Bool) : Text → Text
  | '_' :: c :: rest => if isDigit c then '_' :: c :: digitRun isDigit rest else []
  | c :: rest => if isDigit c then c :: digitRun isDigit rest else []
  | [] => []

/-- Digits with single underscores between them; empty unless a digit comes first. -/
def digits (isDigit : Char → Bool) : Text → Text
  | c :: rest => if isDigit c then c :: digitRun isDigit rest else []
  | [] => []

/-- A digit to base 2, 8 or 16, by the letter that announces the base. -/
def radixDigit? : Char → Option (Char → Bool)
  | 'x' | 'X' => some fun c => c.isDigit || ('a' ≤ c && c ≤ 'f') || ('A' ≤ c && c ≤ 'F')
  | 'o' | 'O' => some fun c => '0' ≤ c && c ≤ '7'
  | 'b' | 'B' => some fun c => c == '0' || c == '1'
  | _ => none

/-- The exponent a text opens with, if it does. -/
def exponent : Text → Text
  | e :: sign :: rest =>
    if e == 'e' || e == 'E' then
      if sign == '+' || sign == '-' then
        match digits Char.isDigit rest with
        | [] => []
        | ds => e :: sign :: ds
      else
        match digits Char.isDigit (sign :: rest) with
        | [] => []
        | ds => e :: ds
    else []
  | _ => []

/-- The fraction a text opens with, if it does: a point and what digits follow. -/
def fraction : Text → Text
  | '.' :: rest => '.' :: digits Char.isDigit rest
  | _ => []

/-- The letter of an imaginary number, if it comes next. -/
def imaginary : Text → Text
  | c :: _ => if c == 'j' || c == 'J' then [c] else []
  | [] => []

/-- A number to base 10 with fraction, exponent and imaginary letter. -/
def decimalNumber (t : Text) : Text :=
  let whole := digits Char.isDigit t
  let point := fraction (t.drop whole.length)
  let power := exponent (t.drop (whole.length + point.length))
  whole ++ point ++ power ++ imaginary (t.drop (whole.length + point.length + power.length))

/-- The keywords that may follow a number without a blank. -/
def keywordsAfterNumber : List Text :=
  ["and".toList, "else".toList, "for".toList, "if".toList, "in".toList, "is".toList, "or".toList,
    "not".toList]

/-- A number may end before this text: no word goes on right there, save a keyword. -/
def endsNumber (rest : Text) : Bool :=
  match rest with
  | [] => true
  | c :: _ => !isIdentifierPart c || keywordsAfterNumber.any (·.isPrefixOf rest)

/-- The number a text opens with. `none` if it is no proper one. -/
def number? (t : Text) : Option Text :=
  let piece :=
    match t with
    | '0' :: letter :: rest =>
      match radixDigit? letter with
      | some isDigit =>
        match digitRun isDigit rest with
        | [] => []
        | ds => '0' :: letter :: ds
      | none => decimalNumber t
    | _ => decimalNumber t
  if !piece.isEmpty && endsNumber (t.drop piece.length) then some piece else none

/-! ## Strings -/

/-- The letters that may stand before a quote, in lower case. -/
def stringLetters : List Text :=
  ["".toList, "r".toList, "u".toList, "b".toList, "f".toList, "br".toList, "rb".toList, "fr".toList,
    "rf".toList]

/-- The opening of a string. -/
structure Quote where
  /-- the letters before the quote -/
  letters : Text
  /-- the quote itself, one or three characters -/
  mark : Text
  deriving DecidableEq, Repr

namespace Quote

/-- The string is formatted. -/
def isFormatted (q : Quote) : Bool :=
  q.letters.any fun c => c == 'f' || c == 'F'

/-- Backslashes stand for themselves. -/
def isRaw (q : Quote) : Bool :=
  q.letters.any fun c => c == 'r' || c == 'R'

/-- The string may run over several lines. -/
def isLong (q : Quote) : Bool :=
  q.mark.length == 3

/-- How many characters the opening has. -/
def length (q : Quote) : Nat :=
  q.letters.length + q.mark.length

end Quote

/-- The quotes of a string, longest first. -/
def quoteMarks : List Text :=
  ["\"\"\"".toList, "'''".toList, "\"".toList, "'".toList]

/-- The opening of the string a text opens with, if it does. -/
def quote? (t : Text) : Option Quote :=
  let letters := t.takeWhile Char.isAlpha
  if stringLetters.contains (letters.map Char.toLower) then
    (quoteMarks.find? (·.isPrefixOf (t.drop letters.length))).map fun mark => ⟨letters, mark⟩
  else none

/-- The rest of a string after its opening, up to and with the closing quote. `none` if the string
does not end, or, for a short one, not on its line. -/
def stringTail? (q : Quote) : Text → Option Text
  | [] => none
  | '\\' :: '\r' :: '\n' :: rest => (stringTail? q rest).map (['\\', '\r', '\n'] ++ ·)
  | '\\' :: c :: rest => (stringTail? q rest).map (['\\', c] ++ ·)
  | c :: rest =>
    if q.mark.isPrefixOf (c :: rest) then some q.mark
    else if c == '\n' && !q.isLong then none
    else (stringTail? q rest).map (c :: ·)

end Python

end FieldLint
