import FieldLint.Python.Lexeme
import FieldLint.Python.Token

/-!
# Scanning Python source

From a source text to its tokens.

* **Brackets.** Inside brackets line ends are blanks. Brackets have to close in order.
* **Layout.** Outside brackets the indentation of each logical line is compared with the ones still
  open. Lines with nothing but a comment do not count.
* **Formatted strings.** The text of a formatted string is skipped; an opening brace starts an
  interpolation, whose inside is scanned like code up to the brace that closes it. A colon directly
  in an interpolation starts its format, which is skipped like the text around it.

Scanning stops at the first character that starts no token and at a string that does not end. It
also stops after a line whose indentation was never opened, with a token that fits nowhere.

The `tree-sitter-python` package, in whose place this stands, scans while it parses and may take up
a source again after such a place. That is left out.
-/

namespace FieldLint

namespace Python

/-! ## State -/

/-- What the scanner is inside of. -/
inductive Nesting where
  /-- brackets, by the sign that closes them and the row they opened on -/
  | bracket (close : String) (row : Nat)
  /-- the text of a formatted string, with the row it started on -/
  | text (quote : Quote) (row : Nat)
  /-- the braces of an interpolation, opened on a row -/
  | interpolation (row : Nat)
  /-- the format of an interpolation in a formatted string that started on a row -/
  | format (quote : Quote) (row : Nat)
  deriving DecidableEq, Repr

/-- Where the scanner is and what it has found. -/
structure Scanner where
  /-- what is left to scan -/
  rest : Text
  /-- how many units stand before it -/
  offset : Nat
  /-- the row it starts on -/
  row : Nat
  /-- a logical line is about to start -/
  atLineStart : Bool
  /-- the indentations still open, deepest first; the outermost is 0 and not listed -/
  indents : List Nat
  /-- what the scanner is inside of, innermost first -/
  nesting : List Nesting
  /-- the tokens so far -/
  tokens : Array Token
  /-- the row where scanning had to stop -/
  fault : Option Nat

namespace Scanner

/-- The start of a source. A byte order mark in front of it is skipped. -/
def start (source : Text) : Scanner :=
  let s : Scanner := ⟨source, 0, 0, true, [], [], #[], none⟩
  match source with
  | '\uFEFF' :: rest => { s with rest := rest, offset := 1 }
  | _ => s

/-- Pass over the first `n` characters. -/
def skip (n : Nat) (s : Scanner) : Scanner :=
  let passed := s.rest.take n
  { s with
    rest := s.rest.drop n
    offset := s.offset + Text.units passed
    row := s.row + passed.count '\n' }

/-- Stop at a row. -/
def stopAt (row : Nat) (s : Scanner) : Scanner :=
  { s with fault := some row, rest := [] }

/-- Make a token of the first `n` characters and pass over them. -/
def emit (kind : TokenKind) (text : String) (n : Nat) (s : Scanner) : Scanner :=
  let next := s.skip n
  { next with tokens := s.tokens.push ⟨kind, text, s.offset, next.offset, s.row, s.tokens.size⟩ }

/-- Make a token without text of its own. -/
def emitLayout (kind : TokenKind) (s : Scanner) : Scanner :=
  s.emit kind "" 0

/-! ## Layout -/

/-- The column after a character of indentation: a tab goes to the next multiple of eight, a form
feed back to the start. -/
def columnAfter (column : Nat) (c : Char) : Nat :=
  if c = '\t' then (column / 8 + 1) * 8
  else if c = '\x0c' then 0
  else column + 1

/-- A character of indentation. -/
def isIndentation (c : Char) : Bool :=
  c == ' ' || c == '\t' || c == '\x0c'

/-- A blank between tokens that ends no line. -/
def isGap (c : Char) : Bool :=
  c == ' ' || c == '\t' || c == '\x0c' || c == '\r' || c == '\uFEFF' || c == '\u2060' ||
    c == '\u200B'

/-- Leave the indentations deeper than `column`, with a token for each. -/
def dedentTo (column : Nat) (s : Scanner) : Scanner :=
  let deeper := s.indents.takeWhile (column < ·)
  let left := deeper.foldl (fun acc _ => acc.emitLayout .dedent) s
  { left with indents := s.indents.drop deeper.length }

/-- Compare the indentation of a logical line with the ones still open. -/
def indentTo (column : Nat) (s : Scanner) : Scanner :=
  let current := s.indents.headD 0
  if current < column then { s.emitLayout .indent with indents := column :: s.indents }
  else
    let s' := s.dedentTo column
    if s'.indents.headD 0 = column then s' else { s.emitLayout .misindent with rest := [] }

/-- The indentation a text opens with: how many characters it has and the column it leads to. A line
may be continued in the middle of its indentation; then the column where it first was counts, if
there was one. -/
def indentation (column : Nat) (settled : Option Nat) : Text → Nat × Nat
  | '\\' :: '\n' :: rest =>
    let (n, c) := indentation column (settled.or (if column = 0 then none else some column)) rest
    (n + 2, c)
  | c :: rest =>
    if isIndentation c then
      let (n, c) := indentation (columnAfter column c) settled rest
      (n + 1, c)
    else (0, settled.getD column)
  | [] => (0, settled.getD column)

/-- Start a line: pass over its indentation, and unless there is nothing on it compare the
indentation with the ones still open. -/
def startLine (s : Scanner) : Scanner :=
  let (length, column) := indentation 0 none s.rest
  let s := s.skip length
  match s.rest with
  | [] => s
  | '\n' :: _ => s.skip 1
  | '\r' :: '\n' :: _ => s.skip 2
  | '#' :: _ => s.skip (s.rest.takeWhile (· != '\n')).length
  | _ => { s with atLineStart := false }.indentTo column

/-! ## Code -/

/-- The sign that closes a bracket. -/
def closing? : String → Option String
  | "(" => some ")"
  | "[" => some "]"
  | "\x7b" => some "\x7d"
  | _ => none

/-- The sign closes brackets. -/
def isClosing (sign : String) : Bool :=
  sign == ")" || sign == "]" || sign == "\x7d"

/-- The sign a text opens with. -/
def sign? (t : Text) : Option String :=
  signs.find? fun sign => sign.toList.isPrefixOf t

/-- Scan a closing sign: it has to close what is innermost. -/
def closeWith (sign : String) (s : Scanner) : Scanner :=
  match s.nesting with
  | .bracket close _ :: outer =>
    if close = sign then { s.emit .sign sign 1 with nesting := outer } else s.stopAt s.row
  | .interpolation _ :: outer =>
    if sign = "\x7d" then { s.emit .sign sign 1 with nesting := outer } else s.stopAt s.row
  | _ => s.stopAt s.row

/-- Scan an operator or delimiter. Directly in an interpolation a colon starts the format, and an
exclamation mark announces a conversion. -/
def scanSign (s : Scanner) : Scanner :=
  match s.nesting, s.rest with
  | .interpolation _ :: .text quote row :: _, ':' :: _ =>
    { s.emit .sign ":" 1 with nesting := .format quote row :: s.nesting }
  | .interpolation _ :: .format quote row :: _, ':' :: _ =>
    { s.emit .sign ":" 1 with nesting := .format quote row :: s.nesting }
  | nesting, rest =>
    match sign? rest with
    | some sign =>
      match closing? sign with
      | some close => { s.emit .sign sign 1 with nesting := .bracket close s.row :: nesting }
      | none => if isClosing sign then s.closeWith sign else s.emit .sign sign sign.length
    | none =>
      match nesting, rest with
      | .interpolation _ :: _, '!' :: _ => s.emit .sign "!" 1
      | _, _ => s.stopAt s.row

/-- Scan a string. -/
def scanString (quote : Quote) (s : Scanner) : Scanner :=
  if quote.isFormatted then
    { s.emit .formatStart "" quote.length with nesting := .text quote s.row :: s.nesting }
  else
    match stringTail? quote (s.rest.drop quote.length) with
    | some tail => s.emit .string "" (quote.length + tail.length)
    | none => s.stopAt s.row

/-- Scan a keyword or a name. -/
def scanWord (s : Scanner) : Scanner :=
  let word := s.rest.takeWhile isIdentifierPart
  let text := String.ofList word
  s.emit (if keywords.contains text then .sign else .name) text word.length

/-- Scan a number. -/
def scanNumber (s : Scanner) : Scanner :=
  match number? s.rest with
  | some piece => s.emit .number "" piece.length
  | none => s.stopAt s.row

/-- A number starts here. -/
def startsNumber : Text → Bool
  | '.' :: c :: _ => c.isDigit
  | c :: _ => c.isDigit
  | [] => false

/-- A line end: the end of a logical line unless it is inside brackets. -/
def scanLineEnd (s : Scanner) : Scanner :=
  if s.nesting.isEmpty then { s.emit .newline "" 1 with atLineStart := true } else s.skip 1

/-- Scan one token or blank of code. -/
def scanCode (s : Scanner) : Scanner :=
  match s.rest with
  | [] => s
  | '\n' :: _ => s.scanLineEnd
  | '#' :: _ => s.skip (s.rest.takeWhile (· != '\n')).length
  | '\\' :: '\n' :: _ :: _ => s.skip 2
  | '\\' :: '\r' :: '\n' :: _ :: _ => s.skip 3
  | c :: _ =>
    if isGap c then s.skip 1
    else
      match quote? s.rest with
      | some quote => s.scanString quote
      | none =>
        if isIdentifierStart c then s.scanWord
        else if startsNumber s.rest then s.scanNumber
        else s.scanSign

/-! ## Formatted strings -/

/-- The length of a backslash sequence in the text of a formatted string. A brace after the
backslash is not part of it, but a character name in braces is. -/
def escapeLength (quote : Quote) : Text → Nat
  | '\\' :: 'N' :: '\x7b' :: rest =>
    if quote.isRaw then 2 else 4 + (rest.takeWhile (· != '\x7d')).length
  | '\\' :: '\x7b' :: _ => 1
  | '\\' :: '\x7d' :: _ => 1
  | '\\' :: '\r' :: '\n' :: _ => 3
  | '\\' :: _ :: _ => 2
  | _ => 1

/-- Scan the text of a formatted string: one character, a doubled brace, the start of an
interpolation, or the closing quote. -/
def scanText (quote : Quote) (row : Nat) (s : Scanner) : Scanner :=
  if quote.mark.isPrefixOf s.rest then
    { s.emit .formatEnd "" quote.mark.length with nesting := s.nesting.drop 1 }
  else
    match s.rest with
    | [] => s.stopAt row
    | '\x7b' :: '\x7b' :: _ => s.skip 2
    | '\x7b' :: _ =>
      { s.emit .sign "\x7b" 1 with nesting := .interpolation s.row :: s.nesting }
    | '\x7d' :: '\x7d' :: _ => s.skip 2
    | '\x7d' :: _ => s.stopAt s.row
    | '\\' :: _ => s.skip (escapeLength quote s.rest)
    | '\n' :: _ => if quote.isLong then s.skip 1 else s.stopAt row
    | _ => s.skip 1

/-- Scan the format of an interpolation: one character, the start of an interpolation inside it, or
the brace that closes the interpolation around it. -/
def scanFormat (quote : Quote) (row : Nat) (s : Scanner) : Scanner :=
  if quote.mark.isPrefixOf s.rest then s.stopAt row
  else
    match s.rest with
    | [] => s.stopAt row
    | '\x7b' :: _ =>
      { s.emit .sign "\x7b" 1 with nesting := .interpolation s.row :: s.nesting }
    | '\x7d' :: _ => { s.emit .sign "\x7d" 1 with nesting := s.nesting.drop 2 }
    | '\\' :: _ => s.skip (escapeLength quote s.rest)
    | '\n' :: _ => if quote.isLong then s.skip 1 else s.stopAt row
    | _ => s.skip 1

/-! ## The whole source -/

/-- Scan one piece. -/
def step (s : Scanner) : Scanner :=
  match s.nesting with
  | .text quote row :: _ => s.scanText quote row
  | .format quote row :: _ => s.scanFormat quote row
  | [] => if s.atLineStart then s.startLine else s.scanCode
  | _ => s.scanCode

/-- Nothing is left to scan. -/
def isDone (s : Scanner) : Bool :=
  s.rest.isEmpty

/-- The string or interpolation that the source ends inside of, by the row it started on. -/
def unfinishedString? : List Nesting → Option Nat
  | [] => none
  | .text _ row :: _ => some row
  | .format _ row :: _ => some row
  | _ :: outer => unfinishedString? outer

/-- The last row of a source that has something on it. -/
def lastRow (source : Text) : Nat :=
  let rows := source.count '\n'
  if source.getLast? = some '\n' then rows - 1 else rows

/-- End the source: close the last line and all indentations. What ends there belongs to its last
row. -/
def finish (lastRow : Nat) (s : Scanner) : Scanner :=
  let s := { s with row := lastRow }
  if s.fault.isSome then s
  else
    match unfinishedString? s.nesting with
    | some row => s.stopAt row
    | none =>
      if s.nesting.isEmpty then
        let s := if s.atLineStart then s else s.emitLayout .newline
        (s.dedentTo 0).emitLayout .finish
      else s.emitLayout .finish

/-- Scan at most `fuel` pieces. -/
def run : Nat → Scanner → Scanner
  | 0, s => s
  | fuel + 1, s => if s.isDone then s else run fuel s.step

end Scanner

/-- The tokens of a source. -/
structure Scanned where
  /-- the tokens in order -/
  tokens : List Token
  /-- the row where scanning had to stop -/
  fault : Option Nat
  /-- the row of the innermost bracket still open at the end -/
  openBracket : Option Nat

/-- The row of the innermost bracket. -/
def innermostBracket? : List Nesting → Option Nat
  | .bracket _ row :: _ => some row
  | .interpolation row :: _ => some row
  | _ => none

/-- Scan a source. A piece is at least one character long, but for the start of a line, so twice as
many steps as characters are enough. -/
def scan (source : Text) : Scanned :=
  let s := (Scanner.run (2 * source.length + 2) (Scanner.start source)).finish
    (Scanner.lastRow source)
  ⟨s.tokens.toList, s.fault, innermostBracket? s.nesting⟩

end Python

end FieldLint
