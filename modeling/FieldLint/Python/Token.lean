import FieldLint.Source.Tree

/-!
# Tokens of Python

A source is cut into tokens before it is parsed. Beside words, numbers, strings and signs there are
tokens for the layout: the end of a logical line, a deeper indentation, the return from it, and the
end of the source. A formatted string is a pair of tokens with the tokens of its interpolations in
between.

Comments, which are nodes for the `tree-sitter-python` package, are no tokens here.
-/

namespace FieldLint

namespace Python

/-- What a token is. -/
inductive TokenKind where
  /-- an identifier -/
  | name
  /-- a number -/
  | number
  /-- a whole string that is not formatted -/
  | string
  /-- the opening quote of a formatted string, with its letters -/
  | formatStart
  /-- the closing quote of a formatted string -/
  | formatEnd
  /-- a keyword, an operator or a delimiter -/
  | sign
  /-- the end of a logical line -/
  | newline
  /-- the next line is indented deeper -/
  | indent
  /-- the next line is indented less -/
  | dedent
  /-- the next line is indented like no line that is still open -/
  | misindent
  /-- the end of the source -/
  | finish
  deriving DecidableEq, Repr

/-- A token and where it stands. -/
structure Token where
  /-- what it is -/
  kind : TokenKind
  /-- how it is written; kept for names and signs -/
  text : String
  /-- where it starts, in units of the source -/
  start : Nat
  /-- where it stops -/
  stop : Nat
  /-- its row, the first row being 0 -/
  row : Nat
  /-- how many tokens stand before it -/
  index : Nat
  deriving DecidableEq, Repr

/-- The kind of node a token makes in a tree. -/
def Token.nodeKind (t : Token) : String :=
  match t.kind with
  | .name => "identifier"
  | .number => "number"
  | .string => "string"
  | .formatStart => "string_start"
  | .formatEnd => "string_end"
  | _ => t.text

/-- The token as a leaf of a tree. -/
def Token.leaf (t : Token) : Tree :=
  .node ⟨t.nodeKind, none, t.kind != .sign, t.start, t.stop, t.row⟩ []

/-- The words that are never names. -/
def keywords : List String :=
  ["False", "None", "True", "and", "as", "assert", "async", "await", "break", "class", "continue",
    "def", "del", "elif", "else", "except", "finally", "for", "from", "global", "if", "import",
    "in", "is", "lambda", "nonlocal", "not", "or", "pass", "raise", "return", "try", "while",
    "with", "yield"]

/-- Operators and delimiters, longer ones before the shorter ones they start with. -/
def signs : List String :=
  ["**=", "//=", ">>=", "<<=", "...",
    "**", "//", ">>", "<<", "<=", ">=", "==", "!=", "<>", "->", "+=", "-=", "*=", "/=", "%=", "&=",
    "|=", "^=", "@=", ":=",
    "+", "-", "*", "/", "%", "@", "&", "|", "^", "~", "<", ">", "(", ")", "[", "]", "\x7b", "\x7d",
    ",", ":", ".", ";", "="]

end Python

end FieldLint
