import FieldLint.Source.Tree

/-!
# String literals

The contents of a literal that can be a docstring: a plain or raw string, strings side by side, or
either of these in parentheses. Formatted strings and bytes have no contents here, and escapes are
kept as they are written.
-/

namespace FieldLint

/-- A letter that may stand before the quote of a plain or raw string. -/
def isStringLetter (c : Char) : Bool :=
  c == 'r' || c == 'R' || c == 'u' || c == 'U'

/-- The quotes of a string, longest first. -/
def quotes : List Text :=
  ["\"\"\"".toList, "'''".toList, "\"".toList, "'".toList]

/-- The text between a quote at the start and the same quote at the end. -/
def between? (quote t : Text) : Option Text :=
  if quote.isPrefixOf t && quote.isSuffixOf (t.drop quote.length) then
    some ((t.drop quote.length).take (t.length - 2 * quote.length))
  else none

/-- The contents of a string as it is written in a source. -/
def unquote? (t : Text) : Option Text :=
  quotes.findSome? fun quote => between? quote (t.dropWhile isStringLetter)

namespace Tree

mutual

/-- The contents of a literal. -/
def literal? (source : Text) : Tree → Option Text
  | node i cs =>
    if i.kind = "string" then unquote? (Text.slice i.start i.stop source)
    else if i.kind = "parenthesized_expression" then onlyLiteral? source cs
    else if i.kind = "concatenated_string" then joinedLiterals? source cs
    else none

/-- The contents of the only part among some nodes. -/
def onlyLiteral? (source : Text) : List Tree → Option Text
  | [] => none
  | t :: rest =>
    if t.isPart then if rest.any isPart then none else literal? source t
    else onlyLiteral? source rest

/-- The contents of all parts among some nodes, one after the other. -/
def joinedLiterals? (source : Text) : List Tree → Option Text
  | [] => some []
  | t :: rest =>
    if t.isPart then
      match literal? source t, joinedLiterals? source rest with
      | some piece, some others => some (piece ++ others)
      | _, _ => none
    else joinedLiterals? source rest

end

end Tree

end FieldLint
