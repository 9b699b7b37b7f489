import FieldLint.Python.Grammar
import FieldLint.Python.Scanner

/-!
# Parsing Python source

Every source has a tree. A source that follows the grammar has the tree of its module. Any other has
a module with a single error node, on the row where the source stops making sense:

* the row where scanning had to stop, if it had to;
* otherwise the row of the innermost bracket that is never closed, if it comes before the last token
  looked at;
* otherwise, if a comma is missing between two expressions in brackets, the row of the first one;
* otherwise the row of the last token looked at.

`parse` stands in the place of the parser of the `tree-sitter-python` package, and the other modules
about Python are its parts. Left out is how that parser goes on after a mistake: it keeps what it
could read around one or more error nodes, and an error may be on another row than here. What else
is left out is said where the grammar is. What is said about linting does not rest on this parser:
there it is a parameter (`Frontend`), and a tree is any tree.
-/

namespace FieldLint

namespace Python

/-- More nested attempts than parsing this many tokens can need. -/
def enoughFuel (tokens : Nat) : Nat :=
  256 * (tokens + 8)

/-- A module with an error on a row. -/
def errorTree (source : Text) (row : Nat) : Tree :=
  let stop := Text.units source
  .node ⟨"module", none, true, 0, stop, 0⟩ [.node ⟨"ERROR", none, true, 0, stop, row⟩ []]

/-- The row of the token with an index. -/
def rowOf (tokens : List Token) (index : Nat) : Nat :=
  ((tokens.drop index).head?.map (·.row)).getD 0

/-! ## Missing commas -/

/-- What follows the longest match of a rule at the front of some tokens. -/
def restAfter? (fuel : Nat) (r : Rule) (tokens : List Token) : Option (List Token) :=
  (Pattern.run Rule.pattern fuel (.rule r) tokens).result.map (·.2)

/-- How many brackets are open after some more tokens, when `depth` were open before them. -/
def bracketDepth (depth : Nat) : List Token → Nat
  | [] => depth
  | t :: rest =>
    if TokenTest.accepts (.sign ["(", "[", "\x7b"]) t then bracketDepth (depth + 1) rest
    else if TokenTest.accepts (.sign [")", "]", "\x7d"]) t then bracketDepth (depth - 1) rest
    else bracketDepth depth rest

/-- The tokens open in a way that is more likely another mistake than an operand: a name right before
a string, or one of the words that open statements of their own. -/
def isUnlikelyOperand : List Token → Bool
  | first :: second :: _ =>
    first.kind == .name &&
      (second.kind == .string || second.kind == .formatStart ||
        ["match", "case", "_", "print", "exec"].contains first.text)
  | _ => false

/-- The row of the first operand that ends right before the token with an index. -/
def operandRow? (fuel index : Nat) : List Token → Option Nat
  | [] => none
  | t :: rest =>
    if index ≤ t.index then none
    else if !isUnlikelyOperand (t :: rest) &&
        (restAfter? fuel .boolean (t :: rest)).any (·.head?.any (·.index == index)) then
      some t.row
    else operandRow? fuel index rest

/-- The row of the expression after which a comma is missing, if another expression starts at the
token with an index and ends within brackets. -/
def missingCommaRow? (fuel : Nat) (tokens : List Token) (index : Nat) : Option Nat :=
  match restAfter? fuel .expression (tokens.drop index) with
  | none => none
  | some rest =>
    if bracketDepth 0 (tokens.take (tokens.length - rest.length)) = 0 then none
    else operandRow? fuel index tokens

/-! ## Parsing -/

/-- The row of the mistake in tokens that do not follow the grammar: parsing looked at none after
the one with the index `reach`. -/
def mistakeRow (fuel : Nat) (scanned : Scanned) (reach : Nat) : Nat :=
  let last := rowOf scanned.tokens reach
  match scanned.openBracket.filter (· < last) with
  | some row => row
  | none => (missingCommaRow? fuel scanned.tokens reach).getD last

/-- The tree of a source. -/
def parse (source : Text) : Tree :=
  let scanned := scan source
  match scanned.fault with
  | some row => errorTree source row
  | none =>
    let fuel := enoughFuel scanned.tokens.length
    let attempt := Pattern.run Rule.pattern fuel (.rule .file) scanned.tokens
    match attempt.result with
    | some ([tree], _) => tree
    | _ => errorTree source (mistakeRow fuel scanned attempt.reach)

end Python

end FieldLint
