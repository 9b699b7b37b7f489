import FieldLint.Python.Token

/-!
# Grammars as data

A grammar gives each of its rules a `Pattern`. One interpreter, `Pattern.run`, matches a pattern at
the front of a list of tokens and builds the trees for what it matched.

* **Choice is ordered.** The second alternative is tried only when the first one fails, and a
  repetition takes as much as it can.
* **Trees.** A token makes a leaf, a sequence the trees of its parts, and `shape` turns the trees of
  a match into other trees or rejects the match.
* **Reach.** The interpreter reports the last token that any attempt looked at. When the whole match
  fails, this is where the source stops making sense.

The `tree-sitter-python` package, in whose place the parser stands, follows several readings of a
source at once and repairs it where none goes on. Both are left out.
-/

namespace FieldLint

namespace Python

/-- What a token has to be. -/
inductive TokenTest where
  /-- a token of a kind -/
  | kind (k : TokenKind)
  /-- one of some keywords or signs -/
  | sign (texts : List String)
  /-- a name with a spelling -/
  | word (text : String)
  deriving DecidableEq, Repr

/-- The token is what the test asks for. -/
def TokenTest.accepts (test : TokenTest) (t : Token) : Bool :=
  match test with
  | kind k => t.kind == k
  | sign texts => t.kind == .sign && texts.contains t.text
  | word text => t.kind == .name && t.text == text

/-- A pattern over the rules `ρ` of a grammar. -/
inductive Pattern (ρ : Type) where
  /-- nothing at all -/
  | empty
  /-- a token, as a leaf -/
  | token (test : TokenTest)
  /-- a token that leaves no tree -/
  | skip (test : TokenTest)
  /-- what a rule says -/
  | rule (r : ρ)
  /-- one after the other -/
  | seq (first second : Pattern ρ)
  /-- the first that matches -/
  | alt (first second : Pattern ρ)
  /-- as often as it matches -/
  | many (p : Pattern ρ)
  /-- nothing, if the pattern would match here -/
  | look (p : Pattern ρ)
  /-- the pattern, with its trees turned into others -/
  | shape (p : Pattern ρ) (f : List Tree → Option (List Tree))

/-- How an attempt to match ended. -/
structure Attempt where
  /-- the trees and what follows them, if there was a match -/
  result : Option (List Tree × List Token)
  /-- the index of the last token looked at -/
  reach : Nat

namespace Attempt

/-- A match with nothing looked at. -/
def done (trees : List Tree) (rest : List Token) : Attempt :=
  ⟨some (trees, rest), 0⟩

/-- No match. -/
def failed (reach : Nat) : Attempt :=
  ⟨none, reach⟩

/-- The attempt, as one that followed another which looked at tokens up to `reach`. -/
def after (reach : Nat) (a : Attempt) : Attempt :=
  { a with reach := max reach a.reach }

end Attempt

namespace Pattern

variable {ρ : Type}

/-- Match a pattern at the front of some tokens. Each nested attempt has one unit of fuel less. -/
def run (grammar : ρ → Pattern ρ) : Nat → Pattern ρ → List Token → Attempt
  | 0, _, _ => .failed 0
  | _ + 1, empty, ts => .done [] ts
  | _ + 1, token test, ts =>
    match ts with
    | [] => .failed 0
    | t :: rest =>
      if test.accepts t then (Attempt.done [t.leaf] rest).after t.index else .failed t.index
  | _ + 1, skip test, ts =>
    match ts with
    | [] => .failed 0
    | t :: rest => if test.accepts t then (Attempt.done [] rest).after t.index else .failed t.index
  | fuel + 1, rule r, ts => run grammar fuel (grammar r) ts
  | fuel + 1, seq first second, ts =>
    match run grammar fuel first ts with
    | ⟨none, reach⟩ => .failed reach
    | ⟨some (trees, rest), reach⟩ =>
      match run grammar fuel second rest with
      | ⟨none, reach'⟩ => .failed (max reach reach')
      | ⟨some (others, rest'), reach'⟩ => ⟨some (trees ++ others, rest'), max reach reach'⟩
  | fuel + 1, alt first second, ts =>
    match run grammar fuel first ts with
    | ⟨some found, reach⟩ => ⟨some found, reach⟩
    | ⟨none, reach⟩ => (run grammar fuel second ts).after reach
  | fuel + 1, many p, ts =>
    match run grammar fuel p ts with
    | ⟨none, reach⟩ => (Attempt.done [] ts).after reach
    | ⟨some (trees, rest), reach⟩ =>
      match run grammar fuel (many p) rest with
      | ⟨none, reach'⟩ => ⟨some (trees, rest), max reach reach'⟩
      | ⟨some (others, rest'), reach'⟩ => ⟨some (trees ++ others, rest'), max reach reach'⟩
  | fuel + 1, look p, ts =>
    match run grammar fuel p ts with
    | ⟨none, reach⟩ => .failed reach
    | ⟨some _, reach⟩ => (Attempt.done [] ts).after reach
  | fuel + 1, shape p f, ts =>
    match run grammar fuel p ts with
    | ⟨none, reach⟩ => .failed reach
    | ⟨some (trees, rest), reach⟩ =>
      match f trees with
      | none => .failed reach
      | some shaped => ⟨some (shaped, rest), reach⟩

/-! ## Building patterns -/

/-- All of some patterns, in order. -/
def all : List (Pattern ρ) → Pattern ρ
  | [] => empty
  | [p] => p
  | p :: rest => seq p (all rest)

/-- The first of some patterns that matches. -/
def any : List (Pattern ρ) → Pattern ρ
  | [] => empty
  | [p] => p
  | p :: rest => alt p (any rest)

/-- The pattern or nothing. -/
def opt (p : Pattern ρ) : Pattern ρ :=
  alt p empty

/-- The pattern at least once. -/
def atLeastOne (p : Pattern ρ) : Pattern ρ :=
  seq p (many p)

/-- A keyword, an operator or a delimiter. -/
def sign (text : String) : Pattern ρ :=
  token (.sign [text])

/-- One of some signs. -/
def oneSign (texts : List String) : Pattern ρ :=
  token (.sign texts)

/-- An identifier. -/
def name : Pattern ρ :=
  token (.kind .name)

/-- The pattern once or more, with a separator between neighbours. -/
def sepBy (separator : String) (p : Pattern ρ) : Pattern ρ :=
  seq p (many (seq (sign separator) p))

/-- The pattern once or more, with commas between neighbours and possibly after the last. -/
def commaList (p : Pattern ρ) : Pattern ρ :=
  seq (sepBy "," p) (opt (sign ","))

/-! ## Building trees -/

/-- A node over some trees, from the first of them to the last. -/
def branch (kind : String) (trees : List Tree) : Tree :=
  let first := trees.head?.map Tree.info
  let last := trees.getLast?.map Tree.info
  .node ⟨kind, none, true, (first.map (·.start)).getD 0, (last.map (·.stop)).getD 0,
    (first.map (·.row)).getD 0⟩ trees

/-- The tree under a field of its parent. -/
def withField (field : String) : Tree → Tree
  | .node info children => .node { info with field := some field } children

/-- A node of a kind over what the pattern matches. -/
def node (kind : String) (p : Pattern ρ) : Pattern ρ :=
  shape p fun trees => some [branch kind trees]

/-- What the pattern matches, under a node of a kind unless it is a single tree. -/
def fold (kind : String) (p : Pattern ρ) : Pattern ρ :=
  shape p fun
    | [t] => some [t]
    | trees => some [branch kind trees]

/-- What the pattern matches, under a field of its parent. -/
def under (field : String) (p : Pattern ρ) : Pattern ρ :=
  shape p fun trees => some (trees.map (withField field))

/-- What the pattern matches, if it passes a test. -/
def when (p : Pattern ρ) (test : List Tree → Bool) : Pattern ρ :=
  shape p fun trees => if test trees then some trees else none

end Pattern

end Python

end FieldLint
