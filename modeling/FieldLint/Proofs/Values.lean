import Mathlib.Data.List.Basic
import FieldLint.Proofs.Reachable

/-!
# Which callables return a value

Whether a callable returns a value is found by searching its body, with nested definitions, lambdas
and return statements searched no further. Here it is told by one way down the body:

* `IsValue` — a return statement with something to return, or a `yield` expression;
* `ValueChain` — nodes from a child of the body down to such a node, each a child of the one before,
  that leave the scope of the callable nowhere and pass through no return statement;
* `anyGivesValue_iff` — the search succeeds exactly if there is such a chain;
* `extractModule_returnsValue` — so it is for every callable of a module.
-/

namespace FieldLint

namespace Tree

/-! ## Chains -/

/-- A return statement with a part that is neither its keyword nor a comment, or a `yield` with
something in it. The keyword in a `yield` expression is of the same kind and has no parts. -/
def IsValue (t : Tree) : Prop :=
  t.kind = "return_statement" ∧ (∃ c ∈ t.children, c.kind ≠ "return" ∧ c.kind ≠ "comment") ∨
    t.kind = "yield" ∧ t.children ≠ []

/-- The node is no function, class or lambda with a scope of its own. -/
def SharesScope (t : Tree) : Prop :=
  t.kind ≠ "function_definition" ∧ t.kind ≠ "class_definition" ∧ t.kind ≠ "lambda"

/-- The nodes lead from a child of the body to a node that gives a value of the callable around the
body. -/
structure ValueChain (body : Tree) (chain : List Tree) : Prop where
  /-- each is a child of the one before -/
  isChain : (body :: chain).IsChain fun parent child => child ∈ parent.children
  /-- none has a scope of its own -/
  sharesScope : ∀ x ∈ chain, x.SharesScope
  /-- none but the last is a return statement -/
  noReturn : ∀ x ∈ chain.dropLast, x.kind ≠ "return_statement"
  /-- there is a last one, and it gives a value -/
  isValue : ∃ x ∈ chain.getLast?, x.IsValue

theorem not_valueChain_nil (body : Tree) : ¬body.ValueChain [] := by
  rintro ⟨-, -, -, x, hx, -⟩
  cases hx

theorem valueChain_singleton_iff {body x : Tree} :
    body.ValueChain [x] ↔ x ∈ body.children ∧ x.SharesScope ∧ x.IsValue := by
  constructor
  · rintro ⟨hchain, hscope, -, y, hy, hvalue⟩
    obtain rfl : x = y := Option.some.inj hy
    exact ⟨(List.isChain_cons_cons.mp hchain).1, hscope x List.mem_cons_self, hvalue⟩
  · rintro ⟨hx, hscope, hvalue⟩
    refine ⟨List.isChain_cons_cons.mpr ⟨hx, .singleton x⟩, ?_, by simp, x, rfl, hvalue⟩
    simpa using hscope

/-- A chain goes on below a node that is no return statement. -/
theorem valueChain_cons_cons_iff {body x y : Tree} {chain : List Tree} :
    body.ValueChain (x :: y :: chain) ↔
      x ∈ body.children ∧ x.SharesScope ∧ x.kind ≠ "return_statement" ∧
        x.ValueChain (y :: chain) := by
  constructor
  · rintro ⟨hchain, hscope, hreturn, hvalue⟩
    rw [List.isChain_cons_cons] at hchain
    rw [List.forall_mem_cons] at hscope
    rw [List.dropLast_cons_cons, List.forall_mem_cons] at hreturn
    rw [List.getLast?_cons_cons] at hvalue
    exact ⟨hchain.1, hscope.1, hreturn.1, hchain.2, hscope.2, hreturn.2, hvalue⟩
  · rintro ⟨hx, hscope, hreturn, hrest⟩
    refine ⟨List.isChain_cons_cons.mpr ⟨hx, hrest.isChain⟩,
      List.forall_mem_cons.mpr ⟨hscope, hrest.sharesScope⟩, ?_, ?_⟩
    · rw [List.dropLast_cons_cons]
      exact List.forall_mem_cons.mpr ⟨hreturn, hrest.noReturn⟩
    · rw [List.getLast?_cons_cons]
      exact hrest.isValue

/-- The **step** of a chain: its first node gives a value, or a chain goes on below it. -/
theorem exists_valueChain_iff {body : Tree} :
    (∃ chain, body.ValueChain chain) ↔
      ∃ x ∈ body.children, x.SharesScope ∧
        (x.IsValue ∨ x.kind ≠ "return_statement" ∧ ∃ chain, x.ValueChain chain) := by
  constructor
  · rintro ⟨_ | ⟨x, _ | ⟨y, chain⟩⟩, h⟩
    · exact absurd h (not_valueChain_nil body)
    · obtain ⟨hx, hscope, hvalue⟩ := valueChain_singleton_iff.mp h
      exact ⟨x, hx, hscope, .inl hvalue⟩
    · obtain ⟨hx, hscope, hreturn, hrest⟩ := valueChain_cons_cons_iff.mp h
      exact ⟨x, hx, hscope, .inr ⟨hreturn, y :: chain, hrest⟩⟩
  · rintro ⟨x, hx, hscope, hvalue | ⟨hreturn, _ | ⟨y, chain⟩, hrest⟩⟩
    · exact ⟨[x], valueChain_singleton_iff.mpr ⟨hx, hscope, hvalue⟩⟩
    · exact absurd hrest (not_valueChain_nil x)
    · exact ⟨x :: y :: chain, valueChain_cons_cons_iff.mpr ⟨hx, hscope, hreturn, hrest⟩⟩

/-! ## The search -/

/-- The check on the kind of a node finds the nodes that share the scope. -/
theorem isNestedScope_eq_false_iff (t : Tree) : isNestedScope t.kind = false ↔ t.SharesScope := by
  simp [isNestedScope, SharesScope, and_assoc]

/-- The **step** of the search: a return statement is looked at and not searched, any other node in
the scope gives a value itself or has a child that does. -/
theorem givesValue_iff (t : Tree) :
    givesValue t = true ↔
      t.SharesScope ∧
        (t.IsValue ∨ t.kind ≠ "return_statement" ∧ anyGivesValue t.children = true) := by
  obtain ⟨i, cs⟩ := t
  rw [givesValue, ← isNestedScope_eq_false_iff, kind_node, children_node]
  rcases isNestedScope i.kind with _ | _
  · by_cases hreturn : i.kind = "return_statement"
    · simp [IsValue, returnsSomething, hreturn]
    · by_cases hyield : i.kind = "yield" <;> simp [IsValue, hreturn, hyield]
  · simp

/-- **The search finds exactly the chains**, whatever the tree. -/
theorem anyGivesValue_iff (body : Tree) :
    anyGivesValue body.children = true ↔ ∃ chain, body.ValueChain chain := by
  induction body using induction_on_children with
  | node i cs ih =>
    rw [anyGivesValue_eq_any, List.any_eq_true, exists_valueChain_iff]
    refine exists_congr fun x => and_congr_right fun hx => ?_
    rw [givesValue_iff, ih x hx]

theorem returnsValue_callableOf (kind : CallableKind) (all : List Parameter) (returnsValue : Bool) :
    (callableOf kind all returnsValue).returnsValue = returnsValue := by
  rcases kind with _ | _ | _
  · rfl
  · rcases all with _ | ⟨first, rest⟩ <;> rfl
  · rfl

end Tree

/-! ## Callables -/

/-- Whether the callable of a definition returns a value is told by the chains in its body. -/
structure Callable.ReturnsBy (c : Callable) (definition : Tree) : Prop where
  /-- a value is returned if a chain leads to it -/
  body : ∀ body, definition.childByField? "body" = some body →
    (c.returnsValue = true ↔ ∃ chain, body.ValueChain chain)
  /-- without a body there is none -/
  no_body : definition.childByField? "body" = none → c.returnsValue = false

/-- A declaration returns a value as its definition says. -/
theorem Tree.MakesDeclaration.returnsBy {source : Text} {t : Tree} {d : Declaration}
    (h : t.MakesDeclaration source d) {c : Callable} (hc : d.form = .callable c) :
    c.ReturnsBy t := by
  obtain ⟨scope, decorators, h⟩ := h
  obtain ⟨-, -, -, -, -, -, ⟨-, hform⟩ | ⟨-, hform⟩⟩ := declarationOf?_eq_some h
  · rw [hform] at hc
    cases hc
  · rw [hform] at hc
    obtain rfl := Form.callable.inj hc
    have hbody : bodyOf? t.children = (t.childByField? "body").map children := rfl
    refine ⟨fun body hsome => ?_, fun hnone => ?_⟩
    · rw [returnsValue_callableOf, hbody, hsome]
      exact anyGivesValue_iff body
    · rw [returnsValue_callableOf, hbody, hnone]
      rfl

/-- **A callable returns a value** exactly if a chain of children leads from its body to a return
statement with something to return or to a `yield` expression, without entering a nested function,
class or lambda and without passing through a return statement. This holds of every callable of
every module, each paired with the definition it was read from. -/
theorem extractModule_returnsValue {source filePath : Text} {root : Tree} {module : Signature}
    (h : extractModule source filePath root = .ok module) :
    List.Forall₂ (fun (t : Tree) d => t.outline? source = d.outline? ∧
        ∀ c, d.form = .callable c → c.ReturnsBy t)
      root.reachableDefinitions (Signature.preorderAll module.children) := by
  rw [Tree.eq_of_extractModule h]
  refine ((Tree.readsDefinitions source root).body .module).imp fun t d ht => ?_
  obtain ⟨o, ho, ho'⟩ := ht.outline?_eq
  exact ⟨ho'.trans ho.symm, fun c hc => ht.returnsBy hc⟩

/-- A function with a bare return around a generator: the `yield` in the `if` statement is a value of
the inner function alone. -/
theorem extractModule_returnsValue_generator :
    let source := "def f(x):\n  def g():\n    if x: yield\n  return\n".toList
    let leaf (kind : String) (field : Option String) (start stop row : Nat) :=
      Tree.node ⟨kind, field, true, start, stop, row⟩ []
    let generator := Tree.node ⟨"block", some "body", true, 25, 36, 2⟩
      [.node ⟨"if_statement", none, true, 25, 36, 2⟩
        [leaf "identifier" (some "condition") 28 29 2,
          .node ⟨"block", some "consequence", true, 31, 36, 2⟩
            [.node ⟨"expression_statement", none, true, 31, 36, 2⟩
              [.node ⟨"yield", none, true, 31, 36, 2⟩ [leaf "yield" none 31 36 2]]]]]
    let g := Tree.node ⟨"function_definition", none, true, 12, 36, 1⟩
      [leaf "identifier" (some "name") 16 17 1, leaf "parameters" (some "parameters") 17 19 1,
        generator]
    let body := Tree.node ⟨"block", some "body", true, 12, 45, 1⟩
      [g, .node ⟨"return_statement", none, true, 39, 45, 3⟩ [leaf "return" none 39 45 3]]
    let f := Tree.node ⟨"function_definition", none, true, 0, 45, 0⟩
      [leaf "identifier" (some "name") 4 5 0,
        .node ⟨"parameters", some "parameters", true, 5, 8, 0⟩ [leaf "identifier" none 6 7 0], body]
    let root := Tree.node ⟨"module", none, true, 0, 46, 0⟩ [f]
    let module := Signature.node ⟨.module "f.py".toList, "f.py".toList, 0, none, false⟩
      [.node ⟨.callable ⟨.function, [⟨"x".toList, false⟩], none, false⟩, "f".toList, 1, none, false⟩
        [.node ⟨.callable ⟨.function, [], none, true⟩, "g".toList, 2, none, false⟩ []]]
    extractModule source "f.py".toList root = .ok module ∧ root.reachableDefinitions = [f, g] ∧
      (¬∃ chain, body.ValueChain chain) ∧ ∃ chain, generator.ValueChain chain := by
  intro source leaf generator g body f root module
  have hread : extractModule source "f.py".toList root = .ok module := rfl
  have hdefinitions : root.reachableDefinitions = [f, g] := by
    simp [Tree.reachableDefinitions_eq, Tree.nodesWhere_declares, Tree.definitionsIn_eq,
      Tree.isDefinition, Tree.childByField?, root, f, body, g, generator, leaf]
  have h := extractModule_returnsValue hread
  rw [hdefinitions] at h
  obtain _ | ⟨⟨-, hf⟩, _ | ⟨⟨-, hg⟩, -⟩⟩ := h
  refine ⟨hread, hdefinitions, ?_, ?_⟩
  · rw [← (hf _ rfl).body body rfl]
    decide
  · rw [← (hg _ rfl).body generator rfl]

end FieldLint
