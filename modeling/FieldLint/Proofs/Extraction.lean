import Mathlib.Data.List.Basic
import FieldLint.Source.Extract

/-!
# Extraction, node by node

The functions that read a syntax tree go through lists of children one by one. Here each of them is
given by what it looks up among the children of a node: `ofDefinition` reads a definition,
`ofStatement_eq` says which definition of a statement is read, and the declarations of several
statements are those of each (`ofStatements_eq_flatMap`).

`declarationOf?_eq_some` says all that is known about a declaration that was read, so that no later
proof has to open `declarationOf?`.
-/

namespace FieldLint

namespace Tree

/-! ## Values and literals -/

theorem anyGivesValue_eq_any (cs : List Tree) : anyGivesValue cs = cs.any givesValue := by
  induction cs with
  | nil => rfl
  | cons t rest ih => rw [anyGivesValue, ih, List.any_cons]

/-- A literal in parentheses is the one part that stands in them. -/
theorem onlyLiteral?_eq (source : Text) (cs : List Tree) :
    onlyLiteral? source cs =
      match cs.filter isPart with
      | [t] => t.literal? source
      | _ => none := by
  induction cs with
  | nil => rfl
  | cons t rest ih =>
    rw [onlyLiteral?, List.filter_cons]
    by_cases ht : t.isPart = true
    · rw [if_pos ht, if_pos ht]
      rcases hrest : rest.filter isPart with _ | ⟨u, us⟩
      · have hany : rest.any isPart = false := by
          rw [List.filter_eq_nil_iff] at hrest
          simpa using hrest
        rw [hany]
        rfl
      · have hany : rest.any isPart = true := by
          rw [List.any_eq_true]
          exact ⟨u, List.mem_filter.mp (hrest ▸ List.mem_cons_self)⟩
        rw [hany]
        rfl
    · rw [if_neg ht, if_neg ht, ih]

/-- Literals side by side are joined from left to right. -/
theorem joinedLiterals?_append (source : Text) (cs ds : List Tree) :
    joinedLiterals? source (cs ++ ds) =
      (joinedLiterals? source cs).bind fun t => (joinedLiterals? source ds).map (t ++ ·) := by
  induction cs with
  | nil =>
    rw [joinedLiterals?, Option.bind_some, List.nil_append]
    exact Option.map_id'.symm
  | cons c rest ih =>
    rw [List.cons_append, joinedLiterals?, joinedLiterals?, ih]
    by_cases hc : c.isPart = true
    · rw [if_pos hc, if_pos hc]
      rcases c.literal? source with _ | piece
      · rfl
      · rcases joinedLiterals? source rest with _ | others
        · rfl
        · rcases joinedLiterals? source ds with _ | more
          · rfl
          · simp
    · rw [if_neg hc, if_neg hc]

/-- The docstring in a statement, if it is a literal on its own. -/
def docstringIn? (source : Text) : Tree → Option Text
  | node i [literal] =>
    if i.kind = "expression_statement" then (literal.literal? source).bind cleanDocstring else none
  | _ => none

/-- The docstring of a body is looked for in its first statement. -/
theorem docstringOf?_eq (source : Text) (body : List Tree) :
    docstringOf? source body = (body.find? (!·.isComment)).bind (docstringIn? source) := by
  unfold docstringOf?
  generalize body.find? (!·.isComment) = statement
  rcases statement with _ | ⟨i, _ | ⟨literal, _ | ⟨c, cs⟩⟩⟩ <;> rfl

/-- Only a statement that is an expression can be a docstring. -/
theorem docstringIn?_of_kind_ne {source : Text} {i : NodeInfo} {cs : List Tree}
    (h : i.kind ≠ "expression_statement") : docstringIn? source (node i cs) = none := by
  rcases cs with _ | ⟨literal, _ | ⟨c, cs⟩⟩
  · rfl
  · exact if_neg h
  · rfl

/-- A docstring is always a cleaned one. -/
theorem exists_cleanDocstring_of_docstringOf? {source text : Text} {body : List Tree}
    (h : docstringOf? source body = some text) : ∃ raw, cleanDocstring raw = some text := by
  rw [docstringOf?_eq, Option.bind_eq_some_iff] at h
  obtain ⟨⟨i, cs⟩, -, h⟩ := h
  rcases cs with _ | ⟨literal, _ | ⟨c, cs⟩⟩
  · cases h
  · rw [docstringIn?] at h
    split at h
    · obtain ⟨raw, -, hraw⟩ := Option.bind_eq_some_iff.mp h
      exact ⟨raw, hraw⟩
    · cases h
  · cases h

/-! ## Definitions -/

/-- The declaration of a definition with the ones in its body; nothing if the node is no class or
function definition, or has no name. -/
def ofDefinition (source : Text) (scope : Scope) (decorators : List Text) (t : Tree) :
    List Signature :=
  match declarationOf? source scope decorators t with
  | none => []
  | some d => [.node d (ofBody source (innerScope t.kind) t.children)]

/-- The declarations of a body, by a search for it. -/
theorem ofBody_eq (source : Text) (scope : Scope) (cs : List Tree) :
    ofBody source scope cs =
      ((cs.find? (·.field == some "body")).map fun body =>
        ofStatements source scope body.children).getD [] := by
  induction cs with
  | nil => rfl
  | cons t rest ih =>
    obtain ⟨i, cs⟩ := t
    rw [ofBody, ih, List.find?_cons, field_node]
    by_cases h : i.field = some "body"
    · rw [if_pos h, h]
      rfl
    · rw [if_neg h, beq_false_of_ne h]

theorem ofDecorated_eq (source : Text) (scope : Scope) (decorators : List Text) (cs : List Tree) :
    ofDecorated source scope decorators cs =
      ((cs.find? (·.field == some "definition")).map
        (ofDefinition source scope decorators)).getD [] := by
  induction cs with
  | nil => rfl
  | cons t rest ih =>
    obtain ⟨i, cs⟩ := t
    rw [ofDecorated, ih, List.find?_cons, field_node]
    by_cases h : i.field = some "definition"
    · rw [if_pos h, h]
      rfl
    · rw [if_neg h, beq_false_of_ne h]

/-- Of a decorated definition the definition is read, and of any other statement the statement. -/
theorem ofStatement_eq (source : Text) (scope : Scope) (t : Tree) :
    ofStatement source scope t =
      if t.kind = "decorated_definition" then
        ((t.childByField? "definition").map
          (ofDefinition source scope (decoratorNames source t.children))).getD []
      else ofDefinition source scope [] t := by
  obtain ⟨i, cs⟩ := t
  rw [ofStatement]
  by_cases hcomment : i.kind = "comment"
  · -- a comment is no definition
    have hnone : declarationOf? source scope [] (node i cs) = none := by
      rw [declarationOf?]
      split <;> simp [hcomment]
    rw [if_pos hcomment, if_neg (by simp [hcomment]), ofDefinition, hnone]
  · rw [if_neg hcomment, ofDecorated_eq]
    rfl

theorem ofStatements_eq_flatMap (source : Text) (scope : Scope) (cs : List Tree) :
    ofStatements source scope cs = cs.flatMap (ofStatement source scope) := by
  induction cs with
  | nil => rfl
  | cons t rest ih => rw [ofStatements, ih, List.flatMap_cons]

/-- All that is known about the declaration of a node. -/
theorem declarationOf?_eq_some {source : Text} {scope : Scope} {decorators : List Text} {t : Tree}
    {d : Declaration} (h : declarationOf? source scope decorators t = some d) :
    ∃ name, t.childByField? "name" = some name ∧
      d.name = name.text source ∧ d.line = t.line ∧ d.isPrivate = isPrivateName d.name ∧
      d.docstring = (bodyOf? t.children).bind (docstringOf? source) ∧
      (t.kind = "class_definition" ∧ d.form = .classdef ∨
        t.kind = "function_definition" ∧
          d.form = .callable (callableOf (scope.callableKind decorators)
            (parametersOf source t.children) ((bodyOf? t.children).any anyGivesValue))) := by
  rw [declarationOf?] at h
  rcases hname : t.childByField? "name" with _ | name
  · rw [hname] at h
    cases h
  · rw [hname] at h
    dsimp only at h
    refine ⟨name, rfl, ?_⟩
    split at h
    · rename_i hclass
      cases h
      exact ⟨rfl, rfl, rfl, rfl, .inl ⟨hclass, rfl⟩⟩
    · split at h
      · rename_i hfunction
        cases h
        exact ⟨rfl, rfl, rfl, rfl, .inr ⟨hfunction, rfl⟩⟩
      · cases h

/-- A class or function definition with a name. -/
def isDefinition (t : Tree) : Bool :=
  (t.kind == "class_definition" || t.kind == "function_definition") &&
    (t.childByField? "name").isSome

/-- The nodes that make a declaration are the definitions with a name. -/
theorem isSome_declarationOf? (source : Text) (scope : Scope) (decorators : List Text) (t : Tree) :
    (declarationOf? source scope decorators t).isSome = t.isDefinition := by
  rw [declarationOf?, isDefinition]
  rcases t.childByField? "name" with _ | name
  · simp
  · by_cases hclass : t.kind = "class_definition"
    · simp [hclass]
    · by_cases hfunction : t.kind = "function_definition" <;> simp [hclass, hfunction]

/-! ## Modules -/

/-- A tree without error nodes has a signature, and otherwise the line of the first one is known. -/
theorem extractModule_eq (source filePath : Text) (root : Tree) :
    extractModule source filePath root =
      match ((root.findAll "ERROR").map line).head? with
      | some n => .error ⟨n⟩
      | none =>
        .ok (.node (moduleDeclaration source filePath root)
          (ofStatements source .module root.children)) := by
  rw [extractModule, List.head?_map]
  rcases (root.findAll "ERROR").head? with _ | error <;> rfl

/-- A signature that was read is that of the module and its statements. -/
theorem eq_of_extractModule {source filePath : Text} {root : Tree} {module : Signature}
    (h : extractModule source filePath root = .ok module) :
    module = .node (moduleDeclaration source filePath root)
      (ofStatements source .module root.children) := by
  rw [extractModule_eq] at h
  split at h
  · cases h
  · exact (Except.ok.inj h).symm

/-- Without an error node, reading a module succeeds. -/
theorem extractModule_of_no_error {source filePath : Text} {root : Tree}
    (h : ∀ t ∈ root.preorder, t.kind ≠ "ERROR") :
    extractModule source filePath root =
      .ok (.node (moduleDeclaration source filePath root)
        (ofStatements source .module root.children)) := by
  have hnil : root.findAll "ERROR" = [] := by
    rw [findAll, List.filter_eq_nil_iff]
    simpa using h
  rw [extractModule_eq, hnil]
  rfl

end Tree

end FieldLint
