import FieldLint.Proofs.Cleaned
import FieldLint.Proofs.Reachable

/-!
# The shape of a signature

Whatever the syntax tree, the signature of a module has the shape that the rules and the reports
rely on. `WellFormed` says so for the whole tree: a module at the root and nowhere else,
declarations only where their form may stand, receivers with methods only, privacy by name, tidy
docstrings.

* **One step.** A declaration has a form that its scope admits, and the scope of its body is the one
  that belongs to its form (`Scope.admits_of_declarationOf?`, `innerScope_eq_scope`).
* **The whole tree.** What one step keeps holds of every declaration (`forall_mem_declarations`).
-/

namespace FieldLint

/-! ## Forms and scopes -/

/-- A declaration of the form may stand in the scope: a class anywhere, a method or static method in
the body of a class, a function elsewhere, and a module nowhere. -/
def Tree.Scope.admits : Tree.Scope → Form → Bool
  | _, .module _ => false
  | _, .classdef => true
  | .classBody, .callable c => c.kind == .method || c.kind == .staticmethod
  | _, .callable c => c.kind == .function

/-- The scope of the body of a declaration. -/
def Form.scope : Form → Tree.Scope
  | .module _ => .module
  | .classdef => .classBody
  | .callable _ => .callableBody

/-- In every body of the tree there are only declarations that may stand there. -/
inductive Signature.Shaped : Signature → Prop
  | node {d : Declaration} {members : List Signature}
      (hmembers : ∀ s ∈ members, d.form.scope.admits s.declaration.form = true)
      (hinner : ∀ s ∈ members, Shaped s) : Shaped (.node d members)

/-- What a callable takes, given all parameters of its definition. -/
structure Callable.Takes (c : Callable) (all : List Parameter) : Prop where
  /-- only a method has a receiver, which is the first parameter and stands before the others -/
  receiver : ∀ name, c.receiver = some name →
    c.kind = .method ∧ ∃ first, first.name = name ∧ all = first :: c.parameters
  /-- a method without a receiver has no parameters -/
  no_receiver : c.kind = .method → c.receiver = none → all = [] ∧ c.parameters = []
  /-- any other callable has them all -/
  parameters : c.kind ≠ .method → c.parameters = all

/-- A callable takes its parameters as they are written. -/
theorem takes_callableOf (kind : CallableKind) (all : List Parameter) (returnsValue : Bool) :
    (Tree.callableOf kind all returnsValue).Takes all := by
  rcases kind with _ | _ | _
  · exact ⟨nofun, nofun, fun _ => rfl⟩
  · rcases all with _ | ⟨first, rest⟩
    · exact ⟨nofun, fun _ _ => ⟨rfl, rfl⟩, fun _ => rfl⟩
    · refine ⟨fun name h => ⟨rfl, first, Option.some.inj h, rfl⟩, nofun, fun h => absurd rfl h⟩
  · exact ⟨nofun, nofun, fun _ => rfl⟩

theorem kind_callableOf (kind : CallableKind) (all : List Parameter) (returnsValue : Bool) :
    (Tree.callableOf kind all returnsValue).kind = kind := by
  rcases kind with _ | _ | _
  · rfl
  · rcases all with _ | ⟨first, rest⟩ <;> rfl
  · rfl

/-! ## One declaration -/

namespace Tree

variable {source : Text} {scope : Scope} {decorators : List Text} {t : Tree} {d : Declaration}

/-- Only what a scope admits is declared in it. -/
theorem Scope.admits_of_declarationOf? (h : declarationOf? source scope decorators t = some d) :
    scope.admits d.form = true := by
  obtain ⟨-, -, -, -, -, -, ⟨-, hform⟩ | ⟨-, hform⟩⟩ := declarationOf?_eq_some h
  · rw [hform]
    cases scope <;> rfl
  · rw [hform]
    rcases scope with _ | _ | _
    · simp [admits, kind_callableOf, callableKind]
    · have hkind : Scope.classBody.callableKind decorators = .staticmethod ∨
          Scope.classBody.callableKind decorators = .method := by
        rw [callableKind, if_pos rfl]
        exact ite_eq_or_eq _ _ _
      rcases hkind with hkind | hkind <;> simp [admits, kind_callableOf, hkind]
    · simp [admits, kind_callableOf, callableKind]

/-- The scope inside a definition is that of its declaration. -/
theorem innerScope_eq_scope (h : declarationOf? source scope decorators t = some d) :
    innerScope t.kind = d.form.scope := by
  obtain ⟨-, -, -, -, -, -, ⟨hkind, hform⟩ | ⟨hkind, hform⟩⟩ := declarationOf?_eq_some h
  · rw [hkind, hform]
    rfl
  · rw [hkind, hform]
    rfl

namespace MakesDeclaration

variable (h : t.MakesDeclaration source d)

include h

theorem isModule_eq : d.isModule = false := by
  obtain ⟨scope, decorators, h⟩ := h
  obtain ⟨-, -, -, -, -, -, ⟨-, hform⟩ | ⟨-, hform⟩⟩ := declarationOf?_eq_some h <;>
    rw [Declaration.isModule, hform]

/-- Being private is a matter of the name. -/
theorem isPrivate_eq : d.isPrivate = isPrivateName d.name := by
  obtain ⟨scope, decorators, h⟩ := h
  obtain ⟨-, -, -, -, hprivate, -⟩ := declarationOf?_eq_some h
  exact hprivate

/-- The docstring of a declaration is tidy. -/
theorem isTidy_docstring {text : Text} (hdoc : d.docstring = some text) : text.IsTidy := by
  obtain ⟨scope, decorators, h⟩ := h
  obtain ⟨-, -, -, -, -, hdocstring, -⟩ := declarationOf?_eq_some h
  rw [hdoc] at hdocstring
  obtain ⟨body, -, hbody⟩ := Option.bind_eq_some_iff.mp hdocstring.symm
  obtain ⟨raw, hraw⟩ := exists_cleanDocstring_of_docstringOf? hbody
  exact isTidy_of_cleanDocstring hraw

/-- A callable takes the parameters of its definition. -/
theorem takes {c : Callable} (hc : d.form = .callable c) :
    c.Takes (parametersOf source t.children) := by
  obtain ⟨scope, decorators, h⟩ := h
  obtain ⟨-, -, -, -, -, -, ⟨-, hform⟩ | ⟨-, hform⟩⟩ := declarationOf?_eq_some h
  · rw [hform] at hc
    cases hc
  · rw [hform] at hc
    obtain rfl := Form.callable.inj hc
    exact takes_callableOf _ _ _

end MakesDeclaration

/-! ## All declarations -/

section Forall

variable {P : Scope → Signature → Prop}
  (hstep : ∀ scope decorators t d, declarationOf? source scope decorators t = some d →
    (∀ s ∈ ofBody source (innerScope t.kind) t.children, P (innerScope t.kind) s) →
      P scope (.node d (ofBody source (innerScope t.kind) t.children)))

include hstep

/-- What holds of a declaration when it holds of the ones in its body holds of everything that is
read from a node, as a definition, as a statement and as a body. -/
theorem forall_mem_declarations (t : Tree) :
    (∀ scope decorators, ∀ s ∈ ofDefinition source scope decorators t, P scope s) ∧
    (∀ scope, ∀ s ∈ ofStatement source scope t, P scope s) ∧
    ∀ scope, ∀ s ∈ ofStatements source scope t.children, P scope s := by
  induction t using induction_on_children with
  | node i cs ih =>
    have hchild : ∀ {field c}, (node i cs).childByField? field = some c → c ∈ cs :=
      fun h => List.mem_of_find?_eq_some h
    have hdefinition : ∀ scope decorators,
        ∀ s ∈ ofDefinition source scope decorators (node i cs), P scope s := by
      intro scope decorators s hs
      rw [ofDefinition] at hs
      split at hs
      · cases hs
      · rename_i d hd
        obtain rfl := List.mem_singleton.mp hs
        refine hstep _ _ _ _ hd fun s hs => ?_
        rw [ofBody_eq, ← childByField?] at hs
        rcases hbody : (node i cs).childByField? "body" with _ | body
        · rw [hbody] at hs
          cases hs
        · rw [hbody] at hs
          exact (ih body (hchild hbody)).2.2 _ s hs
    refine ⟨hdefinition, fun scope s hs => ?_, fun scope s hs => ?_⟩
    · rw [ofStatement_eq] at hs
      split at hs
      · rcases hd : (node i cs).childByField? "definition" with _ | c
        · rw [hd] at hs
          cases hs
        · rw [hd] at hs
          exact (ih c (hchild hd)).1 _ _ s hs
      · exact hdefinition _ _ s hs
    · rw [ofStatements_eq_flatMap, List.mem_flatMap] at hs
      obtain ⟨c, hc, hs⟩ := hs
      exact (ih c hc).2.1 scope s hs

end Forall

/-- In a body there are only declarations that may stand there, at any depth. -/
theorem shaped_of_mem_ofStatements {s : Signature}
    (hs : s ∈ ofStatements source scope t.children) :
    scope.admits s.declaration.form = true ∧ s.Shaped := by
  refine (forall_mem_declarations (P := fun scope s =>
    scope.admits s.declaration.form = true ∧ s.Shaped) ?_ t).2.2 scope s hs
  intro scope decorators t d hd hinner
  rw [innerScope_eq_scope hd] at hinner ⊢
  exact ⟨Scope.admits_of_declarationOf? hd,
    .node (fun s hs => (hinner s hs).1) fun s hs => (hinner s hs).2⟩

end Tree

/-! ## Modules -/

/-- The shape of the signature of a module with the given syntax tree. -/
structure Signature.WellFormed (source : Text) (root : Tree) (module : Signature) : Prop where
  /-- the root is a module, on line 0 -/
  module_root : module.declaration.isModule = true ∧ module.declaration.line = 0
  /-- nothing else is one -/
  only_root : ∀ d ∈ preorderAll module.children, d.isModule = false
  /-- declarations stand only where their form may stand -/
  shaped : module.Shaped
  /-- what a callable takes are the parameters of its definition -/
  takes : List.Forall₂ (fun (t : Tree) d => t.outline? source = d.outline? ∧
    ∀ c, d.form = .callable c → c.Takes (Tree.parametersOf source t.children))
    root.reachableDefinitions (preorderAll module.children)
  /-- classes and callables are private by name -/
  isPrivate : ∀ d ∈ preorderAll module.children, d.isPrivate = isPrivateName d.name
  /-- docstrings are tidy -/
  docstring : ∀ d ∈ module.preorder, ∀ text, d.docstring = some text → text.IsTidy

theorem exists_makesDeclaration {source : Text} {ts : List Tree} {ds : List Declaration}
    (h : List.Forall₂ (Tree.MakesDeclaration source) ts ds) {d : Declaration} (hd : d ∈ ds) :
    ∃ t, Tree.MakesDeclaration source t d := by
  induction h with
  | nil => cases hd
  | cons ht _ ih =>
    rcases List.mem_cons.mp hd with rfl | hd
    · exact ⟨_, ht⟩
    · exact ih hd

/-- **The shape of a signature.** A module without error nodes has a signature, and that is well
formed, whatever else the syntax tree holds. -/
theorem extractModule_wellFormed (source filePath : Text) (root : Tree)
    (h : ∀ t ∈ root.preorder, t.kind ≠ "ERROR") :
    ∃ module, extractModule source filePath root = .ok module ∧
      module.WellFormed source root := by
  refine ⟨_, Tree.extractModule_of_no_error h, ?_⟩
  have hpairs := (Tree.readsDefinitions source root).body .module
  -- every declaration but the module is made by some definition
  have hmade : ∀ d ∈ Signature.preorderAll (Tree.ofStatements source .module root.children),
      ∃ t, Tree.MakesDeclaration source t d := fun d hd => exists_makesDeclaration hpairs hd
  refine ⟨⟨rfl, rfl⟩, ?_, ?_, ?_, ?_, ?_⟩
  · intro d hd
    obtain ⟨t, ht⟩ := hmade d hd
    exact ht.isModule_eq
  · exact .node (fun s hs => (Tree.shaped_of_mem_ofStatements hs).1)
      fun s hs => (Tree.shaped_of_mem_ofStatements hs).2
  · refine hpairs.imp fun t d ht => ?_
    obtain ⟨o, ho, ho'⟩ := ht.outline?_eq
    exact ⟨ho'.trans ho.symm, fun c => ht.takes⟩
  · intro d hd
    obtain ⟨t, ht⟩ := hmade d hd
    exact ht.isPrivate_eq
  · intro d hd text hdoc
    rw [Signature.preorder, List.mem_cons] at hd
    rcases hd with rfl | hd
    · obtain ⟨raw, hraw⟩ := Tree.exists_cleanDocstring_of_docstringOf? hdoc
      exact isTidy_of_cleanDocstring hraw
    · obtain ⟨t, ht⟩ := hmade d hd
      exact ht.isTidy_docstring hdoc

/-- A private class with a docstring and a method of one parameter. -/
theorem extractModule_wellFormed_box :
    let source := "class _B:\n  \"Box. \"\n  def f(self, x): return x\n".toList
    let leaf (kind : String) (field : Option String) (start stop row : Nat) :=
      Tree.node ⟨kind, field, true, start, stop, row⟩ []
    let method := Tree.node ⟨"function_definition", none, true, 22, 46, 2⟩
      [leaf "identifier" (some "name") 26 27 2,
        .node ⟨"parameters", some "parameters", true, 27, 36, 2⟩
          [leaf "identifier" none 28 32 2, leaf "identifier" none 34 35 2],
        .node ⟨"block", some "body", true, 38, 46, 2⟩
          [.node ⟨"return_statement", none, true, 38, 46, 2⟩
            [leaf "return" none 38 44 2, leaf "identifier" none 45 46 2]]]
    let root := Tree.node ⟨"module", none, true, 0, 47, 0⟩
      [.node ⟨"class_definition", none, true, 0, 46, 0⟩
        [leaf "identifier" (some "name") 6 8 0,
          .node ⟨"block", some "body", true, 12, 46, 1⟩
            [.node ⟨"expression_statement", none, true, 12, 19, 1⟩ [leaf "string" none 12 19 1],
              method]]]
    let module := Signature.node ⟨.module "b.py".toList, "b.py".toList, 0, none, false⟩
      [.node ⟨.classdef, "_B".toList, 1, some "Box.".toList, true⟩
        [.node ⟨.callable ⟨.method, [⟨"x".toList, false⟩], some "self".toList, true⟩, "f".toList, 3,
          none, false⟩ []]]
    (∀ t ∈ root.preorder, t.kind ≠ "ERROR") ∧
      extractModule source "b.py".toList root = .ok module ∧ module.WellFormed source root := by
  intro source leaf method root module
  have hroot : ∀ t ∈ root.preorder, t.kind ≠ "ERROR" := by decide
  have hread : extractModule source "b.py".toList root = .ok module := rfl
  obtain ⟨module', hmodule, hshape⟩ := extractModule_wellFormed source "b.py".toList root hroot
  obtain rfl : module = module' := Except.ok.inj (hread.symm.trans hmodule)
  exact ⟨hroot, hread, hshape⟩

end FieldLint
