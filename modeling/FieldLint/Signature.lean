import FieldLint.Text.Basic

/-!
# Signatures

What a source file declares, as far as its documentation has to say something about it: a tree with
the module at the root and the classes and callables declared in each body below it.

* `Declaration`: one module, class or callable without what is declared inside it.
* `Signature`: the tree.
* `isPrivateName`: the convention that makes a name internal.
-/

namespace FieldLint

/-! ## Declarations -/

/-- A parameter that can be documented. -/
structure Parameter where
  /-- its name, without stars -/
  name : Text
  /-- a call may leave it out -/
  hasDefault : Bool
  deriving DecidableEq, Repr

/-- How a callable is declared. -/
inductive CallableKind where
  | function
  | method
  | staticmethod
  deriving DecidableEq, Repr

/-- What a callable takes and gives back. -/
structure Callable where
  /-- how it is declared -/
  kind : CallableKind
  /-- the parameters to document; the receiver of a method is not among them -/
  parameters : List Parameter
  /-- the first parameter of a method, which is only displayed -/
  receiver : Option Text
  /-- a call can give a value back -/
  returnsValue : Bool
  deriving DecidableEq, Repr

/-- The three forms of a declaration. -/
inductive Form where
  | module (filePath : Text)
  | classdef
  | callable (c : Callable)
  deriving DecidableEq, Repr

/-- A declaration, without the ones inside it. -/
structure Declaration where
  /-- what is declared -/
  form : Form
  /-- its name -/
  name : Text
  /-- the line it starts on; 0 for a module -/
  line : Nat
  /-- its docstring, cleaned -/
  docstring : Option Text
  /-- its name marks it as internal -/
  isPrivate : Bool
  deriving DecidableEq, Repr

namespace Declaration

/-- The declaration is a callable. -/
def isCallable (d : Declaration) : Bool :=
  match d.form with
  | .callable _ => true
  | _ => false

/-- The declaration is a module. -/
def isModule (d : Declaration) : Bool :=
  match d.form with
  | .module _ => true
  | _ => false

/-- A private callable needs no documentation, nor does anything inside it. -/
def isExempt (d : Declaration) : Bool :=
  d.isCallable && d.isPrivate

end Declaration

/-! ## Trees of declarations -/

/-- A declaration with the declarations in its body. -/
inductive Signature where
  | node (declaration : Declaration) (children : List Signature)
  deriving Repr

namespace Signature

/-- The declaration at the root. -/
def declaration : Signature → Declaration
  | node d _ => d

/-- The declarations in the body of the root. -/
def children : Signature → List Signature
  | node _ cs => cs

/-- The file a module was read from; empty for anything else. -/
def filePath (s : Signature) : Text :=
  match s.declaration.form with
  | .module path => path
  | _ => []

mutual

/-- All declarations of a tree, each before the ones inside it. -/
def preorder : Signature → List Declaration
  | node d cs => d :: preorderAll cs

/-- All declarations of several trees. -/
def preorderAll : List Signature → List Declaration
  | [] => []
  | s :: rest => preorder s ++ preorderAll rest

end

mutual

/-- The declarations that need documentation, each before the ones inside it: an exempt one is left
out together with everything inside it. -/
def checked : Signature → List Declaration
  | node d cs => if d.isExempt then [] else d :: checkedAll cs

/-- The declarations of several trees that need documentation. -/
def checkedAll : List Signature → List Declaration
  | [] => []
  | s :: rest => checked s ++ checkedAll rest

end

/-- What passes from the declarations in a body to the one around them holds of all trees. -/
@[elab_as_elim]
theorem induction_on_members {motive : Signature → Prop}
    (node : ∀ d ss, (∀ s ∈ ss, motive s) → motive (node d ss)) (s : Signature) : motive s :=
  @Signature.rec motive (fun ss => ∀ s ∈ ss, motive s) node
    (fun _ hs => absurd hs List.not_mem_nil)
    (fun _ _ hs hrest => List.forall_mem_cons.mpr ⟨hs, hrest⟩) s

/-- The declarations of several signatures come one signature after the other. -/
theorem preorderAll_eq_flatMap (ss : List Signature) : preorderAll ss = ss.flatMap preorder := by
  induction ss with
  | nil => rfl
  | cons s rest ih => rw [preorderAll, ih, List.flatMap_cons]

theorem preorderAll_singleton (d : Declaration) (ss : List Signature) :
    preorderAll [node d ss] = d :: preorderAll ss := by
  rw [preorderAll, preorderAll, List.append_nil, preorder]

/-- What is checked of several signatures comes one signature after the other. -/
theorem checkedAll_eq_flatMap (ss : List Signature) : checkedAll ss = ss.flatMap checked := by
  induction ss with
  | nil => rfl
  | cons s rest ih => rw [checkedAll, ih, List.flatMap_cons]

end Signature

/-! ## Private names -/

/-- The name starts and ends with two underscores around something. -/
def isDunderName (name : Text) : Bool :=
  4 < name.length && ['_', '_'].isPrefixOf name && ['_', '_'].isSuffixOf name

/-- A name with a leading underscore is internal, unless it is one like `__init__`. -/
def isPrivateName (name : Text) : Bool :=
  ['_'].isPrefixOf name && !isDunderName name

end FieldLint
