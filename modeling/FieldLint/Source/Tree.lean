import FieldLint.Text.Units

/-!
# Syntax trees

The tree of a source text: every node has a kind, the span of text it covers, the row it starts on,
and its children in the order of the source. A node may stand under a field of its parent, and it
is named unless it is a mere piece of punctuation or a keyword.

Trees need not come from a text that follows any grammar; everything here is defined for all trees.
-/

namespace FieldLint

/-- What a node of a syntax tree says about itself. -/
structure NodeInfo where
  /-- what the node is -/
  kind : String
  /-- the field of its parent it stands under -/
  field : Option String
  /-- it is more than punctuation or a keyword -/
  isNamed : Bool
  /-- where its text starts, in units of the source -/
  start : Nat
  /-- where its text stops -/
  stop : Nat
  /-- the row it starts on, the first row being 0 -/
  row : Nat
  deriving DecidableEq, Repr

/-- A syntax tree. -/
inductive Tree where
  | node (info : NodeInfo) (children : List Tree)
  deriving Repr

namespace Tree

/-! ## Parts of a node -/

/-- What the root says about itself. -/
def info : Tree → NodeInfo
  | node i _ => i

/-- The children of the root. -/
def children : Tree → List Tree
  | node _ cs => cs

/-- What the root is. -/
def kind (t : Tree) : String :=
  t.info.kind

/-- The field the root stands under. -/
def field (t : Tree) : Option String :=
  t.info.field

/-- The line the root starts on, the first line being 1. -/
def line (t : Tree) : Nat :=
  t.info.row + 1

/-- The text the root covers. -/
def text (source : Text) (t : Tree) : Text :=
  Text.slice t.info.start t.info.stop source

@[simp] theorem info_node (i : NodeInfo) (cs : List Tree) : (node i cs).info = i := rfl

@[simp] theorem children_node (i : NodeInfo) (cs : List Tree) : (node i cs).children = cs := rfl

@[simp] theorem kind_node (i : NodeInfo) (cs : List Tree) : (node i cs).kind = i.kind := rfl

@[simp] theorem field_node (i : NodeInfo) (cs : List Tree) : (node i cs).field = i.field := rfl

/-- The root is a comment. -/
def isComment (t : Tree) : Bool :=
  t.kind == "comment"

/-- The root is named and no comment. -/
def isPart (t : Tree) : Bool :=
  t.info.isNamed && !t.isComment

/-! ## Looking for nodes -/

/-- The first child under a field. -/
def childByField? (t : Tree) (field : String) : Option Tree :=
  t.children.find? fun c => c.field == some field

/-- The first child of a kind. -/
def child? (t : Tree) (kind : String) : Option Tree :=
  t.children.find? fun c => c.kind == kind

/-- The children of a kind. -/
def childrenOf (t : Tree) (kind : String) : List Tree :=
  t.children.filter fun c => c.kind == kind

mutual

/-- All nodes of a tree, each before the ones below it. -/
def preorder : Tree → List Tree
  | node i cs => node i cs :: preorderAll cs

/-- All nodes of several trees. -/
def preorderAll : List Tree → List Tree
  | [] => []
  | t :: rest => preorder t ++ preorderAll rest

end

/-- All nodes of a kind. -/
def findAll (t : Tree) (kind : String) : List Tree :=
  t.preorder.filter fun n => n.kind == kind

/-- What passes from the children of a node to the node holds of all trees. -/
@[elab_as_elim]
theorem induction_on_children {motive : Tree → Prop}
    (node : ∀ i cs, (∀ c ∈ cs, motive c) → motive (node i cs)) (t : Tree) : motive t :=
  @Tree.rec motive (fun cs => ∀ c ∈ cs, motive c) node
    (fun _ hc => absurd hc List.not_mem_nil)
    (fun _ _ ht hrest => List.forall_mem_cons.mpr ⟨ht, hrest⟩) t

/-- The nodes of several trees come one tree after the other. -/
theorem preorderAll_eq_flatMap (cs : List Tree) : preorderAll cs = cs.flatMap preorder := by
  induction cs with
  | nil => rfl
  | cons t rest ih => rw [preorderAll, ih, List.flatMap_cons]

/-- A search looks at a node before its children. -/
theorem findAll_node (i : NodeInfo) (cs : List Tree) (kind : String) :
    (node i cs).findAll kind =
      (if i.kind == kind then [node i cs] else []) ++ cs.flatMap (·.findAll kind) := by
  rw [findAll, preorder, List.filter_cons, preorderAll_eq_flatMap, List.filter_flatMap]
  by_cases h : i.kind = kind <;> simp [h, findAll]

end Tree

end FieldLint
