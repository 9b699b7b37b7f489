import Mathlib.Logic.Relation
import FieldLint.Proofs.Extraction

/-!
# Comments do not matter

A comment may stand between any two children of a node. `AddsComment` puts one comment more into a
tree, and `CommentsAdded` any number of them; the only places left out are expression statements,
where the number of children decides whether the statement is a docstring, and nodes that have no
children at all.

Every question that is put to a tree while it is read has the same answer with one comment more:

* **looking up** a child by its kind or field (`AddsComment.map_find?_eq`),
* the **literal** and the **docstring** of a body (`literal?_eq`, `docstringOf?_eq`),
* the **parameters**, the **decorators** and the **value** of a definition,
* the **declarations** of a statement (`ofStatement_eq_of_addsComment`) and the **error** nodes.

So any number of comments leaves the result of reading a module alone
(`extractModule_commentsAdded`).
-/

namespace FieldLint

namespace Tree

/-! ## Adding comments -/

/-- A comment with nothing below it that stands under no field. Its span, its row and whether it is
named do not matter. -/
structure IsBareComment (c : Tree) : Prop where
  /-- it is a comment -/
  kind : c.kind = "comment"
  /-- it stands under no field -/
  field : c.field = none
  /-- it has no children -/
  children : c.children = []

/-- One comment more: among the children of the root, or in one of the children. -/
inductive AddsComment : Tree → Tree → Prop
  | here (i : NodeInfo) (before after : List Tree) (c : Tree)
      (hkind : i.kind ≠ "expression_statement") (hne : before ++ after ≠ [])
      (hc : IsBareComment c) :
      AddsComment (node i (before ++ after)) (node i (before ++ c :: after))
  | inside (i : NodeInfo) (before after : List Tree) {t t' : Tree} (h : AddsComment t t') :
      AddsComment (node i (before ++ t :: after)) (node i (before ++ t' :: after))

/-- Any number of comments more. -/
def CommentsAdded : Tree → Tree → Prop :=
  Relation.ReflTransGen AddsComment

variable {t t' c : Tree} {source : Text}

/-- A comment more changes nothing that the root says about itself. -/
theorem AddsComment.info_eq (h : AddsComment t t') : t'.info = t.info := by
  cases h <;> rfl

/-- A node covers the same text as before. -/
theorem AddsComment.text_eq (h : AddsComment t t') : t'.text source = t.text source := by
  rw [text, text, h.info_eq]

theorem AddsComment.kind_eq (h : AddsComment t t') : t'.kind = t.kind := by
  rw [kind, kind, h.info_eq]

/-- Whether a node is a part of its parent is not up to its comments. -/
theorem AddsComment.isPart_eq (h : AddsComment t t') : t'.isPart = t.isPart := by
  rw [isPart, isPart, isComment, isComment, h.kind_eq, h.info_eq]

/-- A comment is no part of anything. -/
theorem IsBareComment.isPart (hc : IsBareComment c) : c.isPart = false := by
  simp [Tree.isPart, isComment, hc.kind]

/-! ## Looking up children -/

/-- The description fits no bare comment. -/
def SkipsComments (p : NodeInfo → Bool) : Prop :=
  ∀ i : NodeInfo, i.kind = "comment" → i.field = none → p i = false

/-- A search by field skips comments, which have none. -/
theorem skipsComments_field (field : String) : SkipsComments (·.field == some field) := by
  intro i _ hfield
  simp [hfield]

/-- A search by another kind skips comments. -/
theorem skipsComments_kind {kind : String} (h : kind ≠ "comment") :
    SkipsComments (·.kind == kind) := by
  intro i hkind _
  simp [hkind, h.symm]

variable {before after : List Tree} {p : NodeInfo → Bool} {β : Type}

/-- A search that skips comments does not find one that is put in. -/
theorem find?_insert (hp : SkipsComments p) (hc : IsBareComment c) :
    (before ++ c :: after).find? (fun u => p u.info) =
      (before ++ after).find? fun u => p u.info := by
  have hskip : p c.info = false := hp c.info hc.kind hc.field
  rw [List.find?_append, List.find?_append, List.find?_cons, hskip]

/-- A search by the data of the nodes finds the node that is put in the place of another. -/
theorem map_find?_replace {g : Tree → β} (hinfo : t'.info = t.info) (hg : g t' = g t) :
    ((before ++ t' :: after).find? fun u => p u.info).map g =
      ((before ++ t :: after).find? fun u => p u.info).map g := by
  rw [List.find?_append, List.find?_append, List.find?_cons, List.find?_cons, hinfo]
  rcases p t.info with _ | _
  · rfl
  · rw [Option.map_or, Option.map_or, Option.map_some, Option.map_some, hg]

/-- What is asked of the child that fits a description does not depend on comments, if it does not
depend on comments in the child. -/
theorem AddsComment.map_find?_eq (h : AddsComment t t') (hp : SkipsComments p) {g : Tree → β}
    (hg : ∀ {u u'}, AddsComment u u' → g u' = g u) :
    (t'.children.find? fun u => p u.info).map g = (t.children.find? fun u => p u.info).map g := by
  cases h with
  | here _ _ _ _ _ _ hc =>
    rw [children_node, children_node, find?_insert hp hc]
  | inside _ _ _ h => exact map_find?_replace h.info_eq (hg h)

/-- The same for what may or may not be read off the child that is found. -/
theorem AddsComment.bind_find?_eq (h : AddsComment t t') (hp : SkipsComments p)
    {g : Tree → Option β} (hg : ∀ {u u'}, AddsComment u u' → g u' = g u) :
    (t'.children.find? fun u => p u.info).bind g =
      (t.children.find? fun u => p u.info).bind g := by
  have hjoin : ∀ o : Option Tree, o.bind g = (o.map g).join := by
    intro o
    cases o <;> rfl
  rw [hjoin, hjoin, h.map_find?_eq hp hg]

/-- What each child gives by itself does not depend on comments. -/
theorem AddsComment.filterMap_eq (h : AddsComment t t') {g : Tree → Option β}
    (hnone : ∀ {c}, IsBareComment c → g c = none)
    (hg : ∀ {u u'}, AddsComment u u' → g u' = g u) :
    t'.children.filterMap g = t.children.filterMap g := by
  cases h with
  | here _ _ _ _ _ _ hc =>
    rw [children_node, children_node, List.filterMap_append, List.filterMap_append,
      List.filterMap_cons_none (hnone hc)]
  | inside _ _ _ h =>
    rw [children_node, children_node, List.filterMap_append, List.filterMap_append,
      List.filterMap_cons, List.filterMap_cons, hg h]

/-! ## Values -/

/-- A comment gives no value. -/
theorem IsBareComment.givesValue (hc : IsBareComment c) : c.givesValue = false := by
  obtain ⟨i, cs⟩ := c
  obtain ⟨hkind, -, rfl⟩ := hc
  rw [kind_node] at hkind
  simp [Tree.givesValue, hkind, isNestedScope, anyGivesValue]

/-- A comment anywhere below a node does not change whether it gives a value. -/
theorem AddsComment.givesValue_eq (h : AddsComment t t') : t'.givesValue = t.givesValue := by
  induction h with
  | here i before after c _ hne hc =>
    have hreturns : returnsSomething (before ++ c :: after) =
        returnsSomething (before ++ after) := by
      simp [returnsSomething, hc.kind]
    have hempty : (before ++ c :: after).isEmpty = (before ++ after).isEmpty := by
      rw [List.isEmpty_eq_false_iff.mpr hne]
      simp
    have hany : anyGivesValue (before ++ c :: after) = anyGivesValue (before ++ after) := by
      simp [anyGivesValue_eq_any, hc.givesValue]
    rw [givesValue, givesValue, hreturns, hempty, hany]
  | @inside i before after t t' h ih =>
    have hreturns : returnsSomething (before ++ t' :: after) =
        returnsSomething (before ++ t :: after) := by
      simp [returnsSomething, h.kind_eq]
    have hempty : (before ++ t' :: after).isEmpty = (before ++ t :: after).isEmpty := by
      cases before <;> rfl
    have hany : anyGivesValue (before ++ t' :: after) = anyGivesValue (before ++ t :: after) := by
      simp [anyGivesValue_eq_any, ih]
    rw [givesValue, givesValue, hreturns, hempty, hany]

theorem AddsComment.anyGivesValue_children_eq (h : AddsComment t t') :
    anyGivesValue t'.children = anyGivesValue t.children := by
  rw [anyGivesValue_eq_any, anyGivesValue_eq_any]
  cases h with
  | here _ _ _ _ _ _ hc => simp [hc.givesValue]
  | inside _ _ _ h => simp [h.givesValue_eq]

/-! ## Docstrings -/

/-- The literal in parentheses, when one of the nodes in them changes. -/
theorem onlyLiteral?_replace (hpart : t'.isPart = t.isPart)
    (hliteral : t'.literal? source = t.literal? source) :
    onlyLiteral? source (before ++ t' :: after) = onlyLiteral? source (before ++ t :: after) := by
  rw [onlyLiteral?_eq, onlyLiteral?_eq, List.filter_append, List.filter_append, List.filter_cons,
    List.filter_cons, hpart]
  by_cases ht : t.isPart = true
  · rw [if_pos ht, if_pos ht]
    rcases before.filter Tree.isPart with _ | ⟨b, bs⟩
    · rcases after.filter Tree.isPart with _ | ⟨a, as⟩
      · exact hliteral
      · rfl
    · rcases bs with _ | ⟨b', bs⟩ <;> rfl
  · rw [if_neg ht, if_neg ht]

/-- A comment does not change what a literal says. -/
theorem AddsComment.literal?_eq (h : AddsComment t t') :
    t'.literal? source = t.literal? source := by
  induction h with
  | here i before after c _ _ hc =>
    have honly : onlyLiteral? source (before ++ c :: after) =
        onlyLiteral? source (before ++ after) := by
      simp [onlyLiteral?_eq, hc.isPart]
    have hjoined : joinedLiterals? source (before ++ c :: after) =
        joinedLiterals? source (before ++ after) := by
      rw [joinedLiterals?_append, joinedLiterals?_append, joinedLiterals?, hc.isPart]
      rfl
    rw [literal?, literal?, honly, hjoined]
  | @inside i before after t t' h ih =>
    have honly : onlyLiteral? source (before ++ t' :: after) =
        onlyLiteral? source (before ++ t :: after) := onlyLiteral?_replace h.isPart_eq ih
    have hjoined : joinedLiterals? source (before ++ t' :: after) =
        joinedLiterals? source (before ++ t :: after) := by
      rw [joinedLiterals?_append, joinedLiterals?_append, joinedLiterals?, joinedLiterals?,
        h.isPart_eq, ih]
    rw [literal?, literal?, honly, hjoined]

/-- A statement is a docstring or not whatever comments stand in it: none can stand beside the
literal. -/
theorem AddsComment.docstringIn?_eq (h : AddsComment t t') :
    docstringIn? source t' = docstringIn? source t := by
  cases h with
  | here _ _ _ _ hkind => rw [docstringIn?_of_kind_ne hkind, docstringIn?_of_kind_ne hkind]
  | @inside i before after t t' h =>
    rcases before with _ | ⟨b, _ | ⟨b', bs⟩⟩
    · rcases after with _ | ⟨a, as⟩
      · rw [List.nil_append, List.nil_append, docstringIn?, docstringIn?, h.literal?_eq]
      · rfl
    · rfl
    · rfl

/-- A comment does not change the docstring of a body. -/
theorem AddsComment.docstringOf?_eq (h : AddsComment t t') :
    docstringOf? source t'.children = docstringOf? source t.children := by
  have hskip : SkipsComments fun i => !(i.kind == "comment") := by
    intro i hkind _
    simp [hkind]
  rw [Tree.docstringOf?_eq, Tree.docstringOf?_eq]
  exact h.bind_find?_eq hskip AddsComment.docstringIn?_eq

/-! ## Parameters -/

theorem skipsComments_parameter :
    SkipsComments fun i => i.kind == "identifier" || isSplatKind i.kind := by
  intro i hkind _
  simp [hkind, isSplatKind]

/-- A comment is no parameter. -/
theorem IsBareComment.parameter? (hc : IsBareComment c) : c.parameter? source = none := by
  simp [Tree.parameter?, plainParameter?, isSplatKind, hc.kind]

theorem AddsComment.plainParameter?_eq (h : AddsComment t t') :
    t'.plainParameter? source = t.plainParameter? source := by
  rw [plainParameter?, plainParameter?, h.kind_eq, h.text_eq]
  exact if_congr Iff.rfl rfl
    (if_congr Iff.rfl (h.map_find?_eq (skipsComments_kind (by decide)) fun h => by rw [h.text_eq])
      rfl)

/-- A comment inside a parameter does not change it. -/
theorem AddsComment.parameter?_eq (h : AddsComment t t') :
    t'.parameter? source = t.parameter? source := by
  rw [parameter?, parameter?, h.kind_eq, h.plainParameter?_eq]
  exact if_congr Iff.rfl (h.map_find?_eq (skipsComments_field "name") fun h => by rw [h.text_eq])
    (if_congr Iff.rfl (h.bind_find?_eq skipsComments_parameter AddsComment.plainParameter?_eq) rfl)

/-- The parameters of a definition, by searches only. -/
theorem parametersOf_eq (source : Text) (parts : List Tree) :
    parametersOf source parts =
      ((parts.find? (·.field == some "parameters")).map fun list =>
        list.children.filterMap (parameter? source)).getD [] := by
  unfold parametersOf
  generalize parts.find? (·.field == some "parameters") = list
  rcases list with _ | list <;> rfl

/-- A comment does not change the parameters of a definition. -/
theorem AddsComment.parametersOf_eq (h : AddsComment t t') :
    parametersOf source t'.children = parametersOf source t.children := by
  rw [Tree.parametersOf_eq, Tree.parametersOf_eq]
  exact congrArg (·.getD []) (h.map_find?_eq (skipsComments_field "parameters") fun h =>
    h.filterMap_eq IsBareComment.parameter? AddsComment.parameter?_eq)

/-! ## Decorators -/

/-- The name of a decorator. -/
def decoratorName? (source : Text) (decorator : Tree) : Option Text :=
  (decoratorTarget? decorator).map fun target => lastSegment (target.text source)

/-- The name of a decorator, by searches only. -/
theorem decoratorName?_eq (source : Text) (decorator : Tree) :
    decoratorName? source decorator =
      (decorator.children.find? fun c => c.kind != "@" && c.kind != "comment").bind fun e =>
        if e.kind = "call" then
          (e.childByField? "function").map fun target => lastSegment (target.text source)
        else some (lastSegment (e.text source)) := by
  unfold decoratorName? decoratorTarget?
  generalize (decorator.children.find? fun c => c.kind != "@" && c.kind != "comment") = e
  rcases e with _ | e
  · rfl
  · exact apply_ite _ _ _ _

theorem decoratorNames_eq (source : Text) (parts : List Tree) :
    decoratorNames source parts =
      parts.filterMap fun c => if c.kind == "decorator" then decoratorName? source c else none :=
  List.filterMap_filter

theorem AddsComment.decoratorName?_eq (h : AddsComment t t') :
    decoratorName? source t' = decoratorName? source t := by
  have hskip : SkipsComments fun i => i.kind != "@" && i.kind != "comment" := by
    intro i hkind _
    simp [hkind]
  rw [Tree.decoratorName?_eq, Tree.decoratorName?_eq]
  refine h.bind_find?_eq hskip fun {u u'} h => ?_
  rw [h.kind_eq, h.text_eq]
  exact if_congr Iff.rfl
    (h.map_find?_eq (skipsComments_field "function") fun h => by rw [h.text_eq]) rfl

/-- A comment does not change the names of decorators. -/
theorem AddsComment.decoratorNames_eq (h : AddsComment t t') :
    decoratorNames source t'.children = decoratorNames source t.children := by
  rw [Tree.decoratorNames_eq, Tree.decoratorNames_eq]
  refine h.filterMap_eq (fun hc => ?_) fun h => ?_
  · simp [hc.kind]
  · rw [h.kind_eq, h.decoratorName?_eq]

/-! ## Declarations -/

variable {scope : Scope} {decorators : List Text}

/-- The declaration a node makes, from what is looked up in it. -/
theorem declarationOf?_congr (hinfo : t'.info = t.info)
    (hname : (t'.childByField? "name").map (text source) =
      (t.childByField? "name").map (text source))
    (hdocstring : (bodyOf? t'.children).bind (docstringOf? source) =
      (bodyOf? t.children).bind (docstringOf? source))
    (hparameters : parametersOf source t'.children = parametersOf source t.children)
    (hvalue : (bodyOf? t'.children).map anyGivesValue =
      (bodyOf? t.children).map anyGivesValue) :
    declarationOf? source scope decorators t' = declarationOf? source scope decorators t := by
  have hany : ∀ body : Option (List Tree),
      body.any anyGivesValue = (body.map anyGivesValue).getD false := by
    intro body
    cases body <;> rfl
  rw [declarationOf?, declarationOf?]
  dsimp only
  rw [hdocstring, hparameters, hany, hany, hvalue, line, line, kind, kind, hinfo]
  rcases hn : t.childByField? "name" with _ | n <;>
    rcases hn' : t'.childByField? "name" with _ | n' <;> rw [hn, hn'] at hname
  · cases hname
  · cases hname
  · rw [Option.map_some, Option.map_some, Option.some.injEq] at hname
    dsimp only
    rw [hname]

/-- A comment does not change the declaration of a definition. -/
theorem AddsComment.declarationOf?_eq (h : AddsComment t t') :
    declarationOf? source scope decorators t' = declarationOf? source scope decorators t := by
  have hbody := skipsComments_field "body"
  refine declarationOf?_congr h.info_eq
    (h.map_find?_eq (skipsComments_field "name") AddsComment.text_eq) ?_ h.parametersOf_eq ?_
  · rw [bodyOf?, bodyOf?, Option.bind_map, Option.bind_map]
    exact h.bind_find?_eq hbody AddsComment.docstringOf?_eq
  · rw [bodyOf?, bodyOf?, Option.map_map, Option.map_map]
    exact h.map_find?_eq hbody AddsComment.anyGivesValue_children_eq

/-- A comment declares nothing. -/
theorem IsBareComment.ofStatement (hc : IsBareComment c) : c.ofStatement source scope = [] := by
  obtain ⟨i, cs⟩ := c
  have hkind : i.kind = "comment" := hc.kind
  rw [Tree.ofStatement, if_pos hkind]

/-- What a node gives as a definition, as a statement and as the body of a definition is the same
with a comment more. -/
structure SameDeclarations (source : Text) (t t' : Tree) : Prop where
  /-- as a definition -/
  definition : ∀ scope decorators,
    ofDefinition source scope decorators t' = ofDefinition source scope decorators t
  /-- as a statement -/
  statement : ∀ scope, ofStatement source scope t' = ofStatement source scope t
  /-- as a body -/
  body : ∀ scope, ofStatements source scope t'.children = ofStatements source scope t.children

/-- The declaration of a node is the same, so only the children that are read further matter. -/
theorem AddsComment.sameDeclarations_of_children (h : AddsComment t t')
    (hbody : ∀ scope, ofBody source scope t'.children = ofBody source scope t.children)
    (hdefinition : ∀ scope decorators,
      (t'.childByField? "definition").map (ofDefinition source scope decorators) =
        (t.childByField? "definition").map (ofDefinition source scope decorators))
    (hstatements : ∀ scope,
      ofStatements source scope t'.children = ofStatements source scope t.children) :
    SameDeclarations source t t' := by
  have hself : ∀ scope decorators,
      ofDefinition source scope decorators t' = ofDefinition source scope decorators t := by
    intro scope decorators
    rw [ofDefinition, ofDefinition, h.declarationOf?_eq, h.kind_eq, hbody]
  refine ⟨hself, fun scope => ?_, hstatements⟩
  rw [ofStatement_eq, ofStatement_eq, h.kind_eq, h.decoratorNames_eq, hself, hdefinition]

/-- One comment, wherever it is put, leaves all declarations as they are. -/
theorem AddsComment.sameDeclarations (h : AddsComment t t') : SameDeclarations source t t' := by
  -- a definition reads its body, a body its statements, and a statement its definition
  induction h with
  | here i before after c hkind hne hc =>
    refine (AddsComment.here i before after c hkind hne hc).sameDeclarations_of_children
      (fun scope => ?_) (fun scope decorators => ?_) fun scope => ?_
    · rw [ofBody_eq, ofBody_eq]
      exact congrArg (fun o => (o.map fun body => ofStatements source scope body.children).getD [])
        (find?_insert (skipsComments_field "body") hc)
    · exact congrArg (·.map (ofDefinition source scope decorators))
        (find?_insert (skipsComments_field "definition") hc)
    · simp [ofStatements_eq_flatMap, hc.ofStatement]
  | @inside i before after t t' h ih =>
    refine (AddsComment.inside i before after h).sameDeclarations_of_children
      (fun scope => ?_) (fun scope decorators => ?_) fun scope => ?_
    · rw [ofBody_eq, ofBody_eq]
      exact congrArg (·.getD []) (map_find?_replace (p := (·.field == some "body"))
        (g := fun body => ofStatements source scope body.children) h.info_eq (ih.body scope))
    · exact map_find?_replace (p := (·.field == some "definition")) h.info_eq
        (ih.definition scope decorators)
    · simp [ofStatements_eq_flatMap, ih.statement]

/-! ## Modules -/

/-- A comment holds no error. -/
theorem IsBareComment.findAll (hc : IsBareComment c) : c.findAll "ERROR" = [] := by
  obtain ⟨i, cs⟩ := c
  obtain ⟨hkind, -, rfl⟩ := hc
  rw [kind_node] at hkind
  simp [findAll_node, hkind]

/-- The lines of the error nodes are the same with a comment more. -/
theorem AddsComment.map_line_findAll_eq (h : AddsComment t t') :
    (t'.findAll "ERROR").map line = (t.findAll "ERROR").map line := by
  induction h with
  | here i before after c _ _ hc =>
    by_cases hi : i.kind = "ERROR" <;> simp [findAll_node, hc.findAll, hi, line]
  | @inside i before after t t' h ih =>
    by_cases hi : i.kind = "ERROR" <;> simp [findAll_node, ih, hi, line]

/-- One comment leaves what is read of a module as it is, errors included. -/
theorem AddsComment.extractModule_eq (h : AddsComment t t') (source filePath : Text) :
    extractModule source filePath t' = extractModule source filePath t := by
  rw [Tree.extractModule_eq, Tree.extractModule_eq, h.map_line_findAll_eq, moduleDeclaration,
    moduleDeclaration, h.docstringOf?_eq, h.sameDeclarations.body]

end Tree

/-- **Comments do not matter.** With any number of comments added to its syntax tree, a module has
the same signature, or the same fault if it has no signature. -/
theorem extractModule_commentsAdded (source filePath : Text) (root root' : Tree)
    (h : Tree.CommentsAdded root root') :
    extractModule source filePath root' = extractModule source filePath root := by
  induction h with
  | refl => rfl
  | tail _ hstep ih => rw [hstep.extractModule_eq, ih]

/-- A comment before the docstring of a module, and two in a function that returns its parameter. -/
theorem extractModule_commentsAdded_same :
    let source := "\"Same.\"\ndef same(x): return x".toList
    let leaf (kind : String) (field : Option String) (start stop row : Nat) :=
      Tree.node ⟨kind, field, true, start, stop, row⟩ []
    let returned (comments : List Tree) := Tree.node ⟨"return_statement", none, true, 21, 29, 1⟩
      (leaf "return" none 21 27 1 :: comments ++ [leaf "identifier" none 28 29 1])
    let function (inList inReturn : List Tree) :=
      Tree.node ⟨"function_definition", none, true, 8, 29, 1⟩
        [leaf "identifier" (some "name") 12 16 1,
          .node ⟨"parameters", some "parameters", true, 16, 19, 1⟩
            (inList ++ [leaf "identifier" none 17 18 1]),
          .node ⟨"block", some "body", true, 21, 29, 1⟩ [returned inReturn]]
    let module (atTop inList inReturn : List Tree) := Tree.node ⟨"module", none, true, 0, 29, 0⟩
      (atTop ++ [.node ⟨"expression_statement", none, true, 0, 7, 0⟩ [leaf "string" none 0 7 0],
        function inList inReturn])
    let comment := leaf "comment" none 0 0 0
    Tree.CommentsAdded (module [] [] []) (module [comment] [comment] [comment]) ∧
      extractModule source "same.py".toList (module [comment] [comment] [comment]) =
        .ok (.node ⟨.module "same.py".toList, "same.py".toList, 0, some "Same.".toList, false⟩
          [.node ⟨.callable ⟨.function, [⟨"x".toList, false⟩], none, true⟩, "same".toList, 2, none,
            false⟩ []]) := by
  intro source leaf returned function module comment
  have hcomment : comment.IsBareComment := ⟨rfl, rfl, rfl⟩
  have hreturn : Tree.AddsComment (module [] [] []) (module [] [] [comment]) := by
    refine .inside _ [_] [] (.inside _ [_, _] [] (.inside _ [] [] ?_))
    exact .here _ [_] [_] comment (by decide) (by simp) hcomment
  have hlist : Tree.AddsComment (module [] [] [comment]) (module [] [comment] [comment]) := by
    refine .inside _ [_] [] (.inside _ [_] [_] ?_)
    exact .here _ [] [_] comment (by decide) (by simp) hcomment
  have htop : Tree.AddsComment (module [] [comment] [comment])
      (module [comment] [comment] [comment]) :=
    .here _ [] [_, _] comment (by decide) (by simp) hcomment
  have hadded : Tree.CommentsAdded (module [] [] []) (module [comment] [comment] [comment]) :=
    ((Relation.ReflTransGen.single hreturn).tail hlist).tail htop
  exact ⟨hadded, (extractModule_commentsAdded source "same.py".toList _ _ hadded).trans rfl⟩

end FieldLint
