import Mathlib.Data.List.Forall2
import FieldLint.Proofs.Extraction

/-!
# The definitions of a module

A node of a syntax tree is known by its **place**, the numbers of the children to take on the way
down from the root. The same subtree may stand at several places, so which definitions of a module
are declared is said about places:

* `Reachable` — the places of the definitions that stand, decorated or not, right in the module or
  right in the body of another such definition.
* `reachableDefinitions` — the definitions at these places, in the order of the source.
* `readsDefinitions` — reading a module gives one declaration for each of them, in order.
* `Reachable.spine` — on the way down to such a definition there are only bodies, definitions and
  decorated definitions, so nothing inside any other statement is reachable.
-/

namespace FieldLint

namespace Tree

/-! ## Places -/

/-- The node at a place: `k :: p` is the place `p` in the child with number `k`. -/
def at? (t : Tree) : List Nat → Option Tree
  | [] => some t
  | k :: p => t.children[k]?.bind fun c => c.at? p

/-- Going down a longer way is going down its two parts. -/
theorem at?_append (t : Tree) (p q : List Nat) :
    t.at? (p ++ q) = (t.at? p).bind fun u => u.at? q := by
  induction p generalizing t with
  | nil => rfl
  | cons k p ih =>
    rw [List.cons_append, at?, at?]
    rcases t.children[k]? with _ | c
    · rfl
    · exact ih c

mutual

/-- The places of all nodes of a tree, each before the ones below it. -/
def places : Tree → List (List Nat)
  | node _ cs => [] :: placesFrom 0 cs

/-- The places of all nodes of several trees, the first of which has number `k`. -/
def placesFrom : Nat → List Tree → List (List Nat)
  | _, [] => []
  | k, t :: rest => (places t).map (k :: ·) ++ placesFrom (k + 1) rest

end

open Classical in
/-- The nodes at the places with a property, each before the ones below it. -/
noncomputable def nodesWhere (t : Tree) (P : List Nat → Prop) : List Tree :=
  (t.places.filter fun p => P p).filterMap t.at?

open Classical in
/-- Among children the first of which has number `n`, a property of places is asked of each. -/
theorem filterMap_placesFrom {i : NodeInfo} {P : List Nat → Prop} {cs : List Tree} :
    ∀ {n : Nat} {rest : List Tree}, cs.drop n = rest →
      ((placesFrom n rest).filter fun p => P p).filterMap (node i cs).at? =
        (rest.zipIdx n).flatMap fun x => x.1.nodesWhere fun p => P (x.2 :: p)
  | n, [], _ => rfl
  | n, c :: rest, hdrop => by
    have hget : cs[n]? = some c := by
      rw [← List.head?_drop, hdrop]
      rfl
    have hrest : cs.drop (n + 1) = rest := by
      rw [← List.tail_drop, hdrop]
      rfl
    have hat : ∀ p, (node i cs).at? (n :: p) = c.at? p := by
      intro p
      rw [at?, children_node, hget, Option.bind_some]
    rw [placesFrom, List.filter_append, List.filterMap_append, filterMap_placesFrom hrest,
      List.zipIdx_cons, List.flatMap_cons, List.filter_map, List.filterMap_map, nodesWhere]
    congr 2
    funext p
    exact hat p

theorem nodesWhere_congr {t : Tree} {P Q : List Nat → Prop} (h : ∀ p, P p ↔ Q p) :
    t.nodesWhere P = t.nodesWhere Q := by
  rw [funext fun p => propext (h p)]

theorem nodesWhere_eq_nil {t : Tree} {P : List Nat → Prop} (h : ∀ p, ¬P p) :
    t.nodesWhere P = [] := by
  simp [nodesWhere, h]

/-- If the place of the root has the property, the root comes first. -/
theorem nodesWhere_of_root {i : NodeInfo} {cs : List Tree} {P : List Nat → Prop} (h : P []) :
    (node i cs).nodesWhere P =
      node i cs :: cs.zipIdx.flatMap fun x => x.1.nodesWhere fun p => P (x.2 :: p) := by
  have hcs : cs.drop 0 = cs := rfl
  rw [nodesWhere, places, List.filter_cons_of_pos (by simpa using h),
    List.filterMap_cons_some (by rfl), filterMap_placesFrom hcs]

/-- Without the root, the nodes are those of the children. -/
theorem nodesWhere_of_not_root {i : NodeInfo} {cs : List Tree} {P : List Nat → Prop} (h : ¬P []) :
    (node i cs).nodesWhere P =
      cs.zipIdx.flatMap fun x => x.1.nodesWhere fun p => P (x.2 :: p) := by
  have hcs : cs.drop 0 = cs := rfl
  rw [nodesWhere, places, List.filter_cons_of_neg (by simpa using h), filterMap_placesFrom hcs]

/-- The nodes in the children, if the property does not depend on the number of the child. -/
theorem flatMap_nodesWhere_of_children {cs : List Tree} {P : List Nat → Prop}
    {Q : Tree → List Nat → Prop} (h : ∀ k c, cs[k]? = some c → ∀ p, P (k :: p) ↔ Q c p) :
    (cs.zipIdx.flatMap fun x => x.1.nodesWhere fun p => P (x.2 :: p)) =
      cs.flatMap fun c => c.nodesWhere (Q c) := by
  have hcongr : ∀ x ∈ cs.zipIdx,
      (x.1.nodesWhere fun p => P (x.2 :: p)) = x.1.nodesWhere (Q x.1) := by
    intro x hx
    exact nodesWhere_congr (h x.2 x.1 (List.mem_zipIdx_iff_getElem?.mp hx))
  rw [List.flatMap_congr hcongr]
  conv_rhs => rw [← List.zipIdx_map_fst 0 cs, List.flatMap_map]

/-- The nodes in the children, if the property picks one of the children. -/
theorem flatMap_nodesWhere_of_child {cs : List Tree} {P Q : List Nat → Prop} {j : Nat} {c : Tree}
    (hc : cs[j]? = some c) (hj : ∀ p, P (j :: p) ↔ Q p) (hne : ∀ k p, P (k :: p) → k = j) :
    (cs.zipIdx.flatMap fun x => x.1.nodesWhere fun p => P (x.2 :: p)) = c.nodesWhere Q := by
  obtain ⟨before, after, rfl, rfl⟩ :
      ∃ before after, cs = before ++ c :: after ∧ before.length = j := by
    obtain ⟨hlt, rfl⟩ := List.getElem?_eq_some_iff.mp hc
    exact ⟨cs.take j, cs.drop (j + 1), by simp, by simp [Nat.le_of_lt hlt]⟩
  have hother : ∀ x : Tree × Nat, x.2 ≠ before.length →
      (x.1.nodesWhere fun p => P (x.2 :: p)) = [] := by
    intro x hx
    exact nodesWhere_eq_nil fun p hp => hx (hne _ _ hp)
  have hbefore : (before.zipIdx.flatMap fun x => x.1.nodesWhere fun p => P (x.2 :: p)) = [] := by
    rw [List.flatMap_eq_nil_iff]
    intro x hx
    have hlt := List.snd_lt_of_mem_zipIdx hx
    exact hother x (by omega)
  have hafter : ((after.zipIdx (before.length + 1)).flatMap
      fun x => x.1.nodesWhere fun p => P (x.2 :: p)) = [] := by
    rw [List.flatMap_eq_nil_iff]
    intro x hx
    have hle := List.le_snd_of_mem_zipIdx hx
    exact hother x (by omega)
  rw [List.zipIdx_append, List.flatMap_append, hbefore, List.nil_append, List.zipIdx_cons,
    List.flatMap_cons, Nat.zero_add, hafter, List.append_nil]
  exact nodesWhere_congr hj

/-- The nodes at all places are all nodes, in the same order. -/
theorem nodesWhere_true (t : Tree) : t.nodesWhere (fun _ => True) = t.preorder := by
  induction t using induction_on_children with
  | node i cs ih =>
    rw [nodesWhere_of_root trivial, preorder, preorderAll_eq_flatMap,
      flatMap_nodesWhere_of_children (P := fun _ => True) (Q := fun _ _ => True)
        fun _ _ _ _ => Iff.rfl,
      List.flatMap_congr ih]

/-- The nodes at all places are all nodes, in order. -/
theorem filterMap_at?_places (t : Tree) : t.places.filterMap t.at? = t.preorder := by
  simpa [nodesWhere] using t.nodesWhere_true

/-- The nodes at some places come in the order of all nodes. -/
theorem nodesWhere_sublist (t : Tree) (P : List Nat → Prop) :
    (t.nodesWhere P).Sublist t.preorder := by
  rw [nodesWhere, ← filterMap_at?_places]
  exact List.filter_sublist.filterMap _

/-! ## Reachable definitions -/

/-- The child with number `k` is `c`, and it is the first one under the field. -/
def IsField (t : Tree) (field : String) (k : Nat) (c : Tree) : Prop :=
  t.children.findIdx? (·.field == some field) = some k ∧ t.children[k]? = some c

/-- The child under a field is the first one with it. -/
theorem childByField?_eq_some_iff {t c : Tree} {field : String} :
    t.childByField? field = some c ↔ ∃ k, t.IsField field k c := by
  rw [childByField?, List.find?_eq_bind_findIdx?_getElem?, Option.bind_eq_some_iff]
  rfl

/-- A field has one child. -/
theorem IsField.unique {t c c' : Tree} {field : String} {k k' : Nat} (h : t.IsField field k c)
    (h' : t.IsField field k' c') : k = k' ∧ c = c' := by
  obtain rfl : k = k' := Option.some.inj (h.1.symm.trans h'.1)
  exact ⟨rfl, Option.some.inj (h.2.symm.trans h'.2)⟩

/-- A statement is a definition, or decorates it; the place is that of the definition in the
statement. A comment is neither. -/
inductive Defines : Tree → List Nat → Tree → Prop
  | direct {d : Tree} (hd : d.isDefinition = true) : Defines d [] d
  | decorated {s d : Tree} {k : Nat} (hs : s.kind = "decorated_definition")
      (hk : s.IsField "definition" k d) (hd : d.isDefinition = true) : Defines s [k] d

/-- The places of the definitions that are declared: those among the statements of the root, and
those among the statements in the body of another one. -/
inductive Reachable (root : Tree) : List Nat → Prop
  | top {k : Nat} {s d : Tree} {r : List Nat} (hs : root.children[k]? = some s)
      (hd : Defines s r d) : Reachable root (k :: r)
  | inner {p r : List Nat} {j k : Nat} {outer body s d : Tree} (hp : Reachable root p)
      (houter : root.at? p = some outer) (hbody : outer.IsField "body" j body)
      (hs : body.children[k]? = some s) (hd : Defines s r d) : Reachable root (p ++ j :: k :: r)

/-- The definitions that are declared, in the order of the source. -/
noncomputable def reachableDefinitions (root : Tree) : List Tree :=
  root.nodesWhere root.Reachable

/-- The place of a definition itself or, in its body, of a definition that is declared there. -/
def Within (d : Tree) (p : List Nat) : Prop :=
  p = [] ∨ ∃ j body q, p = j :: q ∧ d.IsField "body" j body ∧ body.Reachable q

/-- The place, in a statement, of a definition that is declared by it. -/
def Declares (s : Tree) (p : List Nat) : Prop :=
  ∃ r d q, p = r ++ q ∧ Defines s r d ∧ d.Within q

/-- What a statement defines stands below it. -/
theorem Defines.at?_eq {s d : Tree} {r : List Nat} (h : Defines s r d) : s.at? r = some d := by
  cases h with
  | direct => rfl
  | decorated _ hk _ => rw [at?, hk.2, Option.bind_some, at?]

/-- A definition reachable in a body is reachable in every tree where the definition around that
body is. -/
theorem Reachable.of_body {root outer body : Tree} {p q : List Nat} {j : Nat}
    (hp : root.Reachable p) (houter : root.at? p = some outer) (hbody : outer.IsField "body" j body)
    (hq : body.Reachable q) : root.Reachable (p ++ j :: q) := by
  have hat : root.at? (p ++ [j]) = some body := by
    rw [at?_append, houter, Option.bind_some, at?, hbody.2, Option.bind_some, at?]
  induction hq with
  | top hs hd => exact .inner hp houter hbody hs hd
  | @inner q r j' k' outer' body' s d _ houter' hbody' hs hd ih =>
    have hat' : root.at? (p ++ j :: q) = some outer' := by
      rw [← List.singleton_append, ← List.append_assoc, at?_append, hat, Option.bind_some, houter']
    have := Reachable.inner ih hat' hbody' hs hd
    rwa [List.append_assoc, List.cons_append] at this

/-- The reachable definitions of a tree are the ones that its statements declare. -/
theorem reachable_iff {root : Tree} {p : List Nat} :
    root.Reachable p ↔ ∃ k s q, p = k :: q ∧ root.children[k]? = some s ∧ s.Declares q := by
  constructor
  · intro h
    induction h with
    | @top k s d r hs hd => exact ⟨k, s, r, rfl, hs, r, d, [], by simp, hd, .inl rfl⟩
    | @inner p r j k outer body s d hp houter hbody hs hd ih =>
      obtain ⟨k₀, s₀, q₀, rfl, hs₀, r₀, d₀, q, rfl, hd₀, hq⟩ := ih
      have hat : d₀.at? q = some outer := by
        rw [at?, hs₀, Option.bind_some, at?_append, hd₀.at?_eq, Option.bind_some] at houter
        exact houter
      refine ⟨k₀, s₀, r₀ ++ (q ++ j :: k :: r), by simp, hs₀, r₀, d₀, _, rfl, hd₀, .inr ?_⟩
      rcases hq with rfl | ⟨j₀, body₀, q, rfl, hbody₀, hq⟩
      · -- the new definition stands in the body of `d₀` itself
        obtain rfl : d₀ = outer := Option.some.inj hat
        exact ⟨j, body, k :: r, rfl, hbody, .top hs hd⟩
      · have hat₀ : body₀.at? q = some outer := by
          rwa [at?, hbody₀.2, Option.bind_some] at hat
        exact ⟨j₀, body₀, q ++ j :: k :: r, rfl, hbody₀, .inner hq hat₀ hbody hs hd⟩
  · rintro ⟨k, s, _, rfl, hs, r, d, q, rfl, hd, rfl | ⟨j, body, q, rfl, hbody, hq⟩⟩
    · rw [List.append_nil]
      exact .top hs hd
    · have hat : root.at? (k :: r) = some d := by
        rw [at?, hs, Option.bind_some, hd.at?_eq]
      exact Reachable.of_body (.top hs hd) hat hbody hq

/-! ## Definitions, statement by statement -/

/-- A definition and the ones declared in its body; nothing if the node is no definition. -/
noncomputable def definitionsIn (d : Tree) : List Tree :=
  d.nodesWhere fun p => d.isDefinition = true ∧ d.Within p

/-- The definitions that are declared in a body are those its statements declare. -/
theorem reachableDefinitions_eq (t : Tree) :
    t.reachableDefinitions = t.children.flatMap fun s => s.nodesWhere s.Declares := by
  obtain ⟨i, cs⟩ := t
  have hroot : ¬(node i cs).Reachable [] := by
    rw [reachable_iff]
    rintro ⟨k, s, q, h, -⟩
    cases h
  rw [reachableDefinitions, nodesWhere_of_not_root hroot]
  refine flatMap_nodesWhere_of_children fun k s hs p => ?_
  rw [reachable_iff]
  constructor
  · rintro ⟨k', s', q, hp, hs', hq⟩
    obtain ⟨rfl, rfl⟩ := List.cons.inj hp
    obtain rfl : s = s' := Option.some.inj (hs.symm.trans hs')
    exact hq
  · intro hp
    exact ⟨k, s, p, rfl, hs, hp⟩

/-- The nodes in the children, if the property is about the child under a field. -/
theorem flatMap_nodesWhere_of_field {i : NodeInfo} {cs : List Tree} {P : List Nat → Prop}
    {field : String} {Q : Tree → List Nat → Prop}
    (h : ∀ k p, P (k :: p) ↔ ∃ c, (node i cs).IsField field k c ∧ Q c p) :
    (cs.zipIdx.flatMap fun x => x.1.nodesWhere fun p => P (x.2 :: p)) =
      (((node i cs).childByField? field).map fun c => c.nodesWhere (Q c)).getD [] := by
  rcases hchild : (node i cs).childByField? field with _ | c
  · have hnone : ∀ k p, ¬P (k :: p) := by
      intro k p hp
      obtain ⟨c, hc, -⟩ := (h k p).mp hp
      rw [childByField?_eq_some_iff.mpr ⟨k, hc⟩] at hchild
      cases hchild
    exact List.flatMap_eq_nil_iff.mpr fun x _ => nodesWhere_eq_nil (hnone x.2)
  · obtain ⟨j, hj⟩ := childByField?_eq_some_iff.mp hchild
    have hpick : ∀ p, P (j :: p) ↔ Q c p := by
      intro p
      rw [h]
      constructor
      · rintro ⟨c', hc', hp⟩
        obtain ⟨-, rfl⟩ := hj.unique hc'
        exact hp
      · exact fun hp => ⟨c, hj, hp⟩
    have hother : ∀ k p, P (k :: p) → k = j := by
      intro k p hp
      obtain ⟨c', hc', -⟩ := (h k p).mp hp
      exact (hc'.unique hj).1
    exact flatMap_nodesWhere_of_child hj.2 hpick hother

/-- A definition comes before the definitions in its body. -/
theorem definitionsIn_eq (d : Tree) :
    d.definitionsIn =
      if d.isDefinition then d :: ((d.childByField? "body").map reachableDefinitions).getD []
      else [] := by
  obtain ⟨i, cs⟩ := d
  rw [definitionsIn]
  split
  · rename_i hd
    rw [nodesWhere_of_root ⟨hd, .inl rfl⟩]
    refine congrArg (node i cs :: ·) (flatMap_nodesWhere_of_field
      (P := fun p => (node i cs).isDefinition = true ∧ (node i cs).Within p) (Q := Reachable)
      fun k p => ?_)
    constructor
    · rintro ⟨-, hp | ⟨j, body, q, hp, hj, hq⟩⟩
      · cases hp
      · obtain ⟨rfl, rfl⟩ := List.cons.inj hp
        exact ⟨body, hj, hq⟩
    · rintro ⟨body, hk, hp⟩
      exact ⟨hd, .inr ⟨k, body, p, rfl, hk, hp⟩⟩
  · rename_i hd
    exact nodesWhere_eq_nil fun p hp => hd hp.1

/-- A decorated definition declares the definition under its field, any other statement itself if
it is one. -/
theorem nodesWhere_declares (s : Tree) :
    s.nodesWhere s.Declares =
      if s.kind = "decorated_definition" then
        ((s.childByField? "definition").map definitionsIn).getD []
      else s.definitionsIn := by
  obtain ⟨i, cs⟩ := s
  split
  · rename_i hs
    have hself : (node i cs).isDefinition = false := by simp [isDefinition, hs]
    have hdeclares : ∀ p, (node i cs).Declares p ↔ ∃ k d q, p = k :: q ∧
        (node i cs).IsField "definition" k d ∧ d.isDefinition = true ∧ d.Within q := by
      intro p
      constructor
      · rintro ⟨r, d, q, rfl, hd | ⟨-, hk, hd⟩, hq⟩
        · rw [hself] at hd
          cases hd
        · exact ⟨_, d, q, rfl, hk, hd, hq⟩
      · rintro ⟨k, d, q, rfl, hk, hd, hq⟩
        exact ⟨[k], d, q, rfl, .decorated hs hk hd, hq⟩
    have hroot : ¬(node i cs).Declares [] := by simp [hdeclares]
    rw [nodesWhere_of_not_root hroot]
    refine flatMap_nodesWhere_of_field fun k p => ?_
    rw [hdeclares]
    constructor
    · rintro ⟨j, d, q, hp, hj, hq⟩
      obtain ⟨rfl, rfl⟩ := List.cons.inj hp
      exact ⟨d, hj, hq⟩
    · rintro ⟨d, hk, hp⟩
      exact ⟨k, d, p, rfl, hk, hp⟩
  · rename_i hs
    refine nodesWhere_congr fun p => ⟨?_, ?_⟩
    · rintro ⟨r, d, q, rfl, hd | ⟨hkind, -, -⟩, hq⟩
      · exact ⟨hd, hq⟩
      · exact absurd hkind hs
    · rintro ⟨hself, hp⟩
      exact ⟨[], _, p, rfl, .direct hself, hp⟩

/-! ## One declaration for each definition -/

/-- Read somewhere, the node makes the declaration. -/
def MakesDeclaration (source : Text) (t : Tree) (d : Declaration) : Prop :=
  ∃ scope decorators, declarationOf? source scope decorators t = some d

/-- Reading a node gives one declaration for each definition that is declared in it, in order. -/
structure ReadsDefinitions (source : Text) (t : Tree) : Prop where
  /-- as a definition -/
  definition : ∀ scope decorators, List.Forall₂ (MakesDeclaration source) t.definitionsIn
    (Signature.preorderAll (ofDefinition source scope decorators t))
  /-- as a statement -/
  statement : ∀ scope, List.Forall₂ (MakesDeclaration source) (t.nodesWhere t.Declares)
    (Signature.preorderAll (ofStatement source scope t))
  /-- as a body -/
  body : ∀ scope, List.Forall₂ (MakesDeclaration source) t.reachableDefinitions
    (Signature.preorderAll (ofStatements source scope t.children))

variable {source : Text} {t : Tree}

theorem forall₂_definitionsIn
    (hbody : ∀ body, t.childByField? "body" = some body → ∀ scope,
      List.Forall₂ (MakesDeclaration source) body.reachableDefinitions
        (Signature.preorderAll (ofStatements source scope body.children)))
    (scope : Scope) (decorators : List Text) :
    List.Forall₂ (MakesDeclaration source) t.definitionsIn
      (Signature.preorderAll (ofDefinition source scope decorators t)) := by
  rw [definitionsIn_eq, ← isSome_declarationOf? source scope decorators, ofDefinition]
  rcases hd : declarationOf? source scope decorators t with _ | d
  · exact .nil
  · have hinner : List.Forall₂ (MakesDeclaration source)
        (((t.childByField? "body").map reachableDefinitions).getD [])
        (Signature.preorderAll (ofBody source (innerScope t.kind) t.children)) := by
      rw [ofBody_eq, ← childByField?]
      rcases hchild : t.childByField? "body" with _ | body
      · exact .nil
      · exact hbody body hchild _
    dsimp only
    rw [Signature.preorderAll_singleton]
    exact .cons ⟨scope, decorators, hd⟩ hinner

/-- At every node, the definitions below it and the declarations read from it correspond. -/
theorem readsDefinitions (source : Text) (t : Tree) : ReadsDefinitions source t := by
  induction t using induction_on_children with
  | node i cs ih =>
    have hchild : ∀ {field c}, (node i cs).childByField? field = some c →
        ReadsDefinitions source c := fun h => ih _ (List.mem_of_find?_eq_some h)
    have hdefinition := forall₂_definitionsIn fun body hbody => (hchild hbody).body
    refine ⟨hdefinition, fun scope => ?_, fun scope => ?_⟩
    · rw [nodesWhere_declares, ofStatement_eq]
      split
      · rcases hd : (node i cs).childByField? "definition" with _ | d
        · exact .nil
        · exact (hchild hd).definition scope _
      · exact hdefinition scope []
    · rw [reachableDefinitions_eq, ofStatements_eq_flatMap, Signature.preorderAll_eq_flatMap,
        List.flatMap_assoc]
      have hself : List.Forall₂ (fun s s' => s = s' ∧ s ∈ cs) cs cs :=
        List.forall₂_same.mpr fun s hs => ⟨rfl, hs⟩
      refine List.rel_flatMap hself ?_
      rintro s _ ⟨rfl, hs⟩
      simpa only [Signature.preorderAll_eq_flatMap] using (ih s hs).statement scope

/-! ## On the way to a definition -/

/-- The place of a node with statements that are read: the root, or the body of a definition that is
declared. -/
def IsBlock (root : Tree) (q : List Nat) : Prop :=
  q = [] ∨ ∃ p j outer body, root.Reachable p ∧ root.at? p = some outer ∧
    outer.IsField "body" j body ∧ q = p ++ [j]

/-- On the way from a statement to what it defines there are only decorations and definitions. -/
theorem Defines.spine {s d : Tree} {r q : List Nat} (h : Defines s r d) (hq : q <+: r) :
    ∃ u, s.at? q = some u ∧ (u.kind = "decorated_definition" ∨ u.isDefinition = true) := by
  cases h with
  | direct hd =>
    obtain rfl := List.prefix_nil.mp hq
    exact ⟨s, rfl, .inr hd⟩
  | decorated hs hk hd =>
    rcases List.prefix_cons_iff.mp hq with rfl | ⟨q, rfl, hnil⟩
    · exact ⟨s, rfl, .inl hs⟩
    · obtain rfl := List.prefix_nil.mp hnil
      exact ⟨d, (Defines.decorated hs hk hd).at?_eq, .inr hd⟩

/-- On the way down to a definition that is declared there are only bodies, definitions and
decorated definitions. -/
theorem Reachable.spine {root : Tree} {p q : List Nat} (h : root.Reachable p) (hq : q <+: p) :
    root.IsBlock q ∨
      ∃ u, root.at? q = some u ∧ (u.kind = "decorated_definition" ∨ u.isDefinition = true) := by
  induction h with
  | @top k s d r hs hd =>
    rcases List.prefix_cons_iff.mp hq with rfl | ⟨q, rfl, hr⟩
    · exact .inl (.inl rfl)
    · rw [at?, hs, Option.bind_some]
      exact .inr (hd.spine hr)
  | @inner p r j k outer body s d hp houter hbody hs hd ih =>
    rcases List.prefix_or_prefix_of_prefix hq (List.prefix_append p (j :: k :: r)) with h | ⟨q, rfl⟩
    · exact ih h
    · rw [List.prefix_append_right_inj] at hq
      rcases List.prefix_cons_iff.mp hq with rfl | ⟨q, rfl, hk⟩
      · exact ih (by simp)
      · rcases List.prefix_cons_iff.mp hk with rfl | ⟨q, rfl, hr⟩
        · exact .inl (.inr ⟨p, j, outer, body, hp, houter, hbody, rfl⟩)
        · rw [at?_append, houter, Option.bind_some, at?, hbody.2, Option.bind_some, at?, hs,
            Option.bind_some]
          exact .inr (hd.spine hr)

end Tree

/-! ## Outlines -/

/-- What stands out of a class or a callable. -/
structure Outline where
  /-- it is a callable, and not a class -/
  isCallable : Bool
  /-- its name -/
  name : Text
  /-- the line it starts on -/
  line : Nat
  deriving DecidableEq, Repr

/-- The outline of a declaration; a module has none. -/
def Declaration.outline? (d : Declaration) : Option Outline :=
  match d.form with
  | .module _ => none
  | .classdef => some ⟨false, d.name, d.line⟩
  | .callable _ => some ⟨true, d.name, d.line⟩

/-- The outline of a definition, from the text of its name and its own row; other nodes have
none. -/
def Tree.outline? (source : Text) (t : Tree) : Option Outline :=
  (t.childByField? "name").bind fun name =>
    if t.kind = "class_definition" then some ⟨false, name.text source, t.info.row + 1⟩
    else if t.kind = "function_definition" then some ⟨true, name.text source, t.info.row + 1⟩
    else none

theorem Tree.MakesDeclaration.outline?_eq {source : Text} {t : Tree} {d : Declaration}
    (h : t.MakesDeclaration source d) :
    ∃ o, d.outline? = some o ∧ t.outline? source = some o := by
  obtain ⟨scope, decorators, h⟩ := h
  obtain ⟨name, hname, hd, hline, -, -, ⟨hkind, hform⟩ | ⟨hkind, hform⟩⟩ := declarationOf?_eq_some h
  · refine ⟨⟨false, d.name, d.line⟩, by rw [Declaration.outline?, hform], ?_⟩
    rw [Tree.outline?, hname, Option.bind_some, if_pos hkind, hd, hline, line]
  · refine ⟨⟨true, d.name, d.line⟩, by rw [Declaration.outline?, hform], ?_⟩
    rw [Tree.outline?, hname, Option.bind_some, if_neg (by simp [hkind]), if_pos hkind, hd, hline,
      line]

/-- Definitions and declarations that correspond have the same outlines. -/
theorem exists_outlines {source : Text} {ts : List Tree} {ds : List Declaration}
    (h : List.Forall₂ (Tree.MakesDeclaration source) ts ds) :
    ∃ outlines : List Outline, ds.map Declaration.outline? = outlines.map some ∧
      ts.map (Tree.outline? source) = outlines.map some := by
  induction h with
  | nil => exact ⟨[], rfl, rfl⟩
  | cons hd _ ih =>
    obtain ⟨o, ho, ho'⟩ := hd.outline?_eq
    obtain ⟨os, hos, hos'⟩ := ih
    exact ⟨o :: os, by simp [ho, hos], by simp [ho', hos']⟩

/-- **No definition is lost, doubled or invented.** A module without error nodes has a signature.
Its declarations, each before the ones inside it, have the outlines of the reachable definitions of
the syntax tree, in the order of the source. Below a node that is no body that is read, no decorated
definition and no definition with a name there is no reachable definition. -/
theorem extractModule_outlines (source filePath : Text) (root : Tree)
    (h : ∀ t ∈ root.preorder, t.kind ≠ "ERROR") :
    ∃ module, extractModule source filePath root = .ok module ∧
      (∃ outlines : List Outline,
        (Signature.preorderAll module.children).map Declaration.outline? = outlines.map some ∧
        root.reachableDefinitions.map (Tree.outline? source) = outlines.map some) ∧
      root.reachableDefinitions.Sublist root.preorder ∧
      ∀ q t, root.at? q = some t → ¬root.IsBlock q → t.kind ≠ "decorated_definition" →
        t.isDefinition = false → ∀ r, ¬root.Reachable (q ++ r) := by
  refine ⟨_, Tree.extractModule_of_no_error h, ?_, root.nodesWhere_sublist _, ?_⟩
  · exact exists_outlines ((Tree.readsDefinitions source root).body .module)
  · intro q t hq hblock hkind hdefinition r hr
    rcases hr.spine (List.prefix_append q r) with h | ⟨u, hu, h⟩
    · exact hblock h
    · obtain rfl : t = u := Option.some.inj (hq.symm.trans hu)
      rcases h with h | h
      · exact hkind h
      · rw [hdefinition] at h
        cases h

/-- A class with a decorated method, and a function in an `if` statement that is not reachable. -/
theorem extractModule_outlines_decorated :
    let source := "class C:\n  @s\n  def f(): 0\n  if f:\n    def g(): 0\n".toList
    let name (start stop row : Nat) :=
      Tree.node ⟨"identifier", some "name", true, start, stop, row⟩ []
    let decorated := Tree.node ⟨"decorated_definition", none, true, 11, 26, 1⟩
      [.node ⟨"decorator", none, true, 11, 13, 1⟩ [.node ⟨"identifier", none, true, 12, 13, 1⟩ []],
        .node ⟨"function_definition", some "definition", true, 16, 26, 2⟩ [name 20 21 2]]
    let branch := Tree.node ⟨"if_statement", none, true, 29, 49, 3⟩
      [.node ⟨"block", some "consequence", true, 39, 49, 4⟩
        [.node ⟨"function_definition", none, true, 39, 49, 4⟩ [name 43 44 4]]]
    let root := Tree.node ⟨"module", none, true, 0, 50, 0⟩
      [.node ⟨"class_definition", none, true, 0, 49, 0⟩
        [name 6 7 0, .node ⟨"block", some "body", true, 11, 49, 1⟩ [decorated, branch]]]
    (∀ t ∈ root.preorder, t.kind ≠ "ERROR") ∧
      root.reachableDefinitions.map (Tree.outline? source) =
        [some ⟨false, "C".toList, 1⟩, some ⟨true, "f".toList, 3⟩] ∧
      ∀ r, ¬root.Reachable ([0, 1, 1] ++ r) := by
  intro source name decorated branch root
  have hroot : ∀ t ∈ root.preorder, t.kind ≠ "ERROR" := by decide
  obtain ⟨module, hmodule, ⟨outlines, hdeclared, hreachable⟩, -, hspine⟩ :=
    extractModule_outlines source "c.py".toList root hroot
  have hread : extractModule source "c.py".toList root = _ := rfl
  cases hread.symm.trans hmodule
  refine ⟨hroot, hreachable.trans (hdeclared.symm.trans (by decide)), ?_⟩
  refine hspine [0, 1, 1] branch rfl ?_ (by decide) (by decide)
  rintro (h | ⟨p, j, outer, body, -, houter, hbody, hq⟩)
  · cases h
  · -- the node around the `if` statement is the block, which has no body
    have hsplit : [0, 1] ++ [1] = p ++ [j] := hq
    obtain ⟨rfl, -⟩ := List.append_inj' hsplit rfl
    obtain rfl := Option.some.inj houter
    cases hbody.1

end FieldLint
