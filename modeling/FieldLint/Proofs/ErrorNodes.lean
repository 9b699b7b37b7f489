import FieldLint.Lint.Batch
import FieldLint.Proofs.Reachable

/-!
# Looking for nodes, and the first error

Walking a tree visits every place once, in the order of dictionaries: a node before everything below
it, and everything below a child before the next child.

* `mem_places_iff`, `pairwise_lt_places` — the places of a tree are all places at which it has a
  node, in strictly increasing order.
* `map_some_findAll` — so the nodes of a kind are those at the places with that kind, in that order,
  and the first of them stands at the least such place (`head?_findAll_eq_some_iff`).

A source is rejected for the first error node and for nothing else, wherever it stands: also in a
body, a comment or a literal that extraction would not look into.
-/

namespace FieldLint

namespace Tree

/-! ## The places of a tree -/

theorem placesFrom_eq_flatMap (k : Nat) (cs : List Tree) :
    placesFrom k cs = (cs.zipIdx k).flatMap fun x => x.1.places.map (x.2 :: ·) := by
  induction cs generalizing k with
  | nil => rfl
  | cons c cs ih => rw [placesFrom, ih, List.zipIdx_cons, List.flatMap_cons]

/-- The places of a node: its own, and those of its children in order. -/
theorem places_node (i : NodeInfo) (cs : List Tree) :
    (node i cs).places = [] :: cs.zipIdx.flatMap fun x => x.1.places.map (x.2 :: ·) := by
  rw [places, placesFrom_eq_flatMap]

/-- The listed places are exactly those where a node stands. -/
theorem mem_places_iff {t : Tree} {p : List Nat} : p ∈ t.places ↔ ∃ u, t.at? p = some u := by
  induction t using induction_on_children generalizing p with
  | node i cs ih =>
    rw [places_node]
    rcases p with _ | ⟨k, p⟩
    · simp [at?]
    · rw [at?, children_node, List.mem_cons, or_iff_right (List.cons_ne_nil k p), List.mem_flatMap]
      constructor
      · rintro ⟨⟨c, j⟩, hc, hp⟩
        obtain ⟨q, hq, hcons⟩ := List.mem_map.mp hp
        obtain ⟨rfl, rfl⟩ := List.cons.inj hcons
        have hget := List.mem_zipIdx_iff_getElem?.mp hc
        rw [hget]
        exact (ih c (List.mem_of_getElem? hget)).mp hq
      · rintro ⟨u, hu⟩
        obtain ⟨c, hget, hu⟩ := Option.bind_eq_some_iff.mp hu
        refine ⟨(c, k), List.mem_zipIdx_iff_getElem?.mpr hget, List.mem_map_of_mem ?_⟩
        exact (ih c (List.mem_of_getElem? hget)).mpr ⟨u, hu⟩

/-- Children are numbered in increasing order. -/
theorem pairwise_snd_lt_zipIdx (cs : List Tree) (k : Nat) :
    (cs.zipIdx k).Pairwise fun a b => a.2 < b.2 := by
  induction cs generalizing k with
  | nil => exact .nil
  | cons c cs ih =>
    rw [List.zipIdx_cons]
    exact .cons (fun _ hb => List.le_snd_of_mem_zipIdx hb) (ih (k + 1))

/-- A place comes before those below it, and those below a child before the ones of later children. -/
theorem pairwise_lt_places (t : Tree) : t.places.Pairwise (· < ·) := by
  induction t using induction_on_children with
  | node i cs ih =>
    rw [places_node, List.pairwise_cons, List.pairwise_flatMap]
    refine ⟨?_, ?_, (pairwise_snd_lt_zipIdx cs 0).imp ?_⟩
    · intro p hp
      obtain ⟨x, -, hp⟩ := List.mem_flatMap.mp hp
      obtain ⟨q, -, rfl⟩ := List.mem_map.mp hp
      exact List.nil_lt_cons _ _
    · rintro ⟨c, k⟩ hc
      have hmem := List.mem_of_getElem? (List.mem_zipIdx_iff_getElem?.mp hc)
      rw [List.pairwise_map]
      exact (ih c hmem).imp fun hlt => List.cons_lt_cons_iff.mpr (.inr ⟨rfl, hlt⟩)
    · intro a b hab p hp q hq
      obtain ⟨p, -, rfl⟩ := List.mem_map.mp hp
      obtain ⟨q, -, rfl⟩ := List.mem_map.mp hq
      exact List.cons_lt_cons_iff.mpr (.inl hab)

/-- The nodes at all places are all nodes. -/
theorem map_at?_places (t : Tree) : t.places.map t.at? = t.preorder.map some := by
  have hsome : ∀ x ∈ t.places.map t.at?, x.isSome = true := by
    intro x hx
    obtain ⟨p, hp, rfl⟩ := List.mem_map.mp hx
    exact Option.isSome_iff_exists.mpr (mem_places_iff.mp hp)
  rw [← filterMap_at?_places, List.map_filterMap_some_eq_filter_map_isSome,
    List.filter_eq_self.mpr hsome]

/-! ## Nodes of a kind -/

/-- The places with a node of a kind. -/
def placesOf (t : Tree) (kind : String) : List (List Nat) :=
  t.places.filter fun p => (t.at? p).any fun u => u.kind == kind

theorem mem_placesOf_iff {t : Tree} {kind : String} {p : List Nat} :
    p ∈ t.placesOf kind ↔ ∃ u, t.at? p = some u ∧ u.kind = kind := by
  rw [placesOf, List.mem_filter, mem_places_iff, Option.any_eq_true]
  constructor
  · rintro ⟨-, u, hu, hkind⟩
    exact ⟨u, hu, eq_of_beq hkind⟩
  · rintro ⟨u, hu, rfl⟩
    exact ⟨⟨u, hu⟩, u, hu, beq_self_eq_true _⟩

/-- The places of one kind are listed in the order of the source. -/
theorem pairwise_lt_placesOf (t : Tree) (kind : String) : (t.placesOf kind).Pairwise (· < ·) :=
  t.pairwise_lt_places.filter _

/-- Looking for a kind gives the nodes at the places with that kind. -/
theorem map_some_findAll (t : Tree) (kind : String) :
    (t.findAll kind).map some = (t.placesOf kind).map t.at? := by
  have hfilter := congrArg (List.filter (Option.any fun u => u.kind == kind)) t.map_at?_places
  rw [List.filter_map, List.filter_map] at hfilter
  exact hfilter.symm

/-- A search for a kind finds exactly the nodes of that kind, at any depth. -/
theorem mem_findAll_iff {t u : Tree} {kind : String} :
    u ∈ t.findAll kind ↔ ∃ p, t.at? p = some u ∧ u.kind = kind := by
  have hmem : u ∈ t.findAll kind ↔ some u ∈ (t.findAll kind).map some := by simp
  rw [hmem, map_some_findAll, List.mem_map]
  constructor
  · rintro ⟨p, hp, hu⟩
    obtain ⟨v, hv, hkind⟩ := mem_placesOf_iff.mp hp
    obtain rfl : v = u := Option.some.inj (hv.symm.trans hu)
    exact ⟨p, hu, hkind⟩
  · rintro ⟨p, hu, hkind⟩
    exact ⟨p, mem_placesOf_iff.mpr ⟨u, hu, hkind⟩, hu⟩

/-- The node `u` at place `p` is the first one of a kind. -/
structure IsFirstOf (t : Tree) (kind : String) (p : List Nat) (u : Tree) : Prop where
  /-- it stands there -/
  at_eq : t.at? p = some u
  /-- it is of that kind -/
  kind_eq : u.kind = kind
  /-- the nodes before it are of other kinds -/
  before : ∀ q v, q < p → t.at? q = some v → v.kind ≠ kind

/-- The first node that is found is the first one of its kind. -/
theorem head?_findAll_eq_some_iff {t u : Tree} {kind : String} :
    (t.findAll kind).head? = some u ↔ ∃ p, t.IsFirstOf kind p u := by
  have hsorted := t.pairwise_lt_placesOf kind
  have hmap := congrArg List.head? (t.map_some_findAll kind)
  rw [List.head?_map, List.head?_map] at hmap
  constructor
  · intro hu
    rw [hu] at hmap
    rcases hplaces : t.placesOf kind with _ | ⟨p, ps⟩
    · rw [hplaces] at hmap
      cases hmap
    · rw [hplaces] at hmap hsorted
      have hat : t.at? p = some u := (Option.some.inj hmap).symm
      obtain ⟨v, hv, hkind⟩ := mem_placesOf_iff.mp (hplaces ▸ List.mem_cons_self : p ∈ _)
      obtain rfl : v = u := Option.some.inj (hv.symm.trans hat)
      refine ⟨p, hat, hkind, fun q w hqp hw hwkind => ?_⟩
      have hq : q ∈ p :: ps := hplaces ▸ mem_placesOf_iff.mpr ⟨w, hw, hwkind⟩
      rcases List.mem_cons.mp hq with rfl | hq
      · exact List.lt_irrefl q hqp
      · exact List.lt_asymm hqp (List.rel_of_pairwise_cons hsorted hq)
  · rintro ⟨p, hat, hkind, hbefore⟩
    have hp := mem_placesOf_iff.mpr ⟨u, hat, hkind⟩
    rcases hplaces : t.placesOf kind with _ | ⟨p₀, ps⟩
    · rw [hplaces] at hp
      cases hp
    · obtain ⟨v, hv, hvkind⟩ := mem_placesOf_iff.mp (hplaces ▸ List.mem_cons_self : p₀ ∈ _)
      rw [hplaces] at hmap hp hsorted
      rcases List.mem_cons.mp hp with rfl | hp
      · rw [List.head?_cons, Option.map_some, hat] at hmap
        obtain ⟨w, hw, hwu⟩ := Option.map_eq_some_iff.mp hmap
        rw [hw, Option.some.inj hwu]
      · exact absurd hvkind (hbefore p₀ v (List.rel_of_pairwise_cons hsorted hp) hv)

end Tree

/-! ## Errors -/

section Errors

variable {source filePath : Text} {root : Tree}

/-- Reading a module fails by the first error node, and tells its line. -/
theorem extractModule_eq_error_iff {fault : SyntaxFault} :
    extractModule source filePath root = .error fault ↔
      ∃ p error, root.IsFirstOf "ERROR" p error ∧ fault = ⟨error.info.row + 1⟩ := by
  rw [extractModule]
  constructor
  · intro h
    split at h
    · rename_i error herror
      obtain ⟨p, hfirst⟩ := Tree.head?_findAll_eq_some_iff.mp herror
      exact ⟨p, error, hfirst, (Except.error.inj h).symm⟩
    · cases h
  · rintro ⟨p, error, hfirst, rfl⟩
    rw [Tree.head?_findAll_eq_some_iff.mpr ⟨p, hfirst⟩]
    rfl

theorem exists_extractModule_error_iff :
    (∃ fault, extractModule source filePath root = .error fault) ↔
      ∃ p u, root.at? p = some u ∧ u.kind = "ERROR" := by
  constructor
  · rintro ⟨fault, h⟩
    obtain ⟨p, error, hfirst, -⟩ := extractModule_eq_error_iff.mp h
    exact ⟨p, error, hfirst.at_eq, hfirst.kind_eq⟩
  · rintro ⟨p, u, hu, hkind⟩
    have hmem := Tree.mem_findAll_iff.mpr ⟨p, hu, hkind⟩
    rcases hhead : (root.findAll "ERROR").head? with _ | error
    · rw [List.head?_eq_none_iff.mp hhead] at hmem
      cases hmem
    · obtain ⟨q, hfirst⟩ := Tree.head?_findAll_eq_some_iff.mp hhead
      exact ⟨_, extractModule_eq_error_iff.mpr ⟨q, error, hfirst, rfl⟩⟩

/-- A tree without error nodes has the signature of a module, whatever else it lacks. -/
theorem exists_extractModule_ok_iff :
    (∃ module, extractModule source filePath root = .ok module ∧
      module.declaration.form = .module filePath) ↔
      ∀ p u, root.at? p = some u → u.kind ≠ "ERROR" := by
  constructor
  · rintro ⟨module, hmodule, -⟩ p u hu hkind
    obtain ⟨fault, hfault⟩ : ∃ fault, extractModule source filePath root = .error fault :=
      exists_extractModule_error_iff.mpr ⟨p, u, hu, hkind⟩
    rw [hmodule] at hfault
    cases hfault
  · intro hno
    rcases hresult : extractModule source filePath root with fault | module
    · obtain ⟨p, u, hu, hkind⟩ := exists_extractModule_error_iff.mp ⟨fault, hresult⟩
      exact absurd hkind (hno p u hu)
    · refine ⟨module, rfl, ?_⟩
      rw [Tree.eq_of_extractModule hresult]
      rfl

/-- With a grammar, a source fails as the extraction of its tree does. -/
theorem extractSource_loaded (parse : Text → Tree) :
    extractSource ⟨some parse⟩ source filePath =
      (extractModule source filePath (parse source)).mapError (.unanalyzable filePath) := by
  simp only [extractSource]
  rcases extractModule source filePath (parse source) with fault | module <;> rfl

/-- With a grammar, reading a source fails by an error node and by nothing else. -/
theorem exists_firstError_of_extractSource {parse : Text → Tree} {e : LintError}
    (h : extractSource ⟨some parse⟩ source filePath = .error e) :
    ∃ p error, (parse source).IsFirstOf "ERROR" p error ∧
      e = .unanalyzable filePath ⟨error.info.row + 1⟩ := by
  rw [extractSource_loaded] at h
  rcases hresult : extractModule source filePath (parse source) with fault | module
  · obtain ⟨p, error, hfirst, rfl⟩ := extractModule_eq_error_iff.mp hresult
    rw [hresult] at h
    exact ⟨p, error, hfirst, (Except.error.inj h).symm⟩
  · rw [hresult] at h
    cases h

end Errors

/-- **The first error decides, and nothing else fails.** Extraction fails exactly if some node of the
tree, wherever it stands, is an error; the fault is the line of the one that comes first in the tree,
and under that reason the file is recorded. Any other tree has the signature of a module, however
much is missing in it. Looking for the nodes of any kind gives those at the places with that kind,
each once, in the order of the tree. -/
theorem extractModule_firstError (source filePath : Text) (root : Tree) :
    ((∃ fault, extractModule source filePath root = .error fault) ↔
      ∃ p u, root.at? p = some u ∧ u.kind = "ERROR") ∧
    (∀ fault, extractModule source filePath root = .error fault ↔
      ∃ p error, root.IsFirstOf "ERROR" p error ∧ fault = ⟨error.info.row + 1⟩) ∧
    (∀ e, extractSource ⟨some fun _ => root⟩ source filePath = .error e →
      ∃ p error, root.IsFirstOf "ERROR" p error ∧
        e = .unanalyzable filePath ⟨error.info.row + 1⟩ ∧
        e.reason? = some ("syntax error at line ".toList ++ Text.ofNat (error.info.row + 1))) ∧
    ((∃ module, extractModule source filePath root = .ok module ∧
      module.declaration.form = .module filePath) ↔
      ∀ p u, root.at? p = some u → u.kind ≠ "ERROR") ∧
    ∀ kind, ∃ places : List (List Nat), places.Pairwise (· < ·) ∧
      (∀ p, p ∈ places ↔ ∃ u, root.at? p = some u ∧ u.kind = kind) ∧
      (root.findAll kind).map some = places.map root.at? := by
  refine ⟨exists_extractModule_error_iff, fun _ => extractModule_eq_error_iff, ?_,
    exists_extractModule_ok_iff, ?_⟩
  · intro e he
    obtain ⟨p, error, hfirst, rfl⟩ := exists_firstError_of_extractSource he
    exact ⟨p, error, hfirst, rfl, rfl⟩
  · intro kind
    exact ⟨root.placesOf kind, root.pairwise_lt_placesOf kind, fun _ => Tree.mem_placesOf_iff,
      root.map_some_findAll kind⟩

end FieldLint
