import Mathlib.Data.List.Basic
import Mathlib.Data.List.Induction
import Mathlib.Data.List.Nodup
import FieldLint.Docstring.Parse

/-!
# The field list of a sequence of records

`FieldList.ofRecords` puts the records of a docstring into three lists, one record after the other.
What the lists hold in the end is said here without the loop:

* `groupTable` — for every key, in the order in which keys **first** appear, the **last** field with
  that key;
* `replaced` — for every field that repeats a key, the nearest field before it with that key;
* the malformed fields in their order.

`ofRecords_eq` says that these are the three lists, and `records_ofRecords_perm` that no record is
lost or made up on the way. `ofRecords_append` tells what the records of two parts leave behind, from
what each part leaves behind alone.
-/

namespace FieldLint

/-! ## Records -/

namespace Record

/-- The number of the marker line. -/
def line : Record → Nat
  | field f => f.line
  | malformed m => m.line

/-- The field, if the record has a subject. -/
def field? : Record → Option DocField
  | field f => some f
  | malformed _ => none

/-- The malformed field, if the record has no subject. -/
def malformed? : Record → Option MalformedField
  | field _ => none
  | malformed m => some m

/-- The record has no subject. -/
def isMalformed : Record → Bool
  | field _ => false
  | malformed _ => true

end Record

/-- All records of a field list: its fields, the ones they replaced and the malformed ones. -/
def FieldList.records (l : FieldList) : List Record :=
  l.fields.map .field ++ l.duplicates.map .field ++ l.malformed.map .malformed

/-- The fields among records, in their order. -/
def fieldsOf (rs : List Record) : List DocField :=
  rs.filterMap Record.field?

@[simp] theorem fieldsOf_append (rs rs' : List Record) :
    fieldsOf (rs ++ rs') = fieldsOf rs ++ fieldsOf rs' :=
  List.filterMap_append

@[simp] theorem fieldsOf_field (f : DocField) : fieldsOf [.field f] = [f] := rfl

@[simp] theorem fieldsOf_malformed (m : MalformedField) : fieldsOf [.malformed m] = [] := rfl

/-! ## Looking up by key -/

namespace FieldTable

/-- Comparing the words of keys is comparing keys. -/
theorem find?_eq (table : FieldTable) (key : Key) :
    table.find? key = List.find? (fun f => f.key == key) table := by
  unfold find?
  congr 1
  funext f
  rw [Bool.eq_iff_iff, beq_iff_eq, beq_iff_eq, Key.text_inj]

theorem put_eq (table : FieldTable) (f : DocField) :
    table.put f =
      if (table.find? f.key).isSome then table.map fun g => if g.key = f.key then f else g
      else table ++ [f] := by
  simp only [put, Key.text_inj]

/-- Asking a field for its tag after looking it up changes nothing. -/
theorem find?_filter_tag (table : FieldTable) (key : Key) :
    (table.find? key).filter (·.subject.tag == key.tag) = table.find? key := by
  rcases hf : table.find? key with _ | f
  · rfl
  · rw [find?_eq] at hf
    have hkey : f.key = key := by simpa using List.find?_some hf
    have htag : f.subject.tag = key.tag := congrArg Key.tag hkey
    simp [htag]

end FieldTable

theorem Docstring.paramField?_eq (d : Docstring) (name : Text) :
    d.paramField? name = d.fields.find? ⟨.param, some name⟩ :=
  d.fields.find?_filter_tag ⟨.param, some name⟩

theorem Docstring.typeField?_eq (d : Docstring) (name : Text) :
    d.typeField? name = d.fields.find? ⟨.type, some name⟩ :=
  d.fields.find?_filter_tag ⟨.type, some name⟩

/-- The last of the fields with a key. -/
def lastField? (fs : List DocField) (key : Key) : Option DocField :=
  fs.findRev? fun f => f.key == key

theorem lastField?_concat (fs : List DocField) (f : DocField) (key : Key) :
    lastField? (fs ++ [f]) key = if f.key = key then some f else lastField? fs key := by
  by_cases h : f.key = key <;> simp [lastField?, h]

/-- A later part is asked first. -/
theorem lastField?_append (fs gs : List DocField) (key : Key) :
    lastField? (fs ++ gs) key = (lastField? gs key).or (lastField? fs key) := by
  simp only [lastField?, List.findRev?_eq_find?_reverse, List.reverse_append, List.find?_append]

/-- Looking up goes together with any change to the fields that leaves their keys alone. -/
theorem lastField?_map {g : DocField → DocField} (hg : ∀ f, (g f).key = f.key)
    (fs : List DocField) (key : Key) :
    lastField? (fs.map g) key = (lastField? fs key).map g := by
  simp only [lastField?, List.findRev?_eq_find?_reverse, ← List.map_reverse, List.find?_map,
    Function.comp_def, hg]

/-- The last field with a key is one of the fields and has the key. -/
theorem mem_of_lastField? {fs : List DocField} {key : Key} {f : DocField}
    (h : lastField? fs key = some f) : f ∈ fs ∧ f.key = key := by
  rw [lastField?, List.findRev?_eq_find?_reverse] at h
  exact ⟨List.mem_reverse.mp (List.mem_of_find?_eq_some h), by simpa using List.find?_some h⟩

/-- There is no last field with a key exactly if no field has it. -/
theorem lastField?_eq_none_iff {fs : List DocField} {key : Key} :
    lastField? fs key = none ↔ ∀ f ∈ fs, f.key ≠ key := by
  simp [lastField?]

section Insert

variable {x : DocField} (fs gs : List DocField)

/-- A field in the middle is not found under another key. -/
theorem lastField?_insert_of_ne {key : Key} (h : x.key ≠ key) :
    lastField? (fs ++ x :: gs) key = lastField? (fs ++ gs) key := by
  have hx : lastField? [x] key = none := by
    rw [lastField?_eq_none_iff]
    simpa using h
  rw [← List.singleton_append, lastField?_append, lastField?_append, lastField?_append, hx,
    Option.or_none]

variable {gs}

/-- A field in the middle is found under its own key if no field after it has that key. -/
theorem lastField?_insert_self (h : ∀ g ∈ gs, g.key ≠ x.key) :
    lastField? (fs ++ x :: gs) x.key = some x := by
  have hx : lastField? [x] x.key = some x := lastField?_concat [] x x.key ▸ if_pos rfl
  rw [← List.singleton_append, lastField?_append, lastField?_append, hx,
    lastField?_eq_none_iff.mpr h]
  rfl

end Insert

/-! ## The table -/

section EraseDups

variable {α : Type} [BEq α] [LawfulBEq α]

theorem eraseDups_concat (l : List α) (a : α) [Decidable (a ∈ l)] :
    (l ++ [a]).eraseDups = if a ∈ l then l.eraseDups else l.eraseDups ++ [a] := by
  rw [List.eraseDups_append, List.removeAll]
  by_cases h : a ∈ l
  · rw [if_pos h, List.filter_cons_of_neg (by simpa using h)]
    simp
  · rw [if_neg h, List.filter_cons_of_pos (by simpa using h)]
    simp [List.eraseDups_cons]

theorem nodup_eraseDups (l : List α) : l.eraseDups.Nodup := by
  classical
  induction l using List.reverseRecOn with
  | nil => simp
  | append_singleton l a ih =>
    rw [eraseDups_concat]
    by_cases h : a ∈ l
    · rw [if_pos h]
      exact ih
    · rw [if_neg h, List.nodup_append]
      refine ⟨ih, by simp, ?_⟩
      rintro b hb _ hb' rfl
      rw [List.mem_singleton] at hb'
      exact h (hb' ▸ List.mem_eraseDups.mp hb)

theorem eraseDups_filter (l : List α) (p : α → Bool) :
    (l.filter p).eraseDups = l.eraseDups.filter p := by
  classical
  induction l using List.reverseRecOn with
  | nil => simp
  | append_singleton l a ih =>
    rw [List.filter_append, eraseDups_concat]
    by_cases hp : p a = true
    · rw [List.filter_cons_of_pos hp, List.filter_nil, eraseDups_concat, ih]
      by_cases ha : a ∈ l <;> simp [ha, hp]
    · rw [List.filter_cons_of_neg hp, List.filter_nil, List.append_nil, ih]
      by_cases ha : a ∈ l <;> simp [ha, hp]

/-- Of two equal neighbours the second one does not count. -/
theorem eraseDups_append_cons_cons_self (l l' : List α) (a : α) :
    (l ++ a :: a :: l').eraseDups = (l ++ a :: l').eraseDups := by
  have hdrop : (a :: l').removeAll (l ++ [a]) = l'.removeAll (l ++ [a]) := by
    rw [List.removeAll, List.filter_cons_of_neg (by simp)]
    rfl
  have hsplit : ∀ r, (l ++ a :: r).eraseDups =
      (l ++ [a]).eraseDups ++ (r.removeAll (l ++ [a])).eraseDups := by
    intro r
    rw [← List.eraseDups_append, List.append_assoc, List.singleton_append]
  rw [hsplit (a :: l'), hsplit l', hdrop]

/-- Of equal elements only the first counts, whether the others go before a replacement or after. -/
theorem eraseDups_filterMap_eraseDups {β : Type} [BEq β] [LawfulBEq β] (l : List α)
    (g : α → Option β) : (l.eraseDups.filterMap g).eraseDups = (l.filterMap g).eraseDups := by
  classical
  induction l using List.reverseRecOn with
  | nil => simp
  | append_singleton l a ih =>
    have hmem : ∀ b, b ∈ l.eraseDups.filterMap g ↔ b ∈ l.filterMap g := by
      intro b
      rw [← List.mem_eraseDups, ih, List.mem_eraseDups]
    rw [List.filterMap_append, eraseDups_concat]
    rcases hg : g a with _ | b
    · by_cases ha : a ∈ l <;> simp [ha, hg, ih]
    · by_cases ha : a ∈ l
      · have hb : b ∈ l.filterMap g := List.mem_filterMap.mpr ⟨a, ha, hg⟩
        simp [ha, hg, ih, eraseDups_concat, hb]
      · simp [ha, hg, ih, eraseDups_concat, hmem]

end EraseDups

/-- The keys of the fields, each once, in the order in which they first appear. -/
def firstKeys (fs : List DocField) : List Key :=
  (fs.map DocField.key).eraseDups

/-- The keys are those of the fields. -/
theorem mem_firstKeys {fs : List DocField} {key : Key} :
    key ∈ firstKeys fs ↔ ∃ f ∈ fs, f.key = key := by
  simp [firstKeys, List.mem_eraseDups]

theorem firstKeys_concat (fs : List DocField) (f : DocField) :
    firstKeys (fs ++ [f]) =
      if f.key ∈ firstKeys fs then firstKeys fs else firstKeys fs ++ [f.key] := by
  rw [firstKeys, List.map_append, List.map_singleton, eraseDups_concat]
  simp only [firstKeys, List.mem_eraseDups]

/-- The keys of a second part that are new come after the keys of the first. -/
theorem firstKeys_append (fs gs : List DocField) :
    firstKeys (fs ++ gs) =
      firstKeys fs ++ (firstKeys gs).filter fun k => (lastField? fs k).isNone := by
  have hnew : ∀ k, (!(fs.map DocField.key).contains k) = (lastField? fs k).isNone := by
    intro k
    rw [Bool.eq_iff_iff, Option.isNone_iff_eq_none, lastField?_eq_none_iff]
    simp
  rw [firstKeys, List.map_append, List.eraseDups_append, List.removeAll, eraseDups_filter]
  simp only [List.elem_eq_contains, hnew]
  rfl

/-- Each key is listed once. -/
theorem nodup_firstKeys (fs : List DocField) : (firstKeys fs).Nodup :=
  nodup_eraseDups _

/-- The table a sequence of fields leaves behind: the last field of each key, in the order of the
first. -/
def groupTable (fs : List DocField) : FieldTable :=
  (firstKeys fs).filterMap (lastField? fs)

/-- Among the last fields of some keys, the one with `key` is the last field of `key`. -/
theorem find?_filterMap_lastField? (fs : List DocField) (keys : List Key) (key : Key) :
    FieldTable.find? (keys.filterMap (lastField? fs)) key =
      if key ∈ keys then lastField? fs key else none := by
  rw [FieldTable.find?_eq]
  induction keys with
  | nil => rfl
  | cons k keys ih =>
    rw [List.filterMap_cons]
    by_cases hk : k = key
    · subst hk
      rcases hl : lastField? fs k with _ | f
      · rw [hl] at ih
        simpa using ih
      · simp [(mem_of_lastField? hl).2]
    · rcases hl : lastField? fs k with _ | f
      · simpa [Ne.symm hk] using ih
      · have hf : f.key ≠ key := fun h => hk ((mem_of_lastField? hl).2.symm.trans h)
        simpa [hf, Ne.symm hk] using ih

/-- Looking a key up in the table gives the last field with that key. -/
theorem find?_groupTable (fs : List DocField) (key : Key) :
    (groupTable fs).find? key = lastField? fs key := by
  rw [groupTable, find?_filterMap_lastField?]
  by_cases h : key ∈ firstKeys fs
  · rw [if_pos h]
  · rw [if_neg h, eq_comm, lastField?_eq_none_iff]
    intro f hf hk
    exact h (mem_firstKeys.mpr ⟨f, hf, hk⟩)

/-- The **step** of the table: putting one more field is having read one more field. -/
theorem put_groupTable (fs : List DocField) (f : DocField) :
    (groupTable fs).put f = groupTable (fs ++ [f]) := by
  have hfound : ((groupTable fs).find? f.key).isSome ↔ f.key ∈ firstKeys fs := by
    rw [find?_groupTable, Option.isSome_iff_ne_none, ne_eq, lastField?_eq_none_iff, mem_firstKeys]
    push Not
    rfl
  rw [FieldTable.put_eq]
  unfold groupTable at *
  rw [firstKeys_concat]
  by_cases h : f.key ∈ firstKeys fs
  · -- the key is there: its place is kept, its field replaced
    rw [if_pos (hfound.mpr h), if_pos h, List.map_filterMap]
    apply List.filterMap_congr
    intro k _
    rw [lastField?_concat]
    rcases hl : lastField? fs k with _ | g
    · have hk : f.key ≠ k := by
        rintro rfl
        obtain ⟨g, hg, hgk⟩ := mem_firstKeys.mp h
        exact lastField?_eq_none_iff.mp hl g hg hgk
      rw [if_neg hk]
      rfl
    · obtain rfl := (mem_of_lastField? hl).2
      by_cases hk : f.key = g.key
      · simp [hk]
      · simp [hk, Ne.symm hk]
  · -- the key is new: the field goes to the end, and no other place changes
    rw [if_neg (mt hfound.mp h), if_neg h, List.filterMap_append]
    have hsame : ∀ k ∈ firstKeys fs, lastField? fs k = lastField? (fs ++ [f]) k := by
      intro k hk
      rw [lastField?_concat, if_neg]
      rintro rfl
      exact h hk
    rw [List.filterMap_congr hsame]
    simp [lastField?_concat]

/-- The fields of the table have the first keys as their keys. -/
theorem map_key_groupTable (fs : List DocField) :
    (groupTable fs).map DocField.key = firstKeys fs := by
  have hkey : ∀ k ∈ firstKeys fs, (lastField? fs k).map DocField.key = some k := by
    intro k hk
    rcases hl : lastField? fs k with _ | f
    · obtain ⟨f, hf, hfk⟩ := mem_firstKeys.mp hk
      exact absurd hfk (lastField?_eq_none_iff.mp hl f hf)
    · simp [(mem_of_lastField? hl).2]
  rw [groupTable, List.map_filterMap, List.filterMap_congr hkey, List.filterMap_some]

/-- The table of two parts: the second one replaces what the first one says about the same keys, and
adds its other keys. -/
theorem groupTable_append (fs gs : List DocField) :
    groupTable (fs ++ gs) =
      (groupTable fs).map (fun f => (lastField? gs f.key).getD f) ++
        (groupTable gs).filter fun g => (lastField? fs g.key).isNone := by
  rw [groupTable, firstKeys_append, List.filterMap_append]
  congr 1
  · -- the keys of the first part
    rw [groupTable, List.map_filterMap]
    apply List.filterMap_congr
    intro k hk
    rw [lastField?_append]
    rcases hf : lastField? fs k with _ | f
    · obtain ⟨f, hmem, rfl⟩ := mem_firstKeys.mp hk
      exact absurd rfl (lastField?_eq_none_iff.mp hf f hmem)
    · rw [Option.map_some, (mem_of_lastField? hf).2]
      rcases lastField? gs k with _ | g <;> rfl
  · -- the keys that only the second part has
    rw [groupTable, List.filterMap_filter, List.filter_filterMap]
    apply List.filterMap_congr
    intro k _
    rw [lastField?_append]
    rcases hg : lastField? gs k with _ | g
    · rcases lastField? fs k with _ | f <;> rfl
    · obtain rfl := (mem_of_lastField? hg).2
      rcases hf : lastField? fs g.key with _ | f <;> simp [Option.filter, hf]

/-! ## The replaced fields -/

/-- The field that number `j` replaces: the nearest one before it with the same key. -/
def replacedBy? (fs : List DocField) (j : Nat) : Option DocField :=
  fs[j]?.bind fun f => lastField? (fs.take j) f.key

/-- All replaced fields, in the order of the fields that replace them. -/
def replaced (fs : List DocField) : List DocField :=
  (List.range fs.length).filterMap (replacedBy? fs)

/-- The **step** of the replaced fields. -/
theorem replaced_concat (fs : List DocField) (f : DocField) :
    replaced (fs ++ [f]) = replaced fs ++ (lastField? fs f.key).toList := by
  have hbefore : ∀ j ∈ List.range fs.length,
      replacedBy? (fs ++ [f]) j = replacedBy? fs j := by
    intro j hj
    have hlt : j < fs.length := List.mem_range.mp hj
    rw [replacedBy?, replacedBy?, List.getElem?_append_left hlt,
      List.take_append_of_le_length (Nat.le_of_lt hlt)]
  have hlast : replacedBy? (fs ++ [f]) fs.length = lastField? fs f.key := by
    rw [replacedBy?, List.getElem?_concat_length, Option.bind_some, List.take_left]
  rw [replaced, List.length_append, List.length_singleton, List.range_succ, List.filterMap_append,
    List.filterMap_congr hbefore, replaced]
  rcases hl : lastField? fs f.key with _ | g <;> simp [hlast, hl]

/-- Nothing is replaced exactly when no key comes twice. -/
theorem replaced_eq_nil_iff (fs : List DocField) :
    replaced fs = [] ↔ (fs.map DocField.key).Nodup := by
  induction fs using List.reverseRecOn with
  | nil => simp [replaced]
  | append_singleton fs f ih =>
    have hnew : (lastField? fs f.key).toList = [] ↔ f.key ∉ fs.map DocField.key := by
      rw [Option.toList_eq_nil_iff, lastField?_eq_none_iff, List.mem_map]
      push Not
      rfl
    rw [replaced_concat, List.append_eq_nil_iff, ih, hnew, List.map_append, List.map_singleton,
      List.nodup_append_comm, List.singleton_append, List.nodup_cons, and_comm]

/-- A field with a key of its own is not replaced and replaces nothing. -/
theorem replaced_insert {x : DocField} {fs gs : List DocField} (hfs : ∀ f ∈ fs, f.key ≠ x.key)
    (hgs : ∀ g ∈ gs, g.key ≠ x.key) : replaced (fs ++ x :: gs) = replaced (fs ++ gs) := by
  induction gs using List.reverseRecOn with
  | nil =>
    rw [replaced_concat, lastField?_eq_none_iff.mpr hfs, List.append_nil]
    exact List.append_nil _
  | append_singleton gs g ih =>
    have hg : x.key ≠ g.key := fun h => hgs g (by simp) h.symm
    rw [← List.cons_append, ← List.append_assoc, ← List.append_assoc, replaced_concat,
      replaced_concat, lastField?_insert_of_ne _ _ hg, ih fun g hg => hgs g (by simp [hg])]

/-- Grouping goes together with any change to the fields that leaves their keys alone. -/
theorem groupTable_map {g : DocField → DocField} (hg : ∀ f, (g f).key = f.key)
    (fs : List DocField) : groupTable (fs.map g) = (groupTable fs).map g := by
  have hkeys : firstKeys (fs.map g) = firstKeys fs := by
    rw [firstKeys, List.map_map, firstKeys]
    exact congrArg List.eraseDups (List.map_congr_left fun f _ => hg f)
  rw [groupTable, hkeys, groupTable, List.map_filterMap]
  exact List.filterMap_congr fun key _ => lastField?_map hg fs key

/-- Replacing goes together with any change to the fields that leaves their keys alone. -/
theorem replaced_map {g : DocField → DocField} (hg : ∀ f, (g f).key = f.key)
    (fs : List DocField) : replaced (fs.map g) = (replaced fs).map g := by
  induction fs using List.reverseRecOn with
  | nil => rfl
  | append_singleton fs f ih =>
    rw [List.map_append, List.map_singleton, replaced_concat, replaced_concat, lastField?_map hg,
      hg, ih, List.map_append]
    rcases lastField? fs f.key with _ | f' <;> rfl

/-- Of the fields with one key, all are replaced but the last. -/
theorem countP_replaced (fs : List DocField) (key : Key) :
    (replaced fs).countP (·.key == key) + (if (lastField? fs key).isSome then 1 else 0) =
      fs.countP (·.key == key) := by
  induction fs using List.reverseRecOn with
  | nil => rfl
  | append_singleton fs f ih =>
    rw [replaced_concat, lastField?_concat, List.countP_append, List.countP_append, ← ih]
    by_cases hf : f.key = key
    · subst hf
      rcases hl : lastField? fs f.key with _ | g
      · simp
      · simp [(mem_of_lastField? hl).2]
    · rcases hl : lastField? fs f.key with _ | g
      · simp [hf]
      · simp [hf, (mem_of_lastField? hl).2]

/-- In two parts each replaces its own fields, and the second one replaces a field of the first one
if both have its key. -/
theorem countP_replaced_append (fs gs : List DocField) (key : Key) :
    (replaced (fs ++ gs)).countP (·.key == key) =
      (replaced fs).countP (·.key == key) + (replaced gs).countP (·.key == key) +
        if (lastField? fs key).isSome ∧ (lastField? gs key).isSome then 1 else 0 := by
  have hfs := countP_replaced fs key
  have hgs := countP_replaced gs key
  have hboth := countP_replaced (fs ++ gs) key
  rw [lastField?_append, List.countP_append] at hboth
  by_cases hf : (lastField? fs key).isSome = true <;>
    by_cases hg : (lastField? gs key).isSome = true <;>
      simp only [Option.isSome_or, hf, hg, Bool.or_true, Bool.or_false, and_self, and_false,
        false_and, Bool.false_eq_true, if_true, if_false] at hfs hgs hboth ⊢ <;> omega

/-- Where no key comes twice, the last field with a key is the only one. -/
theorem lastField?_eq_some_iff {fs : List DocField} (hkeys : (fs.map DocField.key).Nodup)
    {key : Key} {f : DocField} : lastField? fs key = some f ↔ f ∈ fs ∧ f.key = key := by
  refine ⟨mem_of_lastField?, ?_⟩
  rintro ⟨hf, rfl⟩
  rcases hl : lastField? fs f.key with _ | g
  · exact absurd rfl (lastField?_eq_none_iff.mp hl f hf)
  · obtain ⟨hg, hgf⟩ := mem_of_lastField? hl
    rw [List.inj_on_of_nodup_map hkeys hg hf hgf]

/-- Where no key comes twice, a look-up does not depend on the order of the fields. -/
theorem lastField?_eq_of_perm {fs fs' : List DocField} (hkeys : (fs.map DocField.key).Nodup)
    (hperm : fs.Perm fs') (key : Key) : lastField? fs key = lastField? fs' key := by
  have hkeys' : (fs'.map DocField.key).Nodup := (hperm.map DocField.key).nodup_iff.mp hkeys
  ext f
  rw [lastField?_eq_some_iff hkeys, lastField?_eq_some_iff hkeys', hperm.mem_iff]

/-! ## The whole run -/

namespace FieldList

theorem ofRecords_concat (rs : List Record) (r : Record) :
    ofRecords (rs ++ [r]) = (ofRecords rs).add r := by
  simp [ofRecords, List.foldl_append]

/-- **What a run leaves behind.** The table has the last field of each key in the order of the
first, the duplicates are the replaced fields, and the malformed fields keep their order. -/
theorem ofRecords_eq (rs : List Record) :
    ofRecords rs =
      ⟨groupTable (fieldsOf rs), replaced (fieldsOf rs), rs.filterMap Record.malformed?⟩ := by
  induction rs using List.reverseRecOn with
  | nil => rfl
  | append_singleton rs r ih =>
    rw [ofRecords_concat, ih]
    cases r with
    | malformed m => simp [add, Record.malformed?]
    | field f =>
      rw [fieldsOf_append, fieldsOf_field, ← put_groupTable, replaced_concat, add, find?_groupTable]
      simp [Record.malformed?]

/-- **Two runs, one after the other.** The malformed fields of both are kept, the second one
replaces what the first one says about the same keys and adds its other keys, and a field of the
first one is replaced wherever both have its key. -/
theorem ofRecords_append (rs rs' : List Record) :
    let l := ofRecords (rs ++ rs')
    let l₁ := ofRecords rs
    let l₂ := ofRecords rs'
    l.malformed = l₁.malformed ++ l₂.malformed ∧
    l.fields = l₁.fields.map (fun f => (l₂.fields.find? f.key).getD f) ++
      l₂.fields.filter (fun g => (l₁.fields.find? g.key).isNone) ∧
    ∀ key, l.duplicates.countP (·.key == key) =
      l₁.duplicates.countP (·.key == key) + l₂.duplicates.countP (·.key == key) +
        if (l₁.fields.find? key).isSome ∧ (l₂.fields.find? key).isSome then 1 else 0 := by
  simp only [ofRecords_eq, fieldsOf_append, find?_groupTable]
  exact ⟨List.filterMap_append, groupTable_append _ _, countP_replaced_append _ _⟩

end FieldList

/-- Putting a field displaces the one with its key, if there is one, and nothing else. -/
theorem FieldTable.put_append_perm {table : FieldTable} (hkeys : (table.map DocField.key).Nodup)
    (f : DocField) : (table.put f ++ (table.find? f.key).toList).Perm (table ++ [f]) := by
  rw [FieldTable.put_eq, FieldTable.find?_eq]
  induction table with
  | nil => simp
  | cons g table ih =>
    rw [List.map_cons, List.nodup_cons] at hkeys
    by_cases hg : g.key = f.key
    · -- the head is displaced, and no other field has its key
      have hrest : table.map (fun h => if h.key = f.key then f else h) = table := by
        refine (List.map_congr_left fun h hh => if_neg fun hk => ?_).trans (List.map_id' table)
        exact hkeys.1 (List.mem_map.mpr ⟨h, hh, hk.trans hg.symm⟩)
      simp only [List.find?_cons_of_pos, hg, beq_self_eq_true, Option.isSome_some, if_true,
        List.map_cons, hrest, Option.toList_some]
      have hout : (f :: table ++ [g]).Perm (g :: f :: table) :=
        List.perm_append_singleton g (f :: table)
      exact hout.trans ((List.perm_append_singleton f table).symm.cons g)
    · have hb : (g.key == f.key) = false := by simpa using hg
      have h := ih hkeys.2
      rw [List.find?_cons_of_neg (by simpa using hg)]
      by_cases hs : (List.find? (fun h => h.key == f.key) table).isSome
      · rw [if_pos hs] at h ⊢
        rw [List.map_cons, if_neg hg]
        exact List.Perm.cons g h
      · rw [if_neg hs] at h ⊢
        exact List.Perm.cons g h

namespace FieldList

/-- The **step** of the records: adding a record keeps every record there is. -/
theorem records_add_perm {l : FieldList} (hkeys : (l.fields.map DocField.key).Nodup) (r : Record) :
    (l.add r).records.Perm (l.records ++ [r]) := by
  cases r with
  | malformed m => simp [records, add]
  | field f =>
    have hput := (FieldTable.put_append_perm hkeys f).map Record.field
    rw [List.perm_iff_count] at hput ⊢
    intro r
    have hr := hput r
    simp only [List.map_append, List.count_append] at hr
    simp only [records, add, List.map_append, List.count_append]
    simp only [List.map_cons, List.map_nil] at hr
    omega

/-- **No record is lost or made up.** -/
theorem records_ofRecords_perm (rs : List Record) : (ofRecords rs).records.Perm rs := by
  induction rs using List.reverseRecOn with
  | nil => rfl
  | append_singleton rs r ih =>
    have hkeys : ((ofRecords rs).fields.map DocField.key).Nodup := by
      rw [ofRecords_eq, map_key_groupTable]
      exact nodup_firstKeys _
    rw [ofRecords_concat]
    exact (records_add_perm hkeys r).trans (ih.append_right [r])

end FieldList

end FieldLint
