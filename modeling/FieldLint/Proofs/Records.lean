import Mathlib.Data.List.Nodup
import FieldLint.Proofs.Roles

/-!
# One record for each marker line

A docstring keeps its records in a table, a list of replaced fields and a list of malformed ones.
Taken together they are the records of its marker lines, each exactly once. Of the fields with one
key the table has the last, at the place of the first, and every other one is in the list of
replaced fields. So looking up a parameter finds the last field about it. No record stands on a line
in explicit markup (`mem_map_line_records_parse_iff`).
-/

namespace FieldLint

/-! ## Which markers have no subject -/

/-- A marker has no subject if nobody knows its tag, or if it should name a parameter and names
nothing. -/
theorem Marker.subject?_eq_none_iff (m : Marker) :
    m.subject? = none ↔
      Tag.ofSpelling? m.tag = none ∨
        (Tag.ofSpelling? m.tag = some .param ∨ Tag.ofSpelling? m.tag = some .type) ∧
          m.argument = none := by
  unfold subject?
  rcases Tag.ofSpelling? m.tag with _ | (_ | _ | _ | _ | _) <;> simp

/-- A record is malformed exactly if its marker has no subject. -/
theorem Marker.isMalformed_record (m : Marker) (text : Text) (line : Nat) :
    (m.record text line).isMalformed = m.subject?.isNone := by
  unfold record
  rcases m.subject? with _ | s <;> rfl

@[simp] theorem Marker.line_record (m : Marker) (text : Text) (line : Nat) :
    (m.record text line).line = line := by
  unfold record
  rcases m.subject? with _ | s <;> rfl

/-! ## Records and lines -/

theorem line_of_recordAt {dl : List DocLine} {i : Nat} {r : Record} (h : recordAt dl i = some r) :
    r.line = i + 1 := by
  obtain ⟨m, -, rfl⟩ := Option.map_eq_some_iff.mp h
  exact m.line_record _ _

/-- The records stand in the order of their lines. -/
theorem map_line_lineRecords (dl : List DocLine) :
    (lineRecords dl).map Record.line =
      ((List.range dl.length).filter fun i => !(lineAt dl i).isPlain).map (· + 1) := by
  unfold lineRecords
  induction List.range dl.length with
  | nil => rfl
  | cons i is ih =>
    rcases hr : recordAt dl i with _ | r
    · have hplain : (lineAt dl i).isPlain = true := by
        simpa [recordAt, DocLine.isPlain] using hr
      simpa [hr, hplain] using ih
    · have hplain : (lineAt dl i).isPlain = false := by
        obtain ⟨m, hm, -⟩ := Option.map_eq_some_iff.mp hr
        simp [DocLine.isPlain, hm]
      simpa [hr, hplain, line_of_recordAt hr] using ih

/-- A line has a record exactly if it is a marker line. -/
theorem mem_map_line_lineRecords {dl : List DocLine} {i : Nat} :
    i + 1 ∈ (lineRecords dl).map Record.line ↔ (lineAt dl i).isPlain = false := by
  rw [map_line_lineRecords]
  refine ⟨?_, ?_⟩
  · intro h
    obtain ⟨j, hj, hij⟩ := List.mem_map.mp h
    obtain rfl : j = i := Nat.succ.inj hij
    simpa using (List.mem_filter.mp hj).2
  · intro h
    refine List.mem_map_of_mem (List.mem_filter.mpr ⟨List.mem_range.mpr ?_, by simp [h]⟩)
    by_contra hlength
    rw [lineAt_of_length_le (Nat.not_lt.mp hlength)] at h
    cases h

/-- No two records stand on one line. -/
theorem nodup_map_line_lineRecords (dl : List DocLine) :
    ((lineRecords dl).map Record.line).Nodup := by
  rw [map_line_lineRecords]
  exact (List.nodup_range.filter _).map fun _ _ h => Nat.succ.inj h

/-- Every other record stands on another line. -/
theorem line_ne_of_lineRecords_eq {dl : List DocLine} {rs rs' : List Record} {r : Record}
    (h : lineRecords dl = rs ++ r :: rs') : ∀ x ∈ rs ++ rs', x.line ≠ r.line := by
  intro x hx hline
  have hnodup := nodup_map_line_lineRecords dl
  rw [h, List.map_append, List.map_cons, List.nodup_middle, List.nodup_cons,
    ← List.map_append, ← hline] at hnodup
  exact hnodup.1 (List.mem_map_of_mem hx)

/-- The number of a marker line is the line of its record and of no other. -/
theorem filter_line_lineRecords {dl : List DocLine} {i : Nat} {r : Record}
    (h : recordAt dl i = some r) : (lineRecords dl).filter (fun r => r.line == i + 1) = [r] := by
  have hr : r ∈ lineRecords dl := by
    obtain ⟨m, hm, rfl⟩ := Option.map_eq_some_iff.mp h
    exact mem_lineRecords.mpr ⟨i, m, hm, rfl⟩
  obtain ⟨before, after, hsplit⟩ := List.append_of_mem hr
  have hother : ∀ x ∈ before ++ after, ¬(x.line == i + 1) = true := by
    intro x hx
    rw [beq_iff_eq, ← line_of_recordAt h]
    exact line_ne_of_lineRecords_eq hsplit x hx
  have hbefore : before.filter (fun r => r.line == i + 1) = [] :=
    List.filter_eq_nil_iff.mpr fun x hx => hother x (List.mem_append_left _ hx)
  have hafter : after.filter (fun r => r.line == i + 1) = [] :=
    List.filter_eq_nil_iff.mpr fun x hx => hother x (List.mem_append_right _ hx)
  rw [hsplit, List.filter_append, List.filter_cons, hbefore, hafter, line_of_recordAt h]
  simp

/-! ## What a docstring holds -/

section Parse

variable (t : Text)

/-- The fields of a docstring in the order of their marker lines. -/
def markedFields : List DocField :=
  fieldsOf (lineRecords (docLines (Text.lines t)))

/-- The table of a docstring holds the last field of each key, at the place of the first. -/
theorem fields_parse : (Docstring.parse t).fields = groupTable (markedFields t) := by
  rw [toFieldList_parse, FieldList.ofRecords_eq]
  rfl

/-- The duplicates of a docstring are the fields that were replaced. -/
theorem duplicates_parse : (Docstring.parse t).duplicates = replaced (markedFields t) := by
  rw [toFieldList_parse, FieldList.ofRecords_eq]
  rfl

/-- The malformed fields of a docstring keep the order of their lines. -/
theorem malformed_parse :
    (Docstring.parse t).malformed =
      (lineRecords (docLines (Text.lines t))).filterMap Record.malformed? := by
  rw [toFieldList_parse, FieldList.ofRecords_eq]

/-- The records of a docstring are those of its marker lines, in some order. -/
theorem records_parse_perm :
    (Docstring.parse t).records.Perm (lineRecords (docLines (Text.lines t))) := by
  rw [toFieldList_parse t]
  exact FieldList.records_ofRecords_perm _

/-- Looking a key up in a docstring gives the last field with that key. -/
theorem find?_fields_parse (key : Key) :
    (Docstring.parse t).fields.find? key = lastField? (markedFields t) key := by
  rw [fields_parse, find?_groupTable]

theorem paramField?_parse (name : Text) :
    (Docstring.parse t).paramField? name = lastField? (markedFields t) ⟨.param, some name⟩ := by
  rw [Docstring.paramField?_eq, find?_fields_parse]

theorem typeField?_parse (name : Text) :
    (Docstring.parse t).typeField? name = lastField? (markedFields t) ⟨.type, some name⟩ := by
  rw [Docstring.typeField?_eq, find?_fields_parse]

theorem returnField?_parse :
    (Docstring.parse t).returnField? = lastField? (markedFields t) ⟨.returns, none⟩ :=
  find?_fields_parse t _

theorem rtypeField?_parse :
    (Docstring.parse t).rtypeField? = lastField? (markedFields t) ⟨.rtype, none⟩ :=
  find?_fields_parse t _

end Parse

/-- **The records of a docstring are those of its marker lines.** Each marker line leaves exactly
one record, which is malformed if its tag is unknown or if it should name a parameter and does not.
The table has one field for each key, in the order in which the keys first appear, and it is the
last field with that key; the duplicates are, for each field that repeats a key, the nearest field
before it with that key; the malformed fields keep their order. A look-up finds the last field about
a parameter, and no two keys share a word. -/
theorem parse_records_eq (t : Text) :
    let dl := docLines (Text.lines t)
    let d := Docstring.parse t
    let fs := markedFields t
    (d.records.Perm (lineRecords dl) ∧
      (lineRecords dl).map Record.line =
        ((List.range dl.length).filter fun i => !(lineAt dl i).isPlain).map (· + 1)) ∧
    (∀ i m, (lineAt dl i).marker = some m →
      ∃ r, d.records.filter (fun r => r.line == i + 1) = [r] ∧
        (r.isMalformed = true ↔
          Tag.ofSpelling? m.tag = none ∨
            (Tag.ofSpelling? m.tag = some .param ∨ Tag.ofSpelling? m.tag = some .type) ∧
              m.argument = none)) ∧
    d.fields = (fs.map DocField.key).eraseDups.filterMap (lastField? fs) ∧
    d.duplicates = (List.range fs.length).filterMap (fun j =>
      fs[j]?.bind fun f => lastField? (fs.take j) f.key) ∧
    d.malformed = (lineRecords dl).filterMap Record.malformed? ∧
    (∀ name, d.paramField? name = lastField? fs ⟨.param, some name⟩ ∧
      (d.paramField? name = none ↔ ∀ f ∈ fs, f.key ≠ ⟨.param, some name⟩)) ∧
    (∀ name, d.typeField? name = lastField? fs ⟨.type, some name⟩ ∧
      (d.typeField? name = none ↔ ∀ f ∈ fs, f.key ≠ ⟨.type, some name⟩)) ∧
    ∀ key key' : Key, key.text = key'.text → key = key' := by
  intro dl d fs
  have hperm : d.records.Perm (lineRecords dl) := by
    rw [toFieldList_parse t]
    exact FieldList.records_ofRecords_perm _
  refine ⟨⟨hperm, map_line_lineRecords dl⟩, ?_, fields_parse t, duplicates_parse t,
    malformed_parse t, ?_, ?_, fun _ _ => Key.text_inj.mp⟩
  · intro i m hm
    have hr : recordAt dl i = some (m.record (fieldTextAt dl i m) (i + 1)) := by
      rw [recordAt, hm]
      rfl
    refine ⟨m.record (fieldTextAt dl i m) (i + 1), List.perm_singleton.mp ?_, ?_⟩
    · rw [← filter_line_lineRecords hr]
      exact hperm.filter _
    · rw [Marker.isMalformed_record, Option.isNone_iff_eq_none, Marker.subject?_eq_none_iff]
  · intro name
    rw [paramField?_parse]
    exact ⟨rfl, lastField?_eq_none_iff⟩
  · intro name
    rw [typeField?_parse]
    exact ⟨rfl, lastField?_eq_none_iff⟩

/-! ## Records and explicit markup -/

/-- Records stand on the marker lines. -/
theorem mem_map_line_records_parse_iff {t : Text} {n : Nat} :
    n ∈ (Docstring.parse t).records.map Record.line ↔
      ∃ i < (Text.lines t).length, n = i + 1 ∧ ¬InMarkup (Text.lines t) i ∧
        (Marker.ofLine? (textAt (Text.lines t) i)).isSome = true := by
  rw [((records_parse_perm t).map Record.line).mem_iff]
  refine ⟨?_, ?_⟩
  · intro hn
    obtain ⟨r, hr, rfl⟩ := List.mem_map.mp hn
    obtain ⟨i, m, hm, rfl⟩ := mem_lineRecords.mp hr
    have hplain : (lineAt (docLines (Text.lines t)) i).isPlain = false := by
      simp [DocLine.isPlain, hm]
    obtain ⟨hi, hmarker⟩ := isPlain_docLines_eq_false_iff.mp hplain
    exact ⟨i, hi, m.line_record _ _, hmarker⟩
  · rintro ⟨i, hi, rfl, hmarker⟩
    exact mem_map_line_lineRecords.mpr (isPlain_docLines_eq_false_iff.mpr ⟨hi, hmarker⟩)

/-- **Explicit markup is found by position.** A line is flagged exactly if it opens a block of
explicit markup, or a line before it opens one and all lines since are blank or deeper, however such
blocks are nested. The records of a docstring stand exactly on the lines outside such blocks that
open with a marker. -/
theorem directiveFlags_blocks (ls : List Text) (t : Text) (i n : Nat) :
    ((directiveFlags none ls)[i]? = some true ↔ i < ls.length ∧ InMarkup ls i) ∧
    (n ∈ (Docstring.parse t).records.map Record.line ↔
      ∃ i < (Text.lines t).length, n = i + 1 ∧ ¬InMarkup (Text.lines t) i ∧
        (Marker.ofLine? (textAt (Text.lines t) i)).isSome = true) :=
  ⟨directiveFlags_eq_true_iff, mem_map_line_records_parse_iff⟩

end FieldLint
