import Mathlib.Data.List.TakeWhile
import FieldLint.Proofs.Records
import FieldLint.Proofs.Scan

/-!
# Reading a docstring in parts

A marker line at the margin ends whatever stands before it: an open field, a block of explicit
markup, prose, blank lines. So a docstring can be cut in front of such a line and read in two parts.
What changes for the second part is only the number of its lines.

* **Lines** — `docLines_append`: the lines of the second part are read as if they stood alone, and
  then `moved` down.
* **Records** — `lineRecords_append`: each part leaves its own records.
* **Docstrings** — `parse_append_newline`: the two readings put together, which `Docstring.Joins`
  describes list by list.
-/

namespace FieldLint

/-! ## Moving down -/

/-- The line `k` lines further down. -/
def DocLine.moved (k : Nat) (l : DocLine) : DocLine :=
  { l with number := l.number + k }

/-- The section `k` lines further down. -/
def FieldSection.moved (k : Nat) (s : FieldSection) : FieldSection :=
  { s with opener := s.opener.moved k, body := s.body.map (DocLine.moved k) }

/-- The field `k` lines further down. -/
def DocField.moved (k : Nat) (f : DocField) : DocField :=
  { f with line := f.line + k }

/-- The malformed field `k` lines further down. -/
def MalformedField.moved (k : Nat) (f : MalformedField) : MalformedField :=
  { f with line := f.line + k }

/-- The record `k` lines further down. -/
def Record.moved (k : Nat) : Record → Record
  | field f => field (f.moved k)
  | malformed m => malformed (m.moved k)

/-- All records of the list `k` lines further down. -/
def FieldList.moved (k : Nat) (l : FieldList) : FieldList :=
  ⟨l.fields.map (DocField.moved k), l.duplicates.map (DocField.moved k),
    l.malformed.map (MalformedField.moved k)⟩

/-- All records of the docstring `k` lines further down. -/
def Docstring.moved (k : Nat) (d : Docstring) : Docstring :=
  { d with toFieldList := d.toFieldList.moved k }

@[simp] theorem DocLine.marker_moved (k : Nat) (l : DocLine) : (l.moved k).marker = l.marker := rfl

@[simp] theorem FieldSection.marker_moved (k : Nat) (s : FieldSection) :
    (s.moved k).marker = s.marker := rfl

/-- Where lines are read from shows in their numbers only. -/
theorem scanLines_moved (k number : Nat) (block : Option Nat) (ls : List Text) :
    scanLines (number + k) block ls = (scanLines number block ls).map (DocLine.moved k) := by
  induction ls generalizing number block with
  | nil => rfl
  | cons line ls ih =>
    rw [scanLines, scanLines, List.map_cons, ← ih, Nat.add_right_comm]
    rfl

/-- Moving lines moves their sections. -/
theorem fieldSections_moved (k : Nat) (dl : List DocLine) :
    fieldSections (dl.map (DocLine.moved k)) = (fieldSections dl).map (FieldSection.moved k) := by
  induction dl with
  | nil => rfl
  | cons l dl ih =>
    rw [List.map_cons, fieldSections, fieldSections, ih, List.takeWhile_map, DocLine.marker_moved]
    rcases l.marker with _ | m <;> rfl

namespace FieldSection

variable (k : Nat) (s : FieldSection)

@[simp] theorem text_moved : (s.moved k).text = s.text := by
  simp only [text, continuation, moved, List.takeWhile_map, List.map_map]
  rfl

@[simp] theorem prose_moved : (s.moved k).prose = s.prose := by
  simp only [prose, moved, List.dropWhile_map, List.filter_map, List.map_map]
  rfl

/-- Moving a section moves its record. -/
theorem record_moved : (s.moved k).record = s.record.moved k := by
  rw [record, text_moved, marker_moved, record]
  unfold Marker.record
  rcases s.marker.subject? with _ | subject <;> rfl

end FieldSection

theorem map_record_moved (k : Nat) (ss : List FieldSection) :
    (ss.map (FieldSection.moved k)).map FieldSection.record =
      (ss.map FieldSection.record).map (Record.moved k) := by
  rw [List.map_map, List.map_map]
  exact List.map_congr_left fun s _ => s.record_moved k

namespace FieldList

/-- Records on other lines are sorted into the same lists. -/
theorem ofRecords_renumbered (f : Nat → Nat) (rs : List Record) :
    ofRecords (rs.map (Record.renumbered f)) =
      ⟨(ofRecords rs).fields.map (DocField.renumbered f),
        (ofRecords rs).duplicates.map (DocField.renumbered f),
        (ofRecords rs).malformed.map (MalformedField.renumbered f)⟩ := by
  have hkey : ∀ x : DocField, (x.renumbered f).key = x.key := fun _ => rfl
  have hfields : fieldsOf (rs.map (Record.renumbered f)) =
      (fieldsOf rs).map (DocField.renumbered f) := by
    rw [fieldsOf, List.filterMap_map, fieldsOf, List.map_filterMap]
    refine List.filterMap_congr ?_
    rintro (x | m) _ <;> rfl
  have hmalformed : (rs.map (Record.renumbered f)).filterMap Record.malformed? =
      (rs.filterMap Record.malformed?).map (MalformedField.renumbered f) := by
    rw [List.filterMap_map, List.map_filterMap]
    refine List.filterMap_congr ?_
    rintro (x | m) _ <;> rfl
  rw [ofRecords_eq, ofRecords_eq, hfields, groupTable_map hkey, replaced_map hkey, hmalformed]

/-- Moving records moves the field list they make. -/
theorem ofRecords_moved (k : Nat) (rs : List Record) :
    ofRecords (rs.map (Record.moved k)) = (ofRecords rs).moved k := by
  have hmoved : Record.moved k = Record.renumbered (· + k) := by
    funext r
    cases r <;> rfl
  rw [hmoved, ofRecords_renumbered]
  rfl

end FieldList

/-! ## Cutting before a marker line at the margin -/

/-- The first line is a marker line and stands at the margin. -/
def opensAtMargin : List Text → Bool
  | [] => false
  | line :: _ => (Marker.ofLine? line).isSome && Text.indent line == 0

/-- The plain lines at the head end at a marker line. -/
theorem takeWhile_isPlain_append {dl' : List DocLine} (h : dl'.takeWhile DocLine.isPlain = [])
    (dl : List DocLine) :
    (dl ++ dl').takeWhile DocLine.isPlain = dl.takeWhile DocLine.isPlain := by
  rw [List.takeWhile_append, h, List.append_nil]
  split
  · rename_i hall
    have hpre : dl.takeWhile DocLine.isPlain <+: dl := List.takeWhile_prefix _
    exact (hpre.eq_of_length hall).symm
  · rfl

/-- Sections end before a marker line. -/
theorem fieldSections_append {dl' : List DocLine} (h : dl'.takeWhile DocLine.isPlain = [])
    (dl : List DocLine) : fieldSections (dl ++ dl') = fieldSections dl ++ fieldSections dl' := by
  induction dl with
  | nil => rfl
  | cons l dl ih =>
    rw [List.cons_append, fieldSections, fieldSections, ih, takeWhile_isPlain_append h]
    rcases l.marker with _ | m <;> rfl

section Margin

variable {ls' : List Text} (h : opensAtMargin ls' = true)

include h

/-- No open block matters to lines that open at the margin, and they start with a section. -/
theorem scanLines_of_opensAtMargin (number : Nat) (block : Option Nat) :
    scanLines number block ls' = scanLines number none ls' ∧
      (scanLines number none ls').takeWhile DocLine.isPlain = [] := by
  rcases ls' with _ | ⟨line, ls'⟩
  · cases h
  · rw [opensAtMargin, Bool.and_eq_true, beq_iff_eq] at h
    obtain ⟨m, hm⟩ := Option.isSome_iff_exists.mp h.1
    rw [scanLines_cons_marker hm h.2, scanLines_cons_marker hm h.2]
    exact ⟨rfl, rfl⟩

/-- Lines that open at the margin are read as if nothing stood before them. -/
theorem docLines_append (ls : List Text) :
    docLines (ls ++ ls') = docLines ls ++ (docLines ls').map (DocLine.moved ls.length) := by
  rw [docLines_eq_scanLines, docLines_eq_scanLines, docLines_eq_scanLines, scanLines_append,
    (scanLines_of_opensAtMargin h _ _).1, scanLines_moved]

theorem takeWhile_isPlain_docLines (k : Nat) :
    ((docLines ls').map (DocLine.moved k)).takeWhile DocLine.isPlain = [] := by
  rw [docLines_eq_scanLines, ← scanLines_moved]
  exact (scanLines_of_opensAtMargin h _ none).2

/-- The sections of the second text come after those of the first and are only moved. -/
theorem fieldSections_docLines_append (ls : List Text) :
    fieldSections (docLines (ls ++ ls')) =
      fieldSections (docLines ls) ++
        (fieldSections (docLines ls')).map (FieldSection.moved ls.length) := by
  rw [docLines_append h, fieldSections_append (takeWhile_isPlain_docLines h _),
    fieldSections_moved]

/-- Each part leaves its own records. -/
theorem lineRecords_append (ls : List Text) :
    lineRecords (docLines (ls ++ ls')) =
      lineRecords (docLines ls) ++ (lineRecords (docLines ls')).map (Record.moved ls.length) := by
  rw [← map_record_fieldSections, ← map_record_fieldSections, ← map_record_fieldSections,
    fieldSections_docLines_append h, List.map_append, map_record_moved]

end Margin

/-- A carriage return at the end of a text changes no record. -/
theorem lineRecords_concat_return (t : Text) :
    lineRecords (docLines (Text.lines (t ++ ['\r']))) = lineRecords (docLines (Text.lines t)) := by
  obtain ⟨before, last, ht, hreturn⟩ := Text.lines_concat_return t
  -- only the last line changes, and only by a blank at its end
  have hpad : Text.Padded last (last ++ ['\r']) := ⟨['\r'], rfl, rfl⟩
  rw [← map_record_fieldSections, ← map_record_fieldSections, ht, hreturn, docLines_eq_scanLines,
    docLines_eq_scanLines, scanLines_append, scanLines_append]
  exact map_record_fieldSections_of_matches
    (List.rel_append (matches_scanLines _ _ _) (.cons (matches_of_padded hpad _ _) .nil))

/-- A carriage return at the very end makes no difference to the records. -/
theorem lineRecords_chomp (t : Text) :
    lineRecords (docLines (Text.lines (Text.chomp t))) = lineRecords (docLines (Text.lines t)) := by
  unfold Text.chomp
  split
  · rename_i h
    rw [← lineRecords_concat_return, List.dropLast_append_getLast? '\r' h]
  · rfl

/-- The records of a text with another one after it that opens at the margin. -/
theorem lineRecords_append_newline (t : Text) {u : Text}
    (hu : opensAtMargin (Text.lines u) = true) :
    lineRecords (docLines (Text.lines (t ++ '\n' :: u))) =
      lineRecords (docLines (Text.lines t)) ++
        (lineRecords (docLines (Text.lines u))).map
          (Record.moved (Text.lines (Text.chomp t)).length) := by
  rw [Text.lines_append_cons_newline, lineRecords_append hu, lineRecords_chomp]

/-! ## Prose -/

namespace Text

theorem unlines_append {ls ls' : List Text} (h : ls ≠ []) (h' : ls' ≠ []) :
    unlines (ls ++ ls') = unlines ls ++ '\n' :: unlines ls' := by
  induction ls with
  | nil => exact absurd rfl h
  | cons l ls ih =>
    rcases ls with _ | ⟨l', ls⟩
    · obtain ⟨x, xs, rfl⟩ := List.exists_cons_of_ne_nil h'
      rw [List.singleton_append, unlines_cons_cons, unlines, unlines, join_singleton]
    · rw [List.cons_append, List.cons_append, unlines_cons_cons, ← List.cons_append,
        ih (List.cons_ne_nil _ _), unlines_cons_cons, List.append_assoc, List.cons_append]

theorem unlines_ne_nil {ls : List Text} (hne : ls ≠ []) (h : ∀ l ∈ ls, l ≠ []) :
    unlines ls ≠ [] := by
  rcases ls with _ | ⟨l, _ | ⟨l', ls⟩⟩
  · exact absurd rfl hne
  · rw [unlines, join_singleton]
    exact h l List.mem_cons_self
  · simp [unlines_cons_cons]

/-- Two lists of lines that are not empty are joined by joining what each of them makes, unless
that is nothing. -/
theorem unlines_append_eq {ls ls' : List Text} (h : ∀ l ∈ ls, l ≠ []) (h' : ∀ l ∈ ls', l ≠ []) :
    unlines (ls ++ ls') = unlines ([unlines ls, unlines ls'].filter (!·.isEmpty)) := by
  have hnil : unlines [] = [] := rfl
  have hone : ∀ t, unlines [t] = t := join_singleton _
  by_cases hls : ls = [] <;> by_cases hls' : ls' = []
  · simp [hls, hls', hnil]
  · simp [hls, hnil, unlines_ne_nil hls' h', hone]
  · simp [hls', hnil, unlines_ne_nil hls h, hone]
  · have hfilter : [unlines ls, unlines ls'].filter (!·.isEmpty) = [unlines ls, unlines ls'] := by
      simp [unlines_ne_nil hls h, unlines_ne_nil hls' h']
    rw [unlines_append hls hls', hfilter, unlines_cons_cons, hone]

end Text

/-- Prose is never empty. -/
theorem FieldSection.ne_nil_of_mem_prose {s : FieldSection} {l : Text} (h : l ∈ s.prose) :
    l ≠ [] := by
  obtain ⟨x, hx, rfl⟩ := List.mem_map.mp h
  have hblank : x.isBlank = false := by simpa using (List.mem_filter.mp hx).2
  rw [ne_eq, Text.trim_eq_nil_iff]
  exact Bool.eq_false_iff.mp hblank

/-! ## Docstrings -/

/-- `p` is read like `p₁` with `p₂` after it. -/
structure Docstring.Joins (p p₁ p₂ : Docstring) : Prop where
  /-- the description is that of the first -/
  description : p.description = p₁.description
  /-- the malformed fields of both, in order -/
  malformed : p.malformed = p₁.malformed ++ p₂.malformed
  /-- the prose of both, unless there is none -/
  epilogue : p.epilogue = Text.unlines ([p₁.epilogue, p₂.epilogue].filter (!·.isEmpty))
  /-- the keys of the first, then the new keys of the second; the second one has the last word -/
  fields : p.fields =
    p₁.fields.map (fun f => (p₂.fields.find? f.key).getD f) ++
      p₂.fields.filter fun g => (p₁.fields.find? g.key).isNone
  /-- where both have a key, the second one replaces a field of the first -/
  duplicates : ∀ key, p.duplicates.countP (·.key == key) =
    p₁.duplicates.countP (·.key == key) + p₂.duplicates.countP (·.key == key) +
      if (p₁.fields.find? key).isSome ∧ (p₂.fields.find? key).isSome then 1 else 0

section Parse

variable {t u : Text} (ht : t.getLast? ≠ some '\r') (hu : opensAtMargin (Text.lines u) = true)

include ht

theorem lines_join : Text.lines (t ++ '\n' :: u) = Text.lines t ++ Text.lines u := by
  rw [Text.lines_append_cons_newline, Text.chomp_eq_self ht]

include hu

/-- The description is that of the first text. -/
theorem description_parse_append :
    (Docstring.parse (t ++ '\n' :: u)).description = (Docstring.parse t).description := by
  rw [Docstring.parse, Docstring.ofLines, lines_join ht, docLines_append hu,
    takeWhile_isPlain_append (takeWhile_isPlain_docLines hu _)]
  rfl

/-- The epilogues are joined. -/
theorem epilogue_parse_append :
    (Docstring.parse (t ++ '\n' :: u)).epilogue =
      Text.unlines
        ([(Docstring.parse t).epilogue, (Docstring.parse u).epilogue].filter (!·.isEmpty)) := by
  have hprose : ∀ (ss : List FieldSection), ∀ l ∈ ss.flatMap FieldSection.prose, l ≠ [] := by
    intro ss l hl
    obtain ⟨s, -, hs⟩ := List.mem_flatMap.mp hl
    exact FieldSection.ne_nil_of_mem_prose hs
  rw [Docstring.parse, Docstring.ofLines, lines_join ht, fieldSections_docLines_append hu,
    List.flatMap_append, List.flatMap_map]
  simp only [FieldSection.prose_moved]
  exact Text.unlines_append_eq (hprose _) (hprose _)

/-- The field list is that of the records of both texts. -/
theorem toFieldList_parse_append :
    (Docstring.parse (t ++ '\n' :: u)).toFieldList =
      FieldList.ofRecords (lineRecords (docLines (Text.lines t)) ++
        (lineRecords (docLines (Text.lines u))).map (Record.moved (Text.lines t).length)) := by
  rw [toFieldList_parse, lineRecords_append_newline t hu, Text.chomp_eq_self ht]

end Parse

/-- **Reading is local at the margin.** Cut a docstring in front of a marker line at the margin. It
is read like its first part with its second part after it, the lines of which come after those of
the first. -/
theorem parse_append_newline (t u : Text) (ht : t.getLast? ≠ some '\r')
    (hu : opensAtMargin (Text.lines u) = true) :
    (Docstring.parse (t ++ '\n' :: u)).Joins (Docstring.parse t)
      ((Docstring.parse u).moved (Text.lines t).length) := by
  have hmoved : FieldList.ofRecords ((lineRecords (docLines (Text.lines u))).map
      (Record.moved (Text.lines t).length)) =
        ((Docstring.parse u).moved (Text.lines t).length).toFieldList := by
    rw [FieldList.ofRecords_moved, ← toFieldList_parse]
    rfl
  have hjoin := FieldList.ofRecords_append (lineRecords (docLines (Text.lines t)))
    ((lineRecords (docLines (Text.lines u))).map (Record.moved (Text.lines t).length))
  rw [← toFieldList_parse_append ht hu, ← toFieldList_parse, hmoved] at hjoin
  obtain ⟨hmalformed, hfields, hduplicates⟩ := hjoin
  exact ⟨description_parse_append ht hu, hmalformed, epilogue_parse_append ht hu, hfields,
    hduplicates⟩

/-- A docstring cut between a block of explicit markup and a field that repeats an earlier one. -/
theorem parse_append_newline_sum :
    let t := "Add.\n\n:param a: one\n  of two\nSee below.\n.. note:: open".toList
    let u := ":param a: other\n  :note: x\n:return: sum\nDone.".toList
    t.getLast? ≠ some '\r' ∧ opensAtMargin (Text.lines u) = true ∧
      (Docstring.parse (t ++ '\n' :: u)).Joins (Docstring.parse t)
        ((Docstring.parse u).moved (Text.lines t).length) := by
  intro t u
  have ht : t.getLast? ≠ some '\r' := by decide
  have hu : opensAtMargin (Text.lines u) = true := by decide
  exact ⟨ht, hu, parse_append_newline t u ht hu⟩

end FieldLint
