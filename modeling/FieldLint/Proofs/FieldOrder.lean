import Mathlib.Data.List.TakeWhile
import FieldLint.Proofs.Renumber
import FieldLint.Proofs.Scan

/-!
# The order of fields does not matter

A docstring in which every field starts at the margin is a description followed by `FieldBlock`s.
Moving blocks around changes the lines on which fields stand, what stands before them and the order
of the table. It does not change what the fields say, so the same things are reported: only reports
of unknown fields and of parameters that are not there, which come in the order of the docstring,
can change places.

* `unnumberedRecords_docText` — a docstring made of blocks has the records of its blocks, in order.
* `check_docText_perm` — the diagnostics for two orders of the same blocks.
-/

namespace FieldLint

/-! ## Blocks -/

/-- The lines of one field: a marker line at the margin, then lines that are blank, or are indented
and no markers. -/
structure FieldBlock where
  /-- the marker line -/
  opener : Text
  /-- its marker -/
  marker : Marker
  /-- the lines after it -/
  body : List Text
  /-- the marker line is one -/
  ofLine?_opener : Marker.ofLine? opener = some marker
  /-- the marker line stands at the margin -/
  indent_opener : Text.indent opener = 0
  /-- the other lines continue the field -/
  body_continues : ∀ l ∈ body,
    Text.isBlank l = true ∨ 0 < Text.indent l ∧ Marker.ofLine? l = none
  /-- each line is one line -/
  newline_notMem : ∀ l ∈ opener :: body, '\n' ∉ l

namespace FieldBlock

/-- All lines of the block. -/
def lines (b : FieldBlock) : List Text :=
  b.opener :: b.body

/-- The tag and name of the field; `none` if it is malformed. -/
def key? (b : FieldBlock) : Option Key :=
  b.marker.subject?.map Subject.key

/-- The record of the field, on no particular line. -/
def record (b : FieldBlock) : Record :=
  b.marker.record (foldText (b.marker.rest :: b.body)) 0

end FieldBlock

/-- The docstring with these lines as its description and these blocks after it. -/
def docText (description : List Text) (blocks : List FieldBlock) : Text :=
  Text.unlines (description ++ blocks.flatMap FieldBlock.lines)

/-! ## Reading blocks -/

/-- Lines padded to lines with a property that does not look at their ends have that property. -/
theorem forall_of_padded {P : Text → Prop} (hP : ∀ {line raw}, Text.Padded line raw → P raw → P line)
    {ls raws : List Text} (h : List.Forall₂ Text.Padded ls raws) (hraws : ∀ l ∈ raws, P l) :
    ∀ l ∈ ls, P l := by
  induction h with
  | nil => exact fun l hl => absurd hl List.not_mem_nil
  | cons hpad _ ih =>
    rw [List.forall_mem_cons] at hraws ⊢
    exact ⟨hP hpad hraws.1, ih hraws.2⟩

/-- A line that can stand in the body of a block can do so without the blanks at its end. -/
theorem continues_of_padded {line raw : Text} (h : Text.Padded line raw)
    (hraw : Text.isBlank raw = true ∨ 0 < Text.indent raw ∧ Marker.ofLine? raw = none) :
    Text.isBlank line = true ∨ 0 < Text.indent line ∧ Marker.ofLine? line = none := by
  rcases hline : Text.isBlank line with _ | _
  · rw [h.isBlank_eq, hline, h.indent_eq hline, Marker.ofLine?_eq_of_padded h] at hraw
    exact hraw
  · exact .inl rfl

theorem ofLine?_of_continues {line : Text}
    (h : Text.isBlank line = true ∨ 0 < Text.indent line ∧ Marker.ofLine? line = none) :
    Marker.ofLine? line = none := by
  rcases h with h | ⟨-, h⟩
  · exact Marker.ofLine?_of_isBlank h
  · exact h

/-- A marker line takes the plain lines up to the next marker line into its section. -/
theorem fieldSections_cons_of_plain {number : Nat} {line : Text} {m : Marker}
    {body rest : List DocLine} (hbody : ∀ l ∈ body, l.isPlain = true)
    (hrest : rest.takeWhile DocLine.isPlain = []) :
    fieldSections (⟨number, line, some m⟩ :: (body ++ rest)) =
      ⟨m, ⟨number, line, some m⟩, body⟩ :: fieldSections rest := by
  rw [fieldSections, List.takeWhile_append_of_pos hbody, hrest, List.append_nil,
    fieldSections_append_of_plain hbody]

/-- If a section admits all its lines, all of them continue its field. -/
theorem FieldSection.text_of_admits {s : FieldSection} (h : ∀ l ∈ s.body, s.admits l = true) :
    s.text = foldText (s.marker.rest :: s.body.map (·.text)) := by
  rw [text, continuation, List.takeWhile_eq_self_iff.mpr h]

/-- The record of a section whose marker line stands at the margin and whose other lines are blank
or indented. -/
theorem FieldSection.record_of_margin {s : FieldSection} (hopener : s.opener.indent = 0)
    (hbody : ∀ l ∈ s.body.map (·.text), Text.isBlank l = true ∨ 0 < Text.indent l) :
    s.record.unnumbered = s.marker.record (foldText (s.marker.rest :: s.body.map (·.text))) 0 := by
  have hadmits : ∀ l ∈ s.body, s.admits l = true := by
    intro l hl
    rw [admits, hopener, Bool.or_eq_true, decide_eq_true_iff]
    exact hbody l.text (List.mem_map.mpr ⟨l, hl, rfl⟩)
  rw [record, text_of_admits hadmits, Marker.unnumbered_record]

namespace FieldBlock

variable {b : FieldBlock} {opener : Text} {body : List Text}

/-- The marker line of a block is one also without the blanks at its end. -/
theorem ofLine?_of_padded (h : Text.Padded opener b.opener) :
    Marker.ofLine? opener = some b.marker := by
  rw [← Marker.ofLine?_eq_of_padded h]
  exact b.ofLine?_opener

theorem indent_of_padded (h : Text.Padded opener b.opener) : Text.indent opener = 0 := by
  rw [← h.indent_eq (Marker.isBlank_of_ofLine? (ofLine?_of_padded h))]
  exact b.indent_opener

/-- The section of the lines of a block leaves its record. -/
theorem record_of_padded (hopener : Text.Padded opener b.opener)
    (hbody : List.Forall₂ Text.Padded body b.body) (number number' : Nat) (open? : Option Nat) :
    (FieldSection.mk b.marker ⟨number, opener, some b.marker⟩
      (scanLines number' open? body)).record.unnumbered = b.record := by
  have hcontinues := forall_of_padded continues_of_padded hbody b.body_continues
  have htrim : (b.marker.rest :: body).map Text.trim =
      (b.marker.rest :: b.body).map Text.trim := by
    rw [List.map_cons, List.map_cons, Text.map_trim_of_padded hbody]
  rw [FieldSection.record_of_margin, map_text_scanLines, foldText_congr htrim]
  · rfl
  · exact indent_of_padded hopener
  · rw [map_text_scanLines]
    exact fun l hl => (hcontinues l hl).imp_right And.left

end FieldBlock

/-- **Blocks are read one by one.** Whatever is open before them, the sections of the lines of some
blocks leave the records of these blocks, and the first line is a marker line. -/
theorem scanLines_blocks {blocks : List FieldBlock} {ls : List Text}
    (h : List.Forall₂ Text.Padded ls (blocks.flatMap FieldBlock.lines)) (number : Nat)
    (open? : Option Nat) :
    (fieldSections (scanLines number open? ls)).map (·.record.unnumbered) =
        blocks.map FieldBlock.record ∧
      (scanLines number open? ls).takeWhile DocLine.isPlain = [] := by
  induction blocks generalizing ls number open? with
  | nil =>
    obtain rfl := List.forall₂_nil_right_iff.mp h
    exact ⟨rfl, rfl⟩
  | cons b blocks ih =>
    rw [List.flatMap_cons, FieldBlock.lines, List.cons_append, List.forall₂_cons_right_iff] at h
    obtain ⟨opener, ls, hopener, htail, rfl⟩ := h
    -- cut the lines where the next block starts
    have hbody := List.forall₂_take_append _ _ _ htail
    have hrest := List.forall₂_drop_append _ _ _ htail
    rw [← List.take_append_drop b.body.length ls]
    generalize ls.take b.body.length = body at hbody ⊢
    generalize ls.drop b.body.length = rest at hrest ⊢
    have hcontinues := forall_of_padded continues_of_padded hbody b.body_continues
    have hplain := isPlain_scanLines (fun l hl => ofLine?_of_continues (hcontinues l hl))
      (number + 1) none
    obtain ⟨hrecords, hhead⟩ := ih hrest (number + 1 + body.length) (body.foldl blockAfter none)
    rw [scanLines_cons_marker (FieldBlock.ofLine?_of_padded hopener)
      (FieldBlock.indent_of_padded hopener), scanLines_append]
    refine ⟨?_, by simp [DocLine.isPlain]⟩
    rw [fieldSections_cons_of_plain hplain hhead, List.map_cons, hrecords,
      FieldBlock.record_of_padded hopener hbody, List.map_cons]

/-- A docstring made of blocks has the records of its blocks, in order. -/
theorem unnumberedRecords_docText {description : List Text} {blocks : List FieldBlock}
    (hdescription : ∀ l ∈ description, Marker.ofLine? l = none ∧ '\n' ∉ l) :
    unnumberedRecords (docText description blocks) = blocks.map FieldBlock.record := by
  by_cases hne : description ++ blocks.flatMap FieldBlock.lines = []
  · -- no line at all leaves the empty text, which still has one blank line
    have hblocks : blocks = [] := by
      rcases blocks with _ | ⟨b, blocks⟩
      · rfl
      · simp [FieldBlock.lines] at hne
    rw [docText, hne, hblocks]
    rfl
  · have hnewline : ∀ l ∈ description ++ blocks.flatMap FieldBlock.lines, '\n' ∉ l := by
      intro l hl
      rcases List.mem_append.mp hl with hl | hl
      · exact (hdescription l hl).2
      · obtain ⟨b, -, hlb⟩ := List.mem_flatMap.mp hl
        exact b.newline_notMem l hlb
    have hlines : List.Forall₂ Text.Padded (Text.lines (docText description blocks))
        (description ++ blocks.flatMap FieldBlock.lines) :=
      Text.forall₂_lines_unlines hne hnewline
    have hplain := forall_of_padded (P := fun l => Marker.ofLine? l = none)
      (fun hpad h => (Marker.ofLine?_eq_of_padded hpad).symm.trans h)
      (List.forall₂_take_append _ _ _ hlines) fun l hl => (hdescription l hl).1
    have hblocks := List.forall₂_drop_append _ _ _ hlines
    rw [unnumberedRecords, ← map_record_fieldSections, List.map_map, docLines_eq_scanLines,
      ← List.take_append_drop description.length (Text.lines (docText description blocks)),
      scanLines_append, fieldSections_append_of_plain (isPlain_scanLines hplain 1 none)]
    exact (scanLines_blocks hblocks _ _).1

/-! ## Two orders of the same blocks -/

/-- The fields of blocks, in order and on no particular lines. -/
def blockFields (blocks : List FieldBlock) : List DocField :=
  fieldsOf (blocks.map FieldBlock.record)

theorem map_key_blockFields (blocks : List FieldBlock) :
    (blockFields blocks).map DocField.key = blocks.filterMap FieldBlock.key? := by
  rw [blockFields, fieldsOf, List.filterMap_map, List.map_filterMap]
  apply List.filterMap_congr
  intro b _
  unfold FieldBlock.key? Function.comp FieldBlock.record Marker.record
  rcases b.marker.subject? with _ | s <;> rfl

theorem blockFields_perm {blocks blocks' : List FieldBlock} (hperm : blocks.Perm blocks') :
    (blockFields blocks).Perm (blockFields blocks') :=
  (hperm.map FieldBlock.record).filterMap Record.field?

section Read

variable {description : List Text} {blocks : List FieldBlock}
  (hdescription : ∀ l ∈ description, Marker.ofLine? l = none ∧ '\n' ∉ l)

include hdescription

/-- A look-up in the docstring finds the last block with the key. -/
theorem find?_docText (key : Key) :
    ((Docstring.parse (docText description blocks)).fields.find? key).map DocField.unnumbered =
      lastField? (blockFields blocks) key := by
  rw [find?_unnumbered, unnumberedRecords_docText hdescription, blockFields]

/-- The names a docstring mentions are those of its blocks, in whatever order. -/
theorem mem_parameterNames_docText (name : Text) :
    name ∈ (Docstring.parse (docText description blocks)).parameterNames ↔
      ∃ f ∈ blockFields blocks, f.subject.parameter? = some name := by
  rw [parameterNames_unnumbered, unnumberedRecords_docText hdescription, List.mem_eraseDups,
    List.mem_filterMap, blockFields]

/-- If no two blocks have the same key, the field list rule reports the malformed blocks in their
order. -/
theorem fieldListFindings_docText (hkeys : (blocks.filterMap FieldBlock.key?).Nodup) :
    fieldListFindings (Docstring.parse (docText description blocks)) =
      (blocks.map FieldBlock.record).filterMap fun r =>
        r.malformed?.map fun m => .unknownField m.marker := by
  have hdup : replaced (fieldsOf (blocks.map FieldBlock.record)) = [] := by
    rw [replaced_eq_nil_iff, ← blockFields, map_key_blockFields]
    exact hkeys
  rw [fieldListFindings_unnumbered, unnumberedRecords_docText hdescription, hdup, List.map_nil,
    List.append_nil, List.map_filterMap]

end Read

/-- Diagnostics with this code do not come in the order of the docstring: those about unknown fields
and about parameters that are not there do. -/
def Code.keepsPlace (code : Code) : Bool :=
  code != .unknownField && code != .extraParam

theorem filter_unknownField (rs : List Record) :
    (rs.filterMap fun r => r.malformed?.map fun m => Finding.unknownField m.marker).filter
      (·.code.keepsPlace) = [] := by
  rw [List.filter_eq_nil_iff]
  intro f hf
  obtain ⟨r, -, hr⟩ := List.mem_filterMap.mp hf
  obtain ⟨m, -, rfl⟩ := Option.map_eq_some_iff.mp hr
  exact Bool.false_ne_true

theorem filter_extraParam (names : List Text) :
    (names.map Finding.extraParam).filter (·.code.keepsPlace) = [] := by
  rw [List.filter_eq_nil_iff]
  intro f hf
  obtain ⟨name, -, rfl⟩ := List.mem_map.mp hf
  exact Bool.false_ne_true

section Reorder

variable {description : List Text} {blocks blocks' : List FieldBlock}
  (hdescription : ∀ l ∈ description, Marker.ofLine? l = none ∧ '\n' ∉ l)
  (hkeys : (blocks.filterMap FieldBlock.key?).Nodup) (hperm : blocks.Perm blocks')

include hdescription hperm

theorem parameterNames_docText_perm :
    (Docstring.parse (docText description blocks')).parameterNames.Perm
      (Docstring.parse (docText description blocks)).parameterNames := by
  refine (List.perm_ext_iff_of_nodup (nodup_eraseDups _) (nodup_eraseDups _)).mpr fun name => ?_
  simp only [← Docstring.parameterNames.eq_1]
  rw [mem_parameterNames_docText hdescription, mem_parameterNames_docText hdescription]
  simp only [(blockFields_perm hperm).mem_iff]

include hkeys

/-- Docstrings made of the same blocks in two orders are alike. -/
theorem docText_alike :
    (Docstring.parse (docText description blocks')).Alike
      (Docstring.parse (docText description blocks)) := by
  intro key
  rw [find?_docText hdescription, find?_docText hdescription]
  exact (lastField?_eq_of_perm (by rwa [map_key_blockFields]) (blockFields_perm hperm) key).symm

/-- What the rules find in two orders of the same blocks: the reports of unknown fields and those of
parameters that are not there change places among themselves, the others stay. -/
theorem findings_docText_perm (c : Callable) :
    (c.findings (docText description blocks')).Perm (c.findings (docText description blocks)) ∧
      (c.findings (docText description blocks')).filter (·.code.keepsPlace) =
        (c.findings (docText description blocks)).filter (·.code.keepsPlace) := by
  have hkeys' : (blocks'.filterMap FieldBlock.key?).Nodup :=
    (hperm.filterMap FieldBlock.key?).nodup_iff.mp hkeys
  have halike := docText_alike hdescription hkeys hperm
  have hparams := funext halike.parameterFindings_eq
  have hnames := parameterNames_docText_perm hdescription hperm
  simp only [Callable.findings, parametersFindings, halike.returnsFindings_eq c, hparams,
    fieldListFindings_docText hdescription hkeys,
    fieldListFindings_docText hdescription hkeys']
  constructor
  · have hunknown := (hperm.symm.map FieldBlock.record).filterMap fun r =>
      r.malformed?.map fun m => Finding.unknownField m.marker
    have hextra := (hnames.filter (!(c.parameters.map (·.name)).contains ·)).map Finding.extraParam
    exact (hunknown.append (hextra.append_left _)).append_right _
  · simp only [List.filter_append, filter_unknownField, filter_extraParam]

end Reorder

/-- **The order of fields does not matter.** Take a docstring made of a description and blocks, no
two of which have the same tag and name unless they are malformed. For a callable that is not
private, the diagnostics for any other order of the blocks are the same up to order, and those that
are not about unknown fields or parameters that are not there are the same in the same order. -/
theorem check_docText_perm (d : Declaration) (hcallable : d.isCallable = true)
    (hpublic : d.isPrivate = false) (description : List Text)
    (hdescription : ∀ l ∈ description, Marker.ofLine? l = none ∧ '\n' ∉ l)
    (blocks blocks' : List FieldBlock) (hkeys : (blocks.filterMap FieldBlock.key?).Nodup)
    (hperm : blocks.Perm blocks') :
    let before := { d with docstring := some (docText description blocks) }.check
    let after := { d with docstring := some (docText description blocks') }.check
    after.Perm before ∧
      after.filter (·.code.keepsPlace) = before.filter (·.code.keepsPlace) := by
  intro before after
  obtain ⟨c, hform⟩ := Declaration.isCallable_iff.mp hcallable
  obtain ⟨hfindings, hfilter⟩ := findings_docText_perm hdescription hkeys hperm c
  have hbefore : before = (c.findings (docText description blocks)).map (Finding.report d) :=
    Declaration.check_of_callable hform hpublic rfl
  have hafter : after = (c.findings (docText description blocks')).map (Finding.report d) :=
    Declaration.check_of_callable hform hpublic rfl
  rw [hbefore, hafter]
  refine ⟨hfindings.map _, ?_⟩
  rw [List.filter_map, List.filter_map]
  exact congrArg (List.map (Finding.report d)) hfilter

/-- Blocks about a parameter `a`, one of them with a second line, and one with an unknown tag. -/
def sumBlocks : List FieldBlock :=
  [⟨":param a: one".toList, ⟨"param".toList, some "a".toList, "one".toList⟩,
      ["  of two".toList, []], by decide, by decide, by decide, by decide⟩,
    ⟨":note: x".toList, ⟨"note".toList, none, "x".toList⟩, [], by decide, by decide, by decide,
      by decide⟩,
    ⟨":type a: int".toList, ⟨"type".toList, some "a".toList, "int".toList⟩, [], by decide,
      by decide, by decide, by decide⟩]

/-- A function of two parameters that returns a value. -/
def sumDeclaration : Declaration :=
  ⟨.callable ⟨.function, [⟨"a".toList, false⟩, ⟨"b".toList, false⟩], none, true⟩, "add".toList, 3,
    none, false⟩

/-- The blocks of `sumBlocks` the other way round. -/
theorem check_sumBlocks_reverse :
    (sumDeclaration.isCallable = true ∧ sumDeclaration.isPrivate = false) ∧
    (∀ l ∈ ["Add.".toList], Marker.ofLine? l = none ∧ '\n' ∉ l) ∧
    (sumBlocks.filterMap FieldBlock.key?).Nodup ∧ sumBlocks.Perm sumBlocks.reverse ∧
    let before :=
      { sumDeclaration with docstring := some (docText ["Add.".toList] sumBlocks) }.check
    let after :=
      { sumDeclaration with docstring := some (docText ["Add.".toList] sumBlocks.reverse) }.check
    after.Perm before ∧
      after.filter (·.code.keepsPlace) = before.filter (·.code.keepsPlace) := by
  have hdescription : ∀ l ∈ ["Add.".toList], Marker.ofLine? l = none ∧ '\n' ∉ l := by decide
  have hkeys : (sumBlocks.filterMap FieldBlock.key?).Nodup := by decide
  have hperm : sumBlocks.Perm sumBlocks.reverse := (List.reverse_perm sumBlocks).symm
  exact ⟨⟨rfl, rfl⟩, hdescription, hkeys, hperm,
    check_docText_perm sumDeclaration rfl rfl _ hdescription _ _ hkeys hperm⟩

end FieldLint
