import FieldLint.Proofs.CleanedLines
import FieldLint.Proofs.Locality

/-!
# Spacing

A docstring may be indented as a whole, and blank lines may be put in anywhere. `spread` does both
to a list of lines; `spreadPlace` tells where each line stands afterwards.

* **Blank lines** — no section can tell whether the blank lines in it are there
  (`FieldSection.record_dense`, `FieldSection.prose_dense`), so sections can be made of the other
  lines only (`fieldSections_filter`).
* **Scanning** — a blank line leaves the open block of explicit markup as it is
  (`filter_scanLines_append`), and a line with spaces in front is seen as before by a block that is
  deeper by as much (`markerIn?_append`, `blockAfter_append`). So the lines that say something are
  the same, `Shifted` to their new places (`shifted_spread`).
* **Docstrings** — `parse_spread`.
-/

namespace FieldLint

/-! ## Sections without blank lines -/

section Filter

variable {α : Type} {p q : α → Bool} {as : List α} (h : ∀ a ∈ as, p a = false → q a = true)

include h

/-- What is filtered out would be taken. -/
theorem takeWhile_filter : (as.filter p).takeWhile q = (as.takeWhile q).filter p := by
  induction as with
  | nil => rfl
  | cons a as ih =>
    rw [List.forall_mem_cons] at h
    rcases hp : p a with _ | _
    · rw [List.filter_cons_of_neg (by simp [hp]), List.takeWhile_cons_of_pos (h.1 hp),
        List.filter_cons_of_neg (by simp [hp]), ih h.2]
    · rcases hq : q a with _ | _
      · simp [hp, hq]
      · simp [hp, hq, ih h.2]

theorem dropWhile_filter : (as.filter p).dropWhile q = (as.dropWhile q).filter p := by
  induction as with
  | nil => rfl
  | cons a as ih =>
    rw [List.forall_mem_cons] at h
    rcases hp : p a with _ | _
    · rw [List.filter_cons_of_neg (by simp [hp]), List.dropWhile_cons_of_pos (h.1 hp), ih h.2]
    · rcases hq : q a with _ | _
      · simp [hp, hq]
      · simp [hp, hq, ih h.2]

end Filter

/-- Blank pieces are folded to nothing. -/
theorem foldText_filter (piece : Text) (pieces : List Text) :
    foldText (piece :: pieces.filter (!Text.isBlank ·)) = foldText (piece :: pieces) := by
  have hpieces : ((pieces.filter (!Text.isBlank ·)).map Text.trim).filter (!·.isEmpty) =
      (pieces.map Text.trim).filter (!·.isEmpty) := by
    rw [List.filter_map, List.filter_map, List.filter_filter]
    congr 1
    refine List.filter_congr fun t _ => ?_
    rcases hb : Text.isBlank t with _ | _
    · simp
    · simp [Text.trim_eq_nil_iff.mpr hb]
  rw [foldText, foldText, List.map_cons, List.map_cons, List.filter_cons, List.filter_cons, hpieces]

namespace FieldSection

/-- The section without its blank lines. -/
def dense (s : FieldSection) : FieldSection :=
  { s with body := s.body.filter (!·.isBlank) }

variable (s : FieldSection)

theorem admits_of_isBlank : ∀ l ∈ s.body, (!l.isBlank) = false → s.admits l = true := by
  intro l _ hl
  have hblank : l.isBlank = true := by simpa using hl
  rw [admits, hblank]
  rfl

/-- Blank lines in a section make no difference to its record. -/
theorem record_dense : s.dense.record = s.record := by
  have hcontinuation : s.dense.continuation = s.continuation.filter (!·.isBlank) :=
    takeWhile_filter s.admits_of_isBlank
  have htexts : (s.continuation.filter (!·.isBlank)).map (·.text) =
      (s.continuation.map (·.text)).filter (!Text.isBlank ·) := by
    rw [List.filter_map]
    rfl
  have htext : s.dense.text = s.text := by
    rw [text, hcontinuation, htexts, foldText_filter, text]
    rfl
  rw [record, htext, record]
  rfl

/-- Blank lines in a section make no difference to its prose. -/
theorem prose_dense : s.dense.prose = s.prose := by
  have hdrop : s.dense.body.dropWhile s.dense.admits =
      (s.body.dropWhile s.admits).filter (!·.isBlank) :=
    dropWhile_filter s.admits_of_isBlank
  rw [prose, hdrop, List.filter_filter, prose]
  simp only [Bool.and_self]

end FieldSection

/-- **Sections can be made without the blank lines.** -/
theorem fieldSections_filter {dl : List DocLine}
    (h : ∀ l ∈ dl, l.isPlain = false → l.isBlank = false) :
    fieldSections (dl.filter (!·.isBlank)) = (fieldSections dl).map FieldSection.dense := by
  induction dl with
  | nil => rfl
  | cons l dl ih =>
    rw [List.forall_mem_cons] at h
    rcases hm : l.marker with _ | m
    · rw [fieldSections, hm, ← ih h.2]
      rcases hb : l.isBlank with _ | _
      · rw [List.filter_cons_of_pos (by simp [hb]), fieldSections, hm]
      · rw [List.filter_cons_of_neg (by simp [hb])]
    · have hspoken : l.isBlank = false := h.1 (by simp [DocLine.isPlain, hm])
      have hplain : ∀ l ∈ dl, (!l.isBlank) = false → l.isPlain = true := by
        intro l hl hb
        by_contra hmarker
        rw [h.2 l hl (by simpa using hmarker)] at hb
        cases hb
      rw [List.filter_cons_of_pos (by simp [hspoken]), fieldSections, fieldSections, hm,
        List.map_cons, ← ih h.2]
      exact congrArg₂ List.cons (congrArg (FieldSection.mk m l) (takeWhile_filter hplain)) rfl

/-- What blank lines do to records and prose: nothing. -/
theorem fieldSections_of_filter_shifted {f : Nat → Nat} {k : Nat} {dl dl' : List DocLine}
    (h : ∀ l ∈ dl, l.isPlain = false → l.isBlank = false)
    (h' : ∀ l ∈ dl', l.isPlain = false → l.isBlank = false)
    (hshifted : List.Forall₂ (DocLine.Shifted f k) (dl.filter (!·.isBlank))
      (dl'.filter (!·.isBlank))) :
    (fieldSections dl').map FieldSection.record =
        ((fieldSections dl).map FieldSection.record).map (Record.renumbered f) ∧
      (fieldSections dl').flatMap FieldSection.prose =
        (fieldSections dl).flatMap FieldSection.prose := by
  have hdense := fieldSections_of_shifted hshifted
  rw [fieldSections_filter h, fieldSections_filter h'] at hdense
  simpa only [List.map_map, List.flatMap_map, Function.comp_def, FieldSection.record_dense,
    FieldSection.prose_dense] using hdense

/-! ## Spread lines -/

/-- The lines with `k` spaces in front of each, and with more lines in between: those of `gap i`
stand before line `i`, or after the last. The first line has number `n`. -/
def spread (k : Nat) (gap : Nat → List Text) (n : Nat) : List Text → List Text
  | [] => gap n
  | l :: ls => gap n ++ (List.replicate k ' ' ++ l) :: spread k gap (n + 1) ls

/-- The position of line `i` of lines that are spread. -/
def spreadPlace (gap : Nat → List Text) (n : Nat) : Nat → Nat
  | 0 => (gap n).length
  | i + 1 => (gap n).length + 1 + spreadPlace gap (n + 1) i

/-- Every line is found at its new place, indented. -/
theorem getElem?_spread (k : Nat) (gap : Nat → List Text) (n : Nat) {ls : List Text} {i : Nat}
    {l : Text} (h : ls[i]? = some l) :
    (spread k gap n ls)[spreadPlace gap n i]? = some (List.replicate k ' ' ++ l) := by
  induction ls generalizing n i with
  | nil => simp at h
  | cons x ls ih =>
    cases i with
    | zero =>
      obtain rfl : x = l := by simpa using h
      simp [spread, spreadPlace]
    | succ i =>
      have hrest := ih (n + 1) (i := i) (by simpa using h)
      rw [spread, spreadPlace, Nat.add_assoc, Nat.add_comm 1,
        List.getElem?_append_right (Nat.le_add_right _ _), Nat.add_sub_cancel_left,
        List.getElem?_cons_succ, hrest]

/-- A line is one of those put in, or one that was there, indented. -/
theorem mem_spread {k : Nat} {gap : Nat → List Text} {n : Nat} {ls : List Text} {x : Text}
    (h : x ∈ spread k gap n ls) :
    (∃ i, x ∈ gap i) ∨ ∃ l ∈ ls, x = List.replicate k ' ' ++ l := by
  induction ls generalizing n with
  | nil => exact .inl ⟨n, h⟩
  | cons l ls ih =>
    rw [spread, List.mem_append, List.mem_cons] at h
    rcases h with h | rfl | h
    · exact .inl ⟨n, h⟩
    · exact .inr ⟨l, List.mem_cons_self, rfl⟩
    · exact (ih h).imp_right fun ⟨l', hl', hx⟩ => ⟨l', List.mem_cons_of_mem _ hl', hx⟩

theorem spread_ne_nil (k : Nat) (gap : Nat → List Text) (n : Nat) {ls : List Text} (h : ls ≠ []) :
    spread k gap n ls ≠ [] := by
  cases ls with
  | nil => exact absurd rfl h
  | cons l ls => simp [spread]

/-- Lines without line feeds are the lines of some text. -/
theorem Text.exists_lines_eq {ls : List Text} (hne : ls ≠ []) (h : ∀ l ∈ ls, '\n' ∉ l) :
    ∃ t, lines t = ls := by
  induction ls with
  | nil => exact absurd rfl hne
  | cons l ls ih =>
    rw [List.forall_mem_cons] at h
    rcases eq_or_ne ls [] with rfl | hls
    · exact ⟨l, lines_of_notMem h.1⟩
    · -- a carriage return at the end of `l` is kept by a line end that has its own
      obtain ⟨t, rfl⟩ := ih hls h.2
      have hchomp : chomp (l ++ ['\r']) = l := by simp [chomp]
      refine ⟨(l ++ ['\r']) ++ '\n' :: t, ?_⟩
      rw [lines_append_cons_newline, hchomp, lines_of_notMem h.1, List.singleton_append]

/-! ## Scanning spread lines -/

section Append

variable {w : Text} (hw : Text.isBlank w = true) (block : Option Nat) (line : Text)

include hw

/-- Indenting lines and block alike keeps the lines in the block. -/
theorem continuesDirective_append :
    continuesDirective (block.map (· + w.length)) (w ++ line) = continuesDirective block line := by
  rcases block with _ | depth
  · rfl
  · simp [continuesDirective, Text.isBlank_append, hw, Text.indent_append_of_isBlank hw,
      Nat.add_comm depth]

/-- An indented line opens a block exactly if the line does. -/
theorem opensDirective_append : opensDirective (w ++ line) = opensDirective line := by
  rw [opensDirective, Text.trimStart_append_of_isBlank hw, opensDirective]

theorem trim_append_of_isBlank : Text.trim (w ++ line) = Text.trim line := by
  rw [Text.trim, Text.trimStart_append_of_isBlank hw, Text.trim]

/-- A line further to the right has its marker if the open block is further to the right too. -/
theorem markerIn?_append :
    markerIn? (block.map (· + w.length)) (w ++ line) = markerIn? block line := by
  rw [markerIn?, continuesDirective_append hw, opensDirective_append hw, markerIn?, Marker.ofLine?,
    trim_append_of_isBlank hw, Marker.ofLine?]

/-- Indenting all lines indents the block that is open. -/
theorem blockAfter_append :
    blockAfter (block.map (· + w.length)) (w ++ line) =
      (blockAfter block line).map (· + w.length) := by
  rw [blockAfter, continuesDirective_append hw, opensDirective_append hw, blockAfter,
    Text.indent_append_of_isBlank hw]
  split
  · rfl
  · split
    · rw [Option.map_some, Nat.add_comm]
    · rfl

end Append

/-- A marker line is not blank. -/
theorem notBlank_scanLines (number : Nat) (block : Option Nat) (ls : List Text) :
    ∀ l ∈ scanLines number block ls, l.isPlain = false → l.isBlank = false := by
  induction ls generalizing number block with
  | nil => exact fun l hl => absurd hl List.not_mem_nil
  | cons line ls ih =>
    exact List.forall_mem_cons.mpr ⟨notBlank_of_markerIn?, ih _ _⟩

/-- Blank lines are read without a trace. -/
theorem filter_scanLines_append {ws : List Text} (h : ∀ w ∈ ws, Text.isBlank w = true)
    (number : Nat) (block : Option Nat) (ls : List Text) :
    (scanLines number block (ws ++ ls)).filter (!·.isBlank) =
      (scanLines (number + ws.length) block ls).filter (!·.isBlank) := by
  induction ws generalizing number with
  | nil => rfl
  | cons w ws ih =>
    rw [List.forall_mem_cons] at h
    rw [List.cons_append, scanLines, List.filter_cons_of_neg (by simp [DocLine.isBlank, h.1]),
      blockAfter_of_isBlank h.1, ih h.2, List.length_cons, Nat.add_right_comm, Nat.add_assoc]

/-- **Spread lines are read as before**, each in its new place. -/
theorem shifted_spread {f : Nat → Nat} {k : Nat} {gap : Nat → List Text}
    (hgap : ∀ i, ∀ w ∈ gap i, Text.isBlank w = true) (number number' n : Nat) (block : Option Nat)
    (ls : List Text) (hf : ∀ i < ls.length, f (number + i) = number' + spreadPlace gap n i) :
    List.Forall₂ (DocLine.Shifted f k) ((scanLines number block ls).filter (!·.isBlank))
      ((scanLines number' (block.map (· + k)) (spread k gap n ls)).filter (!·.isBlank)) := by
  induction ls generalizing number number' n block with
  | nil =>
    have hblank := filter_scanLines_append (hgap n) number' (block.map (· + k)) []
    rw [List.append_nil] at hblank
    rw [spread, hblank]
    exact .nil
  | cons line ls ih =>
    have hw := Text.isBlank_replicate_space k
    have hmarker := markerIn?_append hw block line
    have hblock := blockAfter_append hw block line
    rw [List.length_replicate] at hmarker hblock
    have hrest := ih (number + 1) (number' + (gap n).length + 1) (n + 1) (blockAfter block line)
      fun i hi => by
        rw [Nat.add_right_comm]
        exact (hf (i + 1) (Nat.succ_lt_succ hi)).trans (by rw [spreadPlace]; omega)
    have hline : DocLine.Shifted f k ⟨number, line, markerIn? block line⟩
        ⟨number' + (gap n).length, List.replicate k ' ' ++ line, markerIn? block line⟩ := by
      have hindent := Text.indent_append_of_isBlank hw line
      rw [List.length_replicate, Nat.add_comm] at hindent
      exact ⟨(hf 0 (Nat.succ_pos _)).symm, rfl, trim_append_of_isBlank hw line, fun _ => hindent,
        notBlank_of_markerIn?⟩
    rw [spread, filter_scanLines_append (hgap n), scanLines, scanLines, hmarker, hblock,
      List.filter_cons, List.filter_cons, hline.isBlank_eq]
    split
    · exact .cons hline hrest
    · exact hrest

/-! ## Docstrings -/

/-- **Spacing does not matter.** Put `k` spaces in front of every line of a docstring, and blank
lines anywhere in between; there is such a text, and any such text is read alike but for the
description. Its fields have the same keys in the same order and say the same, so do its duplicates
and malformed fields, each of them standing where its own marker line stands now; and it has the same
epilogue. -/
theorem parse_spread (t : Text) (k : Nat) (gap : Nat → List Text)
    (hgap : ∀ i, ∀ w ∈ gap i, Text.isBlank w = true ∧ '\n' ∉ w) :
    (∃ t', Text.lines t' = spread k gap 0 (Text.lines t)) ∧
    ∀ t', Text.lines t' = spread k gap 0 (Text.lines t) →
      let d := Docstring.parse t
      let d' := Docstring.parse t'
      let place := fun number => spreadPlace gap 0 (number - 1) + 1
      (∀ i l, (Text.lines t)[i]? = some l →
        (Text.lines t')[spreadPlace gap 0 i]? = some (List.replicate k ' ' ++ l)) ∧
      d'.fields.map DocField.key = d.fields.map DocField.key ∧
      d'.fields = d.fields.map (DocField.renumbered place) ∧
      d'.duplicates = d.duplicates.map (DocField.renumbered place) ∧
      d'.malformed = d.malformed.map (MalformedField.renumbered place) ∧
      d'.epilogue = d.epilogue := by
  constructor
  · refine Text.exists_lines_eq (spread_ne_nil k gap 0 (Text.lines_ne_nil t)) fun x hx => ?_
    rcases mem_spread hx with ⟨i, hi⟩ | ⟨l, hl, rfl⟩
    · exact (hgap i x hi).2
    · rw [List.mem_append, not_or]
      exact ⟨by simp, fun hc => (Text.mem_and_ne_newline_of_mem_lines hl hc).2 rfl⟩
  · intro t' hlines d d' place
    have hshifted := shifted_spread (f := place) (k := k) (fun i w hw => (hgap i w hw).1) 1 1 0 none
      (Text.lines t) fun i _ => by simp [place, Nat.add_comm]
    rw [Option.map_none, ← hlines] at hshifted
    obtain ⟨hrecords, hprose⟩ := fieldSections_of_filter_shifted (notBlank_scanLines _ _ _)
      (notBlank_scanLines _ _ _) hshifted
    rw [← docLines_eq_scanLines, ← docLines_eq_scanLines] at hrecords hprose
    have hlist : d'.toFieldList = ⟨d.fields.map (DocField.renumbered place),
        d.duplicates.map (DocField.renumbered place),
        d.malformed.map (MalformedField.renumbered place)⟩ :=
      (congrArg FieldList.ofRecords hrecords).trans (FieldList.ofRecords_renumbered place _)
    have hfields : d'.fields = d.fields.map (DocField.renumbered place) :=
      congrArg FieldList.fields hlist
    refine ⟨fun i l hl => ?_, ?_, hfields, congrArg FieldList.duplicates hlist,
      congrArg FieldList.malformed hlist, congrArg Text.unlines hprose⟩
    · rw [hlines]
      exact getElem?_spread k gap 0 hl
    · rw [hfields, List.map_map]
      rfl

/-- Blank lines for a docstring: in a block of explicit markup, and between a marker line and the
line that continues it. -/
def sumGap : Nat → List Text
  | 3 => [[], "  ".toList]
  | 5 => ["\t".toList]
  | _ => []

/-- A docstring two columns further to the right and with three more lines. -/
theorem parse_spread_sum :
    let t := ("Add.\n\n.. note:: x\n   :param z: no\n:param a: one\n  of two\n" ++
      "Done.\n:param a: b").toList
    let t' := ("  Add.\n  \n  .. note:: x\n\n  \n     :param z: no\n  :param a: one\n\t\n" ++
      "    of two\n  Done.\r\n  :param a: b").toList
    (∀ i, ∀ w ∈ sumGap i, Text.isBlank w = true ∧ '\n' ∉ w) ∧
      Text.lines t' = spread 2 sumGap 0 (Text.lines t) ∧
      (Docstring.parse t').fields = (Docstring.parse t).fields.map
        (DocField.renumbered fun number => spreadPlace sumGap 0 (number - 1) + 1) ∧
      (Docstring.parse t').fields = [⟨.param "a".toList none, "b".toList, 11⟩] ∧
      (Docstring.parse t').duplicates = [⟨.param "a".toList none, "one of two".toList, 7⟩] ∧
      (Docstring.parse t').epilogue = "Done.".toList := by
  intro t t'
  have hgap : ∀ i, ∀ w ∈ sumGap i, Text.isBlank w = true ∧ '\n' ∉ w := by
    intro i
    unfold sumGap
    split <;> decide
  have hlines : Text.lines t' = spread 2 sumGap 0 (Text.lines t) := by decide
  obtain ⟨-, -, hfields, hduplicates, -, hepilogue⟩ := (parse_spread t 2 sumGap hgap).2 t' hlines
  exact ⟨hgap, hlines, hfields, hfields.trans (by decide), hduplicates.trans (by decide),
    hepilogue.trans (by decide)⟩

end FieldLint
