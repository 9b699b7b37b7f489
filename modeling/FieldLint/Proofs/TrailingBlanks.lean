import FieldLint.Proofs.Records
import FieldLint.Proofs.Scan

/-!
# Spaces at the ends of lines

Reading a docstring trims each line, so spaces at the ends of lines should not matter. They do in
one place: a line of two dots opens a block of explicit markup only with a blank after the dots
(`opensDirective_of_padded`).

* **Same marker lines, same fields** — if the same lines are marker lines with and without the
  spaces, nothing else can change (`forall₂_shifted_of_isPlain`).
* **Two dots** — spaces after a line of two dots open a block. Marker lines in it are lost, and no
  other change of this kind loses any (`map_isPlain_of_padded`).
* **Docstrings** — `parse_padEnds`.
-/

namespace FieldLint

namespace Text

/-! ## Ends of lines -/

/-- The text with `pad i` spaces at the end of line `i`. The first line has number `n`. -/
def padEnds (pad : Nat → Nat) (n : Nat) : Text → Text
  | [] => List.replicate (pad n) ' '
  | '\n' :: t => List.replicate (pad n) ' ' ++ '\n' :: padEnds pad (n + 1) t
  | '\r' :: '\n' :: t => List.replicate (pad n) ' ' ++ '\r' :: '\n' :: padEnds pad (n + 1) t
  | c :: t => c :: padEnds pad n t

theorem padEnds_ne_newline_cons {pad : Nat → Nat} {n : Nat} {t : Text} (h : ∀ u, t ≠ '\n' :: u)
    (u : Text) : padEnds pad n t ≠ '\n' :: u := by
  fun_cases padEnds pad n t with
  | case1 => cases pad n <;> simp [List.replicate_succ]
  | case2 t => exact absurd rfl (h t)
  | case3 t => cases pad n <;> simp [List.replicate_succ]
  | case4 c t hc => simp [show c ≠ '\n' from hc]

/-- The lines of a text with spaces at their ends. -/
theorem lines_padEnds (pad : Nat → Nat) (n : Nat) (t : Text) :
    lines (padEnds pad n t) =
      ((lines t).zipIdx n).map fun (l, i) => l ++ List.replicate (pad i) ' ' := by
  have hspaces : ∀ k u, lines (List.replicate k ' ' ++ u) =
      (lines u).modifyHead (List.replicate k ' ' ++ ·) := fun _ =>
    lines_append_of_notMem (by simp) (by simp)
  fun_induction lines t generalizing n with
  | case1 =>
    have hone := lines_of_notMem (l := List.replicate (pad n) ' ') (by simp)
    simpa [padEnds] using hone
  | case2 t ih =>
    rw [padEnds, hspaces, lines.eq_2, ih]
    simp
  | case3 t ih =>
    rw [padEnds, hspaces, lines.eq_3, ih]
    simp
  | case4 c t hc ht ih =>
    have hcut : ∀ u, c = '\r' → padEnds pad n t ≠ '\n' :: u := fun u hr =>
      padEnds_ne_newline_cons (fun v hv => ht v hr hv) u
    rw [padEnds.eq_4 pad n c t hc ht, lines_cons hc hcut, ih]
    rcases lines t with _ | ⟨first, rest⟩ <;> rfl

/-- What holds of each line and the same line with its spaces. -/
theorem forall₂_lines_padEnds {R : Text → Text → Prop} {pad : Nat → Nat} {t : Text}
    (h : ∀ i l, (lines t)[i]? = some l → R l (l ++ List.replicate (pad i) ' ')) :
    List.Forall₂ R (lines t) (lines (padEnds pad 0 t)) := by
  have hmem : ∀ x ∈ (lines t).zipIdx, R x.1 (x.1 ++ List.replicate (pad x.2) ' ') :=
    fun x hx => h x.2 x.1 (List.mem_zipIdx_iff_getElem?.mp hx)
  rw [lines_padEnds]
  generalize lines t = ls at hmem ⊢
  generalize 0 = n at hmem ⊢
  induction ls generalizing n with
  | nil => exact .nil
  | cons l ls ih =>
    rw [List.zipIdx_cons, List.forall_mem_cons] at hmem
    exact .cons hmem.1 (ih _ hmem.2)

end Text

/-! ## Marker lines -/

/-- Blanks at the end of a line open a block only where two dots stand alone. -/
theorem opensDirective_of_padded {line raw : Text} (h : Text.Padded line raw)
    (hdots : Text.trimStart line = "..".toList → raw = line) :
    opensDirective raw = opensDirective line := by
  obtain ⟨blanks, hblanks, rfl⟩ := h
  rcases hb : Text.isBlank line with _ | _
  · have happend := (Text.opening_append hb blanks).2
    rw [Bool.eq_iff_iff, opensDirective_iff, opensDirective_iff, happend]
    constructor
    · rintro ⟨c, rest, ht, hc⟩
      rcases hline : Text.trimStart line with _ | ⟨a, _ | ⟨b, _ | ⟨c', rest'⟩⟩⟩
      · rw [Text.trimStart_eq_nil_iff, hb] at hline
        cases hline
      · -- the second dot would be one of the blanks
        rw [hline, List.singleton_append, List.cons.injEq] at ht
        rw [ht.2] at hblanks
        cases hblanks
      · obtain ⟨rfl, rfl, rfl⟩ : a = '.' ∧ b = '.' ∧ blanks = c :: rest := by
          simpa [hline] using ht
        have hself := hdots hline
        simp at hself
      · obtain ⟨rfl, rfl, rfl, -⟩ : a = '.' ∧ b = '.' ∧ c' = c ∧ rest' ++ blanks = rest := by
          simpa [hline] using ht
        exact ⟨c', rest', rfl, hc⟩
    · rintro ⟨c, rest, ht, hc⟩
      exact ⟨c, rest ++ blanks, by rw [ht]; rfl, hc⟩
  · have hraw : Text.isBlank (line ++ blanks) = true := by
      rw [Text.isBlank_append, hb, hblanks]
      rfl
    rw [opensDirective, opensDirective, Text.trimStart_eq_nil_iff.mpr hraw,
      Text.trimStart_eq_nil_iff.mpr hb]

theorem blockAfter_of_padded {line raw : Text} (h : Text.Padded line raw)
    (hopens : opensDirective raw = opensDirective line) (block : Option Nat) :
    blockAfter block raw = blockAfter block line := by
  rcases hb : Text.isBlank line with _ | _
  · have hcont := continuesDirective_congr (h.isBlank_eq.trans hb) hb (h.indent_eq hb) block
    rw [blockAfter, blockAfter, hcont, hopens, h.indent_eq hb]
  · rw [blockAfter_of_isBlank hb, blockAfter_of_isBlank (h.isBlank_eq.trans hb)]

/-- **Marker lines stay marker lines** if no block is opened that was not there before. -/
theorem map_isPlain_of_padded {ls raws : List Text}
    (h : List.Forall₂ (fun line raw => Text.Padded line raw ∧
      opensDirective raw = opensDirective line) ls raws) (number : Nat) (block : Option Nat) :
    (scanLines number block raws).map DocLine.isPlain =
      (scanLines number block ls).map DocLine.isPlain := by
  induction h generalizing number block with
  | nil => rfl
  | @cons line raw ls raws hl _ ih =>
    obtain ⟨hpad, hopens⟩ := hl
    rw [scanLines, scanLines, List.map_cons, List.map_cons, blockAfter_of_padded hpad hopens, ih,
      markerIn?_eq_of_padded hpad]
    rfl

/-- A marker is the one that the line opens with, if it is seen at all. -/
theorem markerIn?_eq_of_isNone_eq {line raw : Text} (h : Text.Padded line raw)
    {block block' : Option Nat}
    (hnone : (markerIn? block' raw).isNone = (markerIn? block line).isNone) :
    markerIn? block' raw = markerIn? block line := by
  rw [markerIn?, markerIn?, Marker.ofLine?_eq_of_padded h] at *
  split at hnone <;> split at hnone <;> simp_all

/-- If the same lines are marker lines, blanks at the ends of lines change nothing else. -/
theorem forall₂_shifted_of_isPlain {ls raws : List Text} (h : List.Forall₂ Text.Padded ls raws)
    {number : Nat} {block block' : Option Nat}
    (hplain : (scanLines number block' raws).map DocLine.isPlain =
      (scanLines number block ls).map DocLine.isPlain) :
    List.Forall₂ (DocLine.Shifted id 0) (scanLines number block ls)
      (scanLines number block' raws) := by
  induction h generalizing number block block' with
  | nil => exact .nil
  | @cons line raw ls raws hpad _ ih =>
    rw [scanLines, scanLines, List.map_cons, List.map_cons, List.cons.injEq] at hplain
    have hmarker := markerIn?_eq_of_isNone_eq hpad hplain.1
    exact .cons ⟨rfl, hmarker, hpad.trim_eq, hpad.indent_eq, notBlank_of_markerIn?⟩ (ih hplain.2)

/-! ## Docstrings -/

/-- The marker lines of a docstring can be told from its records. -/
theorem map_isPlain_eq_of_toFieldList_eq {t t' : Text}
    (hlength : (Text.lines t').length = (Text.lines t).length)
    (h : (Docstring.parse t').toFieldList = (Docstring.parse t).toFieldList) :
    (docLines (Text.lines t')).map DocLine.isPlain =
      (docLines (Text.lines t)).map DocLine.isPlain := by
  have hperm := records_parse_perm t'
  rw [h] at hperm
  have hlines := (hperm.symm.trans (records_parse_perm t)).map Record.line
  have hplain : ∀ i, (lineAt (docLines (Text.lines t')) i).isPlain =
      (lineAt (docLines (Text.lines t)) i).isPlain := by
    intro i
    have hiff := hlines.mem_iff (a := i + 1)
    rw [mem_map_line_lineRecords, mem_map_line_lineRecords] at hiff
    cases hi : (lineAt (docLines (Text.lines t)) i).isPlain <;> simp_all
  have hmap : ∀ dl : List DocLine, dl.map DocLine.isPlain =
      (List.range dl.length).map fun i => (lineAt dl i).isPlain := by
    intro dl
    conv_lhs => rw [← linesWhere_true dl]
    simp [linesWhere]
  rw [hmap, hmap, length_docLines, length_docLines, hlength]
  exact List.map_congr_left fun i _ => hplain i

/-- **Spaces at the ends of lines.** They leave the fields, the duplicates, the malformed fields and
the epilogue of a docstring as they are exactly if the same lines are marker lines with and without
them. This is so if no spaces are put after a line of two dots: there they open a block of explicit
markup, and all marker lines in it are lost. -/
theorem parse_padEnds (t : Text) (pad : Nat → Nat) :
    let t' := t.padEnds pad 0
    let d := Docstring.parse t
    let d' := Docstring.parse t'
    (Text.lines t' = ((Text.lines t).zipIdx).map fun (l, i) => l ++ List.replicate (pad i) ' ') ∧
    (d'.toFieldList = d.toFieldList ∧ d'.epilogue = d.epilogue ↔
      (docLines (Text.lines t')).map DocLine.isPlain =
        (docLines (Text.lines t)).map DocLine.isPlain) ∧
    ((∀ i l, (Text.lines t)[i]? = some l → Text.trimStart l = "..".toList → pad i = 0) →
      d'.toFieldList = d.toFieldList ∧ d'.epilogue = d.epilogue) := by
  intro t' d d'
  have hpad : ∀ (l : Text) k, Text.Padded l (l ++ List.replicate k ' ') := fun l k =>
    ⟨_, Text.isBlank_replicate_space k, rfl⟩
  have hpadded : List.Forall₂ Text.Padded (Text.lines t) (Text.lines t') :=
    Text.forall₂_lines_padEnds fun i l _ => hpad l (pad i)
  have hsame : (docLines (Text.lines t')).map DocLine.isPlain =
        (docLines (Text.lines t)).map DocLine.isPlain →
      d'.toFieldList = d.toFieldList ∧ d'.epilogue = d.epilogue := by
    intro hplain
    rw [docLines_eq_scanLines, docLines_eq_scanLines] at hplain
    obtain ⟨hrecords, hprose⟩ :=
      fieldSections_of_shifted (forall₂_shifted_of_isPlain hpadded hplain)
    rw [map_renumbered_id, ← docLines_eq_scanLines, ← docLines_eq_scanLines] at hrecords
    rw [← docLines_eq_scanLines, ← docLines_eq_scanLines] at hprose
    exact ⟨congrArg FieldList.ofRecords hrecords, congrArg Text.unlines hprose⟩
  refine ⟨Text.lines_padEnds pad 0 t, ⟨fun h => ?_, hsame⟩, fun hdots => hsame ?_⟩
  · exact map_isPlain_eq_of_toFieldList_eq hpadded.length_eq.symm h.1
  · rw [docLines_eq_scanLines, docLines_eq_scanLines]
    refine map_isPlain_of_padded (Text.forall₂_lines_padEnds fun i l hl => ?_) 1 none
    refine ⟨hpad l (pad i), opensDirective_of_padded (hpad l (pad i)) fun hbare => ?_⟩
    rw [hdots i l hl hbare]
    exact List.append_nil l

/-- Two dots that stand alone open no block, so the line under them opens a field; with a space
after them they do, and the field is lost. -/
theorem parse_two_dots :
    let t := "..\n   :param a: one".toList
    let t' := Text.padEnds (fun i => if i = 0 then 1 else 0) 0 t
    t' = ".. \n   :param a: one".toList ∧
      (Docstring.parse t).fields = [⟨.param "a".toList none, "one".toList, 2⟩] ∧
      (Docstring.parse t').fields = [] := by
  decide

end FieldLint
