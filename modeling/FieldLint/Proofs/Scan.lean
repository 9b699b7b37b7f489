import FieldLint.Docstring.Parse
import FieldLint.Proofs.TextLines

/-!
# Reading the lines of a docstring one after the other

`docLines` finds the flags of all lines first and the markers after that. Seen from one line to the
next, all that is carried along is the number of the line and the indentation of the block of
explicit markup that is open: `scanLines` reads lines that way, from any number and any open block,
so that a docstring can be read in parts.

The main fact about single lines is that an **unindented** marker is seen whatever block is open
before it, and leaves none open. Blanks at the end of a line do not matter for its marker; lines
that `Matches` up to such blanks leave the same records.
-/

namespace FieldLint

/-! ## Marker lines -/

namespace Marker

/-- Trimming looks at the line only, so blanks at its end do not matter. -/
theorem ofLine?_eq_of_padded {line raw : Text} (h : Text.Padded line raw) :
    ofLine? raw = ofLine? line := by
  rw [ofLine?, ofLine?, h.trim_eq]

/-- A blank line has no marker. -/
theorem ofLine?_of_isBlank {line : Text} (h : Text.isBlank line = true) : ofLine? line = none := by
  rw [ofLine?, Text.trim_eq_nil_iff.mpr h]
  rfl

variable {line : Text} {m : Marker}

theorem isBlank_of_ofLine? (h : ofLine? line = some m) : Text.isBlank line = false := by
  rcases hb : Text.isBlank line with _ | _
  · rfl
  · rw [ofLine?_of_isBlank hb] at h
    cases h

/-- A marker line has a colon as its first character that is not blank. -/
theorem trimStart_of_ofLine? (h : ofLine? line = some m) :
    ∃ rest, Text.trimStart line = ':' :: rest := by
  have hpre : Text.trim line <+: Text.trimStart line := Text.trimEnd_isPrefix _
  rw [ofLine?] at h
  rcases ht : Text.trim line with _ | ⟨c, body⟩
  · rw [ht] at h
    cases h
  · rw [ht] at h hpre
    obtain ⟨rest, hrest⟩ := hpre
    by_cases hc : c = ':'
    · subst hc
      exact ⟨body ++ rest, hrest.symm⟩
    · simp [ofTrimmed?, hc] at h

/-- A marker line opens no explicit markup. -/
theorem opensDirective_of_ofLine? (h : ofLine? line = some m) : opensDirective line = false := by
  obtain ⟨rest, hrest⟩ := trimStart_of_ofLine? h
  rw [opensDirective, hrest]
  rfl

end Marker

/-! ## Scanning -/

/-- The block of explicit markup that is open after a line, by its indentation. -/
def blockAfter (block : Option Nat) (line : Text) : Option Nat :=
  if continuesDirective block line then block
  else if opensDirective line then some (Text.indent line)
  else none

/-- The marker of a line, with `block` open before it. -/
def markerIn? (block : Option Nat) (line : Text) : Option Marker :=
  if continuesDirective block line || opensDirective line then none else Marker.ofLine? line

/-- Read lines with `number` for the first and `block` open before it. -/
def scanLines (number : Nat) (block : Option Nat) : List Text → List DocLine
  | [] => []
  | line :: rest =>
    ⟨number, line, markerIn? block line⟩ :: scanLines (number + 1) (blockAfter block line) rest

/-- Reading line by line is finding all flags first. -/
theorem docLines_eq_scanLines (ls : List Text) : docLines ls = scanLines 1 none ls := by
  have hscan : ∀ number block,
      ((ls.zip (directiveFlags block ls)).zipIdx number).map
        (fun x => (⟨x.2, x.1.1, if x.1.2 then none else Marker.ofLine? x.1.1⟩ : DocLine)) =
        scanLines number block ls := by
    induction ls with
    | nil => exact fun _ _ => rfl
    | cons line ls ih =>
      intro number block
      rw [directiveFlags, scanLines, blockAfter, markerIn?]
      by_cases hc : continuesDirective block line = true
      · simp [hc, ih]
      · by_cases ho : opensDirective line = true <;> simp [hc, ho, ih]
  exact hscan 1 none

/-- Reading goes on with the block that the lines before left open. -/
theorem scanLines_append (number : Nat) (block : Option Nat) (ls ls' : List Text) :
    scanLines number block (ls ++ ls') =
      scanLines number block ls ++
        scanLines (number + ls.length) (ls.foldl blockAfter block) ls' := by
  induction ls generalizing number block with
  | nil => rfl
  | cons line ls ih =>
    rw [List.cons_append, scanLines, ih, scanLines, List.length_cons, List.foldl_cons,
      Nat.add_right_comm, Nat.add_assoc]
    rfl

theorem map_text_scanLines (number : Nat) (block : Option Nat) (ls : List Text) :
    (scanLines number block ls).map (·.text) = ls := by
  induction ls generalizing number block with
  | nil => rfl
  | cons line ls ih => rw [scanLines, List.map_cons, ih]

/-- Lines that are no markers anywhere are plain lines. -/
theorem isPlain_scanLines {ls : List Text} (h : ∀ l ∈ ls, Marker.ofLine? l = none) (number : Nat)
    (block : Option Nat) : ∀ l ∈ scanLines number block ls, l.isPlain = true := by
  induction ls generalizing number block with
  | nil => exact fun l hl => absurd hl List.not_mem_nil
  | cons line ls ih =>
    intro l hl
    rcases List.mem_cons.mp hl with rfl | hl
    · simp [DocLine.isPlain, markerIn?, h line List.mem_cons_self]
    · exact ih (fun l hl => h l (List.mem_cons_of_mem _ hl)) _ _ l hl

/-- A marker line is not blank. -/
theorem notBlank_of_markerIn? {block : Option Nat} {line : Text}
    (h : (markerIn? block line).isNone = false) : Text.isBlank line = false := by
  rcases hb : Text.isBlank line with _ | _
  · rfl
  · simp [markerIn?, Marker.ofLine?_of_isBlank hb] at h

/-- A line in which a marker is seen stands in no block. -/
theorem continuesDirective_of_markerIn? {block : Option Nat} {line : Text}
    (h : markerIn? block line ≠ none) : continuesDirective block line = false := by
  rcases hc : continuesDirective block line with _ | _
  · rfl
  · simp [markerIn?, hc] at h

/-- A marker that is seen is the one the line opens with. -/
theorem ofLine?_of_markerIn? {block : Option Nat} {line : Text} {m : Marker}
    (h : markerIn? block line = some m) : Marker.ofLine? line = some m := by
  unfold markerIn? at h
  split at h
  · cases h
  · exact h

/-- A line opens a block if two dots come first on it and a blank after them. -/
theorem opensDirective_iff {line : Text} :
    opensDirective line = true ↔
      ∃ c rest, Text.trimStart line = '.' :: '.' :: c :: rest ∧ Text.isBlankChar c = true := by
  rw [opensDirective]
  split
  · simp_all
  · rename_i hno
    simp only [Bool.false_eq_true, false_iff]
    rintro ⟨c, rest, ht, -⟩
    exact hno c rest ht

/-- Whether a line that is not blank stands in a block depends on its indentation. -/
theorem continuesDirective_congr {line line' : Text} (hb : Text.isBlank line = false)
    (hb' : Text.isBlank line' = false) (hindent : Text.indent line = Text.indent line')
    (block : Option Nat) : continuesDirective block line = continuesDirective block line' := by
  rcases block with _ | depth
  · rfl
  · rw [continuesDirective, continuesDirective, hb, hb', hindent]

/-- A blank line leaves the open block as it is. -/
theorem blockAfter_of_isBlank {line : Text} (h : Text.isBlank line = true) (block : Option Nat) :
    blockAfter block line = block := by
  have hopen : opensDirective line = false := by
    rw [opensDirective, Text.trimStart_eq_nil_iff.mpr h]
  rcases block with _ | depth
  · simp [blockAfter, continuesDirective, hopen]
  · simp [blockAfter, continuesDirective, h]

section MarkerLine

variable {line : Text} {m : Marker} (hm : Marker.ofLine? line = some m)

include hm

/-- A marker line outside any block is seen, and leaves no block open. -/
theorem scanLines_cons_of_not_continues {block : Option Nat}
    (hcont : continuesDirective block line = false) (number : Nat) (ls : List Text) :
    scanLines number block (line :: ls) =
      ⟨number, line, some m⟩ :: scanLines (number + 1) none ls := by
  have hopen := Marker.opensDirective_of_ofLine? hm
  simp [scanLines, blockAfter, markerIn?, hcont, hopen, hm]

/-- An unindented marker line is seen whatever is open before it, and closes it. -/
theorem scanLines_cons_marker (hindent : Text.indent line = 0) (number : Nat)
    (block : Option Nat) (ls : List Text) :
    scanLines number block (line :: ls) =
      ⟨number, line, some m⟩ :: scanLines (number + 1) none ls := by
  refine scanLines_cons_of_not_continues hm ?_ number ls
  rcases block with _ | depth
  · rfl
  · simp [continuesDirective, Marker.isBlank_of_ofLine? hm, hindent]

end MarkerLine

/-! ## Sections -/

/-- Plain lines open no section. -/
theorem fieldSections_append_of_plain {dl : List DocLine} (h : ∀ l ∈ dl, l.isPlain = true)
    (dl' : List DocLine) : fieldSections (dl ++ dl') = fieldSections dl' := by
  induction dl with
  | nil => rfl
  | cons l dl ih =>
    have hl : l.marker = none := by simpa [DocLine.isPlain] using h l List.mem_cons_self
    rw [List.cons_append, fieldSections, hl]
    exact ih fun l hl => h l (List.mem_cons_of_mem _ hl)

/-! ## Lines that say the same elsewhere -/

/-- The field on the line that `f` gives for its own. -/
def DocField.renumbered (f : Nat → Nat) (x : DocField) : DocField :=
  { x with line := f x.line }

/-- The malformed field on the line that `f` gives for its own. -/
def MalformedField.renumbered (f : Nat → Nat) (m : MalformedField) : MalformedField :=
  { m with line := f m.line }

/-- The record on the line that `f` gives for its own. -/
def Record.renumbered (f : Nat → Nat) : Record → Record
  | field x => field (x.renumbered f)
  | malformed m => malformed (m.renumbered f)

theorem map_renumbered_id (rs : List Record) : rs.map (Record.renumbered id) = rs := by
  have hid : ∀ r : Record, r.renumbered id = r := by
    rintro (x | m) <;> rfl
  exact (List.map_congr_left fun r _ => hid r).trans (List.map_id' rs)

/-- Another number for a marker line is another number in its record. -/
theorem Marker.renumbered_record (f : Nat → Nat) (m : Marker) (text : Text) (line : Nat) :
    (m.record text line).renumbered f = m.record text (f line) := by
  unfold Marker.record
  rcases m.subject? with _ | s <;> rfl

/-- The line `l'` says what `l` says, on the line that `f` gives for its own and `k` columns further
to the right. -/
structure DocLine.Shifted (f : Nat → Nat) (k : Nat) (l l' : DocLine) : Prop where
  /-- the line it stands on -/
  number_eq : l'.number = f l.number
  /-- they have the same marker -/
  marker_eq : l'.marker = l.marker
  /-- they say the same -/
  trim_eq : Text.trim l'.text = Text.trim l.text
  /-- a line that says something is indented deeper -/
  indent_eq : l.isBlank = false → l'.indent = l.indent + k
  /-- a marker line is not blank -/
  notBlank : l.isPlain = false → l.isBlank = false

namespace DocLine.Shifted

variable {f : Nat → Nat} {k : Nat} {l l' : DocLine} (h : l.Shifted f k l')

include h

theorem isPlain_eq : l'.isPlain = l.isPlain :=
  congrArg Option.isNone h.marker_eq

theorem isBlank_eq : l'.isBlank = l.isBlank := by
  rw [Bool.eq_iff_iff, isBlank, isBlank, ← Text.trim_eq_nil_iff, ← Text.trim_eq_nil_iff, h.trim_eq]

/-- Lines further to the right are told apart as before if the marker line is as well. -/
theorem admits_eq {s s' : FieldSection} (hs : s'.opener.indent = s.opener.indent + k) :
    s'.admits l' = s.admits l := by
  rw [FieldSection.admits, FieldSection.admits, h.isBlank_eq, hs]
  rcases hb : l.isBlank with _ | _
  · rw [h.indent_eq hb]
    simp
  · rfl

end DocLine.Shifted

section Forall₂

variable {α β : Type} {R : α → β → Prop} {p : α → Bool} {q : β → Bool}
  (hpq : ∀ a b, R a b → q b = p a) {as : List α} {bs : List β} (h : List.Forall₂ R as bs)

include hpq h

/-- Matching lines are taken or left together. -/
theorem forall₂_takeWhile : List.Forall₂ R (as.takeWhile p) (bs.takeWhile q) := by
  induction h with
  | nil => exact .nil
  | @cons a b as bs hab _ ih =>
    rw [List.takeWhile_cons, List.takeWhile_cons, hpq a b hab]
    split
    · exact .cons hab ih
    · exact .nil

theorem forall₂_dropWhile : List.Forall₂ R (as.dropWhile p) (bs.dropWhile q) := by
  induction h with
  | nil => exact .nil
  | @cons a b as bs hab hrest ih =>
    rw [List.dropWhile_cons, List.dropWhile_cons, hpq a b hab]
    split
    · exact ih
    · exact .cons hab hrest

theorem forall₂_filter : List.Forall₂ R (as.filter p) (bs.filter q) := by
  induction h with
  | nil => exact .nil
  | @cons a b as bs hab _ ih =>
    rw [List.filter_cons, List.filter_cons, hpq a b hab]
    split
    · exact .cons hab ih
    · exact ih

end Forall₂

/-- Lines that say the same are trimmed to the same. -/
theorem map_trim_of_shifted {f : Nat → Nat} {k : Nat} {dl dl' : List DocLine}
    (h : List.Forall₂ (DocLine.Shifted f k) dl dl') :
    dl'.map (Text.trim ·.text) = dl.map (Text.trim ·.text) := by
  induction h with
  | nil => rfl
  | cons hl _ ih => rw [List.map_cons, List.map_cons, hl.trim_eq, ih]

/-- A section elsewhere leaves the same record, on its new line, and the same prose. -/
theorem FieldSection.of_shifted {f : Nat → Nat} {k : Nat} (s s' : FieldSection)
    (hmarker : s'.marker = s.marker) (hopener : s.opener.Shifted f k s'.opener)
    (hplain : s.opener.isPlain = false)
    (hbody : List.Forall₂ (DocLine.Shifted f k) s.body s'.body) :
    s'.record = s.record.renumbered f ∧ s'.prose = s.prose := by
  have hindent := hopener.indent_eq (hopener.notBlank hplain)
  have hadmits : ∀ l l', DocLine.Shifted f k l l' → s'.admits l' = s.admits l :=
    fun _ _ hl => hl.admits_eq hindent
  have hcontinuation := map_trim_of_shifted (forall₂_takeWhile hadmits hbody)
  have htext : s'.text = s.text := by
    apply foldText_congr
    rw [List.map_cons, List.map_cons, hmarker, List.map_map, List.map_map]
    exact congrArg _ hcontinuation
  constructor
  · rw [record, record, Marker.renumbered_record, htext, hmarker, hopener.number_eq]
  · exact map_trim_of_shifted (forall₂_filter (fun _ _ hl => by rw [hl.isBlank_eq])
      (forall₂_dropWhile hadmits hbody))

/-- **Sections elsewhere leave the same records and prose.** -/
theorem fieldSections_of_shifted {f : Nat → Nat} {k : Nat} {dl dl' : List DocLine}
    (h : List.Forall₂ (DocLine.Shifted f k) dl dl') :
    (fieldSections dl').map FieldSection.record =
        ((fieldSections dl).map FieldSection.record).map (Record.renumbered f) ∧
      (fieldSections dl').flatMap FieldSection.prose =
        (fieldSections dl).flatMap FieldSection.prose := by
  induction h with
  | nil => exact ⟨rfl, rfl⟩
  | @cons l l' dl dl' hl hdl ih =>
    rw [fieldSections, fieldSections, hl.marker_eq]
    rcases hm : l.marker with _ | m
    · exact ih
    · obtain ⟨hrecord, hprose⟩ := FieldSection.of_shifted
        ⟨m, l, dl.takeWhile DocLine.isPlain⟩ ⟨m, l', dl'.takeWhile DocLine.isPlain⟩
        rfl hl (by simp [DocLine.isPlain, hm])
        (forall₂_takeWhile (fun _ _ hx => hx.isPlain_eq) hdl)
      constructor
      · rw [List.map_cons, List.map_cons, List.map_cons, hrecord, ih.1]
      · rw [List.flatMap_cons, List.flatMap_cons, hprose, ih.2]

/-! ## Blanks at the ends of lines -/

/-- Blanks at the end of a line do not change which marker is seen in it. -/
theorem markerIn?_eq_of_padded {line raw : Text} (h : Text.Padded line raw) (block : Option Nat) :
    markerIn? block raw = markerIn? block line := by
  rcases hm : Marker.ofLine? line with _ | m
  · have hraw := (Marker.ofLine?_eq_of_padded h).trans hm
    simp [markerIn?, hm, hraw]
  · -- a marker line opens no block, and its indentation decides whether it stands in one
    have hraw := (Marker.ofLine?_eq_of_padded h).trans hm
    have hcont : continuesDirective block raw = continuesDirective block line :=
      continuesDirective_congr (Marker.isBlank_of_ofLine? hraw) (Marker.isBlank_of_ofLine? hm)
        (h.indent_eq (Marker.isBlank_of_ofLine? hm)) block
    rw [markerIn?, markerIn?, hcont, Marker.opensDirective_of_ofLine? hm,
      Marker.opensDirective_of_ofLine? hraw, hm, hraw]

/-- Two lines that differ in the blanks at their ends only. -/
structure DocLine.Matches (l l' : DocLine) : Prop where
  /-- they have the same number -/
  number_eq : l'.number = l.number
  /-- they have the same marker -/
  marker_eq : l'.marker = l.marker
  /-- the second one has more blanks at its end -/
  padded : Text.Padded l.text l'.text
  /-- a marker line is not blank -/
  notBlank : l.isPlain = false → l.isBlank = false

theorem DocLine.Matches.shifted {l l' : DocLine} (h : l.Matches l') : l.Shifted id 0 l' :=
  ⟨h.number_eq, h.marker_eq, h.padded.trim_eq, h.padded.indent_eq, h.notBlank⟩

/-- **Blanks at the ends of lines change no record.** -/
theorem map_record_fieldSections_of_matches {dl dl' : List DocLine}
    (h : List.Forall₂ DocLine.Matches dl dl') :
    (fieldSections dl').map FieldSection.record = (fieldSections dl).map FieldSection.record := by
  rw [(fieldSections_of_shifted (h.imp fun _ _ hl => hl.shifted)).1, map_renumbered_id]

/-- A line is read alike with more blanks at its end. -/
theorem matches_of_padded {line raw : Text} (h : Text.Padded line raw) (number : Nat)
    (block : Option Nat) :
    DocLine.Matches ⟨number, line, markerIn? block line⟩ ⟨number, raw, markerIn? block raw⟩ :=
  ⟨rfl, markerIn?_eq_of_padded h block, h, notBlank_of_markerIn?⟩

/-- Lines match themselves. -/
theorem matches_scanLines (number : Nat) (block : Option Nat) (ls : List Text) :
    List.Forall₂ DocLine.Matches (scanLines number block ls) (scanLines number block ls) := by
  induction ls generalizing number block with
  | nil => exact .nil
  | cons line ls ih => exact .cons (matches_of_padded (Text.Padded.refl line) number block) (ih _ _)

end FieldLint
