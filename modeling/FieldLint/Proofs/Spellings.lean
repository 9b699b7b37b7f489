import FieldLint.Proofs.MarkerGrammar
import FieldLint.Proofs.Spacing
import FieldLint.Proofs.Verdict

/-!
# Other spellings of a tag

Most tags can be spelled in several ways. Which of them stands on a marker line does not matter:

* **Markers** — `record_respelled`: a marker with another spelling of its tag leaves the same record.
* **Lines** — `Marker.ofLine?_respell`: writing another spelling in the place of the tag changes
  nothing else about a marker line. In particular its indentation stays, so the lines around it are
  read as before (`scanLines_respellLines`).
* **Sections** — `fieldSections_respelled`: the records and the prose stay.
* **Docstrings** — `parse_respellLines`.
-/

namespace FieldLint

/-! ## Markers -/

theorem Tag.mem_spellings {spelling : Text} {tag : Tag} (h : ofSpelling? spelling = some tag) :
    (spelling, tag) ∈ spellings := by
  obtain ⟨before, after, hsplit, -⟩ := List.lookup_eq_some_iff.mp h
  rw [hsplit]
  exact List.mem_append_right before List.mem_cons_self

/-- A spelling is a word of letters. -/
theorem Tag.isTagChar_of_ofSpelling? {spelling : Text} {tag : Tag}
    (h : ofSpelling? spelling = some tag) :
    spelling ≠ [] ∧ ∀ c ∈ spelling, Marker.isTagChar c = true := by
  have hall : ∀ x ∈ spellings, x.1 ≠ [] ∧ x.1.all Marker.isTagChar = true := by decide
  obtain ⟨hne, hchars⟩ := hall _ (mem_spellings h)
  exact ⟨hne, List.all_eq_true.mp hchars⟩

/-- Only the types of parameters have a single spelling and need a name. -/
theorem Tag.eq_of_ofSpelling?_type {spelling : Text} (h : ofSpelling? spelling = some .type) :
    spelling = "type".toList := by
  have hall : ∀ x ∈ spellings, x.2 = .type → x.1 = "type".toList := by decide
  exact hall _ (mem_spellings h) rfl

namespace Marker

/-- The tag of the marker is known, the spelling is another one of it, and if it asks for a parameter
there is one. -/
structure TakesSpelling (m : Marker) (spelling : Text) : Prop where
  /-- the tag of the marker is known -/
  known : Tag.ofSpelling? m.tag ≠ none
  /-- the spelling means the same tag -/
  same : Tag.ofSpelling? spelling = Tag.ofSpelling? m.tag
  /-- the description of a parameter names one -/
  named : Tag.ofSpelling? m.tag = some .param → m.argument ≠ none

/-- The marker with another tag. -/
def respelled (spelling : Text) (m : Marker) : Marker :=
  { m with tag := spelling }

/-- **Another spelling leaves the same record.** -/
theorem record_respelled {m : Marker} {spelling : Text} (h : m.TakesSpelling spelling) (text : Text)
    (line : Nat) : (m.respelled spelling).record text line = m.record text line := by
  have hsubject : (m.respelled spelling).subject? = m.subject? := by
    rw [subject?, subject?, respelled, h.same]
  rcases hs : m.subject? with _ | subject
  · -- the marker is quoted as it is written, but then its tag has one spelling only
    have htype : Tag.ofSpelling? m.tag = some .type := by
      obtain hnone | ⟨hparam | htype, hargument⟩ := m.subject?_eq_none_iff.mp hs
      · exact absurd hnone h.known
      · exact absurd hargument (h.named hparam)
      · exact htype
    have htag : spelling = m.tag := by
      rw [Tag.eq_of_ofSpelling?_type htype, Tag.eq_of_ofSpelling?_type (h.same.trans htype)]
    rw [respelled, htag]
  · rw [record, record, hsubject, hs]

/-! ## Lines -/

/-- The line with `spelling` in the place of its first word. On a marker line this is the tag. -/
def respell (spelling line : Text) : Text :=
  line.takeWhile (!isTagChar ·) ++
    (spelling ++ (line.dropWhile (!isTagChar ·)).dropWhile isTagChar)

/-- Another spelling stands in the place of the tag, and nothing else changes. -/
theorem respell_append {before tag after : Text} (hbefore : ∀ c ∈ before, isTagChar c = false)
    (htag : tag ≠ []) (htag' : ∀ c ∈ tag, isTagChar c = true)
    (hafter : ∀ c rest, after = c :: rest → isTagChar c = false) (spelling : Text) :
    respell spelling (before ++ (tag ++ after)) = before ++ (spelling ++ after) := by
  have hword : ∀ c rest, tag ++ after = c :: rest → (!isTagChar c) = false := by
    intro c rest hc
    obtain ⟨c', word, rfl⟩ := List.exists_cons_of_ne_nil htag
    obtain ⟨rfl, -⟩ := List.cons.inj hc
    simp [htag' c' List.mem_cons_self]
  obtain ⟨htake, hdrop⟩ := Text.takeWhile_dropWhile_append
    (p := (!isTagChar ·)) (fun c hc => by simp [hbefore c hc]) hword
  rw [respell, htake, hdrop, (Text.takeWhile_dropWhile_append htag' hafter).2]

/-- A blank is no part of a tag. -/
theorem isTagChar_of_isBlankChar {c : Char} (h : Text.isBlankChar c = true) :
    isTagChar c = false := by
  by_contra htag
  rw [isBlankChar_of_isTagChar (by simpa using htag)] at h
  cases h

theorem isTagChar_of_isBlank {blanks : Text} (h : Text.isBlank blanks = true) :
    ∀ c ∈ blanks, isTagChar c = false := fun c hc =>
  isTagChar_of_isBlankChar (List.all_eq_true.mp h c hc)

end Marker

namespace MarkerParts

/-- The parts with another tag. -/
def respelled (spelling : Text) (p : MarkerParts) : MarkerParts :=
  { p with tag := spelling }

section Around

variable {p : MarkerParts} {before after : Text} (hbefore : Text.isBlank before = true)

include hbefore

/-- The parts of a marker line can be told from the line without the blanks around them. -/
theorem trim_around (hafter : Text.isBlank after = true) (hrest : Text.trimEnd p.rest = p.rest) :
    Text.trim (before ++ (p.text ++ after)) = p.text := by
  have htext : p.text ++ after = (':' :: p.head) ++ ':' :: (p.rest ++ after) := by simp [text]
  have hstart : Text.trimStart (p.text ++ after) = p.text ++ after :=
    Text.trimStart_cons_of_notBlank (by decide) _
  rw [Text.trim, Text.trimStart_append_of_isBlank hbefore, hstart, htext,
    Text.trimEnd_append_cons (by decide), Text.trimEnd_append_blanks hafter, hrest]
  rfl

theorem indent_around : Text.indent (before ++ (p.text ++ after)) = before.length := by
  have hcolon : ∀ c rest, p.text ++ after = c :: rest → Text.isBlankChar c = false := by
    intro c rest hc
    obtain ⟨rfl, -⟩ := List.cons.inj hc
    decide
  rw [Text.indent, (Text.takeWhile_dropWhile_append (List.all_eq_true.mp hbefore) hcolon).1]

/-- The first word of a marker line is its tag. -/
theorem respell_around (hhead : Marker.IsHead p.gap p.tag p.tail) (spelling : Text) :
    Marker.respell spelling (before ++ (p.text ++ after)) =
      before ++ ((p.respelled spelling).text ++ after) := by
  have hcut : ∀ tag, before ++ (({ p with tag := tag } : MarkerParts).text ++ after) =
      (before ++ ':' :: p.gap) ++ (tag ++ (p.tail ++ ':' :: (p.rest ++ after))) := by
    intro tag
    simp [text, head]
  have hopening : ∀ c ∈ before ++ ':' :: p.gap, Marker.isTagChar c = false := by
    rw [List.forall_mem_append, List.forall_mem_cons]
    exact ⟨Marker.isTagChar_of_isBlank hbefore, by decide,
      Marker.isTagChar_of_isBlank hhead.isBlank_gap⟩
  have hclosing : ∀ c rest, p.tail ++ ':' :: (p.rest ++ after) = c :: rest →
      Marker.isTagChar c = false := by
    intro c rest hc
    rcases hhead.atGap_tail with htail | ⟨c', tail, htail, hblank⟩
    · rw [htail, List.nil_append] at hc
      obtain ⟨rfl, -⟩ := List.cons.inj hc
      decide
    · rw [htail, List.cons_append] at hc
      obtain ⟨rfl, -⟩ := List.cons.inj hc
      exact Marker.isTagChar_of_isBlankChar hblank
  exact (congrArg _ (hcut p.tag)).trans ((Marker.respell_append hopening hhead.tag_ne_nil
    hhead.isTagChar_of_mem hclosing spelling).trans (hcut spelling).symm)

end Around

variable {p : MarkerParts} {line : Text} (h : p.Spells (Text.trim line))

include h

/-- A marker line is made of blanks, the parts of its marker, and blanks. -/
theorem Spells.exists_around : ∃ before after, Text.isBlank before = true ∧
    Text.isBlank after = true ∧ line = before ++ (p.text ++ after) := by
  obtain ⟨after, hafter, hline⟩ := Text.padded_trimEnd (Text.trimStart line)
  refine ⟨line.takeWhile Text.isBlankChar, after, List.all_takeWhile, hafter, ?_⟩
  rw [← h.eq_text, Text.trim, ← hline, Text.takeWhile_append_trimStart]

/-- What follows the second colon has no blanks at its end. -/
theorem Spells.trimEnd_rest : Text.trimEnd p.rest = p.rest := by
  have htrim := Text.trim_trim line
  rw [h.eq_text, text, Text.trim_of_trimStart_eq_cons (Text.trimStart_cons_of_notBlank (by decide) _),
    Text.trimEnd_append_cons (by decide)] at htrim
  simpa using htrim

/-- A line with another spelling of its tag has the same parts but for the tag, and the same
indentation. -/
theorem Spells.respell {spelling : Text} (hne : spelling ≠ [])
    (hchars : ∀ c ∈ spelling, Marker.isTagChar c = true) :
    (p.respelled spelling).Spells (Text.trim (Marker.respell spelling line)) ∧
      Text.indent (Marker.respell spelling line) = Text.indent line := by
  obtain ⟨before, after, hbefore, hafter, hline⟩ := h.exists_around
  have hrespell : Marker.respell spelling line =
      before ++ ((p.respelled spelling).text ++ after) := by
    rw [hline]
    exact respell_around hbefore h.isHead spelling
  have hcolon : ':' ∉ (p.respelled spelling).head := by
    have hword : ':' ∉ spelling := fun hmem => absurd (hchars ':' hmem) (by decide)
    have hhead := h.colon_notMem_head
    simp only [head, List.mem_append, not_or] at hhead
    simp only [head, respelled, List.mem_append, not_or]
    exact ⟨hhead.1, hword, hhead.2.2⟩
  constructor
  · have hrest : Text.trimEnd (p.respelled spelling).rest = (p.respelled spelling).rest :=
      h.trimEnd_rest
    rw [hrespell, trim_around hbefore hafter hrest]
    exact ⟨rfl, hcolon, ⟨h.isHead.isBlank_gap, hne, hchars, h.isHead.atGap_tail⟩, h.head?_rest,
      h.oneLine_rest⟩
  · rw [hrespell, hline, indent_around hbefore, indent_around hbefore]

end MarkerParts

namespace Marker

variable {line spelling : Text} {m : Marker}

/-- **Another spelling changes nothing else about a marker line**: it has the marker with the other
spelling, and the same indentation. -/
theorem ofLine?_respell (hm : ofLine? line = some m) (h : m.TakesSpelling spelling) :
    ofLine? (respell spelling line) = some (m.respelled spelling) ∧
      Text.indent (respell spelling line) = Text.indent line := by
  obtain ⟨p, hp, rfl⟩ := ofLine?_eq_some_iff.mp hm
  obtain ⟨tag, htag⟩ := Option.ne_none_iff_exists'.mp h.known
  obtain ⟨hne, hchars⟩ := Tag.isTagChar_of_ofSpelling? (h.same.trans htag)
  obtain ⟨hspells, hindent⟩ := hp.respell hne hchars
  exact ⟨ofLine?_eq_some_iff.mpr ⟨_, hspells, rfl⟩, hindent⟩

end Marker

/-! ## Scanning -/

/-- The line with the spelling that is given for its number, if there is one. -/
def DocLine.respelled (spelling : Nat → Option Text) (l : DocLine) : DocLine :=
  match spelling l.number with
  | none => l
  | some s => ⟨l.number, Marker.respell s l.text, l.marker.map (Marker.respelled s)⟩

/-- A spelling is given for the line only if it is a marker line that takes it. -/
def DocLine.Respellable (spelling : Nat → Option Text) (l : DocLine) : Prop :=
  ∀ s, spelling l.number = some s → ∃ m, l.marker = some m ∧ m.TakesSpelling s

/-- Lines with the spellings that are given for their numbers. The first line has number `n`. -/
def respellLines (spelling : Nat → Option Text) (n : Nat) : List Text → List Text
  | [] => []
  | line :: ls =>
    (match spelling n with
      | none => line
      | some s => Marker.respell s line) :: respellLines spelling (n + 1) ls

/-- Only the marker lines with new spellings are read otherwise, and of them only the tags. -/
theorem scanLines_respellLines {spelling : Nat → Option Text} {number : Nat} {block : Option Nat}
    {ls : List Text} (h : ∀ l ∈ scanLines number block ls, l.Respellable spelling) :
    scanLines number block (respellLines spelling number ls) =
      (scanLines number block ls).map (DocLine.respelled spelling) := by
  induction ls generalizing number block with
  | nil => rfl
  | cons line ls ih =>
    rw [respellLines]
    rcases hs : spelling number with _ | s
    · rw [scanLines, List.forall_mem_cons] at h
      rw [scanLines, scanLines, List.map_cons, ih h.2, DocLine.respelled, hs]
    · obtain ⟨m, hm, htakes⟩ := h ⟨number, line, markerIn? block line⟩ List.mem_cons_self s hs
      have hline : Marker.ofLine? line = some m := ofLine?_of_markerIn? hm
      obtain ⟨hrespell, hindent⟩ := Marker.ofLine?_respell hline htakes
      -- with either spelling the line stands in no block, so none is open after it
      have hcont : continuesDirective block line = false := by
        refine continuesDirective_of_markerIn? fun hnone => ?_
        cases hnone.symm.trans hm
      have hcont' : continuesDirective block (Marker.respell s line) = false := by
        rw [continuesDirective_congr (Marker.isBlank_of_ofLine? hrespell)
          (Marker.isBlank_of_ofLine? hline) hindent, hcont]
      rw [scanLines_cons_of_not_continues hline hcont, List.forall_mem_cons] at h
      rw [scanLines_cons_of_not_continues hrespell hcont',
        scanLines_cons_of_not_continues hline hcont, List.map_cons, ih h.2, DocLine.respelled, hs]
      rfl

/-! ## Sections -/

theorem ofLine?_of_mem_scanLines {number : Nat} {block : Option Nat} {ls : List Text} {l : DocLine}
    (hl : l ∈ scanLines number block ls) {m : Marker} (hm : l.marker = some m) :
    Marker.ofLine? l.text = some m := by
  induction ls generalizing number block with
  | nil => cases hl
  | cons line ls ih =>
    rcases List.mem_cons.mp hl with rfl | hl
    · exact ofLine?_of_markerIn? hm
    · exact ih hl

namespace DocLine

variable {spelling : Nat → Option Text} {l : DocLine}

theorem isPlain_respelled (spelling : Nat → Option Text) (l : DocLine) :
    (l.respelled spelling).isPlain = l.isPlain := by
  unfold respelled
  split
  · rfl
  · rw [isPlain, isPlain, Option.isNone_map]

/-- A plain line stays as it is. -/
theorem respelled_of_isPlain (h : l.Respellable spelling) (hplain : l.isPlain = true) :
    l.respelled spelling = l := by
  unfold respelled
  split
  · rfl
  · rename_i s hs
    obtain ⟨m, hm, -⟩ := h s hs
    rw [isPlain, hm] at hplain
    cases hplain

/-- No spelling ends a line. -/
theorem newline_notMem_respelled (h : l.Respellable spelling) (hline : '\n' ∉ l.text) :
    '\n' ∉ (l.respelled spelling).text := by
  unfold respelled
  split
  · exact hline
  · rename_i s hs
    obtain ⟨m, -, htakes⟩ := h s hs
    obtain ⟨tag, htag⟩ := Option.ne_none_iff_exists'.mp htakes.known
    have hword : '\n' ∉ s := fun hc =>
      absurd ((Tag.isTagChar_of_ofSpelling? (htakes.same.trans htag)).2 _ hc) (by decide)
    simp only [Marker.respell, List.mem_append, not_or]
    refine ⟨fun hc => ?_, hword, fun hc => ?_⟩
    · exact hline ((List.takeWhile_sublist _).subset hc)
    · exact hline ((List.dropWhile_sublist _).subset ((List.dropWhile_sublist _).subset hc))

/-- A section whose marker line has another spelling leaves the same record and prose. -/
theorem exists_marker_respelled {m : Marker} (hm : l.marker = some m)
    (hline : Marker.ofLine? l.text = some m) (h : l.Respellable spelling) (body : List DocLine) :
    ∃ m', (l.respelled spelling).marker = some m' ∧
      (FieldSection.mk m' (l.respelled spelling) body).record = (FieldSection.mk m l body).record ∧
      (FieldSection.mk m' (l.respelled spelling) body).prose = (FieldSection.mk m l body).prose := by
  unfold respelled
  split
  · exact ⟨m, hm, rfl, rfl⟩
  · rename_i s hs
    obtain ⟨m', hm', htakes⟩ := h s hs
    obtain rfl : m = m' := Option.some.inj (hm.symm.trans hm')
    refine ⟨m.respelled s, by rw [hm]; rfl, ?_⟩
    -- the section is told apart by the indentation of its marker line, which stays
    have hadmits : (FieldSection.mk (m.respelled s)
        ⟨l.number, Marker.respell s l.text, l.marker.map (Marker.respelled s)⟩ body).admits =
        (FieldSection.mk m l body).admits := by
      funext x
      rw [FieldSection.admits, FieldSection.admits, indent, (Marker.ofLine?_respell hline htakes).2]
      rfl
    constructor
    · rw [FieldSection.record, Marker.record_respelled htakes, FieldSection.text,
        FieldSection.continuation, hadmits]
      rfl
    · rw [FieldSection.prose, hadmits]
      rfl

end DocLine

section Sections

variable {spelling : Nat → Option Text} {dl : List DocLine}

/-- The plain lines in front stay as they are. -/
theorem takeWhile_isPlain_respelled (h : ∀ l ∈ dl, l.Respellable spelling) :
    (dl.map (DocLine.respelled spelling)).takeWhile DocLine.isPlain =
      dl.takeWhile DocLine.isPlain := by
  have hplain : DocLine.isPlain ∘ DocLine.respelled spelling = DocLine.isPlain :=
    funext (DocLine.isPlain_respelled spelling)
  rw [List.takeWhile_map, hplain]
  refine (List.map_congr_left fun l hl => ?_).trans (List.map_id' _)
  have hl' : l ∈ dl := (List.takeWhile_sublist _).subset hl
  exact DocLine.respelled_of_isPlain (h l hl') (List.all_eq_true.mp List.all_takeWhile l hl)

/-- **Other spellings leave the same records and prose.** -/
theorem fieldSections_respelled (h : ∀ l ∈ dl, l.Respellable spelling)
    (hread : ∀ l ∈ dl, ∀ m, l.marker = some m → Marker.ofLine? l.text = some m) :
    (fieldSections (dl.map (DocLine.respelled spelling))).map FieldSection.record =
        (fieldSections dl).map FieldSection.record ∧
      (fieldSections (dl.map (DocLine.respelled spelling))).flatMap FieldSection.prose =
        (fieldSections dl).flatMap FieldSection.prose := by
  induction dl with
  | nil => exact ⟨rfl, rfl⟩
  | cons l dl ih =>
    rw [List.forall_mem_cons] at h hread
    obtain ⟨hrecords, hprose⟩ := ih h.2 hread.2
    rw [List.map_cons, fieldSections, fieldSections]
    rcases hm : l.marker with _ | m
    · have hplain : l.isPlain = true := by rw [DocLine.isPlain, hm]; rfl
      rw [DocLine.respelled_of_isPlain h.1 hplain, hm]
      exact ⟨hrecords, hprose⟩
    · obtain ⟨m', hm', hrecord, hprose'⟩ := DocLine.exists_marker_respelled hm (hread.1 m hm) h.1
        (dl.takeWhile DocLine.isPlain)
      rw [hm', takeWhile_isPlain_respelled h.2]
      constructor
      · rw [List.map_cons, List.map_cons, hrecord, hrecords]
      · rw [List.flatMap_cons, List.flatMap_cons, hprose', hprose]

end Sections

/-! ## Docstrings -/

theorem respellLines_ne_nil (spelling : Nat → Option Text) (n : Nat) {ls : List Text}
    (h : ls ≠ []) : respellLines spelling n ls ≠ [] := by
  obtain ⟨line, ls, rfl⟩ := List.exists_cons_of_ne_nil h
  exact List.cons_ne_nil _ _

/-- **Spellings of a tag are interchangeable.** On any marker lines of a docstring with a known tag
the tag may be spelled otherwise, if those that describe a parameter name one. Only the tags on these
lines are read otherwise. The whole docstring stays as it was, with the numbers of its lines, and so
does every diagnostic of a declaration that has it. -/
theorem parse_respellLines (t : Text) (spelling : Nat → Option Text)
    (h : ∀ l ∈ docLines (Text.lines t), l.Respellable spelling) :
    let ls' := respellLines spelling 1 (Text.lines t)
    (∃ t', Text.lines t' = ls') ∧
    docLines ls' = (docLines (Text.lines t)).map (DocLine.respelled spelling) ∧
    ∀ t', Text.lines t' = ls' →
      Docstring.parse t' = Docstring.parse t ∧
      ∀ d : Declaration,
        { d with docstring := some t' }.check = { d with docstring := some t }.check := by
  intro ls'
  have hdocLines : docLines ls' = (docLines (Text.lines t)).map (DocLine.respelled spelling) := by
    rw [docLines_eq_scanLines] at h
    rw [docLines_eq_scanLines, docLines_eq_scanLines]
    exact scanLines_respellLines h
  refine ⟨?_, hdocLines, fun t' hlines => ?_⟩
  · refine Text.exists_lines_eq (respellLines_ne_nil spelling 1 (Text.lines_ne_nil t)) ?_
    have htexts : ∀ ls, (docLines ls).map (·.text) = ls := by
      intro ls
      rw [docLines_eq_scanLines, map_text_scanLines]
    rw [← htexts ls', hdocLines, List.map_map]
    intro x hx
    obtain ⟨l, hl, rfl⟩ := List.mem_map.mp hx
    have hline : l.text ∈ Text.lines t := by
      rw [← htexts (Text.lines t)]
      exact List.mem_map_of_mem hl
    exact DocLine.newline_notMem_respelled (h l hl) fun hc =>
      (Text.mem_and_ne_newline_of_mem_lines hline hc).2 rfl
  · have hread : ∀ l ∈ docLines (Text.lines t), ∀ m, l.marker = some m →
        Marker.ofLine? l.text = some m := by
      rw [docLines_eq_scanLines]
      exact fun l hl m hm => ofLine?_of_mem_scanLines hl hm
    have hparse : Docstring.parse t' = Docstring.parse t := by
      obtain ⟨hrecords, hprose⟩ := fieldSections_respelled h hread
      rw [Docstring.parse, hlines, hdocLines, Docstring.parse, Docstring.ofLines, Docstring.ofLines,
        hrecords, hprose, takeWhile_isPlain_respelled h]
    refine ⟨hparse, Declaration.check_congr fun c => ?_⟩
    rw [Callable.findings, Callable.findings, hparse]

/-- Three tags spelled otherwise, two of which describe the same parameter. -/
theorem parse_respellLines_sum :
    let t := "  :arg int a: one\n:except E:\n:param a: two".toList
    let t' := "  :keyword int a: one\n:raises E:\n:parameter a: two".toList
    let spelling (number : Nat) : Option Text :=
      ["keyword".toList, "raises".toList, "parameter".toList][number - 1]?
    (∀ l ∈ docLines (Text.lines t), l.Respellable spelling) ∧
      Text.lines t' = respellLines spelling 1 (Text.lines t) ∧
      Docstring.parse t' = Docstring.parse t ∧
      (Docstring.parse t').duplicates =
        [⟨.param "a".toList (some "int".toList), "one".toList, 1⟩] := by
  intro t t' spelling
  have hlines : docLines (Text.lines t) =
      [⟨1, "  :arg int a: one".toList, some ⟨"arg".toList, some "int a".toList, "one".toList⟩⟩,
        ⟨2, ":except E:".toList, some ⟨"except".toList, some "E".toList, []⟩⟩,
        ⟨3, ":param a: two".toList, some ⟨"param".toList, some "a".toList, "two".toList⟩⟩] := by
    decide
  have hrespellable : ∀ l ∈ docLines (Text.lines t), l.Respellable spelling := by
    rw [hlines]
    simp only [List.forall_mem_cons]
    refine ⟨?_, ?_, ?_, nofun⟩
    · rintro s ⟨⟩
      exact ⟨_, rfl, by decide, by decide, by decide⟩
    · rintro s ⟨⟩
      exact ⟨_, rfl, by decide, by decide, by decide⟩
    · rintro s ⟨⟩
      exact ⟨_, rfl, by decide, by decide, by decide⟩
  have hrespelled : Text.lines t' = respellLines spelling 1 (Text.lines t) := by decide
  obtain ⟨-, -, hparse⟩ := parse_respellLines t spelling hrespellable
  have hsame := (hparse t' hrespelled).1
  exact ⟨hrespellable, hrespelled, hsame, by rw [hsame]; decide⟩

end FieldLint
