import FieldLint.Docstring.Marker
import FieldLint.Proofs.TextLines

/-!
# The grammar of marker lines

A marker is found by taking and dropping characters from the front of a line. Here the same lines
are described by the parts they are put together from (`MarkerParts.Spells`): a colon, blanks, a
tag, a tail that is empty or opens with a blank, a colon, and a text.

* **Heads** — `readHead_eq_some_iff`: what stands between the colons is blanks, a tag and a tail.
* **Lines** — `ofLine?_eq_some_iff`: a line has a marker exactly when its trimmed text can be put
  together from parts, and the marker is made of these parts.
* **Uniqueness** — `MarkerParts.Spells.unique`: there is only one way to do so. No blank is part of
  a tag, so the blanks end where the tag starts and the tag ends where the tail starts; no colon
  stands in the head, so the second colon is where the head ends.
-/

namespace FieldLint

namespace Text

/-- No character of the text ends a line. -/
def OneLine (t : Text) : Prop :=
  ∀ c ∈ t, isTerminator c = false

instance (t : Text) : Decidable t.OneLine :=
  decidable_of_iff (t.all (!isTerminator ·) = true) (by simp [OneLine])

/-- A text whose characters have `p`, before one that opens with a character without it: taking
characters with `p` stops between the two. -/
theorem takeWhile_dropWhile_append {p : Char → Bool} {t u : Text} (ht : ∀ c ∈ t, p c = true)
    (hu : ∀ c after, u = c :: after → p c = false) :
    (t ++ u).takeWhile p = t ∧ (t ++ u).dropWhile p = u := by
  rw [List.takeWhile_append_of_pos ht, List.dropWhile_append_of_pos ht]
  rcases u with _ | ⟨c, after⟩
  · simp
  · simp [hu c after rfl]

theorem nonempty?_eq_ite (t : Text) : nonempty? t = if t = [] then none else some t := by
  rcases t with _ | ⟨c, t⟩ <;> rfl

end Text

namespace Marker

/-! ## Heads -/

/-- Letters and underscores are not blank. -/
theorem isBlankChar_of_isTagChar {c : Char} (h : isTagChar c = true) :
    Text.isBlankChar c = false := by
  have hrange : 65 ≤ c.toNat ∧ c.toNat ≤ 122 := by
    rw [isTagChar, Bool.or_eq_true, beq_iff_eq] at h
    rcases h with h | rfl
    · rcases (Bool.or_eq_true c.isUpper c.isLower).mp h with h | h
      · have hupper : 'A'.val ≤ c.val ∧ c.val ≤ 'Z'.val := of_decide_eq_true h
        have hhi : c.toNat ≤ 90 := UInt32.le_iff_toNat_le.mp hupper.2
        exact ⟨UInt32.le_iff_toNat_le.mp hupper.1, Nat.le_trans hhi (by decide)⟩
      · have hlower : decide ('a'.val ≤ c.val) = true ∧ decide (c.val ≤ 'z'.val) = true :=
          (Bool.and_eq_true _ _).mp h
        have hlo : 97 ≤ c.toNat := UInt32.le_iff_toNat_le.mp (of_decide_eq_true hlower.1)
        exact ⟨Nat.le_trans (by decide) hlo,
          UInt32.le_iff_toNat_le.mp (of_decide_eq_true hlower.2)⟩
    · decide
  simp [Text.isBlankChar, Text.blankRanges]
  omega

/-- A head: blanks, a tag, and a tail that is empty or opens with a blank. -/
structure IsHead (gap tag tail : Text) : Prop where
  /-- nothing but blanks stands before the tag -/
  isBlank_gap : Text.isBlank gap = true
  /-- the tag is a word -/
  tag_ne_nil : tag ≠ []
  /-- of letters and underscores -/
  isTagChar_of_mem : ∀ c ∈ tag, isTagChar c = true
  /-- what follows the tag is set off by a blank -/
  atGap_tail : tail = [] ∨ ∃ c after, tail = c :: after ∧ Text.isBlankChar c = true

theorem atGap_iff {tail : Text} :
    atGap tail = true ↔ tail = [] ∨ ∃ c after, tail = c :: after ∧ Text.isBlankChar c = true := by
  rcases tail with _ | ⟨c, after⟩
  · simp [atGap]
  · simp [atGap]

namespace IsHead

variable {gap tag tail : Text} (h : IsHead gap tag tail)

include h

/-- The blanks of a head end where its tag starts. -/
theorem takeWhile_isBlankChar :
    (gap ++ (tag ++ tail)).takeWhile Text.isBlankChar = gap ∧
      Text.trimStart (gap ++ (tag ++ tail)) = tag ++ tail := by
  refine Text.takeWhile_dropWhile_append (by simpa [Text.isBlank] using h.isBlank_gap) ?_
  intro c after hword
  obtain ⟨c', word, rfl⟩ := List.exists_cons_of_ne_nil h.tag_ne_nil
  obtain ⟨rfl, -⟩ := List.cons.inj hword
  exact isBlankChar_of_isTagChar (h.isTagChar_of_mem c' List.mem_cons_self)

/-- The tag of a head ends where its tail starts. -/
theorem takeWhile_isTagChar :
    (tag ++ tail).takeWhile isTagChar = tag ∧ (tag ++ tail).dropWhile isTagChar = tail := by
  refine Text.takeWhile_dropWhile_append h.isTagChar_of_mem ?_
  rintro c after rfl
  obtain ⟨c', after', htail, hblank⟩ := h.atGap_tail.resolve_left (List.cons_ne_nil c after)
  obtain ⟨rfl, -⟩ := List.cons.inj htail
  -- the tail opens with a blank, and no blank is part of a tag
  by_contra htag
  rw [isBlankChar_of_isTagChar (by simpa using htag)] at hblank
  cases hblank

/-- A head can be cut into its parts in one way only. -/
theorem unique {gap' tag' tail' : Text} (h' : IsHead gap' tag' tail')
    (heq : gap ++ (tag ++ tail) = gap' ++ (tag' ++ tail')) :
    gap = gap' ∧ tag = tag' ∧ tail = tail' := by
  obtain ⟨hgap, hword⟩ := h.takeWhile_isBlankChar
  obtain ⟨hgap', hword'⟩ := h'.takeWhile_isBlankChar
  have hwords : tag ++ tail = tag' ++ tail' := by rw [← hword, ← hword', heq]
  obtain ⟨htag, htail⟩ := h.takeWhile_isTagChar
  obtain ⟨htag', htail'⟩ := h'.takeWhile_isTagChar
  refine ⟨?_, ?_, ?_⟩
  · rw [← hgap, ← hgap', heq]
  · rw [← htag, ← htag', hwords]
  · rw [← htail, ← htail', hwords]

end IsHead

/-- What is read between the colons is the tag and the trimmed tail of a head. -/
theorem readHead_eq_some_iff {head tag : Text} {argument : Option Text} :
    readHead head = some (tag, argument) ↔
      ∃ gap tail, IsHead gap tag tail ∧ head = gap ++ (tag ++ tail) ∧
        argument = Text.nonempty? (Text.trim tail) := by
  constructor
  · intro h
    -- the parts are what reading takes and drops
    let body := Text.trimStart head
    have hcond : (!(body.takeWhile isTagChar).isEmpty && atGap (body.dropWhile isTagChar)) = true := by
      by_contra hno
      simp [readHead, body, hno] at h
    obtain ⟨rfl, rfl⟩ : body.takeWhile isTagChar = tag ∧
        Text.nonempty? (Text.trim (body.dropWhile isTagChar)) = argument := by
      simpa [readHead, body, hcond] using h
    obtain ⟨hne, hgap⟩ := (Bool.and_eq_true _ _).mp hcond
    refine ⟨head.takeWhile Text.isBlankChar, body.dropWhile isTagChar, ⟨?_, ?_, ?_, ?_⟩, ?_, rfl⟩
    · exact List.all_takeWhile
    · simpa using hne
    · exact List.all_eq_true.mp List.all_takeWhile
    · exact atGap_iff.mp hgap
    · rw [List.takeWhile_append_dropWhile, Text.takeWhile_append_trimStart]
  · rintro ⟨gap, tail, hhead, rfl, rfl⟩
    have hne : tag.isEmpty = false := by simp [hhead.tag_ne_nil]
    have hgap : atGap tail = true := atGap_iff.mpr hhead.atGap_tail
    simp [readHead, hhead.takeWhile_isBlankChar.2, hhead.takeWhile_isTagChar, hne, hgap]

/-! ## Lines -/

/-- A text without a colon ends at the first colon after it. -/
theorem takeWhile_ne_colon {head : Text} (h : ':' ∉ head) (rest : Text) :
    (head ++ ':' :: rest).takeWhile (· != ':') = head ∧
      (head ++ ':' :: rest).dropWhile (· != ':') = ':' :: rest := by
  refine Text.takeWhile_dropWhile_append ?_ ?_
  · intro c hc
    rw [bne_iff_ne]
    rintro rfl
    exact h hc
  · intro c after hrest
    obtain ⟨rfl, -⟩ := List.cons.inj hrest
    rfl

/-- A line can be cut at its second colon in one way only. -/
theorem append_colon_inj {head rest head' rest' : Text} (h : ':' ∉ head) (h' : ':' ∉ head')
    (heq : head ++ ':' :: rest = head' ++ ':' :: rest') : head = head' ∧ rest = rest' := by
  obtain ⟨htake, hdrop⟩ := takeWhile_ne_colon h rest
  obtain ⟨htake', hdrop'⟩ := takeWhile_ne_colon h' rest'
  rw [heq, htake'] at htake
  rw [heq, hdrop', List.cons.injEq] at hdrop
  exact ⟨htake.symm, hdrop.2.symm⟩

theorem isFieldText_iff {rest : Text} :
    isFieldText rest = true ↔ rest.head? ≠ some '\x60' ∧ rest.OneLine := by
  simp [isFieldText, Text.OneLine]

/-- A trimmed line has a marker if a head stands between its first two colons and the text after
them can be the text of a field. -/
theorem ofTrimmed?_eq_some_iff {t : Text} {m : Marker} :
    ofTrimmed? t = some m ↔
      ∃ head rest, t = ':' :: (head ++ ':' :: rest) ∧ ':' ∉ head ∧ isFieldText rest = true ∧
        readHead head = some (m.tag, m.argument) ∧ m.rest = Text.trim rest := by
  constructor
  · intro h
    obtain ⟨body, rfl⟩ : ∃ body, t = ':' :: body := by
      rcases t with _ | ⟨c, body⟩
      · cases h
      · by_cases hc : c = ':'
        · exact ⟨body, by rw [hc]⟩
        · simp [ofTrimmed?, hc] at h
    have hhead : ':' ∉ body.takeWhile (· != ':') := fun hmem =>
      absurd (List.all_eq_true.mp List.all_takeWhile _ hmem) (by decide)
    have hbody := List.takeWhile_append_dropWhile (p := (· != ':')) (l := body)
    rcases hdrop : body.dropWhile (· != ':') with _ | ⟨c, rest⟩
    · simp [ofTrimmed?, hdrop] at h
    · -- dropping stops at a colon
      have hc : c = ':' := by
        have hstop := List.head?_dropWhile_not (· != ':') body
        rw [hdrop] at hstop
        simpa using hstop
      subst hc
      by_cases htext : isFieldText rest = true
      · simp only [ofTrimmed?, hdrop, htext, if_true, Option.map_eq_some_iff] at h
        obtain ⟨⟨tag, argument⟩, hread, rfl⟩ := h
        rw [hdrop] at hbody
        exact ⟨_, rest, by rw [hbody], hhead, htext, hread, rfl⟩
      · simp [ofTrimmed?, hdrop, htext] at h
  · rintro ⟨head, rest, rfl, hcolon, htext, hread, hrest⟩
    obtain ⟨htake, hdrop⟩ := takeWhile_ne_colon hcolon rest
    rw [ofTrimmed?, hdrop, htake]
    simp [htext, hread, ← hrest]

end Marker

/-! ## Parts -/

/-- The parts of a marker line. -/
@[ext] structure MarkerParts where
  /-- what stands between the first colon and the tag -/
  gap : Text
  /-- the tag -/
  tag : Text
  /-- what stands between the tag and the second colon -/
  tail : Text
  /-- what follows the second colon -/
  rest : Text
  deriving DecidableEq, Repr

namespace MarkerParts

/-- What stands between the colons. -/
def head (p : MarkerParts) : Text :=
  p.gap ++ (p.tag ++ p.tail)

/-- The parts put together. -/
def text (p : MarkerParts) : Text :=
  ':' :: (p.head ++ ':' :: p.rest)

/-- The parts are those of a marker line, and `t` is that line. -/
structure Spells (p : MarkerParts) (t : Text) : Prop where
  /-- the parts make up the line -/
  eq_text : t = p.text
  /-- the second colon is the next one after the first -/
  colon_notMem_head : ':' ∉ p.head
  /-- between the colons stand blanks, a tag and a tail -/
  isHead : Marker.IsHead p.gap p.tag p.tail
  /-- no backtick follows the second colon -/
  head?_rest : p.rest.head? ≠ some '\x60'
  /-- what follows it has no line terminator -/
  oneLine_rest : p.rest.OneLine

/-- The marker with these parts. -/
def marker (p : MarkerParts) : Marker :=
  ⟨p.tag, if Text.trim p.tail = [] then none else some (Text.trim p.tail), Text.trim p.rest⟩

/-- A line can be cut into parts in one way only. -/
theorem Spells.unique {p q : MarkerParts} {t : Text} (hp : p.Spells t) (hq : q.Spells t) :
    p = q := by
  have hbody : p.head ++ ':' :: p.rest = q.head ++ ':' :: q.rest :=
    (List.cons.inj (hp.eq_text.symm.trans hq.eq_text)).2
  obtain ⟨hhead, hrest⟩ :=
    Marker.append_colon_inj hp.colon_notMem_head hq.colon_notMem_head hbody
  obtain ⟨hgap, htag, htail⟩ := hp.isHead.unique hq.isHead hhead
  exact MarkerParts.ext hgap htag htail hrest

end MarkerParts

namespace Marker

/-- **Reading a line is finding its parts.** -/
theorem ofLine?_eq_some_iff {line : Text} {m : Marker} :
    ofLine? line = some m ↔ ∃ p : MarkerParts, p.Spells (Text.trim line) ∧ m = p.marker := by
  rw [ofLine?, ofTrimmed?_eq_some_iff]
  constructor
  · rintro ⟨head, rest, htrim, hcolon, htext, hread, hrest⟩
    obtain ⟨gap, tail, hhead, rfl, hargument⟩ := readHead_eq_some_iff.mp hread
    obtain ⟨htick, hline⟩ := isFieldText_iff.mp htext
    refine ⟨⟨gap, m.tag, tail, rest⟩, ⟨htrim, hcolon, hhead, htick, hline⟩, ?_⟩
    rcases m with ⟨tag, argument, text⟩
    rw [MarkerParts.marker, ← Text.nonempty?_eq_ite]
    exact congrArg₂ (Marker.mk tag) hargument hrest
  · rintro ⟨p, hp, rfl⟩
    refine ⟨p.head, p.rest, hp.eq_text, hp.colon_notMem_head,
      isFieldText_iff.mpr ⟨hp.head?_rest, hp.oneLine_rest⟩, ?_, rfl⟩
    exact readHead_eq_some_iff.mpr ⟨p.gap, p.tail, hp.isHead, rfl, (Text.nonempty?_eq_ite _).symm⟩

/-- **The grammar of marker lines.** A line has a marker exactly when its trimmed text is a colon, a
head without colons, a colon, and a text without line terminators that opens with no backtick, where
the head is made of blanks, a word of letters and underscores, and nothing or something that opens
with a blank. These parts are unique, and the marker has the word as its tag, the trimmed end of the
head as its argument unless it is empty, and the trimmed text. -/
theorem ofLine?_grammar (line : Text) :
    (ofLine? line ≠ none ↔ ∃ p : MarkerParts, p.Spells (Text.trim line)) ∧
    (∀ p q : MarkerParts, p.Spells (Text.trim line) → q.Spells (Text.trim line) → p = q) ∧
    ∀ p : MarkerParts, p.Spells (Text.trim line) → ofLine? line = some p.marker := by
  refine ⟨?_, fun p q hp hq => hp.unique hq,
    fun p hp => ofLine?_eq_some_iff.mpr ⟨p, hp, rfl⟩⟩
  constructor
  · intro h
    obtain ⟨m, hm⟩ := Option.ne_none_iff_exists'.mp h
    obtain ⟨p, hp, -⟩ := ofLine?_eq_some_iff.mp hm
    exact ⟨p, hp⟩
  · rintro ⟨p, hp⟩ hnone
    rw [ofLine?_eq_some_iff.mpr ⟨p, hp, rfl⟩] at hnone
    cases hnone

end Marker

end FieldLint
