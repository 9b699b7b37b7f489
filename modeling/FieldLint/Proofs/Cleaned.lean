import FieldLint.Docstring.Clean
import FieldLint.Proofs.TextLines

/-!
# Cleaned docstrings

What is left of a docstring after cleaning is tidy: it has no tabs, it opens and closes with a line
that says something, and no line has blanks at its end. Joining the cleaned lines loses nothing, as
none of them has a line feed in it or ends in a carriage return (`lines_of_cleanDocstring`).
-/

namespace FieldLint

namespace Text

/-! ## Tidy texts -/

/-- Nothing in the text needs cleaning. -/
structure IsTidy (t : Text) : Prop where
  /-- there is something -/
  ne_nil : t ≠ []
  /-- there are no tabs -/
  tab_notMem : '\t' ∉ t
  /-- the first line says something -/
  first_line : ∀ l, (lines t).head? = some l → isBlank l = false
  /-- the last line says something -/
  last_line : ∀ l, (lines t).getLast? = some l → isBlank l = false
  /-- no line has blanks at its end -/
  line_ends : ∀ l ∈ lines t, ∀ c, l.getLast? = some c → isBlankChar c = false

/-- A line holds characters of the text only, and no line feed. -/
theorem mem_and_ne_newline_of_mem_lines {t l : Text} (hl : l ∈ lines t) {c : Char} (hc : c ∈ l) :
    c ∈ t ∧ c ≠ '\n' := by
  fun_induction lines t generalizing l with
  | case1 =>
    obtain rfl := List.mem_singleton.mp hl
    cases hc
  | case2 t ih =>
    rcases List.mem_cons.mp hl with rfl | hl
    · cases hc
    · exact (ih hl hc).imp_left (List.mem_cons_of_mem _)
  | case3 t ih =>
    rcases List.mem_cons.mp hl with rfl | hl
    · cases hc
    · exact (ih hl hc).imp_left fun h => List.mem_cons_of_mem _ (List.mem_cons_of_mem _ h)
  | case4 d t hd _ ih =>
    obtain ⟨first, rest, hlines⟩ := List.exists_cons_of_ne_nil (lines_ne_nil t)
    rw [hlines, List.modifyHead_cons] at hl
    rw [hlines] at ih
    have hlater : ∀ {l}, l ∈ first :: rest → c ∈ l → c ∈ d :: t ∧ c ≠ '\n' :=
      fun hl hc => (ih hl hc).imp_left (List.mem_cons_of_mem _)
    rcases List.mem_cons.mp hl with rfl | hl
    · rcases List.mem_cons.mp hc with rfl | hc
      · exact ⟨List.mem_cons_self, fun h => hd h⟩
      · exact hlater List.mem_cons_self hc
    · exact hlater (List.mem_cons_of_mem _ hl) hc

/-- A character of joined lines is a line end or stands on one of the lines. -/
theorem mem_unlines {ls : List Text} {c : Char} (h : c ∈ unlines ls) :
    c = '\n' ∨ ∃ l ∈ ls, c ∈ l := by
  induction ls with
  | nil => cases h
  | cons l ls ih =>
    rcases ls with _ | ⟨l', ls⟩
    · rw [unlines, join_singleton] at h
      exact .inr ⟨l, List.mem_cons_self, h⟩
    · rw [unlines_cons_cons, List.mem_append, List.mem_cons] at h
      rcases h with h | h | h
      · exact .inr ⟨l, List.mem_cons_self, h⟩
      · exact .inl h
      · rcases ih h with h | ⟨k, hk, h⟩
        · exact .inl h
        · exact .inr ⟨k, List.mem_cons_of_mem _ hk, h⟩

/-- Trimming the end leaves no blank there. -/
theorem getLast?_trimEnd {t : Text} {c : Char} (h : (trimEnd t).getLast? = some c) :
    isBlankChar c = false := by
  have hhead := List.head?_dropWhile_not isBlankChar t.reverse
  rw [trimEnd, List.getLast?_reverse] at h
  rw [h] at hhead
  exact hhead

theorem isBlank_of_getLast? {t : Text} {c : Char} (h : t.getLast? = some c)
    (hc : isBlankChar c = false) : isBlank t = false := by
  rw [isBlank, List.all_eq_false]
  exact ⟨c, List.mem_of_getLast? h, by simp [hc]⟩

end Text

/-! ## Cleaning -/

/-- No tab is left. -/
theorem tab_notMem_expandTabs (t : Text) : '\t' ∉ expandTabs t := by
  rw [expandTabs, List.mem_flatMap]
  rintro ⟨c, -, hc⟩
  split at hc
  · exact absurd (List.eq_of_mem_replicate hc) (by decide)
  · rename_i hne
    exact hne (List.mem_singleton.mp hc).symm

/-- A cleaned line holds characters of the line it comes from, and has no blanks at its end. -/
theorem of_mem_cleanLines {ls : List Text} {l : Text} (h : l ∈ cleanLines ls) :
    (∃ l₀ ∈ ls, l ⊆ l₀) ∧ ∀ c, l.getLast? = some c → Text.isBlankChar c = false := by
  have htrimEnd : ∀ t : Text, Text.trimEnd t ⊆ t := fun t => (Text.trimEnd_isPrefix t).subset
  rcases ls with _ | ⟨first, rest⟩
  · cases h
  · rw [cleanLines, List.mem_cons, List.mem_map] at h
    rcases h with rfl | ⟨l₀, hl₀, rfl⟩
    · refine ⟨⟨first, List.mem_cons_self, ?_⟩, fun c => Text.getLast?_trimEnd⟩
      exact List.Subset.trans (htrimEnd _) (List.dropWhile_sublist _).subset
    · refine ⟨⟨l₀, List.mem_cons_of_mem _ hl₀, ?_⟩, fun c => Text.getLast?_trimEnd⟩
      exact List.Subset.trans (htrimEnd _) (List.drop_subset _ _)

/-- Dropping empty lines at both ends leaves the others in their order. -/
theorem dropOuterEmpty_sublist (ls : List Text) : (dropOuterEmpty ls).Sublist ls := by
  rw [dropOuterEmpty, ← List.reverse_sublist, List.reverse_reverse]
  exact (List.dropWhile_sublist _).trans (List.reverse_sublist.mpr (List.dropWhile_sublist _))

/-- No empty line is left at either end. -/
theorem ends_dropOuterEmpty {ls : List Text} {l : Text}
    (h : (dropOuterEmpty ls).head? = some l ∨ (dropOuterEmpty ls).getLast? = some l) : l ≠ [] := by
  have hstart := List.head?_dropWhile_not List.isEmpty ls
  rcases h with h | h
  · rcases hdrop : ls.dropWhile List.isEmpty with _ | ⟨first, rest⟩
    · rw [dropOuterEmpty, hdrop] at h
      cases h
    · -- the first line that is left is not empty, so nothing before it is dropped at the end
      rw [hdrop] at hstart
      have hfirst : [first].dropWhile List.isEmpty = [first] :=
        List.dropWhile_cons_of_neg (by simpa using hstart)
      have hhead : (dropOuterEmpty ls).head? = some first := by
        rw [dropOuterEmpty, hdrop, List.reverse_cons, List.dropWhile_append, hfirst]
        split <;> simp
      rw [hhead, Option.some.injEq] at h
      subst h
      simpa using hstart
  · have hend := List.head?_dropWhile_not List.isEmpty (ls.dropWhile List.isEmpty).reverse
    rw [dropOuterEmpty, List.getLast?_reverse] at h
    rw [h] at hend
    simpa using hend

section Cleaned

variable {raw text : Text} (h : cleanDocstring raw = some text)

include h

/-- A docstring that is left after cleaning is its lines between the empty ones at both ends. -/
theorem cleanDocstring_eq_some :
    dropOuterEmpty (cleanLines (Text.lines (expandTabs raw))) ≠ [] ∧
      text = Text.unlines (dropOuterEmpty (cleanLines (Text.lines (expandTabs raw)))) := by
  rw [cleanDocstring] at h
  split at h
  · cases h
  · rename_i hls
    rw [hls]
    exact ⟨List.cons_ne_nil _ _, (Option.some.inj h).symm⟩

/-- The lines of a cleaned docstring are the cleaned lines without the empty ones at both ends. -/
theorem lines_of_cleanDocstring :
    Text.lines text = dropOuterEmpty (cleanLines (Text.lines (expandTabs raw))) := by
  obtain ⟨hne, rfl⟩ := cleanDocstring_eq_some h
  refine Text.lines_unlines hne fun l hl => ?_
  obtain ⟨⟨l₀, hl₀, hsub⟩, hend⟩ := of_mem_cleanLines ((dropOuterEmpty_sublist _).subset hl)
  constructor
  · exact fun hc => (Text.mem_and_ne_newline_of_mem_lines hl₀ (hsub hc)).2 rfl
  · exact fun hc => absurd (hend '\r' hc) (by decide)

/-- What cleaning leaves is tidy. -/
theorem isTidy_of_cleanDocstring : text.IsTidy := by
  have hlines := lines_of_cleanDocstring h
  have hmem : ∀ l ∈ Text.lines text, l ∈ cleanLines (Text.lines (expandTabs raw)) := by
    rw [hlines]
    exact (dropOuterEmpty_sublist _).subset
  have hend : ∀ l ∈ Text.lines text, ∀ c, l.getLast? = some c → Text.isBlankChar c = false :=
    fun l hl => (of_mem_cleanLines (hmem l hl)).2
  -- a line that is not empty ends in a character that is not blank
  have hsays : ∀ l ∈ Text.lines text, l ≠ [] → Text.isBlank l = false := by
    intro l hl hne
    have hlast := List.getLast?_eq_some_getLast hne
    exact Text.isBlank_of_getLast? hlast (hend l hl _ hlast)
  have hfirst : ∀ l, (Text.lines text).head? = some l → Text.isBlank l = false := by
    intro l hl
    exact hsays l (List.mem_of_head? hl) (ends_dropOuterEmpty (.inl (hlines ▸ hl)))
  refine ⟨?_, ?_, hfirst, fun l hl => ?_, hend⟩
  · rintro rfl
    exact absurd (hfirst [] rfl) (by decide)
  · intro htab
    rw [(cleanDocstring_eq_some h).2, ← hlines] at htab
    rcases Text.mem_unlines htab with hc | ⟨l, hl, hc⟩
    · exact absurd hc (by decide)
    · obtain ⟨⟨l₀, hl₀, hsub⟩, -⟩ := of_mem_cleanLines (hmem l hl)
      exact tab_notMem_expandTabs raw (Text.mem_and_ne_newline_of_mem_lines hl₀ (hsub hc)).1
  · exact hsays l (List.mem_of_getLast? hl) (ends_dropOuterEmpty (.inr (hlines ▸ hl)))

end Cleaned

end FieldLint
