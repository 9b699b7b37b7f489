import Mathlib.Order.Bounds.Basic
import FieldLint.Proofs.Cleaned

/-!
# Cleaning, line by line

What cleaning does to a docstring, said for each line.

* **Margins** — the margin is the least indentation of the lines that say something
  (`margin?_eq_some_iff`), so what is cut off at the start of a line is blank
  (`isBlank_take_margin`).
* **Lines** — `CleansTo` relates a line to what is left of it: the same trimmed text, no blanks at
  the end, and the old indentation less the margin. Every line of a docstring is cleaned so, the
  first one on its own (`cleansTo_of_getElem?`).
* **Ends** — exactly a blank line is cleaned to an empty one (`CleansTo.eq_nil_iff`), so the lines
  that stay go from the first to the last that says something (`isLeast_spokenAt`,
  `isGreatest_spokenAt`).
* **Text** — `Text.visible` keeps the characters that are not blank. No step of cleaning changes it.
-/

namespace FieldLint

/-! ## Characters that are not blank -/

namespace Text

/-- The characters of a text that are not blank, in their order. -/
def visible (t : Text) : Text :=
  t.filter (!isBlankChar ·)

theorem visible_append (t u : Text) : visible (t ++ u) = visible t ++ visible u :=
  List.filter_append ..

/-- Blanks show nothing. -/
theorem visible_of_isBlank {t : Text} (h : isBlank t = true) : visible t = [] := by
  simpa [visible, isBlank] using h

/-- Trimming at the start hides nothing. -/
theorem visible_trimStart (t : Text) : visible (trimStart t) = visible t := by
  conv_rhs => rw [← takeWhile_append_trimStart t, visible_append]
  rw [visible_of_isBlank List.all_takeWhile, List.nil_append]

/-- Trimming at the end hides nothing. -/
theorem visible_trimEnd (t : Text) : visible (trimEnd t) = visible t := by
  obtain ⟨blanks, hblanks, ht⟩ := padded_trimEnd t
  conv_rhs => rw [ht, visible_append, visible_of_isBlank hblanks, List.append_nil]

/-- What is not blank is the same in texts that are trimmed to the same. -/
theorem visible_eq_of_trim_eq {t u : Text} (h : trim t = trim u) : visible t = visible u := by
  have htrim : ∀ t, visible (trim t) = visible t := fun t => by
    rw [trim, visible_trimEnd, visible_trimStart]
  rw [← htrim t, h, htrim u]

/-- Joined lines show what the lines show. -/
theorem visible_unlines (ls : List Text) : visible (unlines ls) = ls.flatMap visible := by
  induction ls with
  | nil => rfl
  | cons l ls ih =>
    rcases ls with _ | ⟨l', ls⟩
    · simp [unlines]
    · rw [unlines_cons_cons, visible_append, List.flatMap_cons, ← ih]
      rfl

/-- Line ends are blank, so cutting a text into lines loses nothing else. -/
theorem flatMap_visible_lines (t : Text) : (lines t).flatMap visible = visible t := by
  fun_induction lines t with
  | case1 => rfl
  | case2 t ih =>
    rw [List.flatMap_cons, ih]
    rfl
  | case3 t ih =>
    rw [List.flatMap_cons, ih]
    rfl
  | case4 c t _ _ ih =>
    obtain ⟨first, rest, hlines⟩ := List.exists_cons_of_ne_nil (lines_ne_nil t)
    rw [hlines, List.flatMap_cons] at ih
    rw [hlines, List.modifyHead_cons, List.flatMap_cons, ← List.singleton_append, visible_append,
      List.append_assoc, ih, ← visible_append, List.singleton_append]

/-! ## Indentation -/

/-- Blanks put in front add to the indentation. -/
theorem indent_append_of_isBlank {w : Text} (h : isBlank w = true) (t : Text) :
    indent (w ++ t) = w.length + indent t := by
  rw [indent, List.takeWhile_append_of_pos (by simpa [isBlank] using h), List.length_append, indent]

theorem indent_trim (t : Text) : indent (trim t) = 0 := by
  rcases ht : trimStart t with _ | ⟨c, u⟩
  · rw [trim, ht]
    rfl
  · simp [trim_of_trimStart_eq_cons ht, indent, notBlank_of_trimStart_eq_cons ht]

/-- Trimming at the end keeps the indentation. -/
theorem indent_trimEnd {t : Text} (h : isBlank t = false) : indent (trimEnd t) = indent t := by
  have hpad := padded_trimEnd t
  exact (hpad.indent_eq (hpad.isBlank_eq.symm.trans h)).symm

theorem isBlank_take {t : Text} (h : isBlank t = true) (n : Nat) : isBlank (t.take n) = true := by
  rw [isBlank, List.all_eq_true] at h ⊢
  exact fun c hc => h c (List.mem_of_mem_take hc)

/-- What is within the indentation of a line is blank. -/
theorem isBlank_take_of_le_indent {t : Text} {n : Nat} (h : n ≤ indent t) :
    isBlank (t.take n) = true := by
  rw [← takeWhile_append_trimStart t, List.take_append_of_le_length h]
  exact isBlank_take List.all_takeWhile n

end Text

/-- Spaces in the place of tabs show the same. -/
theorem visible_expandTabs (t : Text) : Text.visible (expandTabs t) = Text.visible t := by
  induction t with
  | nil => rfl
  | cons c t ih =>
    have hcons : expandTabs (c :: t) =
        (if c = '\t' then List.replicate 8 ' ' else [c]) ++ expandTabs t := by
      simp [expandTabs]
    rw [hcons, Text.visible_append, ih]
    split
    · rename_i hc
      subst hc
      rfl
    · rw [← Text.visible_append]
      rfl

/-! ## Margins -/

/-- The indentations of the lines that say something. -/
def indents (ls : List Text) : Set Nat :=
  {n | ∃ l ∈ ls, Text.isBlank l = false ∧ Text.indent l = n}

/-- The margin is the least indentation of the lines that are not blank. -/
theorem margin?_eq_some_iff {ls : List Text} {m : Nat} :
    margin? ls = some m ↔ IsLeast (indents ls) m := by
  have hmem : ∀ n, n ∈ (ls.filter (!Text.isBlank ·)).map Text.indent ↔ n ∈ indents ls := by
    intro n
    simp [indents, and_assoc]
  rw [margin?, List.min?_eq_some_iff, hmem]
  refine and_congr_right fun _ => forall_congr' fun n => ?_
  rw [hmem]

/-- With a line that is not blank there is a margin, and the line is indented at least that far. -/
theorem exists_margin {ls : List Text} {l : Text} (hl : l ∈ ls) (hspoken : Text.isBlank l = false) :
    ∃ m, margin? ls = some m ∧ m ≤ Text.indent l := by
  rcases hm : margin? ls with _ | m
  · -- without a margin there is no line that says something
    rw [margin?, List.min?_eq_none_iff, List.map_eq_nil_iff, List.filter_eq_nil_iff] at hm
    exact absurd hspoken (by simpa using hm l hl)
  · exact ⟨m, rfl, (margin?_eq_some_iff.mp hm).2 ⟨l, hl, hspoken, rfl⟩⟩

/-- What is cut off at the start of a line is blank. -/
theorem isBlank_take_margin {ls : List Text} {l : Text} (hl : l ∈ ls) :
    Text.isBlank (l.take ((margin? ls).getD 0)) = true := by
  rcases hspoken : Text.isBlank l with _ | _
  · obtain ⟨m, hm, hle⟩ := exists_margin hl hspoken
    rw [hm]
    exact Text.isBlank_take_of_le_indent hle
  · exact Text.isBlank_take hspoken _

/-! ## Single lines -/

/-- Line `i` of a docstring, which is `l`, is cleaned to `c`. -/
structure CleansTo (ls : List Text) (i : Nat) (l c : Text) : Prop where
  /-- they say the same -/
  trim_eq : Text.trim c = Text.trim l
  /-- no blanks are left at the end -/
  trimEnd_eq : Text.trimEnd c = c
  /-- the first line is not indented -/
  indent_first : i = 0 → Text.indent c = 0
  /-- another line that says something loses the margin of the lines after the first -/
  indent_later : 0 < i → Text.isBlank l = false →
    ∃ m, IsLeast (indents ls.tail) m ∧ Text.indent c + m = Text.indent l

namespace CleansTo

variable {ls : List Text} {i j : Nat} {l c l' c' : Text}

/-- Exactly a blank line is cleaned to an empty one. -/
theorem eq_nil_iff (h : CleansTo ls i l c) : c = [] ↔ Text.isBlank l = true := by
  rw [← Text.trim_eq_nil_iff, ← h.trim_eq]
  constructor
  · rintro rfl
    rfl
  · intro hc
    rw [← h.trimEnd_eq]
    exact Text.trimEnd_append_blanks (Text.trim_eq_nil_iff.mp hc) []

/-- Lines after the first keep their indentation relative to each other. -/
theorem indent_add_indent (h : CleansTo ls i l c) (h' : CleansTo ls j l' c') (hi : 0 < i)
    (hj : 0 < j) (hl : Text.isBlank l = false) (hl' : Text.isBlank l' = false) :
    Text.indent c + Text.indent l' = Text.indent c' + Text.indent l := by
  obtain ⟨m, hm, hindent⟩ := h.indent_later hi hl
  obtain ⟨m', hm', hindent'⟩ := h'.indent_later hj hl'
  obtain rfl := hm.unique hm'
  omega

end CleansTo

/-- The first line is trimmed at both ends. -/
theorem cleansTo_first (first : Text) (rest : List Text) :
    CleansTo (first :: rest) 0 first (Text.trim first) where
  trim_eq := Text.trim_trim first
  trimEnd_eq := Text.trimEnd_trimEnd _
  indent_first _ := Text.indent_trim first
  indent_later h := absurd h (Nat.lt_irrefl 0)

/-- A later line loses the margin and is trimmed at its end. -/
theorem cleansTo_later (first : Text) {rest : List Text} {l : Text} (hl : l ∈ rest) (i : Nat) :
    CleansTo (first :: rest) (i + 1) l (Text.trimEnd (l.drop ((margin? rest).getD 0))) := by
  -- the line is what is cut off, which is blank, and the rest
  have hblank := isBlank_take_margin hl
  have hsplit := List.take_append_drop ((margin? rest).getD 0) l
  refine ⟨?_, Text.trimEnd_trimEnd _, fun h => absurd h (Nat.succ_ne_zero i), fun _ hspoken => ?_⟩
  · rw [← (Text.padded_trimEnd _).trim_eq, Text.trim,
      ← Text.trimStart_append_of_isBlank hblank, hsplit, Text.trim]
  · obtain ⟨m, hm, hle⟩ := exists_margin hl hspoken
    refine ⟨m, margin?_eq_some_iff.mp hm, ?_⟩
    rw [hm, Option.getD_some] at hblank hsplit
    have hdrop : Text.isBlank (l.drop m) = false := by
      rw [← hsplit, Text.isBlank_append, hblank, Bool.true_and] at hspoken
      exact hspoken
    have hlength : (l.take m).length = m := by
      have hindent : Text.indent l ≤ l.length := (List.takeWhile_sublist _).length_le
      rw [List.length_take]
      omega
    have hindent := Text.indent_append_of_isBlank hblank (l.drop m)
    rw [hsplit, hlength] at hindent
    rw [hm, Option.getD_some, Text.indent_trimEnd hdrop, hindent, Nat.add_comm]

theorem length_cleanLines (ls : List Text) : (cleanLines ls).length = ls.length := by
  rcases ls with _ | ⟨first, rest⟩
  · rfl
  · simp [cleanLines]

/-- **Every line is cleaned in its place.** -/
theorem cleansTo_of_getElem? {ls : List Text} {i : Nat} {l : Text} (hl : ls[i]? = some l) :
    ∃ c, (cleanLines ls)[i]? = some c ∧ CleansTo ls i l c := by
  rcases ls with _ | ⟨first, rest⟩
  · simp at hl
  · rcases i with _ | i
    · obtain rfl : first = l := by simpa using hl
      exact ⟨_, rfl, cleansTo_first first rest⟩
    · have hrest : rest[i]? = some l := by simpa using hl
      exact ⟨_, by simp [cleanLines, hrest], cleansTo_later first (List.mem_of_getElem? hrest) i⟩

/-- Cleaning lines hides nothing. -/
theorem flatMap_visible_cleanLines (ls : List Text) :
    (cleanLines ls).flatMap Text.visible = ls.flatMap Text.visible := by
  have hmap : (cleanLines ls).map Text.visible = ls.map Text.visible := by
    refine List.ext_getElem? fun i => ?_
    rw [List.getElem?_map, List.getElem?_map]
    rcases hl : ls[i]? with _ | l
    · have hlength : ls.length ≤ i := List.getElem?_eq_none_iff.mp hl
      rw [List.getElem?_eq_none (by rwa [length_cleanLines])]
    · obtain ⟨c, hc, hclean⟩ := cleansTo_of_getElem? hl
      rw [hc, Option.map_some, Option.map_some, Text.visible_eq_of_trim_eq hclean.trim_eq]
  rw [List.flatMap_def, List.flatMap_def, hmap]

/-! ## Lines at the ends -/

/-- Only empty lines are dropped, before and after the ones that stay. -/
theorem dropOuterEmpty_split (cs : List Text) :
    ∃ before after, cs = before ++ (dropOuterEmpty cs ++ after) ∧
      (∀ c ∈ before, c = []) ∧ ∀ c ∈ after, c = [] := by
  have hempty : ∀ {xs : List Text}, ∀ c ∈ xs.takeWhile List.isEmpty, c = [] := fun c hc =>
    List.isEmpty_iff.mp (List.all_eq_true.mp List.all_takeWhile c hc)
  refine ⟨cs.takeWhile List.isEmpty,
    ((cs.dropWhile List.isEmpty).reverse.takeWhile List.isEmpty).reverse, ?_, hempty, ?_⟩
  · rw [dropOuterEmpty, ← List.reverse_append, List.takeWhile_append_dropWhile,
      List.reverse_reverse, List.takeWhile_append_dropWhile]
  · intro c hc
    exact hempty c (List.mem_reverse.mp hc)

/-- The positions of the lines that say something. -/
def spokenAt (ls : List Text) : Set Nat :=
  {i | ∃ l, ls[i]? = some l ∧ Text.isBlank l = false}

/-- A line says something exactly when something is left of it. -/
theorem mem_spokenAt_iff {ls : List Text} {i : Nat} :
    i ∈ spokenAt ls ↔ ∃ c, (cleanLines ls)[i]? = some c ∧ c ≠ [] := by
  rcases hl : ls[i]? with _ | l
  · have hlength : ls.length ≤ i := List.getElem?_eq_none_iff.mp hl
    simp [spokenAt, length_cleanLines, Nat.not_lt.mpr hlength]
  · obtain ⟨c, hc, hclean⟩ := cleansTo_of_getElem? hl
    simp [spokenAt, hl, hc, hclean.eq_nil_iff]

section Ends

variable {ls before after : List Text}
  (hsplit : cleanLines ls = before ++ (dropOuterEmpty (cleanLines ls) ++ after))

include hsplit

/-- The line that stays at position `k` is the one that comes `k` lines after the dropped ones. -/
theorem getElem?_dropOuterEmpty {k : Nat} (hk : k < (dropOuterEmpty (cleanLines ls)).length) :
    (cleanLines ls)[before.length + k]? = (dropOuterEmpty (cleanLines ls))[k]? := by
  conv_lhs => rw [hsplit]
  rw [List.getElem?_append_right (Nat.le_add_right _ _), Nat.add_sub_cancel_left,
    List.getElem?_append_left hk]

/-- Each line that stays is cleaned from the line it stands for. -/
theorem exists_cleansTo {k : Nat} (hk : k < (dropOuterEmpty (cleanLines ls)).length) :
    ∃ l c, ls[before.length + k]? = some l ∧ (dropOuterEmpty (cleanLines ls))[k]? = some c ∧
      CleansTo ls (before.length + k) l c := by
  have hstay := getElem?_dropOuterEmpty hsplit hk
  have hlt : before.length + k < ls.length := by
    rw [List.getElem?_eq_getElem hk] at hstay
    obtain ⟨hlt, -⟩ := List.getElem?_eq_some_iff.mp hstay
    rwa [length_cleanLines] at hlt
  obtain ⟨c, hc, hclean⟩ := cleansTo_of_getElem? (List.getElem?_eq_getElem hlt)
  exact ⟨_, c, List.getElem?_eq_getElem hlt, hstay.symm.trans hc, hclean⟩

variable (hbefore : ∀ c ∈ before, c = []) (hafter : ∀ c ∈ after, c = [])
  (hne : dropOuterEmpty (cleanLines ls) ≠ [])

include hne

include hbefore in
/-- The first line that stays is the first one that says something. -/
theorem isLeast_spokenAt : IsLeast (spokenAt ls) before.length := by
  have hlength := List.length_pos_iff.mpr hne
  constructor
  · have hfirst := getElem?_dropOuterEmpty hsplit hlength
    rw [Nat.add_zero, ← List.head?_eq_getElem?, List.head?_eq_some_head hne] at hfirst
    exact mem_spokenAt_iff.mpr ⟨_, hfirst, ends_dropOuterEmpty (.inl (List.head?_eq_some_head hne))⟩
  · intro i hi
    obtain ⟨c, hc, hspoken⟩ := mem_spokenAt_iff.mp hi
    by_contra hlt
    rw [hsplit, List.getElem?_append_left (Nat.not_le.mp hlt)] at hc
    exact hspoken (hbefore c (List.mem_of_getElem? hc))

include hafter in
/-- The last line that stays is the last one that says something. -/
theorem isGreatest_spokenAt :
    IsGreatest (spokenAt ls)
      (before.length + ((dropOuterEmpty (cleanLines ls)).length - 1)) := by
  have hlength := List.length_pos_iff.mpr hne
  constructor
  · have hlast := getElem?_dropOuterEmpty hsplit (Nat.sub_one_lt_of_lt hlength)
    rw [← List.getLast?_eq_getElem?, List.getLast?_eq_some_getLast hne] at hlast
    exact mem_spokenAt_iff.mpr
      ⟨_, hlast, ends_dropOuterEmpty (.inr (List.getLast?_eq_some_getLast hne))⟩
  · intro i hi
    obtain ⟨c, hc, hspoken⟩ := mem_spokenAt_iff.mp hi
    by_contra hlt
    rw [hsplit, ← List.append_assoc,
      List.getElem?_append_right (by rw [List.length_append]; omega)] at hc
    exact hspoken (hafter c (List.mem_of_getElem? hc))

end Ends

/-- Dropping empty lines hides nothing. -/
theorem flatMap_visible_dropOuterEmpty (cs : List Text) :
    (dropOuterEmpty cs).flatMap Text.visible = cs.flatMap Text.visible := by
  obtain ⟨before, after, hsplit, hbefore, hafter⟩ := dropOuterEmpty_split cs
  have hnil : ∀ {xs : List Text}, (∀ c ∈ xs, c = []) → xs.flatMap Text.visible = [] := by
    intro xs hxs
    rw [List.flatMap_eq_nil_iff]
    intro c hc
    rw [hxs c hc]
    rfl
  conv_rhs => rw [hsplit, List.flatMap_append, List.flatMap_append, hnil hbefore, hnil hafter,
    List.append_nil, List.nil_append]

/-! ## Docstrings -/

/-- If a line is left after cleaning, the docstring is there. -/
theorem cleanDocstring_of_ne_nil {raw : Text}
    (h : dropOuterEmpty (cleanLines (Text.lines (expandTabs raw))) ≠ []) :
    cleanDocstring raw =
      some (Text.unlines (dropOuterEmpty (cleanLines (Text.lines (expandTabs raw))))) := by
  obtain ⟨l, ls, hls⟩ := List.exists_cons_of_ne_nil h
  rw [cleanDocstring, hls]

/-- Nothing is left of a docstring exactly when all its lines are blank. -/
theorem cleanDocstring_eq_none_iff {raw : Text} :
    cleanDocstring raw = none ↔ ∀ l ∈ Text.lines (expandTabs raw), Text.isBlank l = true := by
  let ls := Text.lines (expandTabs raw)
  obtain ⟨before, after, hsplit, hbefore, hafter⟩ := dropOuterEmpty_split (cleanLines ls)
  constructor
  · intro hnone l hl
    have hnil : dropOuterEmpty (cleanLines ls) = [] := by
      by_contra hne
      rw [cleanDocstring_of_ne_nil hne] at hnone
      cases hnone
    obtain ⟨i, hi⟩ := List.getElem?_of_mem hl
    obtain ⟨c, hc, hclean⟩ := cleansTo_of_getElem? hi
    rw [← hclean.eq_nil_iff]
    rw [hnil, List.nil_append] at hsplit
    have hmem : c ∈ before ++ after := hsplit ▸ List.mem_of_getElem? hc
    exact (List.mem_append.mp hmem).elim (hbefore c) (hafter c)
  · intro hall
    -- if something were left, its first line would come from one that says something
    by_contra hsome
    obtain ⟨text, htext⟩ := Option.ne_none_iff_exists'.mp hsome
    obtain ⟨hne, -⟩ := cleanDocstring_eq_some htext
    obtain ⟨⟨l, hl, hspoken⟩, -⟩ := isLeast_spokenAt hsplit hbefore hne
    rw [hall l (List.mem_of_getElem? hl)] at hspoken
    cases hspoken

/-- **What cleaning leaves of a docstring.** Nothing is left exactly when all lines are blank.
Otherwise the lines from the first to the last that says something are left, in their order: each
says the same as before and has no blanks at its end, the very first line of the docstring has no
indentation, and any other line that says something has its old one less the least indentation among
the lines after the first that say something. So no character but blanks is lost, and the lines after
the first keep their indentation relative to each other. -/
theorem cleanDocstring_lines (raw : Text) :
    let ls := Text.lines (expandTabs raw)
    (cleanDocstring raw = none ↔ ∀ l ∈ ls, Text.isBlank l = true) ∧
    ((∃ l ∈ ls, Text.isBlank l = false) → ∃ (a b : Nat) (cleaned : List Text),
      IsLeast (spokenAt ls) a ∧ IsGreatest (spokenAt ls) b ∧
      cleanDocstring raw = some (Text.unlines cleaned) ∧
      Text.lines (Text.unlines cleaned) = cleaned ∧ cleaned.length = b - a + 1 ∧
      (∀ k < cleaned.length, ∃ l c, ls[a + k]? = some l ∧ cleaned[k]? = some c ∧
        CleansTo ls (a + k) l c) ∧
      Text.visible (Text.unlines cleaned) = Text.visible raw ∧
      ∀ k k' l l' c c', 0 < a + k → 0 < a + k' → ls[a + k]? = some l → ls[a + k']? = some l' →
        cleaned[k]? = some c → cleaned[k']? = some c' →
        Text.isBlank l = false → Text.isBlank l' = false →
        Text.indent c + Text.indent l' = Text.indent c' + Text.indent l) := by
  intro ls
  refine ⟨cleanDocstring_eq_none_iff, ?_⟩
  rintro ⟨l₀, hl₀, hspoken⟩
  have hsome : cleanDocstring raw ≠ none := by
    intro hnone
    rw [cleanDocstring_eq_none_iff.mp hnone l₀ hl₀] at hspoken
    cases hspoken
  obtain ⟨text, htext⟩ := Option.ne_none_iff_exists'.mp hsome
  obtain ⟨hne, hunlines⟩ := cleanDocstring_eq_some htext
  obtain ⟨before, after, hsplit, hbefore, hafter⟩ := dropOuterEmpty_split (cleanLines ls)
  have hlength : 0 < (dropOuterEmpty (cleanLines ls)).length := List.length_pos_iff.mpr hne
  refine ⟨before.length, before.length + ((dropOuterEmpty (cleanLines ls)).length - 1),
    dropOuterEmpty (cleanLines ls), isLeast_spokenAt hsplit hbefore hne,
    isGreatest_spokenAt hsplit hafter hne, htext.trans (congrArg some hunlines), ?_, by omega,
    fun k hk => exists_cleansTo hsplit hk, ?_, ?_⟩
  · rw [← hunlines]
    exact lines_of_cleanDocstring htext
  · -- each step from the text to its cleaned lines moves or drops blanks only
    rw [Text.visible_unlines, flatMap_visible_dropOuterEmpty, flatMap_visible_cleanLines,
      Text.flatMap_visible_lines, visible_expandTabs]
  · intro k k' l l' c c' hk hk' hl hl' hc hc' hspoken hspoken'
    obtain ⟨l₁, c₁, hl₁, hc₁, hclean⟩ :=
      exists_cleansTo hsplit (List.getElem?_eq_some_iff.mp hc).1
    obtain ⟨l₂, c₂, hl₂, hc₂, hclean'⟩ :=
      exists_cleansTo hsplit (List.getElem?_eq_some_iff.mp hc').1
    obtain rfl := Option.some.inj (hl₁.symm.trans hl)
    obtain rfl := Option.some.inj (hl₂.symm.trans hl')
    obtain rfl := Option.some.inj (hc₁.symm.trans hc)
    obtain rfl := Option.some.inj (hc₂.symm.trans hc')
    exact hclean.indent_add_indent hclean' hk hk' hspoken hspoken'

end FieldLint
