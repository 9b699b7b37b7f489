import Mathlib.Data.List.TakeWhile
import FieldLint.Proofs.Tabs

/-!
# Tab stops

Docstrings are to be cleaned the way `inspect.cleandoc` cleans them. There a tab goes to the next
column that is a multiple of eight; here it always counts as eight spaces. This is the only
difference, and it shows exactly where it changes the text of a line or the indentation of a line
relative to the others.

* **Reference** — `Inspect.cleandoc`. Once tabs are gone it cleans lines as `cleanLines` does, up to
  blanks at line ends (`PlainlySpaced.tidyLines_cleandoc`).
* **Stops** — both ways to expand the tabs of a line give the same exactly when all of them stand at
  stops (`tabbed_toStop_eq_iff`).
* **Agreement** — `cleanLines_map_eq_iff` says when lines written in two ways are cleaned to the
  same, and `cleanDocstring_eq_cleandoc_iff` what this comes to for tabs.
-/

namespace FieldLint

/-! ## The reference -/

namespace Inspect

/-- How far it is from a column to the next tab stop. -/
def toStop (column : Nat) : Nat :=
  8 - column % 8

/-- A tab takes at least one column. -/
theorem toStop_pos (column : Nat) : 0 < toStop column := by
  rw [toStop]
  omega

/-- The text with every tab expanded to the next stop. -/
def expandtabs (t : Text) : Text :=
  t.tabbed toStop 0

/-- The characters that count as white space, as closed ranges of code points in increasing
order. -/
def spaceRanges : List (Nat × Nat) :=
  [(0x09, 0x0D), (0x1C, 0x20), (0x85, 0x85), (0xA0, 0xA0), (0x1680, 0x1680), (0x2000, 0x200A),
    (0x2028, 0x2029), (0x202F, 0x202F), (0x205F, 0x205F), (0x3000, 0x3000)]

/-- The character is white space. -/
def isSpace (c : Char) : Bool :=
  spaceRanges.any fun range => range.1 ≤ c.toNat && c.toNat ≤ range.2

/-- The text without the white space it opens with. -/
def lstrip (t : Text) : Text :=
  t.dropWhile isSpace

/-- The smallest indentation of the lines that have anything but white space, if there are such
lines. -/
def margin? (ls : List Text) : Option Nat :=
  ((ls.filter fun l => !(lstrip l).isEmpty).map fun l => l.length - (lstrip l).length).min?

/-- The first line without its indentation, and the others without their margin. -/
def cutMargin : List Text → List Text
  | [] => []
  | first :: rest =>
    lstrip first ::
      match margin? rest with
      | none => rest
      | some margin => rest.map (·.drop margin)

/-- What `inspect.cleandoc` makes of a docstring. -/
def cleandoc (doc : Text) : Text :=
  Text.unlines (dropOuterEmpty (cutMargin (Text.splitAt '\n' (expandtabs doc))))

end Inspect

/-! ## Tabs at stops -/

/-- Every tab of the text stands at a tab stop, if each of them takes eight columns. -/
def Text.tabsAtStops (column : Nat) : Text → Bool
  | [] => true
  | c :: t =>
    if c = '\t' then column % 8 == 0 && tabsAtStops (column + 8) t
    else tabsAtStops (column + 1) t

/-- Stopping at tab stops never takes more columns than eight for every tab. -/
theorem length_tabbed_toStop_le (column : Nat) (t : Text) :
    (t.tabbed Inspect.toStop column).length ≤ (expandTabs t).length := by
  induction t generalizing column with
  | nil => exact Nat.le_refl 0
  | cons c t ih =>
    by_cases hc : c = '\t'
    · subst hc
      have hrest := ih (column + Inspect.toStop column)
      have hwidth : Inspect.toStop column ≤ 8 := Nat.sub_le 8 _
      rw [Text.tabbed_tab, expandTabs_tab, List.length_append, List.length_append,
        List.length_replicate, List.length_replicate]
      omega
    · rw [Text.tabbed_cons _ _ hc, expandTabs_cons hc, List.length_cons, List.length_cons]
      exact Nat.add_le_add_right (ih _) 1

/-- **Where both ways to expand tabs agree.** -/
theorem tabbed_toStop_eq_iff {t : Text} (hnewline : '\n' ∉ t) (hreturn : '\r' ∉ t) (column : Nat) :
    t.tabbed Inspect.toStop column = expandTabs t ↔ t.tabsAtStops column = true := by
  induction t generalizing column with
  | nil => exact iff_of_true rfl rfl
  | cons c t ih =>
    rw [List.mem_cons, not_or] at hnewline hreturn
    by_cases hc : c = '\t'
    · subst hc
      rw [Text.tabbed_tab, expandTabs_tab]
      by_cases hstop : column % 8 = 0
      · have hwidth : Inspect.toStop column = 8 := by rw [Inspect.toStop, hstop]
        rw [hwidth, List.append_cancel_left_eq, ih hnewline.2 hreturn.2]
        simp [Text.tabsAtStops, hstop]
      · -- the tab is too wide, and nothing after it makes up for that
        have hrest := length_tabbed_toStop_le (column + Inspect.toStop column) t
        have hwidth : Inspect.toStop column < 8 := by
          rw [Inspect.toStop]
          omega
        refine iff_of_false (fun heq => ?_) (by simp [Text.tabsAtStops, hstop])
        have hlength := congrArg List.length heq
        simp only [List.length_append, List.length_replicate] at hlength
        omega
    · rw [Text.tabbed_cons_within _ _ hc (Ne.symm hnewline.1) (Ne.symm hreturn.1),
        expandTabs_cons hc, List.cons.injEq, and_iff_right rfl, ih hnewline.2 hreturn.2,
        Text.tabsAtStops, if_neg hc]

/-! ## Lines written in two ways -/

section Agree

/-- The blanks of a line are spaces. -/
def Text.BlanksAreSpaces (l : Text) : Prop :=
  ∀ c ∈ l, isBlankChar c = true → c = ' '

/-- A line without its margin is spaces and the trimmed line. -/
theorem trimEnd_drop_of_blanksAreSpaces {l : Text} (hspaces : l.BlanksAreSpaces)
    (hspoken : Text.isBlank l = false) {m : Nat} (hm : m ≤ Text.indent l) :
    Text.trimEnd (l.drop m) = List.replicate (Text.indent l - m) ' ' ++ Text.trim l := by
  have hopening : l.takeWhile Text.isBlankChar = List.replicate (Text.indent l) ' ' :=
    List.eq_replicate_iff.mpr ⟨rfl, fun c hc => hspaces c ((List.takeWhile_sublist _).subset hc)
      (List.all_eq_true.mp List.all_takeWhile c hc)⟩
  obtain ⟨c, u, hstart⟩ : ∃ c u, Text.trimStart l = c :: u := by
    refine List.exists_cons_of_ne_nil fun hnil => ?_
    rw [Text.trimStart_eq_nil_iff.mp hnil] at hspoken
    cases hspoken
  have hdrop : l.drop m = List.replicate (Text.indent l - m) ' ' ++ c :: u := by
    conv_lhs => rw [← Text.takeWhile_append_trimStart l, hopening, hstart]
    rw [List.drop_append_of_le_length (by rwa [List.length_replicate]), List.drop_replicate]
  rw [hdrop, Text.trimEnd_append_cons (Text.notBlank_of_trimStart_eq_cons hstart),
    Text.trim_of_trimStart_eq_cons hstart]

/-- Spaces in front of a trimmed text can be counted. -/
theorem replicate_append_trim_inj {a b : Nat} {l l' : Text} :
    List.replicate a ' ' ++ Text.trim l = List.replicate b ' ' ++ Text.trim l' ↔
      Text.trim l = Text.trim l' ∧ a = b := by
  constructor
  · intro heq
    have hindent : ∀ (k : Nat) (l : Text),
        Text.indent (List.replicate k ' ' ++ Text.trim l) = k := fun k l => by
      rw [Text.indent_append_of_isBlank (Text.isBlank_replicate_space k), Text.indent_trim,
        List.length_replicate, Nat.add_zero]
    obtain rfl : a = b := by rw [← hindent a l, heq, hindent b l']
    exact ⟨List.append_cancel_left heq, rfl⟩
  · rintro ⟨htrim, rfl⟩
    rw [htrim]

/-- Writing the lines with `f`, blank lines stay blank, others do not become blank, and all blanks
become spaces. -/
def Respaces (f : Text → Text) (ls : List Text) : Prop :=
  ∀ l ∈ ls, Text.isBlank (f l) = Text.isBlank l ∧ (f l).BlanksAreSpaces

variable {f g : Text → Text} {ls : List Text} (hf : Respaces f ls) (hg : Respaces g ls)

include hf hg

/-- A line is cleaned to the same exactly when it says the same and stands as far from the
margin. -/
theorem trimEnd_drop_eq_iff {l : Text} (hl : l ∈ ls) :
    Text.trimEnd ((f l).drop ((margin? (ls.map f)).getD 0)) =
        Text.trimEnd ((g l).drop ((margin? (ls.map g)).getD 0)) ↔
      Text.trim (f l) = Text.trim (g l) ∧ (Text.isBlank l = false →
        ∀ mf mg, margin? (ls.map f) = some mf → margin? (ls.map g) = some mg →
          Text.indent (f l) + mg = Text.indent (g l) + mf) := by
  have hlf := List.mem_map_of_mem (f := f) hl
  have hlg := List.mem_map_of_mem (f := g) hl
  rcases hspoken : Text.isBlank l with _ | _
  · have hspokenf := (hf l hl).1.trans hspoken
    have hspokeng := (hg l hl).1.trans hspoken
    obtain ⟨mf, hmf, hlef⟩ := exists_margin hlf hspokenf
    obtain ⟨mg, hmg, hleg⟩ := exists_margin hlg hspokeng
    rw [hmf, hmg, Option.getD_some, Option.getD_some,
      trimEnd_drop_of_blanksAreSpaces (hf l hl).2 hspokenf hlef,
      trimEnd_drop_of_blanksAreSpaces (hg l hl).2 hspokeng hleg, replicate_append_trim_inj]
    refine and_congr_right fun _ => ⟨?_, fun h => ?_⟩
    · rintro heq - _ _ ⟨⟩ ⟨⟩
      omega
    · have hsame := h rfl mf mg rfl rfl
      omega
  · have hnilf := (cleansTo_later [] hlf 0).eq_nil_iff.mpr ((hf l hl).1.trans hspoken)
    have hnilg := (cleansTo_later [] hlg 0).eq_nil_iff.mpr ((hg l hl).1.trans hspoken)
    rw [hnilf, hnilg, Text.trim_eq_nil_iff.mpr ((hf l hl).1.trans hspoken),
      Text.trim_eq_nil_iff.mpr ((hg l hl).1.trans hspoken)]
    simp

omit hf hg in
/-- The margin is the indentation of some line that is not blank. -/
theorem exists_of_margin? {m : Nat} (h : margin? (ls.map f) = some m) :
    ∃ l ∈ ls, Text.isBlank (f l) = false ∧ Text.indent (f l) = m := by
  obtain ⟨_, hmem, hspoken, hindent⟩ := (margin?_eq_some_iff.mp h).1
  obtain ⟨l, hl, rfl⟩ := List.mem_map.mp hmem
  exact ⟨l, hl, hspoken, hindent⟩

/-- All lines stand as far from the margin as before exactly when all are moved by the same number
of columns. -/
theorem indent_add_margin_iff :
    (∀ l ∈ ls, Text.isBlank l = false → ∀ mf mg, margin? (ls.map f) = some mf →
        margin? (ls.map g) = some mg → Text.indent (f l) + mg = Text.indent (g l) + mf) ↔
      ∀ l ∈ ls, ∀ l' ∈ ls, Text.isBlank l = false → Text.isBlank l' = false →
        Text.indent (f l) + Text.indent (g l') = Text.indent (f l') + Text.indent (g l) := by
  constructor
  · intro h l hl l' hl' hspoken hspoken'
    obtain ⟨mf, hmf, -⟩ := exists_margin (List.mem_map_of_mem hl) ((hf l hl).1.trans hspoken)
    obtain ⟨mg, hmg, -⟩ := exists_margin (List.mem_map_of_mem hl) ((hg l hl).1.trans hspoken)
    have hline := h l hl hspoken mf mg hmf hmg
    have hline' := h l' hl' hspoken' mf mg hmf hmg
    omega
  · intro h l hl hspoken mf mg hmf hmg
    -- compare the line with the two lines that give the margins
    obtain ⟨lf, hlf, hspoken₁, rfl⟩ := exists_of_margin? hmf
    obtain ⟨lg, hlg, hspoken₂, rfl⟩ := exists_of_margin? hmg
    have hsame₁ := h l hl lf hlf hspoken ((hf lf hlf).1.symm.trans hspoken₁)
    have hsame₂ := h l hl lg hlg hspoken ((hg lg hlg).1.symm.trans hspoken₂)
    have hle₁ := (margin?_eq_some_iff.mp hmf).2
      ⟨_, List.mem_map_of_mem hlg, (hf lg hlg).1.trans ((hg lg hlg).1.symm.trans hspoken₂), rfl⟩
    have hle₂ := (margin?_eq_some_iff.mp hmg).2
      ⟨_, List.mem_map_of_mem hlf, (hg lf hlf).1.trans ((hf lf hlf).1.symm.trans hspoken₁), rfl⟩
    omega

/-- **When lines written in two ways are cleaned to the same.** Each says the same, and the lines
after the first that say something are moved by the same number of columns. -/
theorem cleanLines_map_eq_iff :
    cleanLines (ls.map f) = cleanLines (ls.map g) ↔
      (∀ l ∈ ls, Text.trim (f l) = Text.trim (g l)) ∧
      ∀ l ∈ ls.tail, ∀ l' ∈ ls.tail, Text.isBlank l = false → Text.isBlank l' = false →
        Text.indent (f l) + Text.indent (g l') = Text.indent (f l') + Text.indent (g l) := by
  rcases ls with _ | ⟨first, rest⟩
  · simp [cleanLines]
  · have hf' := (List.forall_mem_cons.mp hf).2
    have hg' := (List.forall_mem_cons.mp hg).2
    rw [List.tail_cons, ← indent_add_margin_iff hf' hg', List.forall_mem_cons, and_assoc,
      ← forall₂_and]
    simp only [List.map_cons, cleanLines, List.cons.injEq, List.map_map, List.map_inj_left,
      Function.comp_apply]
    exact and_congr_right fun _ => forall₂_congr fun l hl => trimEnd_drop_eq_iff hf' hg' hl

end Agree

/-! ## Empty lines at both ends -/

/-- Exactly the blank lines are cleaned to empty ones. -/
theorem map_isEmpty_cleanLines (ls : List Text) :
    (cleanLines ls).map List.isEmpty = ls.map Text.isBlank := by
  have hempty : ∀ {l c : Text}, (c = [] ↔ Text.isBlank l = true) → c.isEmpty = Text.isBlank l := by
    intro l c h
    rw [Bool.eq_iff_iff, List.isEmpty_iff, h]
  rcases ls with _ | ⟨first, rest⟩
  · rfl
  · rw [cleanLines, List.map_cons, List.map_cons, hempty Text.trim_eq_nil_iff, List.map_map]
    congr 1
    exact List.map_congr_left fun l hl => hempty (cleansTo_later first hl 0).eq_nil_iff

theorem eq_of_dropWhile_isEmpty_eq {as bs : List Text}
    (h : as.map List.isEmpty = bs.map List.isEmpty)
    (heq : as.dropWhile List.isEmpty = bs.dropWhile List.isEmpty) : as = bs := by
  induction as generalizing bs with
  | nil => exact (List.map_eq_nil_iff.mp h.symm).symm
  | cons a as ih =>
    rcases bs with _ | ⟨b, bs⟩
    · cases h
    · rw [List.map_cons, List.map_cons, List.cons.injEq] at h
      rw [List.dropWhile_cons, List.dropWhile_cons, ← h.1] at heq
      rcases a with _ | ⟨c, a⟩
      · obtain rfl : b = [] := List.isEmpty_iff.mp h.1.symm
        rw [ih h.2 heq]
      · exact heq

/-- Lines that are empty in the same places are the same if they are after dropping the empty ones
at both ends. -/
theorem eq_of_dropOuterEmpty_eq {as bs : List Text}
    (h : as.map List.isEmpty = bs.map List.isEmpty)
    (heq : dropOuterEmpty as = dropOuterEmpty bs) : as = bs := by
  have hdrop : ∀ ls : List Text, (ls.dropWhile List.isEmpty).map List.isEmpty =
      (ls.map List.isEmpty).dropWhile id := fun ls => by
    rw [List.dropWhile_map]
    rfl
  refine eq_of_dropWhile_isEmpty_eq h ?_
  refine List.reverse_injective (eq_of_dropWhile_isEmpty_eq ?_ (List.reverse_injective heq))
  rw [List.map_reverse, List.map_reverse, hdrop, hdrop, h]

/-- More empty lines at both ends make no difference. -/
theorem dropOuterEmpty_append {before after : List Text} (hbefore : ∀ c ∈ before, c = [])
    (hafter : ∀ c ∈ after, c = []) (ls : List Text) :
    dropOuterEmpty (before ++ (ls ++ after)) = dropOuterEmpty ls := by
  have hnil : ∀ {xs : List Text}, (∀ c ∈ xs, c = []) → ∀ c ∈ xs, List.isEmpty c = true :=
    fun h c hc => List.isEmpty_iff.mpr (h c hc)
  have hdrop : after.dropWhile List.isEmpty = [] := List.dropWhile_eq_nil_iff.mpr (hnil hafter)
  rw [dropOuterEmpty, List.dropWhile_append_of_pos (hnil hbefore), List.dropWhile_append, hdrop]
  split
  · rename_i hempty
    rw [dropOuterEmpty, List.isEmpty_iff.mp hempty]
  · rw [List.reverse_append, List.dropWhile_append_of_pos]
    · rfl
    · exact fun c hc => hnil hafter c (List.mem_reverse.mp hc)

/-- It does not matter whether empty lines go before or after blanks at line ends. -/
theorem dropOuterEmpty_map_trimEnd (ls : List Text) :
    dropOuterEmpty ((dropOuterEmpty ls).map Text.trimEnd) =
      dropOuterEmpty (ls.map Text.trimEnd) := by
  have hmap : ∀ {xs : List Text}, (∀ c ∈ xs, c = []) → ∀ c ∈ xs.map Text.trimEnd, c = [] := by
    intro xs hxs c hc
    obtain ⟨l, hl, rfl⟩ := List.mem_map.mp hc
    rw [hxs l hl]
    rfl
  obtain ⟨before, after, hsplit, hbefore, hafter⟩ := dropOuterEmpty_split ls
  conv_rhs => rw [hsplit, List.map_append, List.map_append,
    dropOuterEmpty_append (hmap hbefore) (hmap hafter)]

/-! ## Lines of the reference -/

/-- The lines of a text without blanks at their ends, and without blank lines at both ends. -/
def tidyLines (t : Text) : List Text :=
  dropOuterEmpty ((Text.lines t).map Text.trimEnd)

namespace Inspect

section SameBlanks

/-- Where both agree on blanks, they are trimmed alike at the start. -/
theorem lstrip_eq_trimStart {l : Text} (h : ∀ c ∈ l, isSpace c = Text.isBlankChar c) :
    lstrip l = Text.trimStart l := by
  induction l with
  | nil => rfl
  | cons c l ih =>
    rw [List.forall_mem_cons] at h
    rw [lstrip, Text.trimStart, List.dropWhile_cons, List.dropWhile_cons, h.1, ← lstrip, ih h.2,
      Text.trimStart]

variable {ls : List Text} (h : ∀ l ∈ ls, ∀ c ∈ l, isSpace c = Text.isBlankChar c)

include h

/-- Both ways of finding the margin agree. -/
theorem margin?_eq : margin? ls = FieldLint.margin? ls := by
  have hfilter : (ls.filter fun l => !(lstrip l).isEmpty) = ls.filter (!Text.isBlank ·) := by
    refine List.filter_congr fun l hl => ?_
    rw [lstrip_eq_trimStart (h l hl), Bool.not_inj_iff, Bool.eq_iff_iff, List.isEmpty_iff,
      Text.trimStart_eq_nil_iff]
  have hindent : (ls.filter (!Text.isBlank ·)).map (fun l => l.length - (lstrip l).length) =
      (ls.filter (!Text.isBlank ·)).map Text.indent := by
    refine List.map_congr_left fun l hl => ?_
    have hlength := congrArg List.length (Text.takeWhile_append_trimStart l)
    rw [List.length_append] at hlength
    rw [lstrip_eq_trimStart (h l (List.mem_of_mem_filter hl)), Text.indent]
    omega
  rw [margin?, hfilter, hindent, FieldLint.margin?]

/-- Up to blanks at line ends, lines are cleaned alike. -/
theorem map_trimEnd_cutMargin : (cutMargin ls).map Text.trimEnd = cleanLines ls := by
  rcases ls with _ | ⟨first, rest⟩
  · rfl
  · rw [List.forall_mem_cons] at h
    rw [cutMargin, cleanLines, lstrip_eq_trimStart h.1, margin?_eq h.2, List.map_cons, ← Text.trim]
    congr 1
    rcases FieldLint.margin? rest with _ | m
    · rfl
    · rw [List.map_map]
      rfl

end SameBlanks

theorem of_mem_cutMargin {ls : List Text} {k : Text} (h : k ∈ cutMargin ls) : ∃ l ∈ ls, k ⊆ l := by
  rcases ls with _ | ⟨first, rest⟩
  · cases h
  · rcases List.mem_cons.mp h with rfl | h
    · exact ⟨first, List.mem_cons_self, (List.dropWhile_sublist _).subset⟩
    · split at h
      · exact ⟨k, List.mem_cons_of_mem _ h, List.Subset.refl k⟩
      · obtain ⟨l, hl, rfl⟩ := List.mem_map.mp h
        exact ⟨l, List.mem_cons_of_mem _ hl, List.drop_subset _ _⟩

end Inspect

/-! ## Docstrings -/

/-- The only white space in the text is spaces, tabs and line feeds. -/
def PlainlySpaced (t : Text) : Prop :=
  ∀ c ∈ t, Text.isBlankChar c = true ∨ Inspect.isSpace c = true → c = ' ' ∨ c = '\t' ∨ c = '\n'

instance (t : Text) : Decidable (PlainlySpaced t) :=
  List.decidableBAll _ t

theorem Text.splitAt_newline {t : Text} (h : '\r' ∉ t) : splitAt '\n' t = lines t := by
  induction t with
  | nil => rfl
  | cons c t ih =>
    rw [List.mem_cons, not_or] at h
    rw [splitAt, ih h.2]
    split
    · rename_i hc
      rw [hc, lines.eq_2]
    · rename_i hc
      rw [lines_cons hc fun _ hr => absurd hr.symm h.1]

namespace PlainlySpaced

variable {raw : Text} (hplain : PlainlySpaced raw)

include hplain

theorem return_notMem : '\r' ∉ raw := by
  intro hc
  exact absurd (hplain '\r' hc (.inl rfl)) (by decide)

theorem notMem_of_mem_lines {l : Text} (hl : l ∈ Text.lines raw) : '\n' ∉ l ∧ '\r' ∉ l :=
  ⟨fun hc => (Text.mem_and_ne_newline_of_mem_lines hl hc).2 rfl,
    fun hc => hplain.return_notMem (Text.mem_and_ne_newline_of_mem_lines hl hc).1⟩

/-- Replacing tabs by spaces respaces the lines, whatever the widths are. -/
theorem respaces_tabbed (width : Nat → Nat) :
    Respaces (Text.tabbed width 0) (Text.lines raw) := by
  refine fun l hl => ⟨Text.isBlank_tabbed width 0 l, fun c hc hblank => ?_⟩
  refine (Text.of_mem_tabbed width 0 hc).elim id fun ⟨hmem, htab⟩ => ?_
  obtain ⟨hraw, hnewline⟩ := Text.mem_and_ne_newline_of_mem_lines hl hmem
  exact (hplain c hraw (.inl hblank)).resolve_right (not_or.mpr ⟨htab, hnewline⟩)

/-- In such a text both notions of white space agree. -/
theorem isSpace_eq_isBlankChar {c : Char} (hc : c = ' ' ∨ c ∈ raw) :
    Inspect.isSpace c = Text.isBlankChar c := by
  rcases hc with rfl | hc
  · rfl
  · by_cases hwhite : Text.isBlankChar c = true ∨ Inspect.isSpace c = true
    · rcases hplain c hc hwhite with rfl | rfl | rfl <;> rfl
    · rw [not_or, Bool.not_eq_true, Bool.not_eq_true] at hwhite
      rw [hwhite.1, hwhite.2]

theorem splitAt_expandtabs :
    Text.splitAt '\n' (Inspect.expandtabs raw) = (Text.lines raw).map Inspect.expandtabs := by
  have hexpanded : '\r' ∉ Inspect.expandtabs raw := fun hc =>
    (Text.of_mem_tabbed _ 0 hc).elim (fun h => absurd h (by decide)) fun h =>
      hplain.return_notMem h.1
  obtain ⟨first, rest, hlines, htabbed⟩ :=
    Text.lines_tabbed Inspect.toStop 0 Inspect.toStop_pos raw
  rw [Text.splitAt_newline hexpanded, hlines]
  exact htabbed

/-- **The lines of the reference.** -/
theorem tidyLines_cleandoc :
    tidyLines (Inspect.cleandoc raw) =
      dropOuterEmpty (cleanLines ((Text.lines raw).map Inspect.expandtabs)) := by
  have hmem : ∀ l ∈ (Text.lines raw).map Inspect.expandtabs, ∀ c ∈ l,
      c = ' ' ∨ c ∈ raw ∧ c ≠ '\n' := by
    intro k hk c hc
    obtain ⟨l, hl, rfl⟩ := List.mem_map.mp hk
    exact (Text.of_mem_tabbed _ 0 hc).imp_right fun h =>
      Text.mem_and_ne_newline_of_mem_lines hl h.1
  rw [← Inspect.map_trimEnd_cutMargin fun l hl c hc =>
    hplain.isSpace_eq_isBlankChar ((hmem l hl c hc).imp_right And.left)]
  rw [tidyLines, Inspect.cleandoc, hplain.splitAt_expandtabs,
    ← dropOuterEmpty_map_trimEnd (Inspect.cutMargin _)]
  by_cases hne : dropOuterEmpty (Inspect.cutMargin ((Text.lines raw).map Inspect.expandtabs)) = []
  · rw [hne]
    rfl
  · rw [Text.lines_unlines hne]
    intro k hk
    obtain ⟨l, hl, hsub⟩ := Inspect.of_mem_cutMargin ((dropOuterEmpty_sublist _).subset hk)
    constructor
    · intro hc
      exact (hmem l hl _ (hsub hc)).elim (fun h => absurd h (by decide)) fun h => h.2 rfl
    · intro hc
      exact (hmem l hl _ (hsub (List.mem_of_getLast? hc))).elim (fun h => absurd h (by decide))
        fun h => hplain.return_notMem h.1

/-- What a line says is the same in both ways exactly when its tabs stand at stops. -/
theorem trim_expandtabs_eq_iff {l : Text} (hl : l ∈ Text.lines raw) :
    Text.trim (Inspect.expandtabs l) = Text.trim (expandTabs l) ↔
      (Text.trim l).tabsAtStops (Text.indent (Inspect.expandtabs l)) = true := by
  obtain ⟨hnewline, hreturn⟩ := hplain.notMem_of_mem_lines hl
  have hsub : Text.trim l ⊆ l := List.Subset.trans (Text.trimEnd_isPrefix _).subset
    (List.dropWhile_sublist _).subset
  rw [← tabbed_eight 0 l, Inspect.expandtabs, Text.trim_tabbed _ 0 hnewline hreturn,
    Text.trim_tabbed _ 0 hnewline hreturn, tabbed_eight, Nat.zero_add,
    tabbed_toStop_eq_iff (fun h => hnewline (hsub h)) fun h => hreturn (hsub h)]

end PlainlySpaced

theorem elim_cleanDocstring (raw : Text) :
    (cleanDocstring raw).elim [] Text.lines =
      dropOuterEmpty (cleanLines ((Text.lines raw).map expandTabs)) := by
  rw [← lines_expandTabs]
  rcases h : cleanDocstring raw with _ | text
  · by_contra hne
    rw [cleanDocstring_of_ne_nil (Ne.symm hne)] at h
    cases h
  · exact lines_of_cleanDocstring h

/-- **Cleaning agrees with the reference up to tab stops.** Take a docstring whose only white space
is spaces, tabs and line feeds. The lines that cleaning leaves are those of `inspect.cleandoc`
without blanks at line ends and blank lines at both ends exactly when, first, every tab inside the
text of a line stands at a tab stop and, second, counting eight columns for every tab moves all lines
after the first that say something by the same number of columns. So they are the same if all tabs
stand at tab stops. -/
theorem cleanDocstring_eq_cleandoc_iff {raw : Text} (hplain : PlainlySpaced raw) :
    let ls := Text.lines raw
    let cleaned := (cleanDocstring raw).elim [] Text.lines
    (cleaned = tidyLines (Inspect.cleandoc raw) ↔
      (∀ l ∈ ls, (Text.trim l).tabsAtStops (Text.indent (Inspect.expandtabs l)) = true) ∧
      ∀ l ∈ ls.tail, ∀ l' ∈ ls.tail, Text.isBlank l = false → Text.isBlank l' = false →
        Text.indent (Inspect.expandtabs l) + Text.indent (expandTabs l') =
          Text.indent (Inspect.expandtabs l') + Text.indent (expandTabs l)) ∧
    ((∀ l ∈ ls, l.tabsAtStops 0 = true) → cleaned = tidyLines (Inspect.cleandoc raw)) := by
  intro ls cleaned
  have hstops : Respaces Inspect.expandtabs ls := hplain.respaces_tabbed Inspect.toStop
  have hfixed : Respaces expandTabs ls := fun l hl =>
    tabbed_eight 0 l ▸ hplain.respaces_tabbed (fun _ => 8) l hl
  have hempty : (cleanLines (ls.map expandTabs)).map List.isEmpty =
      (cleanLines (ls.map Inspect.expandtabs)).map List.isEmpty := by
    rw [map_isEmpty_cleanLines, map_isEmpty_cleanLines, List.map_map, List.map_map]
    exact List.map_congr_left fun l hl => (hfixed l hl).1.trans (hstops l hl).1.symm
  have hiff : cleaned = tidyLines (Inspect.cleandoc raw) ↔
      cleanLines (ls.map Inspect.expandtabs) = cleanLines (ls.map expandTabs) := by
    rw [hplain.tidyLines_cleandoc, show cleaned = _ from elim_cleanDocstring raw]
    exact ⟨fun heq => (eq_of_dropOuterEmpty_eq hempty heq).symm, fun heq => by rw [heq]⟩
  refine ⟨?_, fun hall => hiff.mpr ?_⟩
  · rw [hiff, cleanLines_map_eq_iff hstops hfixed]
    exact and_congr_left fun _ => forall₂_congr fun l hl => hplain.trim_expandtabs_eq_iff hl
  · refine congrArg cleanLines (List.map_congr_left fun l hl => ?_)
    obtain ⟨hnewline, hreturn⟩ := hplain.notMem_of_mem_lines hl
    exact (tabbed_toStop_eq_iff hnewline hreturn 0).mpr (hall l hl)

/-- A docstring with tabs that all stand at stops. -/
theorem cleanDocstring_eq_cleandoc_sum :
    let raw := "Sum.\n\n\t  a\n\t\tb  \n\t".toList
    PlainlySpaced raw ∧
      (cleanDocstring raw).elim [] Text.lines = tidyLines (Inspect.cleandoc raw) ∧
      cleanDocstring raw = some "Sum.\n\na\n      b".toList := by
  intro raw
  have hplain : PlainlySpaced raw := by decide
  exact ⟨hplain, (cleanDocstring_eq_cleandoc_iff hplain).2 (by decide), by decide⟩

/-- A tab after four spaces goes to column eight, where the next line starts; counted as eight
columns it leaves four spaces. -/
theorem cleanDocstring_tab_after_spaces :
    let raw := "Sum.\n    \ta\n        b".toList
    PlainlySpaced raw ∧ Inspect.cleandoc raw = "Sum.\na\nb".toList ∧
      cleanDocstring raw = some "Sum.\n    a\nb".toList ∧
      (cleanDocstring raw).elim [] Text.lines ≠ tidyLines (Inspect.cleandoc raw) := by
  decide

end FieldLint
