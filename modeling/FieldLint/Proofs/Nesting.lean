import FieldLint.Proofs.Tabs
import FieldLint.Rule

/-!
# Docstrings at another depth

Code is moved into another body, or saved with other line ends. Its docstrings then have more spaces
after each line feed, or carriage returns in front of line feeds, as `Text.relaid` has it. Cleaning
takes both away again.

* **Lines** — `forall₂_lines_relaid`: the spaces open every line but the first, and a carriage
  return is at most one more blank at the end of a line.
* **Margins** — the margin grows with the lines it is taken from (`margin?_map_append`), and blanks
  at the end of a line are not looked at (`margin?_of_padded`). So the cleaned lines stay the same
  (`cleanLines_indentLater`, `cleanLines_of_padded`).
* **Docstrings** — `cleanDocstring_relaid`.
-/

namespace FieldLint

namespace Text

/-! ## Around line feeds -/

/-- The text with `k` spaces after every line feed and a carriage return before those that `returns`
tells. The first line feed has number `n`. -/
def relaid (k : Nat) (returns : Nat → Bool) (n : Nat) : Text → Text
  | [] => []
  | c :: t =>
    if c = '\n' then
      (if returns n then ['\r', '\n'] else ['\n']) ++
        (List.replicate k ' ' ++ relaid k returns (n + 1) t)
    else c :: relaid k returns n t

section Relaid

variable (k : Nat) (returns : Nat → Bool) (n : Nat)

theorem relaid_newline (t : Text) :
    relaid k returns n ('\n' :: t) =
      (if returns n then ['\r', '\n'] else ['\n']) ++
        (List.replicate k ' ' ++ relaid k returns (n + 1) t) := rfl

theorem relaid_cons {c : Char} (hc : c ≠ '\n') (t : Text) :
    relaid k returns n (c :: t) = c :: relaid k returns n t :=
  if_neg hc

/-- Laying a text out anew puts no line end at its start. -/
theorem relaid_ne_newline_cons {t : Text} (h : ∀ u, t ≠ '\n' :: u) (u : Text) :
    relaid k returns n t ≠ '\n' :: u := by
  rcases t with _ | ⟨c, t⟩
  · exact nofun
  · have hc : c ≠ '\n' := fun hc => h t (by rw [hc])
    rw [relaid_cons k returns n hc]
    exact fun hcons => hc (List.cons.inj hcons).1

end Relaid

/-! ## Lines -/

/-- All lines but the first with `w` in front. -/
def indentLater (w : Text) : List Text → List Text
  | [] => []
  | first :: rest => first :: rest.map (w ++ ·)

/-- The same text in front keeps two lines the same up to blanks at the end. -/
theorem Padded.append_left {line raw : Text} (h : Padded line raw) (w : Text) :
    Padded (w ++ line) (w ++ raw) := by
  obtain ⟨blanks, hblanks, rfl⟩ := h
  exact ⟨blanks, hblanks, (List.append_assoc w line blanks).symm⟩

/-- What is put in front of the first line is no blank at an end. -/
theorem forall₂_padded_modifyHead (w : Text) {ls raws : List Text}
    (h : List.Forall₂ Padded ls raws) :
    List.Forall₂ Padded (ls.modifyHead (w ++ ·)) (raws.modifyHead (w ++ ·)) := by
  cases h with
  | nil => exact .nil
  | cons hline hrest => exact .cons (hline.append_left w) hrest

/-- **The lines of a text with other spaces and line ends.** The spaces after line feeds open every
line but the first; a carriage return before a line feed belongs to the line end, or else is one
more blank at the end of its line. -/
theorem forall₂_lines_relaid (k : Nat) (returns : Nat → Bool) (n : Nat) (t : Text) :
    List.Forall₂ Padded (indentLater (List.replicate k ' ') (lines t))
      (lines (relaid k returns n t)) := by
  -- after a line feed, what stands in front of the later lines opens the next one too
  have hnext : ∀ (t u : Text),
      List.Forall₂ Padded (indentLater (List.replicate k ' ') (lines t)) (lines u) →
      List.Forall₂ Padded ((lines t).map (List.replicate k ' ' ++ ·))
        (lines (List.replicate k ' ' ++ u)) := by
    intro t u h
    obtain ⟨first, rest, hlines⟩ := List.exists_cons_of_ne_nil (lines_ne_nil t)
    rw [lines_append_of_notMem (by simp) (by simp), hlines]
    rw [hlines] at h
    exact forall₂_padded_modifyHead (List.replicate k ' ') h
  fun_induction lines t generalizing n with
  | case1 => exact .cons (Padded.refl []) .nil
  | case2 t ih =>
    have hrest := hnext t _ (ih (n + 1))
    rw [relaid_newline]
    cases returns n with
    | true => exact .cons (Padded.refl []) hrest
    | false => exact .cons (Padded.refl []) hrest
  | case3 t ih =>
    have hrest := hnext t _ (ih (n + 1))
    rw [relaid_cons k returns n (by decide), relaid_newline]
    cases returns n with
    | true => exact .cons ⟨['\r'], rfl, rfl⟩ hrest
    | false => exact .cons (Padded.refl []) hrest
  | case4 c t hc ht ih =>
    have hcut : ∀ u, c = '\r' → relaid k returns n t ≠ '\n' :: u := fun u hr =>
      relaid_ne_newline_cons k returns n (fun v hv => ht v hr hv) u
    have hhead : indentLater (List.replicate k ' ') ((lines t).modifyHead (c :: ·)) =
        (indentLater (List.replicate k ' ') (lines t)).modifyHead (c :: ·) := by
      cases lines t <;> rfl
    rw [relaid_cons k returns n hc, lines_cons hc hcut, hhead]
    exact forall₂_padded_modifyHead [c] (ih n)

end Text

/-! ## Cleaning -/

section Deeper

variable {w : Text} (hw : Text.isBlank w = true)

include hw

theorem isBlank_blanks_append (l : Text) : Text.isBlank (w ++ l) = Text.isBlank l := by
  rw [Text.isBlank_append, hw, Bool.true_and]

/-- The margin of lines that all have the same blanks in front. -/
theorem margin?_map_append (ls : List Text) :
    margin? (ls.map (w ++ ·)) = (margin? ls).map (w.length + ·) := by
  have hindents : ∀ n, n ∈ indents (ls.map (w ++ ·)) ↔ ∃ m ∈ indents ls, w.length + m = n := by
    intro n
    simp [indents, isBlank_blanks_append hw, Text.indent_append_of_isBlank hw, and_assoc]
  rcases hm : margin? ls with _ | m
  · simp_all [margin?, isBlank_blanks_append hw]
  · obtain ⟨hmem, hleast⟩ := margin?_eq_some_iff.mp hm
    refine margin?_eq_some_iff.mpr ⟨(hindents _).mpr ⟨m, hmem, rfl⟩, ?_⟩
    intro n hn
    obtain ⟨m', hm', rfl⟩ := (hindents n).mp hn
    exact Nat.add_le_add_left (hleast hm') w.length

/-- **Blanks in front of the later lines are cleaned away.** -/
theorem cleanLines_indentLater (ls : List Text) :
    cleanLines (Text.indentLater w ls) = cleanLines ls := by
  rcases ls with _ | ⟨first, rest⟩
  · rfl
  · simp only [Text.indentLater, cleanLines, List.map_map, margin?_map_append hw]
    congr 1
    apply List.map_congr_left
    intro l hl
    rcases hm : margin? rest with _ | m
    · -- without a margin the line is blank, and nothing is left of it
      have hblank : Text.isBlank l = true := by
        by_contra hspoken
        obtain ⟨m, hm', -⟩ := exists_margin hl (by simpa using hspoken)
        rw [hm'] at hm
        cases hm
      have hnil : ∀ u, Text.isBlank u = true → Text.trimEnd u = [] := fun u hu =>
        Text.trimEnd_append_blanks hu []
      simp [hnil, hblank, isBlank_blanks_append hw]
    · have hdrop : (w ++ l).drop (w.length + m) = l.drop m := by
        rw [← List.drop_drop, List.drop_left]
      simp [hdrop]

end Deeper

section Padded

variable {ls raws : List Text} (h : List.Forall₂ Text.Padded ls raws)

include h

/-- Blanks at the ends of lines do not change the margin. -/
theorem margin?_of_padded : margin? raws = margin? ls := by
  have hindents : (raws.filter (!Text.isBlank ·)).map Text.indent =
      (ls.filter (!Text.isBlank ·)).map Text.indent := by
    induction h with
    | nil => rfl
    | @cons line raw ls raws hpad _ ih =>
      rw [List.filter_cons, List.filter_cons, hpad.isBlank_eq]
      rcases hblank : Text.isBlank line with _ | _
      · simp [hpad.indent_eq hblank, ih]
      · simpa using ih
  rw [margin?, hindents, margin?]

/-- **Blanks at the ends of lines are cleaned away.** -/
theorem cleanLines_of_padded : cleanLines raws = cleanLines ls := by
  have htrimEnd : ∀ {line raw : Text} (m : Nat), Text.Padded line raw →
      Text.trimEnd (raw.drop m) = Text.trimEnd (line.drop m) := by
    rintro line raw m ⟨blanks, hblanks, rfl⟩
    rw [List.drop_append]
    refine Text.trimEnd_append_blanks ?_ _
    rw [Text.isBlank, List.all_eq_true] at hblanks ⊢
    exact fun c hc => hblanks c (List.mem_of_mem_drop hc)
  cases h with
  | nil => rfl
  | @cons first firstRaw rest restRaws hfirst hrest =>
    rw [cleanLines, cleanLines, hfirst.trim_eq, margin?_of_padded hrest]
    congr 1
    generalize (margin? rest).getD 0 = m
    induction hrest with
    | nil => rfl
    | cons hpad _ ih => rw [List.map_cons, List.map_cons, htrimEnd m hpad, ih]

end Padded

/-! ## Docstrings -/

/-- Deeper lines and other line ends come out the same after cleaning. -/
theorem cleanLines_relaid (raw : Text) (k : Nat) (returns : Nat → Bool) (n : Nat) :
    cleanLines (Text.lines (expandTabs (raw.relaid k returns n))) =
      cleanLines (Text.lines (expandTabs raw)) := by
  have hw : Text.isBlank (expandTabs (List.replicate k ' ')) = true := by
    rw [isBlank_expandTabs, Text.isBlank_replicate_space]
  have hlater : (Text.indentLater (List.replicate k ' ') (Text.lines raw)).map expandTabs =
      Text.indentLater (expandTabs (List.replicate k ' ')) ((Text.lines raw).map expandTabs) := by
    rcases Text.lines raw with _ | ⟨first, rest⟩
    · rfl
    · simp [Text.indentLater, expandTabs_append]
  have hlines := List.forall₂_map_right_iff.mpr (List.forall₂_map_left_iff.mpr
    ((Text.forall₂_lines_relaid k returns n raw).imp fun _ _ hpad => hpad.expandTabs))
  rw [lines_expandTabs, lines_expandTabs, cleanLines_of_padded hlines, hlater,
    cleanLines_indentLater hw]

/-- **A docstring reads the same at any depth and with either line end.** Put any number of spaces
after every line feed of a docstring, and a carriage return before all, some or none of its line
feeds. It is cleaned to the same text as before, or to nothing as before; so it is parsed alike, and
every declaration that carries it has the same diagnostics. -/
theorem cleanDocstring_relaid (raw : Text) (k : Nat) (returns : Nat → Bool) :
    let moved := raw.relaid k returns 0
    cleanDocstring moved = cleanDocstring raw ∧
      (cleanDocstring moved).map Docstring.parse = (cleanDocstring raw).map Docstring.parse ∧
      ∀ d : Declaration, { d with docstring := cleanDocstring moved }.check =
        { d with docstring := cleanDocstring raw }.check := by
  intro moved
  have hclean : cleanDocstring moved = cleanDocstring raw := by
    rw [cleanDocstring, cleanLines_relaid, cleanDocstring]
  rw [hclean]
  exact ⟨rfl, rfl, fun _ => rfl⟩

end FieldLint
