import Mathlib.Data.List.Forall2
import FieldLint.Docstring.Fold
import FieldLint.Text.Lines

/-!
# Lines put together and cut apart

Joining lines with line feeds and cutting the text again gives the lines back, but for a carriage
return at the end of a line, which then belongs to the line end. So the cut lines are the given ones
up to blanks at their ends: each given line is `Padded` from a cut one. Such blanks do not matter
for what is trimmed, for which lines are blank, or for the indentation of the others.

A text is cut at every line feed (`lines_append_cons_newline`), so lines put into the middle of a
text do not change how the rest is cut (`lines_unlines_middle`).
-/

namespace FieldLint

namespace Text

/-! ## Blanks at the end of a line -/

/-- The text `raw` is `line` with blanks after it. -/
def Padded (line raw : Text) : Prop :=
  ∃ blanks, isBlank blanks = true ∧ raw = line ++ blanks

theorem Padded.refl (line : Text) : Padded line line :=
  ⟨[], rfl, (List.append_nil line).symm⟩

theorem isBlank_append (t u : Text) : isBlank (t ++ u) = (isBlank t && isBlank u) :=
  List.all_append

theorem isBlank_replicate_space (k : Nat) : isBlank (List.replicate k ' ') = true := by
  rw [isBlank, List.all_replicate]
  cases k <;> rfl

/-- Nothing is left of a text by trimming exactly if it is blank. -/
theorem trim_eq_nil_iff {t : Text} : trim t = [] ↔ isBlank t = true := by
  rw [← trimStart_eq_nil_iff]
  constructor
  · intro h
    have hrev : (trimStart t).reverse.dropWhile isBlankChar = [] := List.reverse_eq_nil_iff.mp h
    -- what is left at the start opens with a character that is not blank, unless it is empty
    have hall : isBlank (trimStart t) = true := by
      rw [isBlank, ← List.all_reverse]
      exact trimStart_eq_nil_iff.mp hrev
    rw [trimStart_eq_nil_iff]
    rw [← takeWhile_append_trimStart t, isBlank_append, hall, Bool.and_true]
    exact List.all_takeWhile
  · intro h
    rw [trim, h]
    rfl

/-- What comes after a text that is not blank leaves its opening blanks alone. -/
theorem opening_append {t : Text} (h : isBlank t = false) (u : Text) :
    indent (t ++ u) = indent t ∧ trimStart (t ++ u) = trimStart t ++ u := by
  induction t with
  | nil => cases h
  | cons c t ih =>
    by_cases hc : isBlankChar c = true
    · have ht : isBlank t = false := by simpa [isBlank, hc] using h
      obtain ⟨hindent, htrim⟩ := ih ht
      constructor
      · simpa [indent, hc] using hindent
      · simpa [trimStart, hc] using htrim
    · simp [indent, trimStart, hc]

/-- Blanks at the end are trimmed away. -/
theorem trimEnd_append_blanks {blanks : Text} (h : isBlank blanks = true) (t : Text) :
    trimEnd (t ++ blanks) = trimEnd t := by
  have hblanks : ∀ c ∈ blanks.reverse, isBlankChar c = true := by
    simpa [isBlank] using h
  rw [trimEnd, List.reverse_append, List.dropWhile_append_of_pos hblanks]
  rfl

namespace Padded

variable {line raw : Text}

theorem isBlank_eq (h : Padded line raw) : isBlank raw = isBlank line := by
  obtain ⟨blanks, hblanks, rfl⟩ := h
  rw [isBlank_append, hblanks, Bool.and_true]

/-- Blanks at the end make no difference after trimming. -/
theorem trim_eq (h : Padded line raw) : trim raw = trim line := by
  rcases hline : isBlank line with _ | _
  · obtain ⟨blanks, hblanks, rfl⟩ := h
    rw [trim, (opening_append hline blanks).2, trimEnd_append_blanks hblanks]
    rfl
  · rw [trim_eq_nil_iff.mpr hline, trim_eq_nil_iff, h.isBlank_eq, hline]

/-- Blanks at the end do not change the indentation of a line that says something. -/
theorem indent_eq (h : Padded line raw) (hline : isBlank line = false) :
    indent raw = indent line := by
  obtain ⟨blanks, -, rfl⟩ := h
  exact (opening_append hline blanks).1

end Padded

/-- Lines padded to others are trimmed to the same. -/
theorem map_trim_of_padded {ls raws : List Text} (h : List.Forall₂ Padded ls raws) :
    ls.map trim = raws.map trim := by
  induction h with
  | nil => rfl
  | cons hpad _ ih => rw [List.map_cons, List.map_cons, ih, hpad.trim_eq]

/-! ## Trimming -/

/-- Blanks in front are trimmed away. -/
theorem trimStart_append_of_isBlank {w : Text} (h : isBlank w = true) (t : Text) :
    trimStart (w ++ t) = trimStart t :=
  List.dropWhile_append_of_pos (by simpa [isBlank] using h)

theorem trimStart_cons_of_notBlank {c : Char} (h : isBlankChar c = false) (t : Text) :
    trimStart (c :: t) = c :: t :=
  List.dropWhile_cons_of_neg (by simp [h])

/-- Trimming at the end does not reach past a character that is not blank. -/
theorem trimEnd_append_cons {c : Char} (h : isBlankChar c = false) (t u : Text) :
    trimEnd (t ++ c :: u) = t ++ c :: trimEnd u := by
  have hrev : (t ++ c :: u).reverse = u.reverse ++ c :: t.reverse := by simp
  have hstop : (c :: t.reverse).dropWhile isBlankChar = c :: t.reverse :=
    trimStart_cons_of_notBlank h _
  rw [trimEnd, hrev, List.dropWhile_append, hstop]
  split
  · rename_i hall
    have hu : trimEnd u = [] := by rw [trimEnd, List.isEmpty_iff.mp hall, List.reverse_nil]
    simp [hu]
  · simp [trimEnd]

/-- A text is what trimming leaves and blanks. -/
theorem padded_trimEnd (t : Text) : Padded (trimEnd t) t := by
  refine ⟨(t.reverse.takeWhile isBlankChar).reverse, ?_, ?_⟩
  · rw [isBlank, List.all_reverse]
    exact List.all_takeWhile
  · rw [trimEnd, ← List.reverse_append, List.takeWhile_append_dropWhile, List.reverse_reverse]

theorem trimEnd_isPrefix (t : Text) : trimEnd t <+: t := by
  obtain ⟨blanks, -, h⟩ := padded_trimEnd t
  exact ⟨blanks, h.symm⟩

theorem trim_cons_of_isBlankChar {c : Char} (h : isBlankChar c = true) (t : Text) :
    trim (c :: t) = trim t := by
  have hstart : trimStart (c :: t) = trimStart t := List.dropWhile_cons_of_pos h
  rw [trim, hstart, trim]

theorem trimEnd_trimEnd (t : Text) : trimEnd (trimEnd t) = trimEnd t := by
  obtain ⟨blanks, hblanks, ht⟩ := padded_trimEnd t
  conv_rhs => rw [ht, trimEnd_append_blanks hblanks]

/-- What is left at the start of a text opens with a character that is not blank. -/
theorem notBlank_of_trimStart_eq_cons {t u : Text} {c : Char} (h : trimStart t = c :: u) :
    isBlankChar c = false := by
  have hhead := List.head?_dropWhile_not isBlankChar t
  rw [← trimStart, h] at hhead
  exact hhead

/-- A text is trimmed at its end after its first character that is not blank. -/
theorem trim_of_trimStart_eq_cons {t u : Text} {c : Char} (h : trimStart t = c :: u) :
    trim t = c :: trimEnd u := by
  rw [trim, h]
  exact trimEnd_append_cons (notBlank_of_trimStart_eq_cons h) [] u

/-- Trimming a second time changes nothing. -/
theorem trim_trim (t : Text) : trim (trim t) = trim t := by
  rcases ht : trimStart t with _ | ⟨c, u⟩
  · have hnil : trim t = [] := by
      rw [trim, ht]
      rfl
    rw [hnil]
    rfl
  · have hc := notBlank_of_trimStart_eq_cons ht
    rw [trim_of_trimStart_eq_cons ht, trim, trimStart_cons_of_notBlank hc]
    exact (trimEnd_append_cons hc [] _).trans (congrArg (c :: ·) (trimEnd_trimEnd u))

/-- A text with no blank at either end is trimmed. -/
theorem trim_eq_self {c c' : Char} {t : Text} (hc : isBlankChar c = false)
    (hc' : isBlankChar c' = false) : trim (c :: (t ++ [c'])) = c :: (t ++ [c']) := by
  rw [trim, trimStart_cons_of_notBlank hc, ← List.cons_append, trimEnd_append_cons hc']
  rfl

/-- A text without blanks is trimmed already. -/
theorem trim_of_notBlank {t : Text} (h : ∀ c ∈ t, isBlankChar c = false) : trim t = t := by
  have hkeep : ∀ u : Text, (∀ c ∈ u, isBlankChar c = false) → u.dropWhile isBlankChar = u := by
    intro u hu
    rcases u with _ | ⟨c, u⟩
    · rfl
    · exact trimStart_cons_of_notBlank (hu c List.mem_cons_self) u
  rw [trim, trimStart, hkeep t h, trimEnd, hkeep, List.reverse_reverse]
  exact fun c hc => h c (List.mem_reverse.mp hc)

/-! ## Cutting joined lines apart -/

theorem unlines_cons_cons (l l' : Text) (ls : List Text) :
    unlines (l :: l' :: ls) = l ++ '\n' :: unlines (l' :: ls) := by
  simp [unlines, join, List.intercalate]

/-- A text without a line feed is one line. -/
theorem lines_of_notMem {l : Text} (h : '\n' ∉ l) : lines l = [l] := by
  fun_induction lines l with
  | case1 => rfl
  | case2 => simp at h
  | case3 => simp at h
  | case4 c rest _ _ ih =>
    rw [List.mem_cons, not_or] at h
    rw [ih h.2]
    rfl

/-- A character that ends no line opens the first line. -/
theorem lines_cons {c : Char} {t : Text} (hc : c ≠ '\n') (ht : ∀ u, c = '\r' → t ≠ '\n' :: u) :
    lines (c :: t) = (lines t).modifyHead (c :: ·) := by
  rw [lines.eq_4 c t (fun h => hc h) fun u h => ht u h]

/-- Characters that end no line open the first line. -/
theorem lines_append_of_notMem {w : Text} (hnewline : '\n' ∉ w) (hreturn : '\r' ∉ w) (t : Text) :
    lines (w ++ t) = (lines t).modifyHead (w ++ ·) := by
  induction w with
  | nil =>
    rw [List.nil_append]
    cases lines t <;> rfl
  | cons c w ih =>
    rw [List.mem_cons, not_or] at hnewline hreturn
    rw [List.cons_append, lines_cons (Ne.symm hnewline.1) fun _ hc => absurd hc.symm hreturn.1,
      ih hnewline.2 hreturn.2, List.modifyHead_modifyHead]
    rfl

/-- The text without a carriage return at its end. -/
def chomp (t : Text) : Text :=
  if t.getLast? = some '\r' then t.dropLast else t

theorem chomp_eq_self {t : Text} (h : t.getLast? ≠ some '\r') : chomp t = t :=
  if_neg h

theorem chomp_cons {c : Char} {t : Text} (h : c = '\r' → t ≠ []) :
    chomp (c :: t) = c :: chomp t := by
  rcases t with _ | ⟨c', t⟩
  · have hc : c ≠ '\r' := fun hc => h hc rfl
    simp [chomp, hc]
  · unfold chomp
    rw [List.getLast?_cons_cons, List.dropLast_cons_cons]
    split <;> rfl

theorem chomp_isPrefix (t : Text) : chomp t <+: t := by
  unfold chomp
  split
  · exact List.dropLast_prefix t
  · exact List.prefix_refl t

/-- A carriage return at the end is a blank like others. -/
theorem padded_chomp (t : Text) : Padded (chomp t) t := by
  unfold chomp
  split
  · rename_i h
    exact ⟨['\r'], rfl, (List.dropLast_append_getLast? '\r' h).symm⟩
  · exact Padded.refl t

/-- **A line feed cuts a text in two.** A carriage return right before it goes with it. -/
theorem lines_append_cons_newline (t u : Text) :
    lines (t ++ '\n' :: u) = lines (chomp t) ++ lines u := by
  fun_induction lines t with
  | case1 =>
    rw [List.nil_append, lines.eq_2]
    rfl
  | case2 t ih =>
    rw [List.cons_append, chomp_cons (fun h => absurd h (by decide)), lines.eq_2, lines.eq_2, ih,
      List.cons_append]
  | case3 t ih =>
    rw [chomp_cons (fun _ => List.cons_ne_nil _ _), chomp_cons (fun h => absurd h (by decide)),
      List.cons_append, List.cons_append, lines.eq_3, lines.eq_3, ih, List.cons_append]
  | case4 c t hc ht ih =>
    by_cases hlast : c = '\r' ∧ t = []
    · -- the carriage return belongs to the line end
      obtain ⟨rfl, rfl⟩ := hlast
      rw [List.singleton_append, lines.eq_3]
      rfl
    · have hcut : ∀ v, c = '\r' → t ++ '\n' :: u ≠ '\n' :: v := by
        rintro v rfl hv
        rcases t with _ | ⟨c', t⟩
        · exact hlast ⟨rfl, rfl⟩
        · exact ht t rfl (by rw [(List.cons.inj hv).1])
      have hchomp : ∀ v, c = '\r' → chomp t ≠ '\n' :: v := by
        rintro v rfl hv
        obtain ⟨rest, hrest⟩ := chomp_isPrefix t
        exact ht (v ++ rest) rfl (by rw [← hrest, hv]; rfl)
      rw [List.cons_append, lines_cons (fun h => hc h) hcut, ih,
        chomp_cons fun hr ht => hlast ⟨hr, ht⟩, lines_cons (fun h => hc h) hchomp]
      obtain ⟨first, rest, hlines⟩ := List.exists_cons_of_ne_nil (lines_ne_nil (chomp t))
      rw [hlines]
      rfl

/-- Up to the first line feed stands the first line, possibly with a carriage return after it. -/
theorem lines_append_newline {l : Text} (h : '\n' ∉ l) (rest : Text) :
    ∃ line, lines (l ++ '\n' :: rest) = line :: lines rest ∧ Padded line l := by
  have hchomp : '\n' ∉ chomp l := fun hmem => h ((chomp_isPrefix l).subset hmem)
  refine ⟨chomp l, ?_, padded_chomp l⟩
  rw [lines_append_cons_newline, lines_of_notMem hchomp, List.singleton_append]

/-- A carriage return after a text stands at the end of its last line. -/
theorem lines_concat_return (t : Text) :
    ∃ before last, lines t = before ++ [last] ∧
      lines (t ++ ['\r']) = before ++ [last ++ ['\r']] := by
  fun_induction lines t with
  | case1 => exact ⟨[], [], rfl, rfl⟩
  | case2 t ih =>
    obtain ⟨before, last, ht, hreturn⟩ := ih
    refine ⟨[] :: before, last, by rw [ht]; rfl, ?_⟩
    rw [List.cons_append, lines.eq_2, hreturn, List.cons_append]
  | case3 t ih =>
    obtain ⟨before, last, ht, hreturn⟩ := ih
    refine ⟨[] :: before, last, by rw [ht]; rfl, ?_⟩
    rw [List.cons_append, List.cons_append, lines.eq_3, hreturn, List.cons_append]
  | case4 c t hc ht' ih =>
    obtain ⟨before, last, ht, hreturn⟩ := ih
    have hlines : lines (c :: (t ++ ['\r'])) = (lines (t ++ ['\r'])).modifyHead (c :: ·) := by
      refine lines_cons (fun h => hc h) ?_
      rintro u rfl hu
      rcases t with _ | ⟨c', t⟩
      · cases hu
      · rw [List.cons_append, List.cons.injEq] at hu
        exact ht' t rfl (by rw [hu.1])
    rw [List.cons_append, hlines, ht, hreturn]
    rcases before with _ | ⟨first, before⟩
    · exact ⟨[], c :: last, rfl, rfl⟩
    · exact ⟨(c :: first) :: before, last, rfl, rfl⟩

/-- Joined lines are cut where they were joined; a carriage return at the end of a line that has
another one after it goes with the line end. -/
theorem lines_unlines_append {ls ls' : List Text} (h : ∀ l ∈ ls, '\n' ∉ l) (hne : ls' ≠ []) :
    lines (unlines (ls ++ ls')) = ls.map chomp ++ lines (unlines ls') := by
  induction ls with
  | nil => rfl
  | cons l ls ih =>
    rw [List.forall_mem_cons] at h
    have hchomp : '\n' ∉ chomp l := fun hmem => h.1 ((chomp_isPrefix l).subset hmem)
    obtain ⟨x, xs, hxs⟩ := List.exists_cons_of_ne_nil (List.append_ne_nil_of_right_ne_nil ls hne)
    rw [List.cons_append, hxs, unlines_cons_cons, lines_append_cons_newline,
      lines_of_notMem hchomp, ← hxs, ih h.2]
    rfl

/-- Lines without line feeds that do not end in a carriage return are cut where they were joined. -/
theorem lines_unlines {ls : List Text} (hne : ls ≠ [])
    (h : ∀ l ∈ ls, '\n' ∉ l ∧ l.getLast? ≠ some '\r') : lines (unlines ls) = ls := by
  obtain ⟨before, last, rfl⟩ := (List.eq_nil_or_concat' ls).resolve_left hne
  have hlast := h last (by simp)
  have hchomp : before.map chomp = before := by
    refine (List.map_congr_left fun l hl => chomp_eq_self ?_).trans (List.map_id' before)
    exact (h l (List.mem_append_left _ hl)).2
  rw [lines_unlines_append (fun l hl => (h l (List.mem_append_left _ hl)).1)
    (List.cons_ne_nil _ _), hchomp, unlines, join_singleton, lines_of_notMem hlast.1]

/-- Lines in the middle of a text are cut where they were joined, and what stands around them is cut
the same way whatever they are. -/
theorem lines_unlines_middle {pre : List Text} (hpre : ∀ l ∈ pre, '\n' ∉ l) (post : List Text) :
    ∃ rest, ∀ ls : List Text, ls ≠ [] → (∀ l ∈ ls, '\n' ∉ l ∧ l.getLast? ≠ some '\r') →
      lines (unlines (pre ++ (ls ++ post))) = pre.map chomp ++ (ls ++ rest) := by
  rcases post with _ | ⟨p, post⟩
  · refine ⟨[], fun ls hne hls => ?_⟩
    rw [List.append_nil, lines_unlines_append hpre hne, lines_unlines hne hls]
  · refine ⟨lines (unlines (p :: post)), fun ls hne hls => ?_⟩
    have hchomp : ls.map chomp = ls :=
      (List.map_congr_left fun l hl => chomp_eq_self (hls l hl).2).trans (List.map_id' ls)
    rw [lines_unlines_append hpre (by simp), lines_unlines_append (fun l hl => (hls l hl).1)
      (List.cons_ne_nil _ _), hchomp]

/-- Joined lines are cut where they were joined, up to blanks at their ends. -/
theorem forall₂_lines_unlines {ls : List Text} (hne : ls ≠ []) (h : ∀ l ∈ ls, '\n' ∉ l) :
    List.Forall₂ Padded (lines (unlines ls)) ls := by
  induction ls with
  | nil => exact absurd rfl hne
  | cons l ls ih =>
    cases ls with
    | nil =>
      have hl := h l List.mem_cons_self
      rw [unlines, join_singleton, lines_of_notMem hl]
      exact .cons (Padded.refl l) .nil
    | cons l' ls =>
      obtain ⟨line, hlines, hpad⟩ :=
        lines_append_newline (h l List.mem_cons_self) (unlines (l' :: ls))
      rw [unlines_cons_cons, hlines]
      exact .cons hpad (ih (List.cons_ne_nil _ _) fun l hl => h l (List.mem_cons_of_mem _ hl))

end Text

/-! ## Folding -/

/-- Folding looks at trimmed pieces only. -/
theorem foldText_congr {pieces pieces' : List Text}
    (h : pieces.map Text.trim = pieces'.map Text.trim) : foldText pieces = foldText pieces' := by
  rw [foldText, h, foldText]

end FieldLint
