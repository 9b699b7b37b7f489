import FieldLint.Proofs.CleanedLines

/-!
# Tabs

`Text.tabbed` puts spaces for tabs, as many as the column says; `expandTabs` puts eight for every
column (`tabbed_eight`). Whatever the numbers are, a line is blank as before (`isBlank_tabbed`), the
text is cut into the same lines (`lines_tabbed`), and only a tab inside the text of a line changes
what the line says (`trim_tabbed`).
-/

namespace FieldLint

/-! ## Columns -/

namespace Text

/-- The text with spaces for tabs: a tab at a column becomes as many as `width` says. The text
starts at `column`, and columns are counted anew after each line end. -/
def tabbed (width : Nat → Nat) (column : Nat) : Text → Text
  | [] => []
  | c :: t =>
    if c = '\t' then
      List.replicate (width column) ' ' ++ tabbed width (column + width column) t
    else c :: tabbed width (if c = '\n' ∨ c = '\r' then 0 else column + 1) t

section Tabbed

variable (width : Nat → Nat) (column : Nat)

theorem tabbed_tab (t : Text) :
    tabbed width column ('\t' :: t) =
      List.replicate (width column) ' ' ++ tabbed width (column + width column) t := rfl

theorem tabbed_cons {c : Char} (hc : c ≠ '\t') (t : Text) :
    tabbed width column (c :: t) =
      c :: tabbed width (if c = '\n' ∨ c = '\r' then 0 else column + 1) t :=
  if_neg hc

/-- Within a line, a character takes one column. -/
theorem tabbed_cons_within {c : Char} (hc : c ≠ '\t') (hnewline : c ≠ '\n') (hreturn : c ≠ '\r')
    (t : Text) : tabbed width column (c :: t) = c :: tabbed width (column + 1) t := by
  rw [tabbed_cons width column hc, if_neg (not_or.mpr ⟨hnewline, hreturn⟩)]

/-- Replacing tabs keeps blank texts blank and others not. -/
theorem isBlank_tabbed (t : Text) : isBlank (tabbed width column t) = isBlank t := by
  induction t generalizing column with
  | nil => rfl
  | cons c t ih =>
    by_cases hc : c = '\t'
    · subst hc
      rw [tabbed_tab, isBlank_append, isBlank_replicate_space, ih]
      rfl
    · rw [tabbed_cons width column hc, isBlank, List.all_cons, ← isBlank, ih]
      rfl

/-- Spaces come in, and tabs go. -/
theorem of_mem_tabbed {t : Text} {c : Char} (h : c ∈ tabbed width column t) :
    c = ' ' ∨ c ∈ t ∧ c ≠ '\t' := by
  induction t generalizing column with
  | nil => cases h
  | cons d t ih =>
    have hlater : ∀ column', c ∈ tabbed width column' t → c = ' ' ∨ c ∈ d :: t ∧ c ≠ '\t' :=
      fun column' hc => (ih column' hc).imp_right (And.imp_left (List.mem_cons_of_mem d))
    by_cases hd : d = '\t'
    · subst hd
      rw [tabbed_tab, List.mem_append] at h
      exact h.elim (fun hspace => .inl (List.eq_of_mem_replicate hspace)) (hlater _)
    · rw [tabbed_cons width column hd, List.mem_cons] at h
      rcases h with rfl | h
      · exact .inr ⟨List.mem_cons_self, hd⟩
      · exact hlater _ h

/-- A tab does not bring a line feed to the front. -/
theorem tabbed_ne_newline_cons (hwidth : ∀ n, 0 < width n) {t : Text} (h : ∀ u, t ≠ '\n' :: u)
    (u : Text) : tabbed width column t ≠ '\n' :: u := by
  rcases t with _ | ⟨c, t⟩
  · exact nofun
  · by_cases hc : c = '\t'
    · subst hc
      obtain ⟨k, hk⟩ := Nat.exists_eq_succ_of_ne_zero (Nat.ne_of_gt (hwidth column))
      rw [tabbed_tab, hk, List.replicate_succ, List.cons_append]
      exact fun hcons => absurd (List.cons.inj hcons).1 (by decide)
    · rw [tabbed_cons width column hc]
      exact fun hcons => h t (by rw [(List.cons.inj hcons).1])

/-- **Each line but the first starts at column zero.** -/
theorem lines_tabbed (hwidth : ∀ n, 0 < width n) (t : Text) :
    ∃ first rest, lines t = first :: rest ∧
      lines (tabbed width column t) = tabbed width column first :: rest.map (tabbed width 0) := by
  fun_induction lines t generalizing column with
  | case1 => exact ⟨[], [], rfl, rfl⟩
  | case2 t ih =>
    obtain ⟨first, rest, hlines, htabbed⟩ := ih 0
    refine ⟨[], first :: rest, by rw [hlines], ?_⟩
    rw [tabbed_cons width column (by decide), lines.eq_2]
    exact congrArg _ htabbed
  | case3 t ih =>
    obtain ⟨first, rest, hlines, htabbed⟩ := ih 0
    refine ⟨[], first :: rest, by rw [hlines], ?_⟩
    rw [tabbed_cons width column (by decide), tabbed_cons width _ (by decide), lines.eq_3]
    exact congrArg _ htabbed
  | case4 c t hc ht ih =>
    by_cases htab : c = '\t'
    · subst htab
      obtain ⟨first, rest, hlines, htabbed⟩ := ih (column + width column)
      refine ⟨'\t' :: first, rest, by rw [hlines]; rfl, ?_⟩
      rw [tabbed_tab, lines_append_of_notMem (by simp) (by simp), htabbed]
      rfl
    · obtain ⟨first, rest, hlines, htabbed⟩ := ih (if c = '\n' ∨ c = '\r' then 0 else column + 1)
      have hcut : ∀ u, c = '\r' →
          tabbed width (if c = '\n' ∨ c = '\r' then 0 else column + 1) t ≠ '\n' :: u :=
        fun u hr => tabbed_ne_newline_cons width _ hwidth (fun v hv => ht v hr hv) u
      refine ⟨c :: first, rest, by rw [hlines]; rfl, ?_⟩
      rw [tabbed_cons width column htab, lines_cons hc hcut, htabbed, tabbed_cons width column htab]
      rfl

/-- Within a line, columns count on. -/
theorem tabbed_append {t : Text} (hnewline : '\n' ∉ t) (hreturn : '\r' ∉ t) (u : Text) :
    tabbed width column (t ++ u) = tabbed width column t ++
      tabbed width (column + (tabbed width column t).length) u := by
  induction t generalizing column with
  | nil => rfl
  | cons c t ih =>
    rw [List.mem_cons, not_or] at hnewline hreturn
    by_cases hc : c = '\t'
    · subst hc
      rw [List.cons_append, tabbed_tab, tabbed_tab, ih _ hnewline.2 hreturn.2, List.append_assoc,
        List.length_append, List.length_replicate, Nat.add_assoc]
    · have hstep := tabbed_cons_within width column hc (Ne.symm hnewline.1) (Ne.symm hreturn.1)
      rw [List.cons_append, hstep, hstep, ih _ hnewline.2 hreturn.2, List.cons_append,
        List.length_cons, Nat.add_right_comm, Nat.add_assoc column]

theorem ne_tab_of_notBlank {c : Char} (h : isBlankChar c = false) : c ≠ '\t' := by
  rintro rfl
  cases h

/-- The blanks in front of a line take columns, and are trimmed as before. -/
theorem trimStart_tabbed {t : Text} (hnewline : '\n' ∉ t) (hreturn : '\r' ∉ t) :
    trimStart (tabbed width column t) =
      tabbed width (column + indent (tabbed width column t)) (trimStart t) := by
  have hblank : isBlank (tabbed width column (t.takeWhile isBlankChar)) = true :=
    (isBlank_tabbed width column _).trans List.all_takeWhile
  have hsplit := tabbed_append width column
    (fun h => hnewline ((List.takeWhile_sublist isBlankChar).subset h))
    (fun h => hreturn ((List.takeWhile_sublist isBlankChar).subset h)) (trimStart t)
  rw [takeWhile_append_trimStart] at hsplit
  rw [hsplit, trimStart_append_of_isBlank hblank, indent_append_of_isBlank hblank]
  rcases ht : trimStart t with _ | ⟨c, u⟩
  · rfl
  · -- what comes after the blanks opens with a character that stays
    have hc := notBlank_of_trimStart_eq_cons ht
    have htab := ne_tab_of_notBlank hc
    rw [tabbed_cons _ _ htab, trimStart_cons_of_notBlank hc]
    simp [indent, hc, tabbed_cons _ _ htab]

/-- Trimming the end and replacing tabs can be done in either order. -/
theorem trimEnd_tabbed {t : Text} (hnewline : '\n' ∉ t) (hreturn : '\r' ∉ t) :
    trimEnd (tabbed width column t) = tabbed width column (trimEnd t) := by
  have hsub := (trimEnd_isPrefix t).subset
  obtain ⟨blanks, hblanks, ht⟩ := padded_trimEnd t
  have hsplit := tabbed_append width column (fun h => hnewline (hsub h))
    (fun h => hreturn (hsub h)) blanks
  rw [← ht] at hsplit
  rw [hsplit, trimEnd_append_blanks ((isBlank_tabbed width _ blanks).trans hblanks)]
  rcases List.eq_nil_or_concat' (trimEnd t) with hnil | ⟨u, c, hu⟩
  · rw [hnil]
    rfl
  · -- what is left ends in a character that stays
    have hc : isBlankChar c = false := getLast?_trimEnd (t := t) (by simp [hu])
    have htab := ne_tab_of_notBlank hc
    rw [hu] at hsub ⊢
    rw [tabbed_append width column (fun h => hnewline (hsub (List.mem_append_left _ h)))
      (fun h => hreturn (hsub (List.mem_append_left _ h))), tabbed_cons _ _ htab,
      trimEnd_append_cons hc]
    rfl

/-- **What a line says has the columns after its indentation.** -/
theorem trim_tabbed {t : Text} (hnewline : '\n' ∉ t) (hreturn : '\r' ∉ t) :
    trim (tabbed width column t) =
      tabbed width (column + indent (tabbed width column t)) (trim t) := by
  have hsub : trimStart t ⊆ t := (List.dropWhile_sublist isBlankChar).subset
  rw [trim, trimStart_tabbed width column hnewline hreturn,
    trimEnd_tabbed width _ (fun h => hnewline (hsub h)) (fun h => hreturn (hsub h)), trim]

end Tabbed

end Text

/-! ## Eight columns -/

/-- Tabs are replaced piece by piece, because the width does not depend on the column. -/
theorem expandTabs_append (t u : Text) : expandTabs (t ++ u) = expandTabs t ++ expandTabs u :=
  List.flatMap_append

theorem expandTabs_tab (t : Text) : expandTabs ('\t' :: t) = List.replicate 8 ' ' ++ expandTabs t :=
  rfl

theorem expandTabs_cons {c : Char} (hc : c ≠ '\t') (t : Text) :
    expandTabs (c :: t) = c :: expandTabs t := by
  simp [expandTabs, hc]

/-- Eight spaces for every tab, whatever its column. -/
theorem tabbed_eight (column : Nat) (t : Text) : t.tabbed (fun _ => 8) column = expandTabs t := by
  induction t generalizing column with
  | nil => rfl
  | cons c t ih =>
    by_cases hc : c = '\t'
    · subst hc
      rw [Text.tabbed_tab, ih, expandTabs_tab]
    · rw [Text.tabbed_cons _ _ hc, ih, expandTabs_cons hc]

/-- A text is blank with or without its tabs. -/
theorem isBlank_expandTabs (t : Text) : Text.isBlank (expandTabs t) = Text.isBlank t := by
  rw [← tabbed_eight 0, Text.isBlank_tabbed]

/-- No line ends at a tab. -/
theorem lines_expandTabs (t : Text) :
    Text.lines (expandTabs t) = (Text.lines t).map expandTabs := by
  obtain ⟨first, rest, hlines, htabbed⟩ := Text.lines_tabbed (fun _ => 8) 0 (fun _ => by decide) t
  have hfun : Text.tabbed (fun _ => 8) 0 = expandTabs := funext (tabbed_eight 0)
  rw [hfun] at htabbed
  rw [htabbed, hlines, List.map_cons]

/-- Lines that are the same up to blanks at the end stay so. -/
theorem Text.Padded.expandTabs {line raw : Text} (h : Padded line raw) :
    Padded (expandTabs line) (expandTabs raw) := by
  obtain ⟨blanks, hblanks, rfl⟩ := h
  exact ⟨_, (isBlank_expandTabs blanks).trans hblanks, expandTabs_append line blanks⟩

end FieldLint
