import FieldLint.Proofs.TextLines

/-!
# Folding in parts

Folding turns putting lists of pieces together into `spaced`: what the first list says, a space, and
what the second one says, without the space if one of them says nothing. That operation is
associative, and it keeps texts trimmed:

* **step** — one more piece in front puts its trimmed text in front (`foldText_cons`);
* **run** — a list of pieces can be cut anywhere and its parts folded on their own
  (`foldText_append`), so folding what was folded changes nothing.
-/

namespace FieldLint

namespace Text

/-! ## Trimmed texts -/

/-- What stands before a text that is not blank leaves the blanks at its end alone. -/
theorem trimEnd_append_of_notBlank {u : Text} (h : isBlank u = false) (t : Text) :
    trimEnd (t ++ u) = t ++ trimEnd u := by
  have hrev : isBlank u.reverse = false := by rwa [isBlank, List.all_reverse]
  have hdrop : (u.reverse ++ t.reverse).dropWhile isBlankChar =
      u.reverse.dropWhile isBlankChar ++ t.reverse := (opening_append hrev t.reverse).2
  rw [trimEnd, List.reverse_append, hdrop, List.reverse_append, List.reverse_reverse, trimEnd]

theorem trimStart_of_trim_eq {t : Text} (h : trim t = t) : trimStart t = t := by
  have hpre : t <+: trimStart t := by
    conv_lhs => rw [← h]
    exact trimEnd_isPrefix _
  exact (List.dropWhile_suffix isBlankChar).eq_of_length_le hpre.length_le

theorem trimEnd_of_trim_eq {t : Text} (h : trim t = t) : trimEnd t = t := by
  conv_lhs => rw [← trimStart_of_trim_eq h]
  exact h

/-- A trimmed text that is not empty is not blank. -/
theorem isBlank_of_trim_eq {t : Text} (h : trim t = t) (hne : t ≠ []) : isBlank t = false := by
  rw [Bool.eq_false_iff, Ne, ← trim_eq_nil_iff, h]
  exact hne

/-! ## Texts with a space between them -/

/-- Two texts with a space between them; if one of them is empty, the other one. -/
def spaced (t u : Text) : Text :=
  if t.isEmpty then u else if u.isEmpty then t else t ++ ' ' :: u

@[simp] theorem spaced_nil_left (u : Text) : spaced [] u = u := rfl

@[simp] theorem spaced_nil_right (t : Text) : spaced t [] = t := by
  cases t <;> rfl

/-- Two texts that say something get one space between them. -/
theorem spaced_of_ne_nil {t u : Text} (ht : t ≠ []) (hu : u ≠ []) : spaced t u = t ++ ' ' :: u := by
  simp [spaced, ht, hu]

/-- Nothing comes of two texts exactly if both are empty. -/
theorem spaced_eq_nil_iff {t u : Text} : spaced t u = [] ↔ t = [] ∧ u = [] := by
  cases t <;> cases u <;> simp [spaced]

/-- It does not matter which two of three texts are put together first. -/
theorem spaced_assoc (t u v : Text) : spaced (spaced t u) v = spaced t (spaced u v) := by
  cases t <;> cases u <;> cases v <;> simp [spaced]

/-- The space between two texts is never at an end. -/
theorem trim_spaced {t u : Text} (ht : trim t = t) (hu : trim u = u) :
    trim (spaced t u) = spaced t u := by
  by_cases htnil : t = []
  · rw [htnil, spaced_nil_left, hu]
  by_cases hunil : u = []
  · rw [hunil, spaced_nil_right, ht]
  have hstart := (opening_append (isBlank_of_trim_eq ht htnil) (' ' :: u)).2
  have hend := trimEnd_append_of_notBlank (isBlank_of_trim_eq hu hunil) (t ++ [' '])
  rw [List.append_assoc, List.append_assoc, List.singleton_append, List.singleton_append,
    trimEnd_of_trim_eq hu] at hend
  rw [spaced_of_ne_nil htnil hunil, trim, hstart, trimStart_of_trim_eq ht, hend]

end Text

open Text

/-! ## Folding -/

/-- **Step.** -/
theorem foldText_cons (piece : Text) (pieces : List Text) :
    foldText (piece :: pieces) = spaced (trim piece) (foldText pieces) := by
  by_cases hpiece : trim piece = []
  · simp [foldText, hpiece]
  rcases hrest : (pieces.map trim).filter (!·.isEmpty) with _ | ⟨next, rest⟩
  · simp [foldText, hpiece, hrest]
  · have hnext : next ≠ [] := by
      have hmem := List.mem_filter.mp (hrest ▸ List.mem_cons_self : next ∈ _)
      simpa using hmem.2
    have hfold : foldText pieces = join [' '] (next :: rest) := by rw [foldText, hrest]
    have hne : foldText pieces ≠ [] := by
      rw [hfold, join]
      cases rest <;> simp [hnext, List.intercalate_cons_cons]
    rw [spaced_of_ne_nil hpiece hne, hfold]
    simp [foldText, hpiece, hrest, join, List.intercalate_cons_cons]

/-- **Run.** Pieces can be folded in two parts. -/
theorem foldText_append (pieces pieces' : List Text) :
    foldText (pieces ++ pieces') = spaced (foldText pieces) (foldText pieces') := by
  induction pieces with
  | nil => rfl
  | cons piece pieces ih =>
    rw [List.cons_append, foldText_cons, ih, foldText_cons, spaced_assoc]

/-- A folded text has no blanks at its ends. -/
theorem trim_foldText (pieces : List Text) : trim (foldText pieces) = foldText pieces := by
  induction pieces with
  | nil => rfl
  | cons piece pieces ih =>
    rw [foldText_cons]
    exact trim_spaced (trim_trim piece) ih

/-- Nothing is left exactly if all pieces are blank. -/
theorem foldText_eq_nil_iff {pieces : List Text} :
    foldText pieces = [] ↔ ∀ piece ∈ pieces, isBlank piece = true := by
  induction pieces with
  | nil => simp
  | cons piece pieces ih =>
    rw [foldText_cons, spaced_eq_nil_iff, ih, trim_eq_nil_iff, List.forall_mem_cons]

/-- **Folding in groups.** Folding all pieces of some groups is folding what each group is folded to.
So folding a second time changes nothing, a folded text is trimmed, and it is empty only if every
piece was blank. -/
theorem foldText_flatten (groups : List (List Text)) :
    foldText groups.flatten = foldText (groups.map foldText) ∧
    ∀ pieces : List Text,
      foldText [foldText pieces] = foldText pieces ∧
      trim (foldText pieces) = foldText pieces ∧
      (foldText pieces = [] ↔ ∀ piece ∈ pieces, isBlank piece = true) := by
  refine ⟨?_, fun pieces => ⟨?_, trim_foldText pieces, foldText_eq_nil_iff⟩⟩
  · induction groups with
    | nil => rfl
    | cons group groups ih =>
      calc
        foldText (group :: groups).flatten
          = spaced (foldText group) (foldText groups.flatten) := foldText_append group groups.flatten
        _ = spaced (trim (foldText group)) (foldText (groups.map foldText)) := by
          rw [ih, trim_foldText]
        _ = foldText ((group :: groups).map foldText) := (foldText_cons _ _).symm
  · rw [foldText_cons, foldText_nil, spaced_nil_right, trim_foldText]

end FieldLint
