import Mathlib.Data.List.Basic
import FieldLint.Proofs.FieldList
import FieldLint.Proofs.MarkupBlocks

/-!
# What each line of a docstring is for

A docstring is read by cutting it into sections, and each section into what continues its field and
what does not. Here every line gets its `Role` by its position alone:

* **Description** — a line with no marker line at or before it.
* **Marker** — a line that opens a field: it stands outside explicit markup (`InMarkup`) and opens
  with a marker.
* **Continuation** of marker line `i` — a plain line that `i` is the last marker line before, all
  lines in between and the line itself being blank or indented deeper than `i`.
* **Aside** — any other line.

The reading of a docstring is then described by roles: the description, the text of each field and
the epilogue are the lines of one role each, in their order.
-/

namespace FieldLint

/-! ## Lines by position -/

/-- Line `i` of a docstring, counted from 0. Past the end there are blank lines without marker. -/
def lineAt (dl : List DocLine) (i : Nat) : DocLine :=
  dl.getD i ⟨0, [], none⟩

@[simp] theorem lineAt_cons_zero (x : DocLine) (dl : List DocLine) : lineAt (x :: dl) 0 = x := rfl

@[simp] theorem lineAt_cons_succ (x : DocLine) (dl : List DocLine) (i : Nat) :
    lineAt (x :: dl) (i + 1) = lineAt dl i := rfl

theorem lineAt_of_length_le {dl : List DocLine} {i : Nat} (h : dl.length ≤ i) :
    lineAt dl i = ⟨0, [], none⟩ := by
  rw [lineAt, List.getD_eq_getElem?_getD, List.getElem?_eq_none h]
  rfl

/-- The lines of a docstring at the positions with `p`, in their order. -/
def linesWhere (dl : List DocLine) (p : Nat → Prop) [DecidablePred p] : List DocLine :=
  ((List.range dl.length).filter p).map (lineAt dl)

section LinesWhere

variable {p q : Nat → Prop} [DecidablePred p] [DecidablePred q]

/-- The lines at some positions, by the first position and the others. -/
theorem linesWhere_cons (x : DocLine) (dl : List DocLine) :
    linesWhere (x :: dl) p =
      (if p 0 then [x] else []) ++ linesWhere dl fun k => p (k + 1) := by
  have hmap : ((List.range dl.length).map Nat.succ).filter p =
      ((List.range dl.length).filter fun k => p (k + 1)).map Nat.succ := by
    rw [List.filter_map]
    rfl
  rw [linesWhere, List.length_cons, List.range_succ_eq_map, List.filter_cons, hmap]
  by_cases h : p 0 <;> simp [h, linesWhere, Function.comp_def]

/-- Only positions of lines that are there count. -/
theorem linesWhere_congr {dl : List DocLine} (h : ∀ k < dl.length, p k ↔ q k) :
    linesWhere dl p = linesWhere dl q := by
  unfold linesWhere
  congr 1
  apply List.filter_congr
  intro k hk
  simpa using h k (List.mem_range.mp hk)

theorem linesWhere_eq_nil {dl : List DocLine} (h : ∀ k, ¬p k) : linesWhere dl p = [] := by
  simp [linesWhere, h]

omit [DecidablePred p] in
/-- A position up to `k + 1` is the first one or comes right after one up to `k`. -/
theorem forall_le_succ_left {k : Nat} : (∀ j ≤ k + 1, p j) ↔ p 0 ∧ ∀ j ≤ k, p (j + 1) := by
  refine ⟨?_, ?_⟩
  · intro h
    exact ⟨h 0 (Nat.zero_le _), fun j hj => h (j + 1) (Nat.succ_le_succ hj)⟩
  · rintro ⟨h0, h⟩ j hj
    cases j with
    | zero => exact h0
    | succ j => exact h j (Nat.le_of_succ_le_succ hj)

/-- The lines at the positions with `p`, as long as `f` holds of them. -/
theorem linesWhere_takeWhile (dl : List DocLine) (f : DocLine → Bool) :
    (linesWhere dl p).takeWhile f =
      linesWhere dl fun k => p k ∧ ∀ j ≤ k, p j → f (lineAt dl j) = true := by
  induction dl generalizing p with
  | nil => rfl
  | cons x dl ih =>
    rw [linesWhere_cons, linesWhere_cons]
    by_cases h0 : p 0
    · by_cases hx : f x = true
      · simp [h0, hx, ih, forall_le_succ_left]
      · rw [linesWhere_eq_nil (p := fun k => p (k + 1) ∧ _)]
        · simp [h0, hx]
        · rintro k ⟨-, h⟩
          exact hx (h 0 (Nat.zero_le _) h0)
    · simp [h0, ih, forall_le_succ_left]

/-- The lines at the positions with `p` from the first one on of which `f` does not hold. -/
theorem linesWhere_dropWhile (dl : List DocLine) (f : DocLine → Bool) :
    (linesWhere dl p).dropWhile f =
      linesWhere dl fun k => p k ∧ ¬∀ j ≤ k, p j → f (lineAt dl j) = true := by
  induction dl generalizing p with
  | nil => rfl
  | cons x dl ih =>
    rw [linesWhere_cons, linesWhere_cons]
    by_cases h0 : p 0
    · by_cases hx : f x = true
      · simp [h0, hx, ih, forall_le_succ_left]
      · simp [h0, hx, forall_le_succ_left]
    · simp [h0, ih, forall_le_succ_left]

/-- Two sets of positions, one before the other. -/
theorem linesWhere_append (dl : List DocLine) (h : ∀ a b, p a → q b → a < b) :
    linesWhere dl p ++ linesWhere dl q = linesWhere dl fun k => p k ∨ q k := by
  induction dl generalizing p q with
  | nil => rfl
  | cons x dl ih =>
    have hih := ih (p := fun k => p (k + 1)) (q := fun k => q (k + 1))
      fun a b ha hb => Nat.lt_of_succ_lt_succ (h _ _ ha hb)
    rw [linesWhere_cons, linesWhere_cons, linesWhere_cons, ← hih]
    by_cases hq : q 0
    · -- position 0 has `q`, so no position has `p`
      have hp : ∀ k, ¬p k := fun k hk => Nat.not_lt_zero _ (h k 0 hk hq)
      rw [linesWhere_eq_nil (p := fun k => p (k + 1)) fun k => hp (k + 1), if_neg (hp 0)]
      simp [hp, hq]
    · by_cases hp : p 0 <;> simp [hp, hq]

@[simp] theorem linesWhere_true (dl : List DocLine) : (linesWhere dl fun _ => True) = dl := by
  induction dl with
  | nil => rfl
  | cons x dl ih => rw [linesWhere_cons, if_pos trivial, ih, List.singleton_append]

/-- Several sets of positions, each before the next. -/
theorem flatMap_linesWhere (dl : List DocLine) {sets : Nat → Nat → Prop}
    [∀ i, DecidablePred (sets i)] (h : ∀ i j a b, i < j → sets i a → sets j b → a < b) (n : Nat) :
    ((List.range n).flatMap fun i => linesWhere dl (sets i)) =
      linesWhere dl fun k => ∃ i < n, sets i k := by
  induction n with
  | zero => simp [linesWhere_eq_nil]
  | succ n ih =>
    rw [List.range_succ, List.flatMap_append, ih, List.flatMap_singleton, linesWhere_append]
    · apply linesWhere_congr
      intro k _
      refine ⟨?_, ?_⟩
      · rintro (⟨i, hi, hk⟩ | hk)
        · exact ⟨i, Nat.lt_succ_of_lt hi, hk⟩
        · exact ⟨n, Nat.lt_succ_self n, hk⟩
      · rintro ⟨i, hi, hk⟩
        rcases Nat.lt_succ_iff_lt_or_eq.mp hi with hi | rfl
        · exact .inl ⟨i, hi, hk⟩
        · exact .inr hk
    · rintro a b ⟨i, hi, ha⟩ hb
      exact h i n a b hi ha hb

end LinesWhere

/-! ## Owners and continuations -/

/-- Line `i` is the last marker line before the plain line `l`. -/
def Owns (dl : List DocLine) (i l : Nat) : Prop :=
  i < l ∧ (lineAt dl i).isPlain = false ∧ ∀ k ≤ l, i < k → (lineAt dl k).isPlain = true

/-- Line `l` continues the field of marker line `i`: every line after `i` up to `l` that is not
blank is indented deeper than `i`. -/
def Continues (dl : List DocLine) (i l : Nat) : Prop :=
  Owns dl i l ∧
    ∀ k ≤ l, i < k → (lineAt dl k).isBlank = false → (lineAt dl i).indent < (lineAt dl k).indent

instance (dl : List DocLine) (i l : Nat) : Decidable (Owns dl i l) :=
  inferInstanceAs (Decidable (_ ∧ _ ∧ _))

instance (dl : List DocLine) (i l : Nat) : Decidable (Continues dl i l) :=
  inferInstanceAs (Decidable (_ ∧ _))

theorem not_owns_zero (dl : List DocLine) (i : Nat) : ¬Owns dl i 0 :=
  fun h => Nat.not_lt_zero i h.1

/-- The first line owns the plain lines right after it. -/
theorem owns_cons_zero_succ {x : DocLine} {dl : List DocLine} {l : Nat} :
    Owns (x :: dl) 0 (l + 1) ↔ x.isPlain = false ∧ ∀ k ≤ l, (lineAt dl k).isPlain = true := by
  simp [Owns, forall_le_succ_left]

theorem owns_cons_succ_succ {x : DocLine} {dl : List DocLine} {i l : Nat} :
    Owns (x :: dl) (i + 1) (l + 1) ↔ Owns dl i l := by
  simp [Owns, forall_le_succ_left]

namespace Owns

variable {dl : List DocLine} {i j k l a b : Nat}

/-- A line with an owner is no marker line. -/
theorem isPlain (h : Owns dl i l) : (lineAt dl l).isPlain = true :=
  h.2.2 l (Nat.le_refl l) h.1

/-- No marker line stands between a line and its owner. -/
theorem not_lt_marker (h : Owns dl i l) (hk : (lineAt dl k).isPlain = false) (hkl : k ≤ l) :
    ¬i < k := by
  intro hik
  have hplain := h.2.2 k hkl hik
  rw [hk] at hplain
  cases hplain

theorem of_le (h : Owns dl i l) (hij : i < j) (hjl : j ≤ l) : Owns dl i j :=
  ⟨hij, h.2.1, fun k hk hik => h.2.2 k (Nat.le_trans hk hjl) hik⟩

/-- A line has at most one owner. -/
theorem unique (hi : Owns dl i l) (hj : Owns dl j l) : i = j := by
  have hij := hi.not_lt_marker hj.2.1 (Nat.le_of_lt hj.1)
  have hji := hj.not_lt_marker hi.2.1 (Nat.le_of_lt hi.1)
  omega

/-- What a later marker line owns comes later. -/
theorem lt_of_lt (hij : i < j) (ha : Owns dl i a) (hb : Owns dl j b) : a < b := by
  rcases Nat.lt_or_ge a j with h | h
  · exact Nat.lt_trans h hb.1
  · exact absurd hij (ha.not_lt_marker hb.2.1 h)

/-- An owner is one of the lines. -/
theorem lt_length (h : Owns dl i l) : i < dl.length := by
  rcases Nat.lt_or_ge i dl.length with hi | hi
  · exact hi
  · have hmarker := h.2.1
    rw [lineAt_of_length_le hi] at hmarker
    cases hmarker

end Owns

/-- A plain line with a marker line before it has an owner. -/
theorem exists_owns {dl : List DocLine} {l : Nat} (hl : (lineAt dl l).isPlain = true)
    (hm : ∃ k ≤ l, (lineAt dl k).isPlain = false) : ∃ i, Owns dl i l := by
  induction l with
  | zero =>
    obtain ⟨k, hk, hplain⟩ := hm
    obtain rfl := Nat.le_zero.mp hk
    rw [hl] at hplain
    cases hplain
  | succ l ih =>
    rcases hprev : (lineAt dl l).isPlain with _ | _
    · -- the line right before is the owner
      refine ⟨l, Nat.lt_succ_self l, hprev, fun k hk hlk => ?_⟩
      obtain rfl : k = l + 1 := by omega
      exact hl
    · -- the owner of the line before is the owner
      obtain ⟨k, hk, hplain⟩ := hm
      have hkl : k ≤ l := by
        rcases Nat.le_succ_iff.mp hk with h | rfl
        · exact h
        · rw [hl] at hplain
          cases hplain
      obtain ⟨i, hown⟩ := ih hprev ⟨k, hkl, hplain⟩
      refine ⟨i, Nat.lt_succ_of_lt hown.1, hown.2.1, fun j hj hij => ?_⟩
      rcases Nat.le_succ_iff.mp hj with h | rfl
      · exact hown.2.2 j h hij
      · exact hl

/-! ## Sections by position -/

/-- The section that line `i` opens, if it is a marker line: it holds the lines that `i` owns. -/
def sectionAt (dl : List DocLine) (i : Nat) : Option FieldSection :=
  (lineAt dl i).marker.map fun m => ⟨m, lineAt dl i, linesWhere dl (Owns dl i)⟩

/-- The section of the first line holds the plain lines right after it. -/
theorem sectionAt_cons_zero (x : DocLine) (dl : List DocLine) :
    sectionAt (x :: dl) 0 = x.marker.map fun m => ⟨m, x, dl.takeWhile DocLine.isPlain⟩ := by
  rcases hm : x.marker with _ | m
  · simp [sectionAt, hm]
  · have hx : x.isPlain = false := by simp [DocLine.isPlain, hm]
    have hbody : linesWhere (x :: dl) (Owns (x :: dl) 0) = dl.takeWhile DocLine.isPlain := by
      conv_rhs => rw [← linesWhere_true dl, linesWhere_takeWhile]
      rw [linesWhere_cons, if_neg (not_owns_zero _ 0), List.nil_append]
      apply linesWhere_congr
      intro k _
      simp [owns_cons_zero_succ, hx]
    simp [sectionAt, hm, hbody]

theorem sectionAt_cons_succ (x : DocLine) (dl : List DocLine) (i : Nat) :
    sectionAt (x :: dl) (i + 1) = sectionAt dl i := by
  have hbody : linesWhere (x :: dl) (Owns (x :: dl) (i + 1)) = linesWhere dl (Owns dl i) := by
    rw [linesWhere_cons, if_neg (not_owns_zero _ _), List.nil_append]
    apply linesWhere_congr
    intro k _
    exact owns_cons_succ_succ
  rw [sectionAt, lineAt_cons_succ, hbody]
  rfl

/-- Cutting a docstring into sections gives the section of each marker line. -/
theorem fieldSections_eq (dl : List DocLine) :
    fieldSections dl = (List.range dl.length).filterMap (sectionAt dl) := by
  induction dl with
  | nil => rfl
  | cons x dl ih =>
    have htail : ((List.range dl.length).map Nat.succ).filterMap (sectionAt (x :: dl)) =
        fieldSections dl := by
      rw [ih, List.filterMap_map]
      exact List.filterMap_congr fun i _ => sectionAt_cons_succ x dl i
    rw [List.length_cons, List.range_succ_eq_map, List.filterMap_cons, sectionAt_cons_zero, htail]
    rcases hm : x.marker with _ | m <;> simp [fieldSections, hm]

/-- A line continues the field if the section admits every line it holds up to there. -/
theorem continues_iff_admits {dl : List DocLine} {i l : Nat} {s : FieldSection}
    (hs : s.opener = lineAt dl i) :
    Continues dl i l ↔
      Owns dl i l ∧ ∀ j ≤ l, Owns dl i j → s.admits (lineAt dl j) = true := by
  refine and_congr_right fun hown => forall₂_congr fun j hj => ?_
  have hadmits : s.admits (lineAt dl j) = true ↔
      ((lineAt dl j).isBlank = false → (lineAt dl i).indent < (lineAt dl j).indent) := by
    rw [FieldSection.admits, hs, Bool.or_eq_true, decide_eq_true_iff]
    rcases (lineAt dl j).isBlank with _ | _ <;> simp
  rw [hadmits]
  exact ⟨fun h hj' => h hj'.1, fun h hij => h (hown.of_le hij hj)⟩

/-- What a section is made of. -/
theorem sectionAt_eq_some {dl : List DocLine} {i : Nat} {s : FieldSection}
    (h : sectionAt dl i = some s) :
    (lineAt dl i).marker = some s.marker ∧ s.opener = lineAt dl i ∧
      s.body = linesWhere dl (Owns dl i) := by
  obtain ⟨m, hm, rfl⟩ := Option.map_eq_some_iff.mp h
  exact ⟨hm, rfl, rfl⟩

/-- What continues the field of a section, by position. -/
theorem continuation_sectionAt {dl : List DocLine} {i : Nat} {s : FieldSection}
    (h : sectionAt dl i = some s) : s.continuation = linesWhere dl (Continues dl i) := by
  obtain ⟨-, hopener, hbody⟩ := sectionAt_eq_some h
  rw [FieldSection.continuation, hbody, linesWhere_takeWhile]
  exact linesWhere_congr fun l _ => (continues_iff_admits hopener).symm

/-- Line `l` belongs to the section of line `i` and does not continue its field. -/
def LeftBy (dl : List DocLine) (i l : Nat) : Prop :=
  Owns dl i l ∧ ¬Continues dl i l

instance (dl : List DocLine) (i l : Nat) : Decidable (LeftBy dl i l) :=
  inferInstanceAs (Decidable (_ ∧ _))

/-- The prose of a section, by position. -/
theorem prose_sectionAt {dl : List DocLine} {i : Nat} {s : FieldSection}
    (h : sectionAt dl i = some s) :
    s.prose = ((linesWhere dl (LeftBy dl i)).filter (!·.isBlank)).map (Text.trim ·.text) := by
  obtain ⟨-, hopener, hbody⟩ := sectionAt_eq_some h
  have hleft : s.body.dropWhile s.admits = linesWhere dl (LeftBy dl i) := by
    rw [hbody, linesWhere_dropWhile]
    refine linesWhere_congr fun l _ => and_congr_right fun hown => not_congr ?_
    rw [continues_iff_admits hopener, and_iff_right hown]
  rw [FieldSection.prose, hleft]

/-- The prose of all sections, by position. -/
theorem flatMap_prose (dl : List DocLine) :
    (fieldSections dl).flatMap FieldSection.prose =
      ((linesWhere dl fun l => ∃ i < dl.length, LeftBy dl i l).filter (!·.isBlank)).map
        (Text.trim ·.text) := by
  have hprose : ∀ i, (sectionAt dl i).toList.flatMap FieldSection.prose =
      ((linesWhere dl (LeftBy dl i)).filter (!·.isBlank)).map (Text.trim ·.text) := by
    intro i
    rcases hs : sectionAt dl i with _ | s
    · -- a plain line owns nothing
      have hplain : (lineAt dl i).isPlain = true := by
        simpa [DocLine.isPlain, sectionAt] using hs
      have hnone : ∀ l, ¬LeftBy dl i l := by
        rintro l ⟨hown, -⟩
        rw [hown.2.1] at hplain
        cases hplain
      simp [linesWhere_eq_nil hnone]
    · simp [prose_sectionAt hs]
  have hlt : ∀ i j a b, i < j → LeftBy dl i a → LeftBy dl j b → a < b :=
    fun i j a b hij ha hb => ha.1.lt_of_lt hij hb.1
  rw [← flatMap_linesWhere dl hlt, fieldSections_eq, List.filterMap_eq_flatMap_toList,
    List.flatMap_assoc]
  simp only [hprose, List.filter_flatMap, List.map_flatMap]

/-! ## Roles -/

/-- What a line of a docstring is for. -/
inductive Role where
  | description
  | marker
  /-- the line continues the field of a marker line -/
  | continuation (owner : Nat)
  /-- the line stands after a field and does not continue it -/
  | aside
  deriving DecidableEq, Repr

/-- Line `l` has a role. -/
def HasRole (dl : List DocLine) (l : Nat) : Role → Prop
  | .description => ∀ k ≤ l, (lineAt dl k).isPlain = true
  | .marker => (lineAt dl l).isPlain = false
  | .continuation i => Continues dl i l
  | .aside => (∃ i < l, Owns dl i l) ∧ ∀ i < l, ¬Continues dl i l

instance (dl : List DocLine) (l : Nat) : (role : Role) → Decidable (HasRole dl l role)
  | .description => inferInstanceAs (Decidable (∀ k ≤ l, (lineAt dl k).isPlain = true))
  | .marker => inferInstanceAs (Decidable ((lineAt dl l).isPlain = false))
  | .continuation i => inferInstanceAs (Decidable (Continues dl i l))
  | .aside => inferInstanceAs (Decidable ((∃ i < l, Owns dl i l) ∧ ∀ i < l, ¬Continues dl i l))

/-- A line with an owner is an aside unless it continues the field of that owner. -/
theorem hasRole_aside_iff {dl : List DocLine} {l : Nat} :
    HasRole dl l .aside ↔ ∃ i < dl.length, LeftBy dl i l := by
  refine ⟨?_, ?_⟩
  · rintro ⟨⟨i, hil, hown⟩, hno⟩
    exact ⟨i, hown.lt_length, hown, hno i hil⟩
  · rintro ⟨i, -, hown, hno⟩
    refine ⟨⟨i, hown.1, hown⟩, fun j _ hj => ?_⟩
    obtain rfl := hj.1.unique hown
    exact hno hj

/-- **Every line has exactly one role.** -/
theorem existsUnique_hasRole (dl : List DocLine) (l : Nat) : ∃! role, HasRole dl l role := by
  rcases hl : (lineAt dl l).isPlain with _ | _
  · -- a marker line: every other role asks for a plain line
    have hplain : ¬(lineAt dl l).isPlain = true := by simp [hl]
    refine ⟨.marker, hl, ?_⟩
    rintro (_ | _ | i | _) h
    · exact absurd (h l (Nat.le_refl l)) hplain
    · rfl
    · exact absurd h.1.isPlain hplain
    · obtain ⟨⟨i, -, hown⟩, -⟩ := h
      exact absurd hown.isPlain hplain
  · have hmarker : ¬HasRole dl l .marker := by simp [HasRole, hl]
    by_cases hd : HasRole dl l .description
    · -- no marker line so far, hence no owner
      have hno : ∀ i, ¬Owns dl i l := by
        intro i hown
        have hplain := hd i (Nat.le_of_lt hown.1)
        rw [hown.2.1] at hplain
        cases hplain
      refine ⟨.description, hd, ?_⟩
      rintro (_ | _ | i | _) h
      · rfl
      · exact absurd h hmarker
      · exact absurd h.1 (hno i)
      · obtain ⟨⟨i, -, hown⟩, -⟩ := h
        exact absurd hown (hno i)
    · -- the line has an owner, and either continues its field or not
      obtain ⟨i, hown⟩ := exists_owns hl (by simpa [HasRole] using hd)
      by_cases hc : Continues dl i l
      · refine ⟨.continuation i, hc, ?_⟩
        rintro (_ | _ | j | _) h
        · exact absurd h hd
        · exact absurd h hmarker
        · obtain rfl := h.1.unique hown
          rfl
        · exact absurd hc (h.2 i hown.1)
      · refine ⟨.aside, hasRole_aside_iff.mpr ⟨i, hown.lt_length, hown, hc⟩, ?_⟩
        rintro (_ | _ | j | _) h
        · exact absurd h hd
        · exact absurd h hmarker
        · obtain rfl := h.1.unique hown
          exact absurd h hc
        · rfl

/-! ## The lines of a docstring -/

@[simp] theorem length_docLines (ls : List Text) : (docLines ls).length = ls.length := by
  simp [docLines]

/-- A line of a docstring with its number and, unless it stands in explicit markup, its marker. -/
theorem lineAt_docLines {ls : List Text} {i : Nat} {line : Text} (h : ls[i]? = some line) :
    lineAt (docLines ls) i =
      ⟨i + 1, line,
        if (directiveFlags none ls)[i]? = some true then none else Marker.ofLine? line⟩ := by
  have hi : i < (directiveFlags none ls).length := by
    rw [length_directiveFlags]
    exact (List.getElem?_eq_some_iff.mp h).1
  have hflag := List.getElem?_eq_getElem hi
  generalize (directiveFlags none ls)[i] = flag at hflag
  have hzip : (ls.zip (directiveFlags none ls))[i]? = some (line, flag) := by
    rw [List.getElem?_zip_eq_some]
    exact ⟨h, hflag⟩
  rw [lineAt, List.getD_eq_getElem?_getD, docLines, List.getElem?_map, List.getElem?_zipIdx, hzip,
    hflag]
  simp [Nat.add_comm]

/-- A line in explicit markup has no marker, whatever it opens with. -/
theorem lineAt_docLines_of_inMarkup {ls : List Text} {i : Nat} {line : Text}
    (h : ls[i]? = some line) (hmarkup : InMarkup ls i) :
    lineAt (docLines ls) i = ⟨i + 1, line, none⟩ := by
  have hi := (List.getElem?_eq_some_iff.mp h).1
  rw [lineAt_docLines h, if_pos (directiveFlags_eq_true_iff.mpr ⟨hi, hmarkup⟩)]

/-- A line outside explicit markup has the marker that it opens with. -/
theorem lineAt_docLines_of_not_inMarkup {ls : List Text} {i : Nat} {line : Text}
    (h : ls[i]? = some line) (hmarkup : ¬InMarkup ls i) :
    lineAt (docLines ls) i = ⟨i + 1, line, Marker.ofLine? line⟩ := by
  rw [lineAt_docLines h, if_neg fun hflag => hmarkup (directiveFlags_eq_true_iff.mp hflag).2]

/-- A line is a marker line if it stands outside explicit markup and opens with a marker. -/
theorem isPlain_docLines_eq_false_iff {ls : List Text} {i : Nat} :
    (lineAt (docLines ls) i).isPlain = false ↔
      i < ls.length ∧ ¬InMarkup ls i ∧ (Marker.ofLine? (textAt ls i)).isSome = true := by
  rcases Nat.lt_or_ge i ls.length with hi | hi
  · have hline := List.getElem?_eq_getElem hi
    rw [textAt_eq_of_getElem? hline, and_iff_right hi]
    by_cases hmarkup : InMarkup ls i
    · rw [lineAt_docLines_of_inMarkup hline hmarkup]
      simp [DocLine.isPlain, hmarkup]
    · rw [lineAt_docLines_of_not_inMarkup hline hmarkup, and_iff_right hmarkup, DocLine.isPlain,
        Option.isNone_eq_false_iff]
  · rw [lineAt_of_length_le (by rwa [length_docLines])]
    simp [DocLine.isPlain, Nat.not_lt.mpr hi]

theorem number_docLines {ls : List Text} {i : Nat} (h : i < ls.length) :
    (lineAt (docLines ls) i).number = i + 1 := by
  rw [lineAt_docLines (List.getElem?_eq_getElem h)]

/-! ## Records by position -/

/-- What the field of marker line `i` says: the rest of that line and the lines that continue it. -/
def fieldTextAt (dl : List DocLine) (i : Nat) (m : Marker) : Text :=
  foldText (m.rest :: (linesWhere dl (Continues dl i)).map (·.text))

/-- The record of line `i`, if it is a marker line. -/
def recordAt (dl : List DocLine) (i : Nat) : Option Record :=
  (lineAt dl i).marker.map fun m => m.record (fieldTextAt dl i m) (i + 1)

/-- The records of all marker lines, in the order of the lines. -/
def lineRecords (dl : List DocLine) : List Record :=
  (List.range dl.length).filterMap (recordAt dl)

/-- Every marker line leaves its record, and nothing else leaves one. -/
theorem mem_lineRecords {dl : List DocLine} {r : Record} :
    r ∈ lineRecords dl ↔
      ∃ i m, (lineAt dl i).marker = some m ∧ r = m.record (fieldTextAt dl i m) (i + 1) := by
  rw [lineRecords, List.mem_filterMap]
  refine ⟨?_, ?_⟩
  · rintro ⟨i, -, hi⟩
    obtain ⟨m, hm, rfl⟩ := Option.map_eq_some_iff.mp hi
    exact ⟨i, m, hm, rfl⟩
  · rintro ⟨i, m, hm, rfl⟩
    refine ⟨i, List.mem_range.mpr ?_, by rw [recordAt, hm]; rfl⟩
    rcases Nat.lt_or_ge i dl.length with h | h
    · exact h
    · rw [lineAt_of_length_le h] at hm
      cases hm

/-- The sections of a docstring leave the records of its marker lines. -/
theorem map_record_fieldSections (ls : List Text) :
    (fieldSections (docLines ls)).map FieldSection.record = lineRecords (docLines ls) := by
  rw [fieldSections_eq, lineRecords, List.map_filterMap]
  apply List.filterMap_congr
  intro i hi
  have hnumber := number_docLines (by simpa using hi : i < ls.length)
  rcases hm : (lineAt (docLines ls) i).marker with _ | m
  · simp [sectionAt, recordAt, hm]
  · have hs : sectionAt (docLines ls) i =
        some ⟨m, lineAt (docLines ls) i, linesWhere (docLines ls) (Owns (docLines ls) i)⟩ := by
      simp [sectionAt, hm]
    rw [hs, recordAt, hm, Option.map_some, Option.map_some, FieldSection.record,
      FieldSection.text, continuation_sectionAt hs, hnumber]
    rfl

/-- The field list of a docstring is that of the records of its marker lines. -/
theorem toFieldList_parse (t : Text) :
    (Docstring.parse t).toFieldList =
      FieldList.ofRecords (lineRecords (docLines (Text.lines t))) := by
  rw [Docstring.parse, Docstring.ofLines, map_record_fieldSections]

/-- **Every line of a docstring has one role, and none is lost.** A line is a marker line if it
stands outside explicit markup and opens with a marker. The description is made of the lines before
the first marker line, the record of a marker line of the rest of that line and exactly the lines
that continue it, and the epilogue of the other lines that are not blank. A field that has ended
is not taken up again before the next marker line. -/
theorem parse_eq_of_roles (t : Text) :
    let ls := Text.lines t
    let dl := docLines ls
    let d := Docstring.parse t
    (dl.length = ls.length ∧ ∀ i line, ls[i]? = some line →
      (InMarkup ls i → lineAt dl i = ⟨i + 1, line, none⟩) ∧
      (¬InMarkup ls i → lineAt dl i = ⟨i + 1, line, Marker.ofLine? line⟩)) ∧
    (∀ l < dl.length, ∃! role, HasRole dl l role) ∧
    d.description =
      Text.trim (Text.unlines ((linesWhere dl (HasRole dl · .description)).map (·.text))) ∧
    (∀ s ∈ fieldSections dl, ∃ i, s.opener = lineAt dl i ∧
      s.continuation = linesWhere dl (HasRole dl · (.continuation i))) ∧
    (∀ r, r ∈ d.records ↔ ∃ i m, (lineAt dl i).marker = some m ∧
      r = m.record (foldText
        (m.rest :: (linesWhere dl (HasRole dl · (.continuation i))).map (·.text))) (i + 1)) ∧
    d.epilogue = Text.unlines
      (((linesWhere dl (HasRole dl · .aside)).filter (!·.isBlank)).map (Text.trim ·.text)) ∧
    (∀ i l l', Owns dl i l → ¬Continues dl i l → l ≤ l' → ¬Continues dl i l') := by
  intro ls dl d
  refine ⟨⟨length_docLines ls, fun i line h =>
      ⟨lineAt_docLines_of_inMarkup h, lineAt_docLines_of_not_inMarkup h⟩⟩,
    fun l _ => existsUnique_hasRole dl l, ?_, ?_, ?_, ?_, ?_⟩
  · -- the lines before the first marker line
    have hplain : dl.takeWhile DocLine.isPlain = linesWhere dl (HasRole dl · .description) := by
      conv_lhs => rw [← linesWhere_true dl, linesWhere_takeWhile]
      exact linesWhere_congr fun l _ => by simp [HasRole]
    rw [← hplain]
    rfl
  · intro s hs
    rw [fieldSections_eq, List.mem_filterMap] at hs
    obtain ⟨i, -, hi⟩ := hs
    exact ⟨i, (sectionAt_eq_some hi).2.1, continuation_sectionAt hi⟩
  · intro r
    have hmem : r ∈ d.records ↔ r ∈ lineRecords dl := by
      rw [toFieldList_parse t]
      exact (FieldList.records_ofRecords_perm _).mem_iff
    rw [hmem, mem_lineRecords]
    rfl
  · have haside : linesWhere dl (HasRole dl · .aside) =
        linesWhere dl fun l => ∃ i < dl.length, LeftBy dl i l :=
      linesWhere_congr fun l _ => hasRole_aside_iff
    rw [haside, ← flatMap_prose]
    rfl
  · rintro i l l' hown hno hle ⟨-, hdeep⟩
    exact hno ⟨hown, fun k hk => hdeep k (Nat.le_trans hk hle)⟩

end FieldLint
