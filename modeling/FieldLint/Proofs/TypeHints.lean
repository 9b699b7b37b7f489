import FieldLint.Proofs.ParameterNames

/-!
# Parentheses around type hints

In the argument of a param marker a type may stand before the name, with or without parentheses
around it. To take these away, reading looks at the first and the last character of the type, and at
nothing in between.

* **Balance** — `Text.Balanced` is the grammar of balanced parentheses, and `Text.balanced_iff` says
  that counting decides it.
* **Pairs** — a balanced text that opens with `(` and ends with `)` is a pair of parentheses around a
  balanced text (`Text.IsPair`), or opens with one pair and ends with another (`Text.IsTwoPairs`).
* **Hints** — of one pair the inside is left, which is balanced. Of two pairs one parenthesis of each
  is left, so the hint is not balanced, though the type is (`typeHint_of_balanced`).
-/

namespace FieldLint

namespace Text

/-! ## Balanced parentheses -/

/-- The parentheses of the text are balanced: each that opens is closed by one after it, and no other
is closed. -/
inductive Balanced : Text → Prop where
  | nil : Balanced []
  | cons {c : Char} {t : Text} (hopen : c ≠ '(') (hclose : c ≠ ')') (ht : Balanced t) :
    Balanced (c :: t)
  /-- a pair with `t` in it, and `u` after it -/
  | pair {t u : Text} (ht : Balanced t) (hu : Balanced u) : Balanced ('(' :: (t ++ ')' :: u))

/-- How many parentheses are open after the text if `n` are open before it; none if one is closed
that is not open. -/
def depthAfter? : Nat → Text → Option Nat
  | n, [] => some n
  | n, '(' :: t => depthAfter? (n + 1) t
  | 0, ')' :: _ => none
  | n + 1, ')' :: t => depthAfter? n t
  | n, _ :: t => depthAfter? n t

theorem depthAfter?_cons {c : Char} (hopen : c ≠ '(') (hclose : c ≠ ')') (n : Nat) (t : Text) :
    depthAfter? n (c :: t) = depthAfter? n t :=
  depthAfter?.eq_5 n c t hopen (fun _ => hclose) fun _ _ => hclose

/-- Counting goes on where it stopped. -/
theorem depthAfter?_append (n : Nat) (t u : Text) :
    depthAfter? n (t ++ u) = (depthAfter? n t).bind (depthAfter? · u) := by
  fun_induction depthAfter? n t with
  | case1 => rfl
  | case2 n t ih => exact ih
  | case3 => rfl
  | case4 n t ih => exact ih
  | case5 n c t hopen hzero hsucc ih =>
    have hclose : c ≠ ')' := by
      rcases n with _ | n
      · exact hzero rfl
      · exact hsucc n rfl
    rw [List.cons_append, depthAfter?_cons hopen hclose, ih]

/-- A balanced text leaves open what was open before it. -/
theorem Balanced.depthAfter?_eq {t : Text} (h : Balanced t) (n : Nat) :
    depthAfter? n t = some n := by
  induction h generalizing n with
  | nil => rfl
  | cons hopen hclose _ ih => rw [depthAfter?_cons hopen hclose, ih]
  | pair _ _ iht ihu =>
    rw [depthAfter?, depthAfter?_append, iht, Option.bind_some, depthAfter?, ihu]

/-- A text that closes what is open before it starts with a balanced text, up to its end or to the
first parenthesis that closes one of those. -/
theorem exists_balanced_start {n : Nat} {t : Text} (h : depthAfter? n t = some 0) :
    ∃ u, Balanced u ∧ (n = 0 ∧ t = u ∨
      ∃ k v, n = k + 1 ∧ t = u ++ ')' :: v ∧ depthAfter? k v = some 0) := by
  -- by the length: after a pair, what is left is no tail that induction on the text would reach
  induction hlength : t.length using Nat.strongRecOn generalizing n t with
  | _ length ih =>
    subst hlength
    rcases t with _ | ⟨c, t⟩
    · exact ⟨[], .nil, .inl ⟨Option.some.inj h, rfl⟩⟩
    · by_cases hopen : c = '('
      · -- up to the partner of this one a balanced text, and another after it
        subst hopen
        rw [depthAfter?] at h
        obtain ⟨u, hu, ⟨hn, -⟩ | ⟨k, v, hk, rfl, hv⟩⟩ := ih t.length (by simp) h rfl
        · cases hn
        · obtain rfl : n = k := Nat.succ.inj hk
          obtain ⟨w, hw, ⟨rfl, rfl⟩ | ⟨j, x, rfl, rfl, hx⟩⟩ := ih v.length (by simp; omega) hv rfl
          · exact ⟨_, .pair hu hw, .inl ⟨rfl, rfl⟩⟩
          · exact ⟨_, .pair hu hw, .inr ⟨j, x, rfl, by simp, hx⟩⟩
      · by_cases hclose : c = ')'
        · subst hclose
          rcases n with _ | n
          · cases h
          · exact ⟨[], .nil, .inr ⟨n, t, rfl, rfl, h⟩⟩
        · rw [depthAfter?_cons hopen hclose] at h
          obtain ⟨u, hu, ⟨rfl, rfl⟩ | ⟨k, v, rfl, rfl, hv⟩⟩ := ih t.length (by simp) h rfl
          · exact ⟨_, .cons hopen hclose hu, .inl ⟨rfl, rfl⟩⟩
          · exact ⟨_, .cons hopen hclose hu, .inr ⟨k, v, rfl, rfl, hv⟩⟩

/-- **Counting decides balance.** -/
theorem balanced_iff {t : Text} : Balanced t ↔ depthAfter? 0 t = some 0 := by
  refine ⟨fun h => h.depthAfter?_eq 0, fun h => ?_⟩
  obtain ⟨u, hu, ⟨-, rfl⟩ | ⟨k, -, hk, -⟩⟩ := exists_balanced_start h
  · exact hu
  · cases hk

instance (t : Text) : Decidable (Balanced t) :=
  decidable_of_iff _ balanced_iff.symm

theorem isBlankChar_parenthesis {c : Char} (h : isBlankChar c = true) : c ≠ '(' ∧ c ≠ ')' := by
  refine ⟨?_, ?_⟩
  · rintro rfl
    exact absurd h (by decide)
  · rintro rfl
    exact absurd h (by decide)

/-- Blanks open and close nothing. -/
theorem balanced_of_isBlank {t : Text} (h : isBlank t = true) : Balanced t := by
  induction t with
  | nil => exact .nil
  | cons c t ih =>
    obtain ⟨hc, ht⟩ : isBlankChar c = true ∧ isBlank t = true := by simpa [isBlank] using h
    obtain ⟨hopen, hclose⟩ := isBlankChar_parenthesis hc
    exact .cons hopen hclose (ih ht)

/-- Trimming does not change whether a text is balanced. -/
theorem balanced_trim_iff {t : Text} : Balanced (trim t) ↔ Balanced t := by
  have hstart : depthAfter? 0 t = depthAfter? 0 (trimStart t) := by
    conv_lhs => rw [← takeWhile_append_trimStart t]
    rw [depthAfter?_append, (balanced_of_isBlank List.all_takeWhile).depthAfter?_eq,
      Option.bind_some]
  obtain ⟨blanks, hblanks, hend⟩ := padded_trimEnd (trimStart t)
  have htrim : depthAfter? 0 (trimStart t) = depthAfter? 0 (trim t) := by
    conv_lhs => rw [hend]
    rw [depthAfter?_append]
    simp [(balanced_of_isBlank hblanks).depthAfter?_eq, trim]
  rw [balanced_iff, balanced_iff, hstart, htrim]

/-! ## Pairs -/

/-- The text is a pair of parentheses around `inner`: the first character is closed by the last. -/
structure IsPair (t inner : Text) : Prop where
  eq_text : t = '(' :: (inner ++ [')'])
  balanced_inner : Balanced inner

/-- The text opens with a pair of parentheses around `first` and ends with another around `last`, with
`middle` between the two. -/
structure IsTwoPairs (t first middle last : Text) : Prop where
  eq_text : t = '(' :: ((first ++ ')' :: (middle ++ '(' :: last)) ++ [')'])
  balanced_first : Balanced first
  balanced_middle : Balanced middle
  balanced_last : Balanced last

/-- A balanced text that ends with a parenthesis ends with a pair. -/
theorem Balanced.exists_last_pair {t : Text} (h : Balanced t) (hlast : t.getLast? = some ')') :
    ∃ u v, Balanced u ∧ Balanced v ∧ t = u ++ '(' :: (v ++ [')']) := by
  induction h with
  | nil => cases hlast
  | @cons c t hopen hclose _ ih =>
    rcases t with _ | ⟨c', t⟩
    · exact absurd (Option.some.inj hlast) hclose
    · rw [List.getLast?_cons_cons] at hlast
      obtain ⟨u, v, hu, hv, heq⟩ := ih hlast
      exact ⟨c :: u, v, .cons hopen hclose hu, hv, by rw [heq]; rfl⟩
  | @pair t u ht _ _ ih =>
    rcases u with _ | ⟨c, u⟩
    · -- the pair comes last
      exact ⟨[], t, .nil, ht, rfl⟩
    · have hsplit : '(' :: (t ++ ')' :: c :: u) = ('(' :: (t ++ [')'])) ++ c :: u := by simp
      rw [hsplit, List.getLast?_append_of_ne_nil _ (List.cons_ne_nil c u)] at hlast
      obtain ⟨v, w, hv, hw, heq⟩ := ih hlast
      exact ⟨_, w, .pair ht hv, hw, by rw [heq]; simp⟩

/-- **One pair or two.** A balanced text in parentheses is one pair, or it opens with one and ends
with another. -/
theorem Balanced.isPair_or_isTwoPairs {inner : Text} (h : Balanced ('(' :: (inner ++ [')']))) :
    IsPair ('(' :: (inner ++ [')'])) inner ∨
      ∃ first middle last, IsTwoPairs ('(' :: (inner ++ [')'])) first middle last := by
  generalize ht : '(' :: (inner ++ [')']) = t at h
  cases h with
  | nil => cases ht
  | cons hopen _ _ => exact absurd (List.cons.inj ht).1.symm hopen
  | @pair u rest hu hrest =>
    have hinner : inner ++ [')'] = u ++ ')' :: rest := (List.cons.inj ht).2
    rcases List.eq_nil_or_concat' rest with rfl | ⟨before, c, rfl⟩
    · obtain rfl : inner = u := List.append_cancel_right hinner
      exact .inl ⟨rfl, hu⟩
    · -- what follows the first pair ends where the text ends
      have hconcat : inner ++ [')'] = (u ++ ')' :: before) ++ [c] := by simpa using hinner
      obtain rfl : ')' = c := (List.cons.inj (List.append_inj' hconcat rfl).2).1
      obtain ⟨v, w, hv, hw, hvw⟩ := hrest.exists_last_pair (by simp)
      exact .inr ⟨u, v, w, by rw [hvw]; simp, hu, hv, hw⟩

/-- A balanced text and a parenthesis that closes nothing of it are not balanced, whatever follows. -/
theorem Balanced.not_balanced_append {t : Text} (h : Balanced t) (u : Text) :
    ¬Balanced (t ++ ')' :: u) := by
  rw [balanced_iff, depthAfter?_append, h.depthAfter?_eq, Option.bind_some, depthAfter?]
  exact nofun

/-- Two pairs are not one. -/
theorem IsTwoPairs.not_isPair {t first middle last : Text} (h : IsTwoPairs t first middle last)
    (inner : Text) : ¬IsPair t inner := by
  intro hpair
  have heq := hpair.eq_text.symm.trans h.eq_text
  obtain rfl := List.append_cancel_right (List.cons.inj heq).2
  exact h.balanced_first.not_balanced_append _ hpair.balanced_inner

end Text

/-! ## Hints -/

theorem stripParentheses_wrapped (inner : Text) :
    stripParentheses ('(' :: (inner ++ [')'])) = Text.trim inner := by
  simp [stripParentheses]

theorem stripParentheses_eq_self {t : Text} (h : ∀ inner, t ≠ '(' :: (inner ++ [')'])) :
    stripParentheses t = t := by
  unfold stripParentheses
  split
  · rename_i rest
    split
    · rename_i hlast
      exact absurd (by rw [List.dropLast_append_getLast? ')' hlast]) (h rest.dropLast)
    · rfl
  · rfl

/-- The hint of a type when only parentheses around the whole of it are taken away: the trimmed inside
of one pair, and any other type itself. An empty hint is none. -/
def Unwraps (t : Text) (hint : Option Text) : Prop :=
  (∀ inner, t.IsPair inner → hint = Text.nonempty? (Text.trim inner)) ∧
    ((∀ inner, ¬t.IsPair inner) → hint = Text.nonempty? t)

section Hint

variable {t : Text}

/-- Of two pairs of parentheses one of each is left. -/
theorem nonempty?_stripParentheses_of_isTwoPairs {first middle last : Text}
    (h : t.IsTwoPairs first middle last) :
    Text.nonempty? (stripParentheses t) =
      some (Text.trim (first ++ ')' :: (middle ++ '(' :: last))) := by
  rw [h.eq_text, stripParentheses_wrapped, Text.nonempty?_eq_some_iff]
  refine ⟨rfl, fun hnil => ?_⟩
  have hblank := Text.trim_eq_nil_iff.mp hnil
  rw [Text.isBlank_append, Bool.and_eq_true] at hblank
  cases hblank.2

/-- Where the outer parentheses are not those of two pairs, at most a pair is taken away. -/
theorem unwraps_and_balanced (h : t.Balanced)
    (hpairs : ∀ first middle last, ¬t.IsTwoPairs first middle last) :
    Unwraps t (Text.nonempty? (stripParentheses t)) ∧ (stripParentheses t).Balanced := by
  by_cases hwrapped : ∃ inner, t = '(' :: (inner ++ [')'])
  · obtain ⟨inner, rfl⟩ := hwrapped
    have hpair := h.isPair_or_isTwoPairs.resolve_right (by simpa using hpairs)
    rw [stripParentheses_wrapped, Text.balanced_trim_iff]
    refine ⟨⟨fun inner' hpair' => ?_, fun hno => absurd hpair (hno inner)⟩, hpair.balanced_inner⟩
    obtain rfl : inner = inner' := List.append_cancel_right (List.cons.inj hpair'.eq_text).2
    rfl
  · rw [stripParentheses_eq_self fun inner ht => hwrapped ⟨inner, ht⟩]
    exact ⟨⟨fun inner hpair => absurd ⟨inner, hpair.eq_text⟩ hwrapped, fun _ => rfl⟩, h⟩

/-- Two pairs are not left as they are. -/
theorem not_unwraps_of_isTwoPairs (h : t.Balanced) {first middle last : Text}
    (hpairs : t.IsTwoPairs first middle last) :
    ¬Unwraps t (Text.nonempty? (stripParentheses t)) := by
  rintro ⟨-, hself⟩
  have hhint := hself hpairs.not_isPair
  rw [nonempty?_stripParentheses_of_isTwoPairs hpairs, eq_comm, Text.nonempty?_eq_some_iff] at hhint
  -- the text would be the trimmed inside, which is not balanced
  rw [hhint.1, Text.balanced_trim_iff] at h
  exact hpairs.balanced_first.not_balanced_append _ h

end Hint

/-- A param marker is read as the last word of its argument and what stands before it. -/
theorem Marker.subject?_of_endsInWord {m : Marker} {argument before word : Text}
    (htag : Tag.ofSpelling? m.tag = some .param) (hargument : m.argument = some argument)
    (hword : EndsInWord argument before word) :
    m.subject? = some (.param (stripStars word)
      (Text.nonempty? (stripParentheses (Text.trim before)))) := by
  obtain ⟨rfl, rfl⟩ := endsInWord_iff.mp hword
  rw [subject?, htag, hargument]
  rfl

/-- A marker line has one record. -/
theorem filter_records_parse {t : Text} {i : Nat} {m : Marker}
    (hm : (lineAt (docLines (Text.lines t)) i).marker = some m) :
    (Docstring.parse t).records.filter (fun r => r.line == i + 1) =
      [m.record (fieldTextAt (docLines (Text.lines t)) i m) (i + 1)] := by
  have hrecord : recordAt (docLines (Text.lines t)) i =
      some (m.record (fieldTextAt (docLines (Text.lines t)) i m) (i + 1)) := by
    rw [recordAt, hm]
    rfl
  rw [← List.perm_singleton, ← filter_line_lineRecords hrecord]
  exact (records_parse_perm t).filter _

/-- **Parentheses around a type.** Take a param marker with balanced parentheses before the last word
of its argument. The hint on record is the right one, that is the trimmed inside of one pair and any
other type itself, exactly if the type does not open with one pair of parentheses and end with
another. Exactly then it is balanced, too. Of two pairs it has lost the first parenthesis and the
last. -/
theorem typeHint_of_balanced {t : Text} {i : Nat} {m : Marker} {argument before word : Text}
    (hm : (lineAt (docLines (Text.lines t)) i).marker = some m)
    (htag : Tag.ofSpelling? m.tag = some .param) (hargument : m.argument = some argument)
    (hword : EndsInWord argument before word) (hbalanced : before.Balanced) :
    let part := Text.trim before
    ∃ f hint, (Docstring.parse t).records.filter (fun r => r.line == i + 1) = [.field f] ∧
      f.subject = .param (stripStars word) hint ∧
      (Unwraps part hint ↔ ∀ first middle last, ¬part.IsTwoPairs first middle last) ∧
      ((∀ h, hint = some h → h.Balanced) ↔
        ∀ first middle last, ¬part.IsTwoPairs first middle last) ∧
      ∀ first middle last, part.IsTwoPairs first middle last →
        hint = some (Text.trim (first ++ ')' :: (middle ++ '(' :: last))) := by
  intro part
  have hpart : part.Balanced := Text.balanced_trim_iff.mpr hbalanced
  have hrecord := filter_records_parse hm
  rw [Marker.record, Marker.subject?_of_endsInWord htag hargument hword] at hrecord
  refine ⟨_, _, hrecord, rfl, ⟨?_, ?_⟩, ⟨?_, ?_⟩, ?_⟩
  · intro hunwraps first middle last hpairs
    exact not_unwraps_of_isTwoPairs hpart hpairs hunwraps
  · intro hpairs
    exact (unwraps_and_balanced hpart hpairs).1
  · intro hhint first middle last hpairs
    have hinner := hhint _ (nonempty?_stripParentheses_of_isTwoPairs hpairs)
    rw [Text.balanced_trim_iff] at hinner
    exact hpairs.balanced_first.not_balanced_append _ hinner
  · intro hpairs hint hsome
    obtain ⟨rfl, -⟩ := Text.nonempty?_eq_some_iff.mp hsome
    exact (unwraps_and_balanced hpart hpairs).2
  · intro first middle last hpairs
    exact nonempty?_stripParentheses_of_isTwoPairs hpairs

/-- One pair of parentheses around a type that opens with a pair and ends with another. -/
theorem typeHint_of_balanced_nested :
    let t := "Sum.\n:param ((int) or (str)) *a: one".toList
    let argument := "((int) or (str)) *a".toList
    let before := "((int) or (str)) ".toList
    let m : Marker := ⟨"param".toList, some argument, "one".toList⟩
    (lineAt (docLines (Text.lines t)) 1).marker = some m ∧ EndsInWord argument before "*a".toList ∧
      Text.Balanced before ∧
      ∃ f, (Docstring.parse t).records.filter (fun r => r.line == 2) = [.field f] ∧
        f.subject = .param "a".toList (some "(int) or (str)".toList) := by
  intro t argument before m
  have hm : (lineAt (docLines (Text.lines t)) 1).marker = some m := by decide
  have hword : EndsInWord argument before "*a".toList := by decide
  have hbalanced : Text.Balanced before := by decide
  obtain ⟨f, hint, hrecord, hsubject, hunwraps, -, -⟩ :=
    typeHint_of_balanced hm (by decide) rfl hword hbalanced
  have hpair : (Text.trim before).IsPair "(int) or (str)".toList := ⟨by decide, by decide⟩
  have hone : ∀ first middle last, ¬(Text.trim before).IsTwoPairs first middle last :=
    fun _ _ _ hpairs => hpairs.not_isPair _ hpair
  obtain rfl := (hunwraps.mpr hone).1 _ hpair
  exact ⟨hm, hword, hbalanced, f, hrecord, hsubject⟩

/-- A type that opens with one pair of parentheses and ends with another is balanced, and its hint is
not. -/
theorem typeHint_two_pairs :
    let t := ":param (int) or (str) a: one".toList
    let before := "(int) or (str) ".toList
    EndsInWord "(int) or (str) a".toList before "a".toList ∧ Text.Balanced before ∧
      (Docstring.parse t).fields =
        [⟨.param "a".toList (some "int) or (str".toList), "one".toList, 1⟩] ∧
      ¬Text.Balanced "int) or (str".toList := by
  decide

end FieldLint
