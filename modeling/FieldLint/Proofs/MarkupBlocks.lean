import FieldLint.Proofs.Scan

/-!
# Blocks of explicit markup

A line stands in a block of explicit markup if it opens one, or if some line before it does and all
lines since, blank ones aside, are indented deeper than that line (`InMarkup`). Any line before it
may be the one, also a line inside another block. Reading the lines, only one indentation is
remembered:

* **Invariant** — the remembered indentation is the least one of all blocks that are still open, and
  none is remembered exactly when none is open (`Remembers`).
* **step** — a line closes the blocks indented as far as it or deeper. Either it is deeper than the
  remembered indentation, and then the outermost block stays open, or it closes all of them
  (`Remembers.blockAfter`).
* **run** — `remembers_blockAt`. So a line is flagged exactly if it stands in a block
  (`directiveFlags_eq_true_iff`).
-/

namespace FieldLint

/-! ## Blocks by position -/

/-- Line `i`, counted from 0. Past the end the lines are empty. -/
def textAt (ls : List Text) (i : Nat) : Text :=
  ls.getD i []

theorem textAt_eq_of_getElem? {ls : List Text} {i : Nat} {line : Text} (h : ls[i]? = some line) :
    textAt ls i = line := by
  rw [textAt, List.getD_eq_getElem?_getD, h]
  rfl

/-- The line is two dots and a blank, possibly after blanks and with text after them. -/
def OpensMarkup (line : Text) : Prop :=
  ∃ blanks c rest, Text.isBlank blanks = true ∧ Text.isBlankChar c = true ∧
    line = blanks ++ '.' :: '.' :: c :: rest

/-- The check on a line finds the lines that open a block. -/
theorem opensDirective_eq_true_iff {line : Text} :
    opensDirective line = true ↔ OpensMarkup line := by
  rw [opensDirective_iff]
  refine ⟨?_, ?_⟩
  · rintro ⟨c, rest, htrim, hc⟩
    refine ⟨line.takeWhile Text.isBlankChar, c, rest, List.all_takeWhile, hc, ?_⟩
    rw [← htrim, Text.takeWhile_append_trimStart]
  · rintro ⟨blanks, c, rest, hblanks, hc, rfl⟩
    refine ⟨c, rest, ?_, hc⟩
    rw [Text.trimStart_append_of_isBlank hblanks]
    exact Text.trimStart_cons_of_notBlank (by decide) _

/-- A line that opens a block is not blank. -/
theorem OpensMarkup.notBlank {line : Text} (h : OpensMarkup line) : Text.isBlank line = false := by
  obtain ⟨blanks, c, rest, -, -, rfl⟩ := h
  have hdot : Text.isBlank ('.' :: '.' :: c :: rest) = false := rfl
  rw [Text.isBlank_append, hdot, Bool.and_false]

/-- Line `i` opens a block of explicit markup, or a line before it opens one and every line since
that is not blank, line `i` included, is indented deeper. -/
def InMarkup (ls : List Text) (i : Nat) : Prop :=
  OpensMarkup (textAt ls i) ∨
    ∃ j < i, OpensMarkup (textAt ls j) ∧
      ∀ k, j < k → k ≤ i → Text.isBlank (textAt ls k) = false →
        Text.indent (textAt ls j) < Text.indent (textAt ls k)

/-! ## Open blocks -/

/-- Line `j` opens a block of explicit markup that is open after the first `n` lines. -/
structure OpenAfter (ls : List Text) (n j : Nat) : Prop where
  /-- it is one of these lines -/
  lt : j < n
  /-- it opens a block -/
  opens : OpensMarkup (textAt ls j)
  /-- the lines after it are deeper -/
  deeper : ∀ k, j < k → k < n → Text.isBlank (textAt ls k) = false →
    Text.indent (textAt ls j) < Text.indent (textAt ls k)

/-- A line stands in a block exactly if some block is open after it. -/
theorem inMarkup_iff {ls : List Text} {i : Nat} : InMarkup ls i ↔ ∃ j, OpenAfter ls (i + 1) j := by
  refine ⟨?_, ?_⟩
  · rintro (hi | ⟨j, hj, hopens, hdeeper⟩)
    · exact ⟨i, Nat.lt_succ_self i, hi, fun k hik hki => absurd hki (by omega)⟩
    · exact ⟨j, by omega, hopens, fun k hjk hki => hdeeper k hjk (Nat.le_of_lt_succ hki)⟩
  · rintro ⟨j, hj, hopens, hdeeper⟩
    rcases Nat.lt_succ_iff_lt_or_eq.mp hj with hji | rfl
    · exact .inr ⟨j, hji, hopens, fun k hjk hki => hdeeper k hjk (Nat.lt_succ_of_le hki)⟩
    · exact .inl hopens

/-- After one more line, the open blocks are those that it did not close and the one it opens. -/
theorem openAfter_succ_iff {ls : List Text} {n j : Nat} :
    OpenAfter ls (n + 1) j ↔
      (OpenAfter ls n j ∧ (Text.isBlank (textAt ls n) = false →
        Text.indent (textAt ls j) < Text.indent (textAt ls n))) ∨
      (j = n ∧ OpensMarkup (textAt ls n)) := by
  refine ⟨?_, ?_⟩
  · rintro ⟨hj, hopens, hdeeper⟩
    rcases Nat.lt_succ_iff_lt_or_eq.mp hj with hjn | rfl
    · exact .inl ⟨⟨hjn, hopens, fun k hjk hkn => hdeeper k hjk (Nat.lt_succ_of_lt hkn)⟩,
        hdeeper n hjn (Nat.lt_succ_self n)⟩
    · exact .inr ⟨rfl, hopens⟩
  · rintro (⟨⟨hj, hopens, hdeeper⟩, hn⟩ | ⟨rfl, hopens⟩)
    · refine ⟨Nat.lt_succ_of_lt hj, hopens, fun k hjk hkn => ?_⟩
      rcases Nat.lt_succ_iff_lt_or_eq.mp hkn with hkn | rfl
      · exact hdeeper k hjk hkn
      · exact hn
    · exact ⟨Nat.lt_succ_self j, hopens, fun k hjk hkn => absurd hkn (by omega)⟩

/-! ## What is remembered -/

/-- The indentation of the outermost block that is open after the first `n` lines, if one is. -/
structure Remembers (ls : List Text) (n : Nat) (block : Option Nat) : Prop where
  /-- it is that of an open block -/
  opened : ∀ depth ∈ block, ∃ j, OpenAfter ls n j ∧ Text.indent (textAt ls j) = depth
  /-- no open block is indented less -/
  outermost : ∀ j, OpenAfter ls n j → ∃ depth ∈ block, depth ≤ Text.indent (textAt ls j)

namespace Remembers

variable {ls : List Text} {n : Nat} {block : Option Nat} (h : Remembers ls n block)

include h

/-- Something is remembered exactly if a block is open. -/
theorem isSome_iff : block.isSome = true ↔ ∃ j, OpenAfter ls n j := by
  rw [Option.isSome_iff_exists]
  refine ⟨?_, ?_⟩
  · rintro ⟨depth, hdepth⟩
    obtain ⟨j, hj, -⟩ := h.opened depth hdepth
    exact ⟨j, hj⟩
  · rintro ⟨j, hj⟩
    obtain ⟨depth, hdepth, -⟩ := h.outermost j hj
    exact ⟨depth, hdepth⟩

/-- A blank line opens and closes nothing. -/
theorem of_isBlank (hblank : Text.isBlank (textAt ls n) = true) : Remembers ls (n + 1) block := by
  have hsame : ∀ j, OpenAfter ls (n + 1) j ↔ OpenAfter ls n j := by
    intro j
    rw [openAfter_succ_iff]
    refine ⟨?_, ?_⟩
    · rintro (⟨hj, -⟩ | ⟨-, hopens⟩)
      · exact hj
      · rw [hopens.notBlank] at hblank
        cases hblank
    · intro hj
      exact .inl ⟨hj, fun hnot => by rw [hblank] at hnot; cases hnot⟩
  refine ⟨?_, ?_⟩
  · intro depth hdepth
    obtain ⟨j, hj, hindent⟩ := h.opened depth hdepth
    exact ⟨j, (hsame j).mpr hj, hindent⟩
  · intro j hj
    exact h.outermost j ((hsame j).mp hj)

/-- A line deeper than the outermost block leaves that one open. -/
theorem of_deeper {depth : Nat} (hdepth : block = some depth)
    (hlt : depth < Text.indent (textAt ls n)) : Remembers ls (n + 1) block := by
  subst hdepth
  refine ⟨?_, ?_⟩
  · intro depth' hdepth'
    obtain rfl : depth = depth' := Option.some.inj hdepth'
    obtain ⟨j, hj, hindent⟩ := h.opened depth rfl
    exact ⟨j, openAfter_succ_iff.mpr (.inl ⟨hj, fun _ => by rwa [hindent]⟩), hindent⟩
  · intro j hj
    rcases openAfter_succ_iff.mp hj with ⟨hold, -⟩ | ⟨rfl, -⟩
    · exact h.outermost j hold
    · exact ⟨depth, rfl, Nat.le_of_lt hlt⟩

/-- A line that is not deeper than the outermost block closes all blocks. -/
theorem of_not_deeper (hblank : Text.isBlank (textAt ls n) = false)
    (hle : ∀ depth ∈ block, Text.indent (textAt ls n) ≤ depth) :
    Remembers ls (n + 1)
      (if opensDirective (textAt ls n) then some (Text.indent (textAt ls n)) else none) := by
  have hclosed : ∀ j, OpenAfter ls (n + 1) j ↔ j = n ∧ OpensMarkup (textAt ls n) := by
    intro j
    rw [openAfter_succ_iff, or_iff_right]
    rintro ⟨hold, hdeeper⟩
    obtain ⟨depth, hdepth, hdepthle⟩ := h.outermost j hold
    have hlt := hdeeper hblank
    have hge := hle depth hdepth
    omega
  split
  · rename_i hopens
    have hn := (hclosed n).mpr ⟨rfl, opensDirective_eq_true_iff.mp hopens⟩
    refine ⟨?_, ?_⟩
    · intro depth hdepth
      exact ⟨n, hn, Option.some.inj hdepth⟩
    · intro j hj
      obtain ⟨rfl, -⟩ := (hclosed j).mp hj
      exact ⟨_, rfl, Nat.le_refl _⟩
  · rename_i hopens
    refine ⟨?_, ?_⟩
    · intro depth hdepth
      cases hdepth
    · intro j hj
      exact absurd (opensDirective_eq_true_iff.mpr ((hclosed j).mp hj).2) hopens

/-- **Step.** -/
theorem blockAfter : Remembers ls (n + 1) (blockAfter block (textAt ls n)) := by
  rcases hblank : Text.isBlank (textAt ls n) with _ | _
  · rw [FieldLint.blockAfter]
    rcases block with _ | depth
    · exact h.of_not_deeper hblank (by simp)
    · by_cases hlt : depth < Text.indent (textAt ls n)
      · rw [if_pos (by simp [continuesDirective, hlt])]
        exact h.of_deeper rfl hlt
      · rw [if_neg (by simp [continuesDirective, hlt, hblank])]
        refine h.of_not_deeper hblank fun depth' hdepth' => ?_
        obtain rfl : depth = depth' := Option.some.inj hdepth'
        exact Nat.not_lt.mp hlt
  · rw [blockAfter_of_isBlank hblank]
    exact h.of_isBlank hblank

end Remembers

/-- The block that is open after the first `n` lines, by its indentation. -/
def blockAt (ls : List Text) (n : Nat) : Option Nat :=
  (ls.take n).foldl blockAfter none

theorem blockAt_succ (ls : List Text) (n : Nat) :
    blockAt ls (n + 1) = blockAfter (blockAt ls n) (textAt ls n) := by
  rw [blockAt, List.take_add_one, List.foldl_append, ← blockAt]
  rcases hline : ls[n]? with _ | line
  · have htext : textAt ls n = [] := by
      rw [textAt, List.getD_eq_getElem?_getD, hline]
      rfl
    rw [htext, blockAfter_of_isBlank rfl]
    rfl
  · rw [textAt_eq_of_getElem? hline]
    rfl

/-- **Run.** -/
theorem remembers_blockAt (ls : List Text) (n : Nat) : Remembers ls n (blockAt ls n) := by
  induction n with
  | zero =>
    refine ⟨?_, ?_⟩
    · intro depth hdepth
      cases hdepth
    · intro j hj
      exact absurd hj.lt (Nat.not_lt_zero j)
  | succ n ih =>
    rw [blockAt_succ]
    exact ih.blockAfter

/-! ## Flags -/

/-- A line is flagged if a block is open after it. -/
theorem getElem?_directiveFlags (ls : List Text) (i : Nat) :
    (directiveFlags none ls)[i]? = ls[i]?.map fun _ => (blockAt ls (i + 1)).isSome := by
  suffices hflags : ∀ block, (directiveFlags block ls)[i]? =
      ls[i]?.map fun _ => ((ls.take (i + 1)).foldl blockAfter block).isSome from hflags none
  induction ls generalizing i with
  | nil => exact fun _ => rfl
  | cons line ls ih =>
    intro block
    have hcons : directiveFlags block (line :: ls) =
        (blockAfter block line).isSome :: directiveFlags (blockAfter block line) ls := by
      rw [directiveFlags, blockAfter]
      rcases hcont : continuesDirective block line with _ | _
      · rcases opensDirective line with _ | _ <;> rfl
      · rcases block with _ | depth
        · cases hcont
        · rfl
    rw [hcons]
    cases i with
    | zero => rfl
    | succ i => exact ih i _

/-- **A line is flagged exactly if it stands in a block.** -/
theorem directiveFlags_eq_true_iff {ls : List Text} {i : Nat} :
    (directiveFlags none ls)[i]? = some true ↔ i < ls.length ∧ InMarkup ls i := by
  rw [getElem?_directiveFlags, inMarkup_iff, ← (remembers_blockAt ls (i + 1)).isSome_iff]
  rcases Nat.lt_or_ge i ls.length with hi | hi
  · simp [hi]
  · simp [Nat.not_lt.mpr hi]

end FieldLint
