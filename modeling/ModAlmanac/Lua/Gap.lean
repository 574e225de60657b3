import ModAlmanac.Text.Blank

/-!
Gaps between the parts of a table: white space and comments in any order. A comment goes on to the
end of its line, or, when two brackets open it, to the first two closing brackets. A literal source
has lost its comments, yet text that was quoted there can stand outside of a string here: a string
in brackets ends in the middle of it. The main statement says that a gap is white space alone unless
a minus sign stands behind that.
-/

namespace ModAlmanac.Lua

open Text

/-- What a gap is made of at some place. -/
inductive Gap where
  | blanks
  | line
  | long
  deriving Repr, DecidableEq

/-- The text behind the rest of a gap. A comment that does not end takes the whole text. -/
def Gap.drop : Gap → List Char → List Char
  | .blanks, '-' :: '-' :: '[' :: '[' :: rest => Gap.long.drop rest
  | .blanks, '-' :: '-' :: rest => Gap.line.drop rest
  | .blanks, c :: rest => if isBlank c then Gap.blanks.drop rest else c :: rest
  | .line, c :: rest => if c = '\n' then Gap.blanks.drop rest else Gap.line.drop rest
  | .long, ']' :: ']' :: rest => Gap.blanks.drop rest
  | .long, _ :: rest => Gap.long.drop rest
  | _, [] => []

/-- The text without the gap at its front. -/
def dropGap (s : List Char) : List Char :=
  Gap.blanks.drop s

/-- A gap without a minus sign behind its white space has no comment. -/
theorem dropGap_of_head?_ne {s : List Char} (h : (dropBlank s).head? ≠ some '-') :
    dropGap s = dropBlank s := by
  induction s with
  | nil => rfl
  | cons c rest ih =>
    by_cases hblank : isBlank c
    · have hne : c ≠ '-' := fun heq => by simp [heq, isBlank] at hblank
      have hdrop : dropBlank (c :: rest) = dropBlank rest := by simp [dropBlank, hblank]
      rw [hdrop] at h ⊢
      rw [← ih h]
      simp [dropGap, Gap.drop, hne, hblank]
    · have hdrop : dropBlank (c :: rest) = c :: rest := by simp [dropBlank, hblank]
      have hne : c ≠ '-' := fun heq => h (by rw [hdrop, heq]; rfl)
      rw [hdrop]
      simp [dropGap, Gap.drop, hne, hblank]

end ModAlmanac.Lua
