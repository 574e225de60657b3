import ModAlmanac.Text.Scan

/-!
# Cutting texts

Cutting a text at a character is the splitting of the library (`partsAt_eq_splitOn`), so that joining
the parts gives the text back. A text without the character is a part of its own and belongs to the
first part of what stands behind it.
-/

namespace ModAlmanac.Text

variable {mark : Char}

theorem partsAt_ne_nil (mark : Char) (s : List Char) : partsAt mark s ≠ [] := by
  cases s with
  | nil => exact List.cons_ne_nil _ _
  | cons c s =>
    rw [partsAt]
    split
    · exact List.cons_ne_nil _ _
    · split
      · exact List.cons_ne_nil _ _
      · exact List.cons_ne_nil _ _

/-- A character that is not the mark belongs to the first part. -/
theorem partsAt_cons_of_ne {c : Char} (h : c ≠ mark) (s : List Char) :
    partsAt mark (c :: s) = (partsAt mark s).modifyHead (c :: ·) := by
  rw [partsAt, if_neg h]
  cases hparts : partsAt mark s with
  | nil => exact absurd hparts (partsAt_ne_nil mark s)
  | cons part parts => rfl

theorem partsAt_eq_splitOn (mark : Char) (s : List Char) : partsAt mark s = s.splitOn mark := by
  induction s with
  | nil => rfl
  | cons c s ih =>
    rw [List.splitOn_cons_eq_if_modifyHead, ← ih]
    by_cases hc : c = mark
    · rw [partsAt, if_pos hc, if_pos (beq_iff_eq.2 hc)]
    · rw [partsAt_cons_of_ne hc, if_neg (mt beq_iff_eq.1 hc)]

theorem partsAt_of_not_mem {s : List Char} (h : mark ∉ s) : partsAt mark s = [s] := by
  rw [partsAt_eq_splitOn, List.splitOn_eq_singleton h]

theorem partsAt_append {front : List Char} (h : mark ∉ front) (behind : List Char) :
    partsAt mark (front ++ mark :: behind) = front :: partsAt mark behind := by
  rw [partsAt_eq_splitOn, partsAt_eq_splitOn, List.splitOn_append_cons_self_of_not_mem h]

/-- What stands in front without the mark belongs to the first part. -/
theorem partsAt_append_of_not_mem {front : List Char} (h : mark ∉ front) (s : List Char) :
    partsAt mark (front ++ s) = (partsAt mark s).modifyHead (front ++ ·) := by
  induction front with
  | nil => exact (congrFun List.modifyHead_id _).symm
  | cons c front ih =>
    obtain ⟨hc, hfront⟩ := not_or.1 (mt List.mem_cons.2 h)
    rw [List.cons_append, partsAt_cons_of_ne (Ne.symm hc), ih hfront, List.modifyHead_modifyHead]
    rfl

/-- The parts joined are the text. -/
theorem intercalate_partsAt (mark : Char) (s : List Char) :
    [mark].intercalate (partsAt mark s) = s := by
  rw [partsAt_eq_splitOn, List.intercalate_splitOn]

/-- A text in front of the first place where a character stands, and what stands behind it. -/
def cutAt (mark : Char) (s : List Char) : List Char × List Char :=
  (s.takeWhile (· ≠ mark), (s.dropWhile (· ≠ mark)).drop 1)

theorem cutAt_append {front : List Char} (h : mark ∉ front) (behind : List Char) :
    cutAt mark (front ++ mark :: behind) = (front, behind) := by
  have hfront : ∀ c ∈ front, decide (c ≠ mark) = true := fun c hc =>
    decide_eq_true fun heq => h (heq ▸ hc)
  rw [cutAt, List.takeWhile_append_of_pos hfront, List.dropWhile_append_of_pos hfront]
  simp

end ModAlmanac.Text
