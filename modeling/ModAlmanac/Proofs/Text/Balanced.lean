import Mathlib
import ModAlmanac.Proofs.Text.Skipping
import ModAlmanac.Text.Nesting

/-!
# Balanced texts

A text is balanced if it closes as many pairs as it opens and none of its beginnings closes more
than it opens. Such a text is passed over as a whole when a pair around it is closed
(`closeNested_balanced`), whatever stands behind it.

Only the characters of the pair count (`balanced_filter_iff`), so that a text stays balanced when
others are put in or taken out, as the escapes of a quoted text are.
-/

namespace ModAlmanac.Text

variable {left right : Char}

/-- A text that closes what it opens. -/
structure Balanced (left right : Char) (s : List Char) : Prop where
  settled : s.count left = s.count right
  count_le : ∀ front, front <+: s → front.count right ≤ front.count left

/-! ## Closing a pair -/

theorem count_cons_eq (a c : Char) (s : List Char) :
    (c :: s).count a = [c].count a + s.count a := by
  rw [← List.singleton_append, List.count_append]

/-- One step over a text: a character that closes more than is open ends the pair, and any other
changes how much is open by what it opens and closes. -/
theorem closeNested_cons (hne : left ≠ right) (depth : Nat) (c : Char) (s : List Char) :
    closeNested left right depth (c :: s) =
      if depth + [c].count left < [c].count right then some ([], s)
      else (closeNested left right (depth + [c].count left - [c].count right) s).map
        fun (inner, after) => (c :: inner, after) := by
  rw [closeNested]
  by_cases hleft : c = left
  · subst hleft
    simp [List.count_cons_of_ne hne]
  · by_cases hright : c = right
    · subst hright
      simp [hleft]
    · simp [hleft, hright]

/-- A text whose beginnings close no more than is open is passed over, and changes how much is open
by what it opens and closes. -/
theorem closeNested_append (hne : left ≠ right) {depth : Nat} {s : List Char}
    (h : ∀ front, front <+: s → front.count right ≤ depth + front.count left) (rest : List Char) :
    closeNested left right depth (s ++ rest) =
      (closeNested left right (depth + s.count left - s.count right) rest).map
        fun (inner, after) => (s ++ inner, after) := by
  induction s generalizing depth with
  | nil => simp
  | cons c s ih =>
    have hstep : [c].count right ≤ depth + [c].count left := h [c] (List.prefix_append [c] s)
    have hrest : ∀ front, front <+: s →
        front.count right ≤ depth + [c].count left - [c].count right + front.count left := by
      intro front hfront
      have hcons := h (c :: front) (List.cons_prefix_cons.2 ⟨rfl, hfront⟩)
      rw [count_cons_eq left c front, count_cons_eq right c front] at hcons
      omega
    rw [List.cons_append, closeNested_cons hne, if_neg (by omega), ih hrest, Option.map_map,
      count_cons_eq left c s, count_cons_eq right c s]
    congr 2
    omega

/-- The character that closes a pair around a balanced text is the one behind it. -/
theorem closeNested_balanced (hne : left ≠ right) {s : List Char} (h : Balanced left right s)
    (after : List Char) : closeNested left right 0 (s ++ right :: after) = some (s, after) := by
  rw [closeNested_append hne (by simpa using h.count_le), h.settled, Nat.zero_add, Nat.sub_self,
    closeNested, if_neg hne.symm, if_pos rfl, if_pos rfl]
  simp

/-- What stands in front of the character that closes `depth + 1` open pairs closes all others, and
none of its beginnings closes more. -/
theorem counts_of_closeNested (hne : left ≠ right) {depth : Nat} {s inner after : List Char}
    (h : closeNested left right depth s = some (inner, after)) :
    depth + inner.count left = inner.count right ∧
      ∀ front, front <+: inner → front.count right ≤ depth + front.count left := by
  induction s generalizing depth inner after with
  | nil => cases h
  | cons c s ih =>
    rw [closeNested_cons hne] at h
    split at h
    · next hclose =>
      cases h
      -- a single character closes one pair at most, so that none is open but the outermost
      have hone : [c].count right ≤ 1 := List.count_le_length
      refine ⟨by simp only [List.count_nil]; omega, fun front hfront => ?_⟩
      rw [List.prefix_nil.1 hfront, List.count_nil]
      exact Nat.zero_le _
    · next hopen =>
      obtain ⟨⟨i, a⟩, hs, heq⟩ := Option.map_eq_some_iff.1 h
      cases heq
      obtain ⟨hsettled, hle⟩ := ih hs
      refine ⟨by rw [count_cons_eq left c i, count_cons_eq right c i]; omega, fun front hfront => ?_⟩
      rcases List.prefix_cons_iff.1 hfront with rfl | ⟨more, rfl, hmore⟩
      · rw [List.count_nil]
        exact Nat.zero_le _
      · have := hle more hmore
        rw [count_cons_eq left c more, count_cons_eq right c more]
        omega

/-- A pair is closed by the first character behind a balanced text that can close it. -/
theorem closeNested_eq_some_iff (hne : left ≠ right) {s inner after : List Char} :
    closeNested left right 0 s = some (inner, after) ↔
      s = inner ++ right :: after ∧ Balanced left right inner := by
  constructor
  · intro h
    obtain ⟨hsettled, hle⟩ := counts_of_closeNested hne h
    rw [Nat.zero_add] at hsettled
    exact ⟨eq_append_of_closeNested h, hsettled,
      fun front hfront => by simpa using hle front hfront⟩
  · rintro ⟨rfl, h⟩
    exact closeNested_balanced hne h after

/-- A pair that is never closed is not closed by any beginning of the text. -/
theorem count_le_of_closeNested_eq_none (hne : left ≠ right) {depth : Nat} {s : List Char}
    (h : closeNested left right depth s = none) : s.count right ≤ depth + s.count left := by
  induction s generalizing depth with
  | nil => simp
  | cons c s ih =>
    rw [closeNested_cons hne] at h
    split at h
    · cases h
    · next hopen =>
      have := ih (Option.map_eq_none_iff.1 h)
      rw [count_cons_eq left c s, count_cons_eq right c s]
      omega

/-- Every pair that opens in a balanced text is closed within it. -/
theorem Balanced.exists_closeNested (hne : left ≠ right) {s rest : List Char}
    (h : Balanced left right s) (hrest : left :: rest <:+ s) :
    ∃ inner after, closeNested left right 0 rest = some (inner, after) := by
  cases hclose : closeNested left right 0 rest with
  | some found => exact ⟨found.1, found.2, rfl⟩
  | none =>
    -- nothing behind the pair closes it, and nothing in front of it closes more than it opens
    obtain ⟨front, rfl⟩ := hrest
    have hbehind := count_le_of_closeNested_eq_none hne hclose
    have hfront := h.count_le front (List.prefix_append _ _)
    have hsettled := h.settled
    rw [List.count_append, List.count_append, List.count_cons_self, List.count_cons_of_ne hne]
      at hsettled
    omega

/-- A pair that opens a balanced text is closed within it. -/
theorem Balanced.exists_closed (hne : left ≠ right) {s : List Char}
    (h : Balanced left right (left :: s)) :
    ∃ inner after, s = inner ++ right :: after ∧ Balanced left right inner := by
  obtain ⟨inner, after, hclose⟩ := h.exists_closeNested hne (List.suffix_refl _)
  exact ⟨inner, after, (closeNested_eq_some_iff hne).1 hclose⟩

/-! ## Texts that leave a pair open -/

/-- Whether a pair that is open in front of a text is never closed in it: no beginning of the text
closes more than it opens. -/
def StaysOpen (left right : Char) (s : List Char) : Prop :=
  ∀ front, front <+: s → front.count right ≤ front.count left

instance (s : List Char) : Decidable (StaysOpen left right s) :=
  decidable_of_iff (∀ front ∈ s.inits, front.count right ≤ front.count left)
    (forall_congr' fun front => by rw [List.mem_inits])

theorem StaysOpen.append {s t : List Char} (hs : StaysOpen left right s)
    (ht : StaysOpen left right t) : StaysOpen left right (s ++ t) := by
  intro front hfront
  rcases prefix_append_iff.1 hfront with h | ⟨more, rfl, h⟩
  · exact hs front h
  · have hwhole := hs s (List.prefix_refl s)
    have hmore := ht more h
    rw [List.count_append, List.count_append]
    omega

theorem staysOpen_of_forall_ne {s : List Char} (h : ∀ c ∈ s, c ≠ right) :
    StaysOpen left right s := by
  intro front hfront
  rw [List.count_eq_zero.2 fun hmem => h right (hfront.subset hmem) rfl]
  exact Nat.zero_le _

theorem closeNested_eq_none (hne : left ≠ right) {s : List Char} (h : StaysOpen left right s)
    (depth : Nat) : closeNested left right depth s = none := by
  have hopen : ∀ front, front <+: s → front.count right ≤ depth + front.count left :=
    fun front hfront => (h front hfront).trans (Nat.le_add_left _ _)
  have hclose := closeNested_append hne hopen []
  rwa [List.append_nil, closeNested, Option.map_none] at hclose

/-- A pair is never closed exactly if it stays open. -/
theorem closeNested_eq_none_iff (hne : left ≠ right) {s : List Char} :
    closeNested left right 0 s = none ↔ StaysOpen left right s := by
  refine ⟨fun h front hfront => ?_, fun h => closeNested_eq_none hne h 0⟩
  have hnone : closeNested left right 0 front = none := by
    refine Option.eq_none_iff_forall_ne_some.2 fun found hfound => ?_
    obtain ⟨rfl, hbalanced⟩ := (closeNested_eq_some_iff hne).1 hfound
    obtain ⟨rest, rfl⟩ := hfront
    rw [List.append_assoc, List.cons_append, closeNested_balanced hne hbalanced] at h
    cases h
  simpa using count_le_of_closeNested_eq_none hne hnone

/-! ## Building balanced texts -/

theorem balanced_nil : Balanced left right [] where
  settled := rfl
  count_le front hfront := by rw [List.prefix_nil.1 hfront]; simp

theorem Balanced.append {s t : List Char} (hs : Balanced left right s)
    (ht : Balanced left right t) : Balanced left right (s ++ t) where
  settled := by rw [List.count_append, List.count_append, hs.settled, ht.settled]
  count_le front hfront := by
    rcases prefix_append_iff.1 hfront with h | ⟨more, rfl, h⟩
    · exact hs.count_le front h
    · have := ht.count_le more h
      rw [List.count_append, List.count_append, hs.settled]
      omega

/-- A join of balanced texts is balanced. -/
theorem Balanced.intercalate {separator : List Char} (hseparator : Balanced left right separator)
    {parts : List (List Char)} (h : ∀ part ∈ parts, Balanced left right part) :
    Balanced left right (separator.intercalate parts) := by
  induction parts with
  | nil => exact balanced_nil
  | cons part parts ih =>
    obtain ⟨hpart, hparts⟩ := List.forall_mem_cons.1 h
    by_cases hne : parts = []
    · rw [hne, List.intercalate_singleton]
      exact hpart
    · rw [List.intercalate_cons_of_ne_nil hne]
      exact (hpart.append hseparator).append (ih hparts)

/-- A balanced text between a pair is balanced. -/
theorem Balanced.nest (hne : left ≠ right) {s : List Char} (h : Balanced left right s) :
    Balanced left right (left :: s ++ [right]) where
  settled := by simp [hne, hne.symm, h.settled]
  count_le front hfront := by
    rcases List.prefix_concat_iff.1 hfront with rfl | hfront
    · simp [hne, hne.symm, h.settled]
    · rcases List.prefix_cons_iff.1 hfront with rfl | ⟨more, rfl, hmore⟩
      · simp
      · have := h.count_le more hmore
        rw [List.count_cons_self, List.count_cons_of_ne hne]
        omega

/-- Only the characters of the pair count. -/
theorem balanced_filter_iff {p : Char → Bool} (hleft : p left = true) (hright : p right = true)
    {s : List Char} : Balanced left right (s.filter p) ↔ Balanced left right s := by
  constructor
  · intro h
    refine ⟨?_, fun front hfront => ?_⟩
    · simpa [List.count_filter, hleft, hright] using h.settled
    · simpa [List.count_filter, hleft, hright] using h.count_le _ (hfront.filter p)
  · intro h
    refine ⟨by simpa [List.count_filter, hleft, hright] using h.settled, fun front hfront => ?_⟩
    obtain ⟨whole, hwhole, rfl⟩ := List.prefix_filter_iff.1 hfront
    simpa [List.count_filter, hleft, hright] using h.count_le whole hwhole

/-- Characters that do not count can be put in front of a text. -/
theorem balanced_append_iff {front s : List Char} (h : ∀ c ∈ front, c ≠ left ∧ c ≠ right) :
    Balanced left right (front ++ s) ↔ Balanced left right s := by
  have hnil : front.filter (fun c => c = left || c = right) = [] := by
    refine List.filter_eq_nil_iff.2 fun c hc => ?_
    simpa using h c hc
  rw [← balanced_filter_iff (p := fun c => c = left || c = right) (by simp) (by simp),
    List.filter_append, hnil, List.nil_append, balanced_filter_iff (by simp) (by simp)]

/-- A text without either character of the pair is balanced. -/
theorem balanced_of_forall_ne {s : List Char} (h : ∀ c ∈ s, c ≠ left ∧ c ≠ right) :
    Balanced left right s := by
  have hempty := (balanced_append_iff (s := []) h).2 balanced_nil
  rwa [List.append_nil] at hempty

/-! ## Texts that close alike -/

/-- Whether two texts close the same pairs: however many are open in front of them, the outermost of
these is closed in both of them or in neither. -/
def ClosesAlike (left right : Char) (s t : List Char) : Prop :=
  ∀ depth, (closeNested left right depth s).isSome = (closeNested left right depth t).isSome

theorem ClosesAlike.append (hne : left ≠ right) {s t : List Char}
    (h : ClosesAlike left right s t) (front : List Char) :
    ClosesAlike left right (front ++ s) (front ++ t) := by
  intro depth
  induction front generalizing depth with
  | nil => exact h depth
  | cons c front ih =>
    rw [List.cons_append, List.cons_append, closeNested_cons hne, closeNested_cons hne]
    split
    · rfl
    · rw [Option.isSome_map, Option.isSome_map, ih]

/-- A balanced text closes nothing of what is open in front of it. -/
theorem closesAlike_balanced (hne : left ≠ right) {s : List Char} (hs : Balanced left right s)
    (rest : List Char) : ClosesAlike left right (s ++ rest) rest := by
  intro depth
  have hcount : ∀ front, front <+: s → front.count right ≤ depth + front.count left :=
    fun front hfront => (hs.count_le front hfront).trans (Nat.le_add_left _ _)
  have hclose := closeNested_append hne hcount rest
  rw [hclose, hs.settled, Nat.add_sub_cancel, Option.isSome_map]

theorem closesAlike_exchange (hne : left ≠ right) {s t : List Char} (hs : Balanced left right s)
    (ht : Balanced left right t) (front rest : List Char) :
    ClosesAlike left right (front ++ (s ++ rest)) (front ++ (t ++ rest)) := by
  refine ClosesAlike.append hne ?_ front
  intro depth
  rw [closesAlike_balanced hne hs rest depth, closesAlike_balanced hne ht rest depth]

/-- A balanced part of a balanced text can be exchanged for another one. -/
theorem Balanced.exchange {front s t rest : List Char}
    (h : Balanced left right (front ++ (s ++ rest))) (hs : Balanced left right s)
    (ht : Balanced left right t) : Balanced left right (front ++ (t ++ rest)) := by
  have hparts := h.settled
  simp only [List.count_append, hs.settled] at hparts
  refine ⟨by simp only [List.count_append, ht.settled]; omega, fun part hpart => ?_⟩
  rcases prefix_append_iff.1 hpart with hfront | ⟨more, rfl, hmore⟩
  · exact h.count_le part (hfront.trans (List.prefix_append _ _))
  · rcases prefix_append_iff.1 hmore with hin | ⟨last, rfl, hlast⟩
    · have hfront := h.count_le front (List.prefix_append _ _)
      have hinner := ht.count_le more hin
      rw [List.count_append, List.count_append]
      omega
    · have hwhole := h.count_le (front ++ (s ++ last)) (by
        rw [List.prefix_append_right_inj, List.prefix_append_right_inj]; exact hlast)
      simp only [List.count_append, hs.settled] at hwhole
      simp only [List.count_append, ht.settled]
      omega

end ModAlmanac.Text
