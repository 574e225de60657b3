import Mathlib
import ModAlmanac.Text.Scan

/-!
# What a search passes over

A search goes over a text position by position. A part in front of which the reader fails at every
position is passed over (`search_append`, `collect_append`), and what the reader finds behind it is
what the search finds. A word can begin in such a part and end behind it only if it covers the rest
of the part (`prefix_append_iff`).
-/

namespace ModAlmanac.Text

variable {α : Type} {read : List Char → Option α}

/-- Whether a reader fails at every position of a part that stands in front of a text. -/
def Passes (read : List Char → Option α) (front rest : List Char) : Prop :=
  ∀ t, t ≠ [] → t <:+ front → read (t ++ rest) = none

theorem passes_nil (rest : List Char) : Passes read [] rest :=
  fun _ hne ht => absurd (List.suffix_nil.1 ht) hne

theorem Passes.head {c : Char} {front rest : List Char} (h : Passes read (c :: front) rest) :
    read (c :: (front ++ rest)) = none :=
  h (c :: front) (List.cons_ne_nil _ _) (List.suffix_refl _)

theorem Passes.tail {c : Char} {front rest : List Char} (h : Passes read (c :: front) rest) :
    Passes read front rest :=
  fun t hne ht => h t hne (ht.trans (List.suffix_cons c front))

theorem Passes.cons {c : Char} {front rest : List Char} (hc : read (c :: (front ++ rest)) = none)
    (h : Passes read front rest) : Passes read (c :: front) rest := by
  intro t hne ht
  rcases List.suffix_cons_iff.1 ht with rfl | ht
  · exact hc
  · exact h t hne ht

/-- Two parts are passed over one after the other. -/
theorem Passes.append {front more rest : List Char} (h : Passes read front (more ++ rest))
    (hmore : Passes read more rest) : Passes read (front ++ more) rest := by
  induction front with
  | nil => exact hmore
  | cons c front ih =>
    have hc := h.head
    rw [← List.append_assoc] at hc
    exact .cons hc (ih h.tail)

/-- What is passed over with more behind it is passed over on its own. -/
theorem Passes.of_append {front more rest : List Char} (h : Passes read (front ++ more) rest) :
    Passes read front (more ++ rest) := by
  intro t hne ht
  rw [← List.append_assoc]
  refine h (t ++ more) (List.append_ne_nil_of_left_ne_nil hne more) ?_
  obtain ⟨lead, rfl⟩ := ht
  exact ⟨lead, (List.append_assoc lead t more).symm⟩

theorem Passes.read_drop {front rest : List Char} (h : Passes read front rest) {i : Nat}
    (hi : i < front.length) : read ((front ++ rest).drop i) = none := by
  rw [List.drop_append_of_le_length hi.le]
  exact h _ (by simpa using hi) (List.drop_suffix i front)

/-- A part of which no character begins a find is passed over. -/
theorem passes_of_forall {front rest : List Char}
    (h : ∀ c ∈ front, ∀ s, read (c :: s) = none) : Passes read front rest := by
  intro t hne ht
  obtain ⟨c, t, rfl⟩ := List.exists_cons_of_ne_nil hne
  exact h c (ht.subset List.mem_cons_self) _

/-- What one reader passes over, a reader that goes on from it does as well. -/
theorem Passes.bind {β : Type} {front rest : List Char} (h : Passes read front rest)
    (f : α → Option β) : Passes (fun t => (read t).bind f) front rest := by
  intro t hne ht
  change (read (t ++ rest)).bind f = none
  rw [h t hne ht]
  rfl

/-! ## Words that begin in one part and end in the next -/

/-- What a joined text begins with ends in its first part or covers that part. -/
theorem prefix_append_iff {word front rest : List α} :
    word <+: front ++ rest ↔ word <+: front ∨ ∃ tail, word = front ++ tail ∧ tail <+: rest := by
  constructor
  · intro h
    rcases List.prefix_or_prefix_of_prefix h (List.prefix_append front rest) with
      hfront | ⟨tail, rfl⟩
    · exact .inl hfront
    · exact .inr ⟨tail, rfl, (List.prefix_append_right_inj front).1 h⟩
  · rintro (h | ⟨tail, rfl, h⟩)
    · exact h.trans (List.prefix_append front rest)
    · exact (List.prefix_append_right_inj front).2 h

/-- A word of which no end is a beginning is not found across its own front. -/
theorem not_prefix_append {word : List Char}
    (h : ∀ k < word.length, 0 < k → ¬ word.drop k <+: word) {front : List Char} (hne : front ≠ [])
    (hfront : ¬ word <+: front) (rest : List Char) : ¬ word <+: front ++ (word ++ rest) := by
  intro hstart
  rcases prefix_append_iff.1 hstart with hword | ⟨tail, rfl, htail⟩
  · exact hfront hword
  · have hborder : tail <+: front ++ tail :=
      List.prefix_of_prefix_length_le htail (List.prefix_append _ rest) (by simp)
    by_cases hnil : tail = []
    · exact hfront (by simp [hnil])
    · have hpos := List.length_pos_iff.2 hnil
      refine h front.length (by rw [List.length_append]; omega) (List.length_pos_iff.2 hne) ?_
      rw [List.drop_left]
      exact hborder

/-- A word is not found across a character that it does not hold. -/
theorem not_prefix_append_cons {word front : List Char} {c : Char} (hc : c ∉ word)
    (hfront : ¬ word <+: front) (rest : List Char) : ¬ word <+: front ++ c :: rest := by
  intro hstart
  rcases prefix_append_iff.1 hstart with hword | ⟨tail, rfl, htail⟩
  · exact hfront hword
  · cases tail with
    | nil => exact hfront (by rw [List.append_nil])
    | cons d tail =>
      obtain ⟨rfl, -⟩ := List.cons_prefix_cons.1 htail
      exact hc (by simp)

theorem isPrefixOf?_append (word s : List Char) : word.isPrefixOf? (word ++ s) = some s :=
  List.isPrefixOf?_eq_some_iff_append_eq.2 rfl

theorem isPrefixOf?_eq_none_iff {word s : List Char} :
    word.isPrefixOf? s = none ↔ ¬ word <+: s := by
  simp only [Option.eq_none_iff_forall_ne_some, ne_eq, List.isPrefixOf?_eq_some_iff_append_eq,
    List.IsPrefix, not_exists]

/-- A word does not go on behind a character that it does not hold. -/
theorem isPrefixOf?_append_cons {word : List Char} {c : Char} (hc : c ∉ word)
    (front rest : List Char) :
    word.isPrefixOf? (front ++ c :: rest) = (word.isPrefixOf? front).map (· ++ c :: rest) := by
  cases hword : word.isPrefixOf? front with
  | none =>
    exact isPrefixOf?_eq_none_iff.2
      (not_prefix_append_cons hc (isPrefixOf?_eq_none_iff.1 hword) rest)
  | some behind =>
    rw [← List.isPrefixOf?_eq_some_iff_append_eq.1 hword, List.append_assoc, isPrefixOf?_append]
    rfl

/-! ## Runs of characters -/

section

variable {p : Char → Bool} {front : List Char} {c : Char}

/-- A run that ends within a text ends there whatever stands behind the text. -/
theorem takeWhile_append_of_mem (hc : c ∈ front) (hp : p c = false) (rest : List Char) :
    (front ++ rest).takeWhile p = front.takeWhile p := by
  induction front with
  | nil => cases hc
  | cons d front ih =>
    cases hd : p d with
    | false => simp [hd]
    | true =>
      have hmem : c ∈ front := (List.mem_cons.1 hc).resolve_left fun heq => by
        rw [heq, hd] at hp
        cases hp
      simp [hd, ih hmem]

theorem dropWhile_append_of_mem (hc : c ∈ front) (hp : p c = false) (rest : List Char) :
    (front ++ rest).dropWhile p = front.dropWhile p ++ rest := by
  rw [List.dropWhile_append, if_neg]
  rw [List.isEmpty_iff, List.dropWhile_eq_nil_iff]
  intro hall
  rw [hall c hc] at hp
  cases hp

theorem mem_dropWhile (hc : c ∈ front) (hp : p c = false) : c ∈ front.dropWhile p := by
  rw [← List.takeWhile_append_dropWhile (p := p) (l := front)] at hc
  refine (List.mem_append.1 hc).resolve_left fun hmem => ?_
  rw [List.mem_takeWhile_imp hmem] at hp
  cases hp

end

/-! ## Searches -/

theorem search_append {front rest : List Char} (h : Passes read front rest) :
    search read (front ++ rest) = search read rest := by
  induction front with
  | nil => rfl
  | cons c front ih =>
    rw [List.cons_append, search, h.head]
    exact ih h.tail

theorem search_of_read {s : List Char} {found : α} (h : read s = some found) :
    search read s = some found := by
  cases s with
  | nil => exact h
  | cons c s => rw [search, h]

/-- A search finds something if the reader does at any place. -/
theorem isSome_search_append {s : List Char} {found : α} (h : read s = some found)
    (front : List Char) : (search read (front ++ s)).isSome = true := by
  induction front with
  | nil => exact Option.isSome_of_eq_some (search_of_read h)
  | cons c front ih =>
    rw [List.cons_append, search]
    split
    · rfl
    · exact ih

theorem search_eq_none {s : List Char} (h : Passes read s []) (hnil : read [] = none) :
    search read s = none := by
  have := search_append h
  rw [List.append_nil] at this
  rw [this]
  exact hnil

theorem search_map {β : Type} (read : List Char → Option α) (f : α → β) (s : List Char) :
    (search read s).map f = search (fun t => (read t).map f) s := by
  induction s with
  | nil => rfl
  | cons c s ih =>
    rw [search, search]
    cases read (c :: s) with
    | none => exact ih
    | some found => rfl

theorem searchLast_append {front rest : List Char} (h : Passes read front rest) :
    searchLast read (front ++ rest) = searchLast read rest := by
  induction front with
  | nil => rfl
  | cons c front ih =>
    rw [List.cons_append, searchLast, h.head, ih h.tail]
    cases searchLast read rest with
    | none => rfl
    | some found => rfl

/-- What begins with a letter is found where the letter stands once. -/
theorem searchLast_letter {n : Char} (hread : ∀ c s, c ≠ n → read (c :: s) = none)
    (hnil : read [] = none) {front behind : List Char} (hfront : n ∉ front) (hbehind : n ∉ behind) :
    searchLast read (front ++ n :: behind) = read (n :: behind) := by
  have hpasses : ∀ {s rest : List Char}, n ∉ s → Passes read s rest := fun hs =>
    passes_of_forall fun c hc rest => hread c rest fun heq => hs (heq ▸ hc)
  have hnone : searchLast read behind = none := by
    have hempty := searchLast_append (@hpasses behind [] hbehind)
    rw [List.append_nil] at hempty
    rw [hempty]
    exact hnil
  rw [searchLast_append (hpasses hfront), searchLast, hnone]

section

variable {read : List Char → Option (α × List Char)}

theorem collect_append {front rest : List Char} (h : Passes read front rest) :
    collect read (front ++ rest) = collect read rest := by
  induction front with
  | nil => rfl
  | cons c front ih =>
    rw [List.cons_append, collect, h.head]
    exact ih h.tail

theorem collect_of_read {s after : List Char} {found : α} (h : read s = some (found, after))
    (hlt : after.length < s.length) : collect read s = found :: collect read after := by
  cases s with
  | nil => cases hlt
  | cons c s =>
    rw [collect, h]
    dsimp only
    rw [if_pos (Nat.le_of_lt_succ hlt)]

theorem collect_eq_nil {s : List Char} (h : Passes read s []) : collect read s = [] := by
  have := collect_append h
  rw [List.append_nil] at this
  rw [this, collect]

end

section

variable {read : List Char → Option (List Char × List Char)}

theorem replaceAll_append {front rest : List Char} (h : Passes read front rest) :
    replaceAll read (front ++ rest) = front ++ replaceAll read rest := by
  induction front with
  | nil => rfl
  | cons c front ih =>
    rw [List.cons_append, replaceAll, h.head]
    exact congrArg _ (ih h.tail)

theorem replaceAll_of_read {s new rest : List Char} (h : read s = some (new, rest))
    (hlt : rest.length < s.length) : replaceAll read s = new ++ replaceAll read rest := by
  cases s with
  | nil => cases hlt
  | cons c s =>
    rw [replaceAll, h]
    dsimp only
    rw [if_pos (Nat.le_of_lt_succ hlt)]

theorem replaceAll_eq_self {s : List Char} (h : Passes read s []) : replaceAll read s = s := by
  have := replaceAll_append h
  rwa [List.append_nil, replaceAll, List.append_nil] at this

end

end ModAlmanac.Text
