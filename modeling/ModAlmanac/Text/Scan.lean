/-!
Searching a text with a reader. A reader looks at the front of a text and either fails or gives what
it found; `search` and `searchLast` try it at every position, `collect` takes what it finds one
after the other without overlap. `partsAt` cuts a text at a character.
-/

namespace ModAlmanac.Text

variable {α : Type}

/-- The parts of a text between the places where a character stands. -/
def partsAt (mark : Char) : List Char → List (List Char)
  | [] => [[]]
  | c :: rest =>
    if c = mark then [] :: partsAt mark rest
    else
      match partsAt mark rest with
      | [] => [[c]]
      | part :: parts => (c :: part) :: parts

/-- What a reader finds at the first position where it succeeds. -/
def search (read : List Char → Option α) : List Char → Option α
  | [] => read []
  | c :: rest =>
    match read (c :: rest) with
    | some found => some found
    | none => search read rest

/-- What a reader finds at the last position where it succeeds. -/
def searchLast (read : List Char → Option α) : List Char → Option α
  | [] => read []
  | c :: rest =>
    match searchLast read rest with
    | some found => some found
    | none => read (c :: rest)

/-- What a reader finds from front to back: after a find the search goes on behind it, and a find
that took no text counts for one character. -/
def collect (read : List Char → Option (α × List Char)) (s : List Char) : List α :=
  match s with
  | [] => []
  | c :: tail =>
    match read (c :: tail) with
    | some (found, rest) =>
      found :: (if rest.length ≤ tail.length then collect read rest else collect read tail)
    | none => collect read tail
termination_by s.length

/-- The text with everything a reader finds, from front to back, replaced by what the reader gives
for it; a find that took no text stands in for one character. -/
def replaceAll (read : List Char → Option (List Char × List Char)) (s : List Char) : List Char :=
  match s with
  | [] => []
  | c :: tail =>
    match read (c :: tail) with
    | some (new, rest) =>
      new ++ (if rest.length ≤ tail.length then replaceAll read rest else replaceAll read tail)
    | none => c :: replaceAll read tail
termination_by s.length

/-- Replacing by nothing longer makes no text longer. -/
theorem length_replaceAll_le {read : List Char → Option (List Char × List Char)}
    (hread : ∀ t new rest, read t = some (new, rest) → new.length + rest.length ≤ t.length)
    (s : List Char) : (replaceAll read s).length ≤ s.length := by
  fun_induction replaceAll read s with
  | case1 => exact Nat.le_refl _
  | case2 c tail new rest hfound ihRest ihTail =>
    have h := hread _ _ _ hfound
    rw [List.length_append]
    rw [List.length_cons] at h ⊢
    split <;> omega
  | case3 c tail hnone ih =>
    simp only [List.length_cons]
    omega

/-- A search finds what the reader gives for some part of the text at its end. -/
theorem exists_suffix_of_search {read : List Char → Option α} {s : List Char} {found : α}
    (h : search read s = some found) : ∃ skipped rest, s = skipped ++ rest ∧ read rest = some found := by
  induction s with
  | nil => exact ⟨[], [], rfl, h⟩
  | cons c s ih =>
    rw [search] at h
    split at h
    · next found' hread => exact ⟨[], c :: s, rfl, by rw [hread, ← h]⟩
    · obtain ⟨skipped, rest, hs, hr⟩ := ih h
      exact ⟨c :: skipped, rest, by rw [hs]; rfl, hr⟩

/-- Taking a beginning off a text leaves what stands behind it. -/
theorem eq_append_of_isPrefixOf? {lead s rest : List Char}
    (h : lead.isPrefixOf? s = some rest) : s = lead ++ rest := by
  induction lead generalizing s with
  | nil =>
    cases h
    rfl
  | cons c lead ih =>
    cases s with
    | nil => cases h
    | cons d s =>
      change (if c == d then lead.isPrefixOf? s else none) = some rest at h
      split at h
      · next hc => rw [ih h, ← eq_of_beq hc]; rfl
      · cases h

end ModAlmanac.Text
