/-!
Maps that keep the order in which their keys came. Inserting under a key that is already there
replaces the value and leaves the key where it stands, in its first spelling.
-/

namespace ModAlmanac.OrderedMap

variable {κ ν : Type} [BEq κ]

def insert (key : κ) (value : ν) : List (κ × ν) → List (κ × ν)
  | [] => [(key, value)]
  | (k, v) :: rest =>
    if k == key then (k, value) :: rest else (k, v) :: insert key value rest

/-- Puts a value under a key that is not there yet. -/
def insertNew (key : κ) (value : ν) (entries : List (κ × ν)) : List (κ × ν) :=
  if entries.any (·.1 == key) then entries else entries ++ [(key, value)]

/-- The map of a list of pairs, later ones winning. -/
def ofList (pairs : List (κ × ν)) : List (κ × ν) :=
  pairs.foldl (fun entries pair => insert pair.1 pair.2 entries) []

/-- A map extended by another one, whose values win. -/
def union (entries others : List (κ × ν)) : List (κ × ν) :=
  others.foldl (fun entries pair => insert pair.1 pair.2 entries) entries

def find? (key : κ) : List (κ × ν) → Option ν
  | [] => none
  | (k, v) :: rest => if k == key then some v else find? key rest

/-- A map with the value under a key replaced, unless the function gives no other one for it. -/
def updateAt (f : ν → Option ν) (entries : List (κ × ν)) (key : κ) : List (κ × ν) :=
  match (find? key entries).bind f with
  | some value => insert key value entries
  | none => entries

/-- A map whose values are replaced one after the other, under the keys that it has at first. -/
def updateEach (f : ν → Option ν) (entries : List (κ × ν)) : List (κ × ν) :=
  (entries.map (·.1)).foldl (updateAt f) entries

/-- What is found is in the map, under the key. -/
theorem exists_mem_of_find? {key : κ} {value : ν} {entries : List (κ × ν)}
    (h : find? key entries = some value) : ∃ e ∈ entries, (e.1 == key) = true ∧ e.2 = value := by
  induction entries with
  | nil => cases h
  | cons e entries ih =>
    rw [find?] at h
    split at h
    · next hkey => exact ⟨e, List.mem_cons_self, hkey, Option.some.inj h⟩
    · obtain ⟨e', he', hfound⟩ := ih h
      exact ⟨e', List.mem_cons_of_mem _ he', hfound⟩

/-- After an insertion the key has the inserted value. -/
theorem find?_insert_self [ReflBEq κ] (key : κ) (value : ν) (entries : List (κ × ν)) :
    find? key (insert key value entries) = some value := by
  induction entries with
  | nil => simp [insert, find?]
  | cons entry rest ih =>
    rw [insert]
    split
    · next h => simp [find?, h]
    · next h => simp [find?, h, ih]

/-- An insertion leaves every other key alone. -/
theorem find?_insert_of_ne [LawfulBEq κ] {key other : κ} (h : other ≠ key) (value : ν)
    (entries : List (κ × ν)) : find? other (insert key value entries) = find? other entries := by
  induction entries with
  | nil => simp [insert, find?, h.symm]
  | cons entry rest ih =>
    rw [insert]
    split
    · next hk =>
      have : entry.1 = key := eq_of_beq hk
      simp [find?, this, h.symm]
    · simp only [find?, ih]

/-- An insertion keeps the keys in order and adds a new one at the end. -/
theorem keys_insert [LawfulBEq κ] (key : κ) (value : ν) (entries : List (κ × ν)) :
    (insert key value entries).map (·.1) =
      if key ∈ entries.map (·.1) then entries.map (·.1) else entries.map (·.1) ++ [key] := by
  induction entries with
  | nil => simp [insert]
  | cons entry rest ih =>
    rw [insert]
    split
    · next hk =>
      have : entry.1 = key := eq_of_beq hk
      simp [this]
    · next hk =>
      have hne : key ≠ entry.1 := fun he => hk (by simp [he])
      simp only [List.map_cons, ih, List.mem_cons, hne, false_or]
      split <;> simp

end ModAlmanac.OrderedMap
