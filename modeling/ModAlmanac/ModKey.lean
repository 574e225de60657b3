import ModAlmanac.Value

/-!
Mod keys. A mod is known by its repository and the owner of it, written `repository@owner`. Both
parts and the folder of a mod become segments of paths, so that a key is accepted only if neither
part is empty, leads upwards or holds a separator.
-/

namespace ModAlmanac

/-- Whether a text can stand as one segment of a path without being read as anything else. -/
def isSegment (s : List Char) : Bool :=
  !s.isEmpty && s != ['.'] && s != ['.', '.'] && !s.contains '/' && !s.contains '\\'

def isKeyPart (s : List Char) : Bool :=
  isSegment s && !s.contains '@'

/-- The key of a mod. -/
structure ModKey where
  repo : String
  owner : String
  isKeyPart_repo : isKeyPart repo.toList = true
  isKeyPart_owner : isKeyPart owner.toList = true
  deriving DecidableEq

def ModKey.text (key : ModKey) : String :=
  String.ofList (key.repo.toList ++ '@' :: key.owner.toList)

/-- The key of two texts, if both can be parts of one. -/
def ModKey.ofParts? (repo owner : String) : Option ModKey :=
  if h : isKeyPart repo.toList = true ∧ isKeyPart owner.toList = true then
    some { repo, owner, isKeyPart_repo := h.1, isKeyPart_owner := h.2 }
  else none

/-- The key that a text writes: the repository ends at the first at sign. -/
def ModKey.ofText? (s : List Char) : Option ModKey :=
  match s.dropWhile (· ≠ '@') with
  | [] => none
  | _ :: owner => ModKey.ofParts? (String.ofList (s.takeWhile (· ≠ '@'))) (String.ofList owner)

/-- A value was given as a key that writes none. -/
structure InvalidModKey where
  given : Value

def InvalidModKey.message (e : InvalidModKey) : String :=
  "Invalid mod key " ++ String.ofList e.given.shown ++ "; expected '<repo>@<owner>'."

def ModKey.parse (given : Value) : Except InvalidModKey ModKey :=
  match ModKey.ofText? given.plain.toList with
  | some key => .ok key
  | none => .error { given }

/-! ## Writing and reading -/

theorem not_mem_of_isKeyPart {s : List Char} (h : isKeyPart s = true) : '@' ∉ s := by
  simp [isKeyPart] at h
  exact h.2

/-- Reading the written form of a key gives the key. -/
theorem ModKey.ofText?_text (key : ModKey) : ModKey.ofText? key.text.toList = some key := by
  have hmem := not_mem_of_isKeyPart key.isKeyPart_repo
  have htake : (key.repo.toList ++ '@' :: key.owner.toList).takeWhile (· ≠ '@') =
      key.repo.toList := by
    rw [List.takeWhile_append_of_pos]
    · simp
    · intro c hc
      simp only [decide_not, Bool.not_eq_true', decide_eq_false_iff_not]
      exact fun hat => hmem (hat ▸ hc)
  have hdrop : (key.repo.toList ++ '@' :: key.owner.toList).dropWhile (· ≠ '@') =
      '@' :: key.owner.toList := by
    rw [List.dropWhile_append_of_pos]
    · simp
    · intro c hc
      simp only [decide_not, Bool.not_eq_true', decide_eq_false_iff_not]
      exact fun hat => hmem (hat ▸ hc)
  rw [ModKey.text, String.toList_ofList, ModKey.ofText?, hdrop, htake]
  simp [ModKey.ofParts?, key.isKeyPart_repo, key.isKeyPart_owner]

end ModAlmanac
