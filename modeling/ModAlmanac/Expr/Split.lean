import ModAlmanac.Text.Blank
import ModAlmanac.Text.Nesting
import ModAlmanac.Text.Scan

/-!
Splitting expression texts. An operator or a comma splits a text only outside parentheses, that is
where as many parentheses have been closed as opened; a text that closes more than it opened can
come back to that state later on.
-/

namespace ModAlmanac.Expr

open Text

/-- The texts in front of and behind the first occurrence of an operator outside parentheses, where
`depth` parentheses are open at the front. No occurrence begins with a parenthesis. -/
def splitFrom? (operator : List Char) (depth : Int) : List Char → Option (List Char × List Char)
  | [] => none
  | c :: rest =>
    if c = '(' then
      (splitFrom? operator (depth + 1) rest).map fun (left, right) => (c :: left, right)
    else if c = ')' then
      (splitFrom? operator (depth - 1) rest).map fun (left, right) => (c :: left, right)
    else
      match if depth = 0 then operator.isPrefixOf? (c :: rest) else none with
      | some right => some ([], right)
      | none => (splitFrom? operator depth rest).map fun (left, right) => (c :: left, right)

/-- The two sides of the first occurrence of an operator outside parentheses, trimmed. -/
def splitTopLevel? (operator s : List Char) : Option (List Char × List Char) :=
  (splitFrom? operator 0 s).map fun (left, right) => (trim left, trim right)

/-- Why a text cannot be searched for an operator. -/
inductive SplitError where
  | emptyOperator
  deriving Repr, DecidableEq

/-- The two sides of an operator, if it occurs. The empty operator occurs in front of the first
character that is no parenthesis and stands outside all of them; where there is none the search for
it fails. -/
def splitAtOperator (operator s : List Char) :
    Except SplitError (Option (List Char × List Char)) :=
  match splitTopLevel? operator s with
  | some sides => .ok (some sides)
  | none => if operator.isEmpty then .error .emptyOperator else .ok none

/-- A list of parts with a character put in front of its first part. -/
def consFirst (c : Char) : List (List Char) → List (List Char)
  | [] => [[c]]
  | part :: parts => (c :: part) :: parts

/-- The parts of a text between its commas outside parentheses, where `depth` parentheses are open
at the front. -/
def splitCommasFrom (depth : Int) : List Char → List (List Char)
  | [] => [[]]
  | c :: rest =>
    if c = '(' then consFirst c (splitCommasFrom (depth + 1) rest)
    else if c = ')' then consFirst c (splitCommasFrom (depth - 1) rest)
    else if c = ',' && depth = 0 then [] :: splitCommasFrom depth rest
    else consFirst c (splitCommasFrom depth rest)

def splitCommas (s : List Char) : List (List Char) :=
  splitCommasFrom 0 s

/-- The arguments of the first call in a text, trimmed; nothing if its parenthesis never closes. -/
def callArguments? (s : List Char) : Option (List (List Char)) :=
  match s.dropWhile (· ≠ '(') with
  | [] => none
  | _ :: rest =>
    (closeNested '(' ')' 0 rest).map fun (inner, _) => (splitCommas inner).map trim

/-- The text without the pair of parentheses that encloses all of it, trimmed again. -/
def stripParens (s : List Char) : List Char :=
  match s with
  | '(' :: rest =>
    if rest.getLast? = some ')' then
      match closeNested '(' ')' 0 rest with
      | some (_, _ :: _) => s
      | _ => trim rest.dropLast
    else s
  | _ => s

/-! ## Lengths -/

theorem length_dropWhile_le (p : Char → Bool) (s : List Char) :
    (s.dropWhile p).length ≤ s.length :=
  (List.dropWhile_sublist p).length_le

theorem length_trim_le (s : List Char) : (trim s).length ≤ s.length := by
  have h1 := length_dropWhile_le isBlank s
  have h2 := length_dropWhile_le isBlank (s.dropWhile isBlank).reverse
  simp only [trim, trimOf, List.length_reverse] at h2 ⊢
  omega

theorem length_splitFrom? {operator s left right : List Char} {depth : Int}
    (h : splitFrom? operator depth s = some (left, right)) :
    left.length + operator.length + right.length = s.length := by
  induction s generalizing depth left with
  | nil => simp [splitFrom?] at h
  | cons c s ih =>
    rw [splitFrom?] at h
    split at h
    · obtain ⟨⟨l, r⟩, hs, heq⟩ := Option.map_eq_some_iff.1 h
      cases heq
      have := ih hs
      simp only [List.length_cons]
      omega
    · split at h
      · obtain ⟨⟨l, r⟩, hs, heq⟩ := Option.map_eq_some_iff.1 h
        cases heq
        have := ih hs
        simp only [List.length_cons]
        omega
      · split at h
        · next found =>
          cases h
          split at found
          · have := congrArg List.length (eq_append_of_isPrefixOf? found)
            rw [List.length_append] at this
            simp only [List.length_nil]
            omega
          · cases found
        · obtain ⟨⟨l, r⟩, hs, heq⟩ := Option.map_eq_some_iff.1 h
          cases heq
          have := ih hs
          simp only [List.length_cons]
          omega

/-- Both sides together are shorter than the text by the operator at least. -/
theorem length_splitTopLevel? {operator s left right : List Char}
    (h : splitTopLevel? operator s = some (left, right)) :
    left.length + operator.length + right.length ≤ s.length := by
  obtain ⟨⟨l, r⟩, hs, heq⟩ := Option.map_eq_some_iff.1 h
  cases heq
  have := length_splitFrom? hs
  have := length_trim_le l
  have := length_trim_le r
  omega

theorem length_stripParens_le (s : List Char) : (stripParens s).length ≤ s.length := by
  unfold stripParens
  split
  · next rest =>
    split
    · split
      · exact Nat.le_refl _
      · have := length_trim_le rest.dropLast
        rw [List.length_dropLast] at this
        rw [List.length_cons]
        omega
    · exact Nat.le_refl _
  · exact Nat.le_refl _

end ModAlmanac.Expr
