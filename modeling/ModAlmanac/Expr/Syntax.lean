import ModAlmanac.Expr.Split
import ModAlmanac.Number.Numeral
import ModAlmanac.Value

/-!
Expressions over a card's config. An expression is read from its text by looking for one operator
after the other, each at its first occurrence outside parentheses: `or`, then `and`, then `*`, `/`,
`+` and `-`. The operator found first is the outermost one, so `*` binds loosest of the arithmetic
ones, and what stands behind an operator belongs to its right side as a whole. A text without an
operator is a numeral or a path of names.
-/

namespace ModAlmanac

open Text Number

/-- The arithmetic operators, in the order in which they are looked for. -/
inductive Operator where
  | times
  | over
  | plus
  | minus
  deriving Repr, DecidableEq

/-- An expression. -/
inductive Expr where
  | blank
  | either (left right : Expr)
  | choice (condition yes no : Expr)
  | both (condition last : Expr)
  | arith (operator : Operator) (left right : Expr)
  | number (value : Value)
  | path (root : List Char) (segments : List (List Char))

namespace Expr

/-! ## Paths -/

def isIndexChar (c : Char) : Bool :=
  c ≠ ']' && c ≠ '\x22' && c ≠ '\x27'

/-- An index between quotes whose opening quote `q` has been passed: its text, and the text behind
the closing bracket. White space may stand between the closing quote and the bracket. -/
def quotedIndex? (q : Char) (s : List Char) : Option (List Char × List Char) :=
  match s.dropWhile isIndexChar with
  | [] => none
  | d :: behind =>
    match dropBlank behind with
    | ']' :: after =>
      if d = q && (s.takeWhile isIndexChar).length ≠ 0 then some (s.takeWhile isIndexChar, after)
      else none
    | _ => none

/-- An index in brackets whose opening one has been passed: its text without quotes, and the text
behind the closing bracket. White space around a quoted index and in front of a plain one is left
out; an index of white space alone is the last blank of it. -/
def bracketIndex? (s : List Char) : Option (List Char × List Char) :=
  match dropBlank s with
  | [] => none
  | c :: rest =>
    if c = '\x22' || c = '\x27' then quotedIndex? c rest
    else if c = ']' then (s.takeWhile isBlank).getLast?.map fun blank => ([blank], rest)
    else
      match rest.dropWhile isIndexChar with
      | ']' :: after => some (c :: rest.takeWhile isIndexChar, after)
      | _ => none

/-- A segment for an index in brackets at the front: `[name]` reads as `.name`. -/
def indexSegment? : List Char → Option (List Char × List Char)
  | '[' :: rest => (bracketIndex? rest).map fun (name, after) => ('.' :: name, after)
  | _ => none

def dotIndices (s : List Char) : List Char :=
  replaceAll indexSegment? s

def splitDots : List Char → List (List Char)
  | [] => [[]]
  | c :: rest => if c = '.' then [] :: splitDots rest else consFirst c (splitDots rest)

/-- The path that a text without operators writes. -/
def pathOf (s : List Char) : Expr :=
  match splitDots s with
  | [] => .path [] []
  | root :: segments => .path root segments

/-! ## Numerals -/

/-- The integer that a double is equal to, or the double itself. -/
def wholeOrFloat (x : Float) : Value :=
  match integer? x with
  | some n => .int n
  | none => .float x

/-- The value of a text that is a numeral as a whole: hexadecimal without a sign, or decimal with an
optional one. A line end behind it does not count. -/
def numeral? (s : List Char) : Option Value :=
  let text := dropLineEnd s
  match hexPart? text with
  | some (_ :: _ :: digits, []) => some (.int (hexDigitsValue digits))
  | _ => (floatOfText? text).map wholeOrFloat

/-! ## Reading -/

/-- The expression text that is searched for operators: trimmed, without enclosing parentheses, and
with its indices written as segments. -/
def prepared (s : List Char) : List Char :=
  dotIndices (stripParens (trim s))

def spelling : Operator → List Char
  | .times => ['*']
  | .over => ['/']
  | .plus => ['+']
  | .minus => ['-']

def orWord : List Char := " or ".toList

def andWord : List Char := " and ".toList

/-- The first arithmetic operator, in the order of looking, that splits a text, with its sides. -/
def splitArithmetic? (s : List Char) : Option (Operator × List Char × List Char) :=
  [Operator.times, .over, .plus, .minus].findSome? fun operator =>
    (splitTopLevel? (spelling operator) s).map fun sides => (operator, sides)

theorem length_takeWhile_add (p : Char → Bool) (s : List Char) :
    (s.takeWhile p).length + (s.dropWhile p).length = s.length := by
  rw [← List.length_append, List.takeWhile_append_dropWhile]

theorem length_quotedIndex? {q : Char} {s name after : List Char}
    (h : quotedIndex? q s = some (name, after)) : name.length + after.length + 2 ≤ s.length := by
  have hsplit := length_takeWhile_add isIndexChar s
  unfold quotedIndex? at h
  split at h
  · cases h
  · next d behind hd =>
    split at h
    · next rest hclose =>
      have hblank := length_dropWhile_le isBlank behind
      change (dropBlank behind).length ≤ _ at hblank
      split at h
      · cases h
        rw [hd, List.length_cons] at hsplit
        rw [hclose, List.length_cons] at hblank
        omega
      · cases h
    · cases h

theorem length_bracketIndex? {s name after : List Char}
    (h : bracketIndex? s = some (name, after)) : name.length + after.length + 1 ≤ s.length := by
  have hsplit := length_takeWhile_add isBlank s
  change _ + (dropBlank s).length = _ at hsplit
  unfold bracketIndex? at h
  split at h
  · cases h
  · next c rest hc =>
    rw [hc, List.length_cons] at hsplit
    split at h
    · have := length_quotedIndex? h
      omega
    · split at h
      · obtain ⟨blank, hlast, heq⟩ := Option.map_eq_some_iff.1 h
        cases heq
        have hne : (s.takeWhile isBlank).length ≠ 0 := by
          intro h0
          rw [List.eq_nil_of_length_eq_zero h0] at hlast
          cases hlast
        simp only [List.length_cons, List.length_nil]
        omega
      · split at h
        · next tail hclose =>
          cases h
          have hmore := length_takeWhile_add isIndexChar rest
          rw [hclose, List.length_cons] at hmore
          simp only [List.length_cons]
          omega
        · cases h

theorem length_indexSegment? {s new rest : List Char} (h : indexSegment? s = some (new, rest)) :
    new.length + rest.length ≤ s.length := by
  unfold indexSegment? at h
  split at h
  · obtain ⟨⟨name, after⟩, hb, heq⟩ := Option.map_eq_some_iff.1 h
    cases heq
    have := length_bracketIndex? hb
    simp only [List.length_cons]
    omega
  · cases h

theorem length_prepared_le (s : List Char) : (prepared s).length ≤ s.length := by
  have h1 : (prepared s).length ≤ _ :=
    length_replaceAll_le (fun _ _ _ h => length_indexSegment? h) (stripParens (trim s))
  have h2 := length_stripParens_le (trim s)
  have h3 := length_trim_le s
  omega

theorem length_splitArithmetic? {s left right : List Char} {operator : Operator}
    (h : splitArithmetic? s = some (operator, left, right)) :
    left.length + right.length < s.length := by
  obtain ⟨op, _, hop⟩ := List.exists_of_findSome?_eq_some h
  obtain ⟨⟨l, r⟩, hs, heq⟩ := Option.map_eq_some_iff.1 hop
  cases heq
  have := length_splitTopLevel? hs
  cases operator <;> simp only [spelling, List.length_cons, List.length_nil] at this <;> omega

def parse (s : List Char) : Expr :=
  if (trim s).isEmpty then .blank
  else
    match _hor : splitTopLevel? orWord (prepared s) with
    | some (left, right) => .either (parse left) (parse right)
    | none =>
      match _hand : splitTopLevel? andWord (prepared s) with
      | some (condition, rest) =>
        match _hbranch : splitTopLevel? orWord rest with
        | some (yes, no) => .choice (parse condition) (parse yes) (parse no)
        | none => .both (parse condition) (parse rest)
      | none =>
        match _harith : splitArithmetic? (prepared s) with
        | some (operator, left, right) => .arith operator (parse left) (parse right)
        | none =>
          match numeral? (prepared s) with
          | some value => .number value
          | none => pathOf (prepared s)
termination_by s.length
decreasing_by
  all_goals
    have hlen := length_prepared_le s
    have hword : orWord.length = 4 := rfl
    have hword' : andWord.length = 5 := rfl
    first
      | (have hsides := length_splitTopLevel? _hor; omega)
      | (have hsides := length_splitTopLevel? _hbranch
         have hrest := length_splitTopLevel? _hand
         omega)
      | (have hsides := length_splitTopLevel? _hand; omega)
      | (have hsides := length_splitArithmetic? _harith; omega)

end Expr

end ModAlmanac
