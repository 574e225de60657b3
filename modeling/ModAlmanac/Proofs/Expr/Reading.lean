import ModAlmanac.Expr.Evaluate
import ModAlmanac.Proofs.Text.Balanced

/-!
# Reading expressions

The reader goes over a text once for every operator. A part of the text in which it stops nowhere is
skipped (`Skips`): one without parentheses in which no character begins the operator
(`skips_of_head`), and a balanced text between parentheses, since it stands too deep
(`skips_parenthesised`). The pair of parentheses that encloses a whole text is taken off first
(`stripParens_parenthesised`). What a text writes depends on its prepared form alone
(`parse_eq`).
-/

namespace ModAlmanac.Expr

open Text

/-! ## Skipping -/

/-- A part of a text is skipped in the search for an operator: no occurrence begins in it, and it
leaves as many parentheses open as it found. -/
def Skips (operator part rest : List Char) : Prop :=
  splitFrom? operator 0 (part ++ rest) =
    (splitFrom? operator 0 rest).map fun (left, right) => (part ++ left, right)

section

variable {operator rest : List Char}

theorem skips_nil (operator rest : List Char) : Skips operator [] rest := by
  rw [Skips, List.nil_append]
  cases splitFrom? operator 0 rest <;> rfl

theorem Skips.append {part more : List Char} (h : Skips operator part (more ++ rest))
    (h' : Skips operator more rest) : Skips operator (part ++ more) rest := by
  rw [Skips, List.append_assoc, h, h', Option.map_map]
  congr 1
  funext sides
  exact Prod.ext (List.append_assoc _ _ _).symm rfl

theorem skips_char {c : Char} (hc : c ≠ '(' ∧ c ≠ ')') (h : ¬ operator <+: c :: rest) :
    Skips operator [c] rest := by
  rw [Skips, List.singleton_append, splitFrom?, if_neg hc.1, if_neg hc.2, if_pos rfl,
    isPrefixOf?_eq_none_iff.2 h]
  rfl

/-- A part without parentheses is skipped if no character of it begins the operator. -/
theorem skips_of_head {part : List Char} {first : Char} {more : List Char}
    (hpart : ∀ c ∈ part, (c ≠ '(' ∧ c ≠ ')') ∧ c ≠ first) (rest : List Char) :
    Skips (first :: more) part rest := by
  induction part with
  | nil => exact skips_nil _ rest
  | cons c part ih =>
    obtain ⟨⟨hc, hfirst⟩, hpart⟩ := List.forall_mem_cons.1 hpart
    have hhead : Skips (first :: more) [c] (part ++ rest) :=
      skips_char hc fun hprefix => hfirst (List.cons_prefix_cons.1 hprefix).1.symm
    exact hhead.append (ih hpart)

/-- A word between blanks is skipped in the search for another one, unless the blank at its end
begins that one. -/
theorem skips_word (first : Char) (word : List Char) {next : Char} {more : List Char}
    (hfirst : first ≠ next)
    (hword : ∀ c ∈ first :: word, (c ≠ '(' ∧ c ≠ ')') ∧ c ≠ ' ')
    (hrest : ¬ ' ' :: next :: more <+: ' ' :: rest) :
    Skips (' ' :: next :: more) (' ' :: (first :: word) ++ [' ']) rest := by
  have hblank : Skips (' ' :: next :: more) [' '] (first :: word ++ ([' '] ++ rest)) :=
    skips_char (by decide) fun h =>
      hfirst (List.cons_prefix_cons.1 (List.cons_prefix_cons.1 h).2).1.symm
  have hfront : Skips (' ' :: next :: more) (' ' :: first :: word) ([' '] ++ rest) :=
    hblank.append (skips_of_head hword _)
  exact hfront.append (skips_char (by decide) hrest)

theorem count_cons_eq (p c : Char) (s : List Char) :
    (c :: s).count p = [c].count p + s.count p := by
  rw [← List.singleton_append, List.count_append]

/-- A search finds the operator at the front of a text or goes on behind the character there. -/
theorem splitFrom?_cons (depth : Int) (c : Char) (s : List Char) :
    splitFrom? operator depth (c :: s) =
      match if depth = 0 ∧ c ≠ '(' ∧ c ≠ ')' then operator.isPrefixOf? (c :: s) else none with
      | some right => some ([], right)
      | none =>
        (splitFrom? operator (depth + [c].count '(' - [c].count ')') s).map
          fun (left, right) => (c :: left, right) := by
  rw [splitFrom?]
  split
  · next hc =>
    subst hc
    rw [if_neg (by simp)]
    simp
  · next hleft =>
    split
    · next hc =>
      subst hc
      rw [if_neg (by simp)]
      simp
    · next hright =>
      have hzero : depth + [c].count '(' - [c].count ')' = depth := by
        simp [List.count_cons_of_ne hleft, List.count_cons_of_ne hright]
      by_cases hdepth : depth = 0
      · cases operator.isPrefixOf? (c :: s) <;> simp [hdepth, hleft, hright]
      · simp [hzero, hdepth]

/-- A part of a text is passed over if no occurrence outside of parentheses begins in it. -/
theorem splitFrom?_append {s : List Char} {depth : Int}
    (h : ∀ front behind, s = front ++ behind → behind ≠ [] →
      depth + front.count '(' = front.count ')' → ¬ operator <+: behind ++ rest) :
    splitFrom? operator depth (s ++ rest) =
      (splitFrom? operator (depth + s.count '(' - s.count ')') rest).map
        fun (left, right) => (s ++ left, right) := by
  induction s generalizing depth with
  | nil => simp
  | cons c s ih =>
    have hnone : (if depth = 0 ∧ c ≠ '(' ∧ c ≠ ')' then
        operator.isPrefixOf? (c :: (s ++ rest)) else none) = none := by
      split
      · next hdepth =>
        exact isPrefixOf?_eq_none_iff.2
          (h [] (c :: s) rfl (List.cons_ne_nil c s) (by simp [hdepth.1]))
      · rfl
    have hrest : splitFrom? operator (depth + [c].count '(' - [c].count ')') (s ++ rest) = _ :=
      ih fun front behind hs hne hcount => h (c :: front) behind (by rw [hs]; rfl) hne (by
        rw [count_cons_eq '(' c front, count_cons_eq ')' c front]
        push_cast
        omega)
    rw [List.cons_append, splitFrom?_cons, hnone]
    dsimp only
    rw [hrest, Option.map_map, count_cons_eq '(' c s, count_cons_eq ')' c s]
    congr 2
    push_cast
    omega

/-- A balanced text between parentheses is skipped. -/
theorem skips_parenthesised {s : List Char} (h : Balanced '(' ')' s) (rest : List Char) :
    Skips operator ('(' :: s ++ [')']) rest := by
  have hinner : splitFrom? operator 1 (s ++ ')' :: rest) = _ :=
    splitFrom?_append fun front behind hs _ hcount => by
      have hle := h.count_le front ⟨behind, hs.symm⟩
      omega
  have hdepth : (1 : Int) + s.count '(' - s.count ')' = 1 := by rw [h.settled]; omega
  rw [hdepth, splitFrom?, if_neg (by decide), if_pos rfl] at hinner
  rw [Skips, List.cons_append, List.cons_append, List.append_assoc, List.singleton_append,
    splitFrom?, if_pos rfl]
  change (splitFrom? operator 1 (s ++ ')' :: rest)).map _ = _
  rw [hinner, Option.map_map, Option.map_map]
  congr 1
  funext sides
  simp

end

/-! ## Trimmed texts and enclosing parentheses -/

/-- A text with something in it and no white space at its ends. -/
structure IsTrimmed (s : List Char) : Prop where
  ne_nil : s ≠ []
  head : ∀ c, s.head? = some c → isBlank c = false
  last : ∀ c, s.getLast? = some c → isBlank c = false

theorem IsTrimmed.trim_eq {s : List Char} (h : IsTrimmed s) : trim s = s := by
  have hfront : s.dropWhile isBlank = s := by
    cases s with
    | nil => rfl
    | cons c s => rw [List.dropWhile_cons_of_neg (by simp [h.head c rfl])]
  have hback : s.reverse.dropWhile isBlank = s.reverse := by
    cases hs : s.reverse with
    | nil => rfl
    | cons c more =>
      have hc : s.getLast? = some c := by
        rw [← List.head?_reverse, hs]
        rfl
      rw [List.dropWhile_cons_of_neg (by simp [h.last c hc])]
  rw [trim, trimOf, hfront, hback, List.reverse_reverse]

theorem IsTrimmed.append {s t : List Char} (hs : IsTrimmed s) (ht : IsTrimmed t)
    (middle : List Char) : IsTrimmed (s ++ (middle ++ t)) where
  ne_nil := by simp [hs.ne_nil]
  head c hc := by
    obtain ⟨d, s, rfl⟩ := List.exists_cons_of_ne_nil hs.ne_nil
    exact hs.head c hc
  last c hc := by
    refine ht.last c ?_
    rwa [← List.append_assoc, List.getLast?_append_of_ne_nil _ ht.ne_nil] at hc

theorem isTrimmed_parenthesised (s : List Char) : IsTrimmed ('(' :: s ++ [')']) where
  ne_nil := by simp
  head c hc := by
    cases hc
    decide
  last c hc := by
    rw [List.getLast?_concat] at hc
    cases hc
    decide

/-- The pair of parentheses around a balanced text is taken off. -/
theorem stripParens_parenthesised {s : List Char} (hs : Balanced '(' ')' s) :
    stripParens ('(' :: s ++ [')']) = trim s := by
  have hclose := closeNested_balanced (by decide : '(' ≠ ')') hs []
  rw [List.cons_append, stripParens]
  simp only [List.getLast?_concat, if_true, hclose, List.dropLast_concat]

/-- A pair of parentheses that closes in front of the end is left alone. -/
theorem stripParens_open {s rest : List Char} (hs : Balanced '(' ')' s) (hrest : rest ≠ []) :
    stripParens ('(' :: s ++ [')'] ++ rest) = '(' :: s ++ [')'] ++ rest := by
  obtain ⟨c, rest, rfl⟩ := List.exists_cons_of_ne_nil hrest
  have hclose := closeNested_balanced (by decide : '(' ≠ ')') hs (c :: rest)
  rw [List.append_assoc, List.cons_append, List.singleton_append, stripParens]
  split
  · simp only [hclose]
  · rfl

theorem stripParens_of_head {s : List Char} (h : s.head? ≠ some '(') : stripParens s = s := by
  unfold stripParens
  split
  · exact absurd rfl h
  · rfl

/-! ## Operators and their sides -/

theorem orWord_eq : orWord = [' ', 'o', 'r', ' '] := rfl

theorem andWord_eq : andWord = [' ', 'a', 'n', 'd', ' '] := rfl

section

variable {operator s : List Char}

theorem splitTopLevel?_of_splitFrom? {front behind : List Char}
    (h : splitFrom? operator 0 s = some (front, behind)) :
    splitTopLevel? operator s = some (trim front, trim behind) := by
  rw [splitTopLevel?, h]
  rfl

/-- Nothing is found in what is skipped as a whole. -/
theorem splitTopLevel?_eq_none (h : Skips operator s []) :
    splitTopLevel? operator s = none := by
  rw [Skips, List.append_nil] at h
  rw [splitTopLevel?, h]
  rfl

end

/-- The operators that are looked for in front of one. -/
def earlier : Operator → List Operator
  | .times => []
  | .over => [.times]
  | .plus => [.times, .over]
  | .minus => [.times, .over, .plus]

theorem not_mem_earlier (operator : Operator) : operator ∉ earlier operator := by
  cases operator <;> decide

/-- The first arithmetic operator is one that splits a text, if none does that is looked for in
front of it. -/
theorem splitArithmetic?_of_connective {s : List Char} {operator : Operator}
    {sides : List Char × List Char} (hfound : splitTopLevel? (spelling operator) s = some sides)
    (hnone : ∀ other ∈ earlier operator, splitTopLevel? (spelling other) s = none) :
    splitArithmetic? s = some (operator, sides) := by
  rw [splitArithmetic?]
  cases operator
  · simp [hfound]
  · simp [hfound, hnone .times (by decide)]
  · simp [hfound, hnone .times (by decide), hnone .over (by decide)]
  · simp [hfound, hnone .times (by decide), hnone .over (by decide), hnone .plus (by decide)]

/-! ## Expressions -/

/-- The expression that a prepared text writes. -/
def parsePrepared (s : List Char) : Expr :=
  match splitTopLevel? orWord s with
  | some (left, right) => .either (parse left) (parse right)
  | none =>
    match splitTopLevel? andWord s with
    | some (condition, rest) =>
      match splitTopLevel? orWord rest with
      | some (yes, no) => .choice (parse condition) (parse yes) (parse no)
      | none => .both (parse condition) (parse rest)
    | none =>
      match splitArithmetic? s with
      | some (operator, left, right) => .arith operator (parse left) (parse right)
      | none =>
        match numeral? s with
        | some value => .number value
        | none => pathOf s

theorem parse_eq (s : List Char) :
    parse s = if (trim s).isEmpty then .blank else parsePrepared (prepared s) := by
  rw [parse, parsePrepared]
  split
  · rfl
  · split
    · next hor => rw [hor]
    · next hor =>
      rw [hor]
      dsimp only
      split
      · next hand =>
        rw [hand]
        dsimp only
        split
        · next hbranch => rw [hbranch]
        · next hbranch => rw [hbranch]
      · next hand =>
        rw [hand]
        dsimp only
        split
        · next harith => rw [harith]
        · next harith =>
          rewrite [harith]
          rfl

end ModAlmanac.Expr
