import ModAlmanac.Proofs.Expr.Finite
import ModAlmanac.Proofs.Expr.Occurrences

/-!
# Parenthesised expressions

A tree of operands and connectives is written with a pair of parentheses around every operand that
is not a single one (`Tree.text`). Its text is read as the tree and has the value that the tree has
by its structure (`evaluate_parenthesised`), although the reader knows no precedence and looks for
one operator after the other.

In the search for an operator an operand is skipped, since no operator begins with one of its
characters, and so is what stands between parentheses (`Tree.skips_enclose`). Within a connective no
other one is found (`Connective.skips`). What is left to find is the connective at the root
(`Tree.parse_node`).
-/

namespace ModAlmanac.Expr

open Text

/-! ## Trees -/

/-- Whether a character can stand in a numeral or in a dotted path of names. -/
def isOperandChar (c : Char) : Bool :=
  isWordChar c || c = '.'

/-- A numeral without a sign, or a dotted path of names: a text that is made of their characters. -/
structure Operand where
  text : List Char
  ne_nil : text ≠ []
  all_isOperandChar : ∀ c ∈ text, isOperandChar c = true

/-- What joins two expressions. -/
inductive Connective where
  | either
  | both
  | arith (operator : Operator)

def Connective.text : Connective → List Char
  | .either => orWord
  | .both => andWord
  | .arith operator => spelling operator

/-- What the two expressions are joined to. -/
def Connective.join : Connective → Expr → Expr → Expr
  | .either => .either
  | .both => .both
  | .arith operator => .arith operator

inductive Tree where
  | operand (o : Operand)
  | node (connective : Connective) (left right : Tree)

/-- The text of a tree as it stands inside another one: between parentheses unless the tree is a
single operand. -/
def Tree.enclose : Tree → List Char → List Char
  | .operand _, s => s
  | .node _ _ _, s => '(' :: s ++ [')']

def Tree.text : Tree → List Char
  | .operand o => o.text
  | .node connective left right =>
    left.enclose left.text ++ (connective.text ++ right.enclose right.text)

/-- The value that a tree has by its structure, given the values of its operands. An alternative
takes its right side only if the left one does not hold, `and` takes its right side alone, and
arithmetic takes both sides, the left one first. -/
def Tree.value (operandValue : List Char → Except EvalError Value) :
    Tree → Except EvalError Value
  | .operand o => operandValue o.text
  | .node .either left right => do
    let v ← left.value operandValue
    if v.holds then .ok v else right.value operandValue
  | .node .both _ right => right.value operandValue
  | .node (.arith operator) left right => do
    let a ← left.value operandValue
    let b ← right.value operandValue
    operator.apply a b

/-! ## Characters of operands -/

theorem ne_of_isOperandChar {c d : Char} (hc : isOperandChar c = true)
    (hd : isOperandChar d = false) : c ≠ d := by
  rintro rfl
  rw [hc] at hd
  cases hd

theorem not_isBlank_of_isOperandChar {c : Char} (hc : isOperandChar c = true) :
    isBlank c = false := by
  cases hblank : isBlank c with
  | false => rfl
  | true =>
    simp only [isOperandChar, not_isWordChar_of_isBlank hblank, Bool.false_or,
      decide_eq_true_eq] at hc
    subst hc
    exact absurd hblank (by decide)

/-- The characters that connectives, parentheses and indices begin with stand in no operand. -/
theorem not_isOperandChar {c : Char} (hc : c ∈ ['(', ')', '[', ' ', '*', '/', '+', '-']) :
    isOperandChar c = false := by
  have hall : (['(', ')', '[', ' ', '*', '/', '+', '-'].all fun c => !isOperandChar c) = true := by
    decide +kernel
  simpa using List.all_eq_true.1 hall c hc

theorem Operand.ne {o : Operand} {c d : Char} (hc : c ∈ o.text)
    (hd : d ∈ ['(', ')', '[', ' ', '*', '/', '+', '-']) : c ≠ d :=
  ne_of_isOperandChar (o.all_isOperandChar c hc) (not_isOperandChar hd)

/-! ## Texts of trees -/

theorem Operand.balanced (o : Operand) : Balanced '(' ')' o.text :=
  balanced_of_forall_ne fun _ hc => ⟨o.ne hc (by simp), o.ne hc (by simp)⟩

/-- No connective is written with parentheses or as an index. -/
theorem Connective.mem_text {k : Connective} {c : Char} (hc : c ∈ k.text) :
    c ≠ '(' ∧ c ≠ ')' ∧ c ≠ '[' := by
  have hall : (k.text.all fun c => c ≠ '(' && c ≠ ')' && c ≠ '[') = true := by
    cases k with
    | either => rw [Connective.text, orWord_eq]; decide
    | both => rw [Connective.text, andWord_eq]; decide
    | arith operator => cases operator <;> decide
  simpa [and_assoc] using List.all_eq_true.1 hall c hc

theorem Connective.exists_text_eq (k : Connective) :
    ∃ first more, k.text = first :: more ∧ first ∈ [' ', '*', '/', '+', '-'] := by
  cases k with
  | either => exact ⟨' ', ['o', 'r', ' '], orWord_eq, by simp⟩
  | both => exact ⟨' ', ['a', 'n', 'd', ' '], andWord_eq, by simp⟩
  | arith operator => cases operator <;> exact ⟨_, [], rfl, by simp⟩

theorem Connective.balanced (k : Connective) : Balanced '(' ')' k.text :=
  balanced_of_forall_ne fun _ hc => ⟨(mem_text hc).1, (mem_text hc).2.1⟩

theorem Tree.balanced_enclose {t : Tree} (h : Balanced '(' ')' t.text) :
    Balanced '(' ')' (t.enclose t.text) := by
  cases t with
  | operand o => exact h
  | node k left right => exact h.nest (by decide)

theorem Tree.balanced_text (t : Tree) : Balanced '(' ')' t.text := by
  induction t with
  | operand o => exact o.balanced
  | node k left right ihl ihr =>
    exact (balanced_enclose ihl).append (k.balanced.append (balanced_enclose ihr))

/-- A tree inside another one is skipped. -/
theorem Tree.skips_enclose (t : Tree) {first : Char} (hfirst : first ∈ [' ', '*', '/', '+', '-'])
    (more rest : List Char) : Skips (first :: more) (t.enclose t.text) rest := by
  cases t with
  | operand o =>
    refine skips_of_head (fun c hc => ⟨⟨o.ne hc (by simp), o.ne hc (by simp)⟩, o.ne hc ?_⟩) rest
    exact List.mem_cons_of_mem _ (List.mem_cons_of_mem _ (List.mem_cons_of_mem _ hfirst))
  | node k left right => exact skips_parenthesised (balanced_text _) rest

/-- No index stands in the text of a tree. -/
theorem Tree.not_mem_text (t : Tree) : '[' ∉ t.text := by
  induction t with
  | operand o => exact fun h => o.ne h (d := '[') (by simp) rfl
  | node k left right ihl ihr =>
    have henclose : ∀ {t : Tree}, '[' ∉ t.text → '[' ∉ t.enclose t.text := by
      intro t h
      cases t with
      | operand o => exact h
      | node k left right => simpa [Tree.enclose] using h
    simp only [Tree.text, List.mem_append, not_or]
    exact ⟨henclose ihl, fun h => (Connective.mem_text h).2.2 rfl, henclose ihr⟩

theorem Operand.isTrimmed (o : Operand) : IsTrimmed o.text where
  ne_nil := o.ne_nil
  head c hc := not_isBlank_of_isOperandChar (o.all_isOperandChar c (List.mem_of_mem_head? hc))
  last c hc := not_isBlank_of_isOperandChar (o.all_isOperandChar c (List.mem_of_getLast? hc))

theorem Tree.isTrimmed_enclose (t : Tree) : IsTrimmed (t.enclose t.text) := by
  cases t with
  | operand o => exact o.isTrimmed
  | node k left right => exact isTrimmed_parenthesised _

theorem Tree.isTrimmed_text (t : Tree) : IsTrimmed t.text := by
  cases t with
  | operand o => exact o.isTrimmed
  | node k left right => exact left.isTrimmed_enclose.append right.isTrimmed_enclose k.text

/-! ## Preparing the text of a tree -/

theorem Operand.head?_ne (o : Operand) : o.text.head? ≠ some '(' := fun heq =>
  o.ne (List.mem_of_mem_head? heq) (d := '(') (by simp) rfl

theorem Tree.stripParens_text (t : Tree) : stripParens t.text = t.text := by
  cases t with
  | operand o => exact stripParens_of_head o.head?_ne
  | node k left right =>
    refine stripParens_append (balanced_enclose left.balanced_text) left.isTrimmed_enclose.ne_nil ?_
    simp [right.isTrimmed_enclose.ne_nil]

/-- The text of a tree is searched as it is, whether it stands in parentheses or not. -/
theorem Tree.prepared_text (t : Tree) : prepared t.text = t.text := by
  rw [prepared, t.isTrimmed_text.trim_eq, t.stripParens_text, dotIndices_eq_self t.not_mem_text]

theorem Tree.prepared_enclose (t : Tree) : prepared (t.enclose t.text) = t.text := by
  cases t with
  | operand o => exact Tree.prepared_text (.operand o)
  | node k left right =>
    have hs := balanced_text (.node k left right)
    rw [prepared, Tree.enclose, (isTrimmed_parenthesised _).trim_eq, stripParens_parenthesised hs,
      (isTrimmed_text _).trim_eq, dotIndices_eq_self (not_mem_text _)]

/-! ## Reading the text of a tree -/

theorem Tree.parse_text (t : Tree) : parse t.text = parsePrepared t.text := by
  rw [parse_eq, t.isTrimmed_text.trim_eq, t.prepared_text, if_neg]
  simp [t.isTrimmed_text.ne_nil]

theorem Tree.parse_enclose (t : Tree) : parse (t.enclose t.text) = parse t.text := by
  rw [t.parse_text, parse_eq, t.isTrimmed_enclose.trim_eq, t.prepared_enclose, if_neg]
  simp [t.isTrimmed_enclose.ne_nil]

/-- A connective is found between the trees that it joins. -/
theorem Tree.splitTopLevel?_connective (k : Connective) (left right : Tree) :
    splitTopLevel? k.text (text (.node k left right)) =
      some (left.enclose left.text, right.enclose right.text) := by
  obtain ⟨first, more, hk, hfirst⟩ := k.exists_text_eq
  obtain ⟨hopen, hclose, -⟩ := Connective.mem_text (k := k) (c := first) (by simp [hk])
  have hskips := left.skips_enclose hfirst more (first :: more ++ right.enclose right.text)
  rw [text, hk, splitTopLevel?_joined ⟨hopen, hclose⟩ hskips, left.isTrimmed_enclose.trim_eq,
    right.isTrimmed_enclose.trim_eq]

/-- What begins with a character of its own and goes on with a blank begins no tree: there is no
blank in an operand, and a tree with a connective stands between parentheses. -/
theorem Tree.not_prefix_enclose (t : Tree) {c : Char} (hc : c ≠ '(') {more : List Char}
    (hmore : ' ' ∈ more) : ¬ c :: more <+: t.enclose t.text := by
  intro h
  cases t with
  | operand o =>
    have hmem : ' ' ∈ o.text := h.subset (List.mem_cons_of_mem _ hmore)
    exact o.ne hmem (d := ' ') (by simp) rfl
  | node k left right => exact hc (List.cons_prefix_cons.1 h).1

/-- The sign of an operator stands in no other connective. -/
theorem Connective.not_mem_spelling {k : Connective} {operator : Operator}
    (hne : .arith operator ≠ k) {c : Char} (hc : c ∈ k.text) : c ∉ spelling operator := by
  have hall : (k.text.all fun c => !(spelling operator).contains c) = true := by
    cases k with
    | either => rw [text, orWord_eq]; cases operator <;> decide
    | both => rw [text, andWord_eq]; cases operator <;> decide
    | arith sign =>
      have hsign : operator ≠ sign := fun heq => hne (heq ▸ rfl)
      cases operator <;> cases sign <;> first | decide | exact absurd rfl hsign
  simpa using List.all_eq_true.1 hall c hc

/-- No connective is found within another one, whatever tree stands behind it. -/
theorem Connective.skips {k other : Connective} (hne : other ≠ k) (right : Tree) :
    Skips other.text k.text (right.enclose right.text) := by
  have hplain : ∀ c ∈ k.text, c ≠ '(' ∧ c ≠ ')' :=
    fun c hc => ⟨(mem_text hc).1, (mem_text hc).2.1⟩
  cases other with
  | arith operator =>
    obtain ⟨sign, hsign⟩ : ∃ sign, spelling operator = [sign] := by
      cases operator <;> exact ⟨_, rfl⟩
    rw [text, hsign]
    refine skips_of_head (fun c hc => ⟨hplain c hc, fun heq => ?_⟩) _
    exact not_mem_spelling hne hc (by simp [hsign, heq])
  | either =>
    change Skips orWord k.text _
    rw [orWord_eq]
    cases k with
    | either => exact absurd rfl hne
    | both =>
      exact skips_word 'a' ['n', 'd'] (by decide) (by simp) fun h =>
        right.not_prefix_enclose (by decide) (by simp) (List.cons_prefix_cons.1 h).2
    | arith operator =>
      refine skips_of_head (fun c hc => ⟨hplain c hc, ?_⟩) _
      rintro rfl
      cases operator <;> simp [text, spelling] at hc
  | both =>
    change Skips andWord k.text _
    rw [andWord_eq]
    cases k with
    | either =>
      exact skips_word 'o' ['r'] (by decide) (by simp) fun h =>
        right.not_prefix_enclose (by decide) (by simp) (List.cons_prefix_cons.1 h).2
    | both => exact absurd rfl hne
    | arith operator =>
      refine skips_of_head (fun c hc => ⟨hplain c hc, ?_⟩) _
      rintro rfl
      cases operator <;> simp [text, spelling] at hc

/-- Other connectives than the one at the root are not found. -/
theorem Tree.splitTopLevel?_of_ne {k other : Connective} (hne : other ≠ k) (left right : Tree) :
    splitTopLevel? other.text (text (.node k left right)) = none := by
  obtain ⟨first, more, hother, hfirst⟩ := other.exists_text_eq
  have hright := right.skips_enclose hfirst more []
  have hmiddle := Connective.skips hne right
  rw [← hother] at hright
  rw [← List.append_nil (right.enclose right.text)] at hmiddle
  have hleft := left.skips_enclose hfirst more (k.text ++ right.enclose right.text ++ [])
  rw [← hother] at hleft
  exact splitTopLevel?_eq_none (hleft.append (hmiddle.append hright))

/-- No connective is found in a tree that stands inside another one. -/
theorem Tree.splitTopLevel?_enclose (k : Connective) (t : Tree) :
    splitTopLevel? k.text (t.enclose t.text) = none := by
  obtain ⟨first, more, hk, hfirst⟩ := k.exists_text_eq
  rw [hk]
  exact splitTopLevel?_eq_none (t.skips_enclose hfirst more [])

/-- The expression that a tree writes is the one that the connective at its root joins. -/
theorem Tree.parse_node (k : Connective) (left right : Tree) :
    parse (text (.node k left right)) = k.join (parse left.text) (parse right.text) := by
  have hfound := splitTopLevel?_connective k left right
  have hnone : ∀ other, other ≠ k → splitTopLevel? other.text (text (.node k left right)) = none :=
    fun other hne => splitTopLevel?_of_ne hne left right
  rw [parse_text, parsePrepared]
  cases k with
  | either =>
    change splitTopLevel? orWord _ = _ at hfound
    rw [hfound]
    simp only [Connective.join, parse_enclose]
  | both =>
    have hor := hnone .either (by simp)
    have hbranch := right.splitTopLevel?_enclose .either
    simp only [Connective.text] at hfound hor hbranch
    simp only [hor, hfound, hbranch, Connective.join, parse_enclose]
  | arith operator =>
    have hor := hnone .either (by simp)
    have hand := hnone .both (by simp)
    simp only [Connective.text] at hor hand
    have harith : splitArithmetic? (text (.node (.arith operator) left right)) =
        some (operator, left.enclose left.text, right.enclose right.text) :=
      splitArithmetic?_of_connective hfound fun other hother =>
        hnone (.arith other) fun heq => not_mem_earlier operator (Connective.arith.inj heq ▸ hother)
    simp only [hor, hand, harith, Connective.join, parse_enclose]

/-- Evaluation follows the structure of the tree. -/
theorem Tree.eval_parse (t : Tree) (scope : Scope) :
    (parse t.text).eval scope = t.value fun s => (parse s).eval scope := by
  induction t with
  | operand o => rfl
  | node k left right ihl ihr =>
    rw [parse_node]
    cases k with
    | either =>
      rw [Connective.join, Expr.eval, ihl, ihr]
      rfl
    | both => exact ihr
    | arith operator =>
      rw [Connective.join, Expr.eval, ihl, ihr]
      rfl

end ModAlmanac.Expr

namespace ModAlmanac

open Number

/-! ## Arithmetic on values -/

/-- Truth values do not count as numbers. -/
def Value.isNumber : Value → Bool
  | .int _ => true
  | .float _ => true
  | _ => false

def Value.isZero : Value → Bool
  | .int n => n = 0
  | .float x => x == 0
  | _ => false

section

variable {operator : Operator} {a b : Value}

theorem Operator.apply_of_not_isNumber (h : (a.isNumber && b.isNumber) = false) :
    operator.apply a b = .ok .nil := by
  unfold apply
  split
  · cases h
  · cases h
  · cases h
  · cases h
  · rfl

theorem Operator.over_apply_of_isZero (h : b.isZero = true) :
    Operator.over.apply a b = .ok .nil := by
  cases a <;> cases b <;> simp_all [apply, onInts, onDoubles, Value.isZero]

theorem integer?_of_wholeOrFloat {x y : Float} (h : Expr.wholeOrFloat x = .float y) :
    integer? y = none := by
  unfold Expr.wholeOrFloat at h
  split at h
  · cases h
  · next hx =>
    cases h
    exact hx

theorem integer?_of_onDoubles {x y z : Float} (h : operator.onDoubles x y = .float z) :
    integer? z = none := by
  unfold Operator.onDoubles at h
  split at h
  · cases h
  · exact integer?_of_wholeOrFloat h

theorem integer?_of_onInts {m n : Int} {x : Float} (h : operator.onInts m n = .ok (.float x)) :
    integer? x = none := by
  unfold Operator.onInts at h
  split at h
  · cases h
  · cases h
  · cases h
  · split at h
    · cases h
    · split at h
      · exact integer?_of_wholeOrFloat (Except.ok.inj h)
      · cases h

theorem Operator.integer?_of_apply {x : Float} (h : operator.apply a b = .ok (.float x)) :
    integer? x = none := by
  unfold apply at h
  split at h
  · exact integer?_of_onInts h
  · exact integer?_of_onDoubles (Except.ok.inj h)
  · split at h
    · cases h
    · obtain ⟨y, -, hy⟩ := map_toDouble_eq_ok_iff.1 h
      exact integer?_of_onDoubles hy
  · split at h
    · cases h
    · obtain ⟨y, -, hy⟩ := map_toDouble_eq_ok_iff.1 h
      exact integer?_of_onDoubles hy
  · cases h

end

/-! ## The value of a text -/

/-- The text of a tree has the value of the tree, whatever the values of its operands are.
Arithmetic gives nil for what is no number and for a divisor of zero, and no double that is equal to
an integer. -/
theorem evaluate_parenthesised :
    (∀ (t : Expr.Tree) (e : Entity) (context : Context),
      evaluate t.text e context = t.value fun s => evaluate s e context) ∧
    (∀ (operator : Operator) (a b : Value), (a.isNumber && b.isNumber) = false →
      operator.apply a b = .ok .nil) ∧
    (∀ a b : Value, b.isZero = true → Operator.over.apply a b = .ok .nil) ∧
    ∀ (operator : Operator) (a b : Value) (x : Float),
      operator.apply a b = .ok (.float x) → integer? x = none :=
  ⟨fun t e context => t.eval_parse (Scope.of e context),
    fun _ _ _ => Operator.apply_of_not_isNumber, fun _ _ => Operator.over_apply_of_isZero,
    fun _ _ _ _ => Operator.integer?_of_apply⟩

/-- A numeral or a name of one character. -/
def Expr.Operand.ofChar (c : Char) (h : Expr.isOperandChar c = true) : Expr.Operand where
  text := [c]
  ne_nil := List.cons_ne_nil c []
  all_isOperandChar := by simpa using h

/-- The tree of `(a or 7)*(3+4)`. -/
def factors : Expr.Tree :=
  .node (.arith .times)
    (.node .either (.operand (.ofChar 'a' (by decide +kernel)))
      (.operand (.ofChar '7' (by decide +kernel))))
    (.node (.arith .plus) (.operand (.ofChar '3' (by decide +kernel)))
      (.operand (.ofChar '4' (by decide +kernel))))

/-- Sums are multiplied with each other, and there is a case for each law of arithmetic. -/
theorem evaluate_factors :
    evaluate "(a or 7)*(3+4)".toList default .standard = .ok (.int 49) ∧
      Operator.plus.apply (.bool true) (.int 1) = .ok .nil ∧
      Operator.over.apply (.int 1) (.int 0) = .ok .nil ∧
      ∃ x, Operator.over.apply (.int 1) (.int 2) = .ok (.float x) ∧ integer? x = none := by
  obtain ⟨heval, hnumbers, hzero, hwhole⟩ := evaluate_parenthesised
  have hoperand : ∀ (c : Char) (hc : Expr.isOperandChar c = true),
      evaluate [c] default .standard = (Expr.parsePrepared [c]).eval (Scope.of default .standard) :=
    fun c hc => congrArg (Expr.eval _) (Expr.Tree.parse_text (.operand (.ofChar c hc)))
  refine ⟨?_, hnumbers _ _ _ rfl, hzero _ _ rfl, _, rfl, hwhole .over (.int 1) (.int 2) _ rfl⟩
  have ha : evaluate ['a'] default .standard = .ok .nil := hoperand 'a' (by decide +kernel)
  have h7 : evaluate ['7'] default .standard = .ok (.int 7) := hoperand '7' (by decide +kernel)
  have h3 : evaluate ['3'] default .standard = .ok (.int 3) := hoperand '3' (by decide +kernel)
  have h4 : evaluate ['4'] default .standard = .ok (.int 4) := hoperand '4' (by decide +kernel)
  have htext : "(a or 7)*(3+4)".toList = factors.text := rfl
  rw [htext, heval]
  simp only [factors, Expr.Tree.value, Expr.Operand.ofChar, ha, h7, h3, h4]
  rfl

end ModAlmanac
