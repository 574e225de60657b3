import ModAlmanac.Proofs.Expr.Occurrences
import ModAlmanac.Proofs.Expr.Parenthesised

/-!
# Chains of one arithmetic operator

An operator is looked for from the front of a text, and what stands behind the first one found is
its right side as a whole. So a chain of operands with one operator between them is read from the
right (`parse_arithText`), and its value folds their values in that order (`evaluate_arithText`). An
operand may hold the operators that are looked for later, which therefore bind tighter.

The words `or` and `and` are found in the text of a chain together with the blanks beside its
operators. An operand that ends with the letters of such a word holds it if a blank follows
(`looseOr_not_folded`).
-/

namespace ModAlmanac

open Text

/-- The values of a chain, joined from the right; the first error is the error of the chain. -/
def Operator.foldRight (operator : Operator) :
    List (Except EvalError Value) → Except EvalError Value
  | [] => .ok .nil
  | [value] => value
  | value :: rest => do
    let a ← value
    let b ← operator.foldRight rest
    operator.apply a b

namespace Expr

/-! ## Texts of chains -/

def spacedText (before : Nat) (operand : List Char) (after : Nat) : List Char :=
  List.replicate before ' ' ++ (operand ++ List.replicate after ' ')

/-- An operand of a chain and the numbers of blanks beside it. Together with these blanks it holds,
outside of parentheses, neither the operator of the chain nor anything that is looked for before. -/
structure SpacedOperand (operator : Operator) where
  before : Nat
  operand : List Char
  after : Nat
  not_blank : trim operand ≠ []
  balanced : Balanced '(' ')' operand
  bracket_not_mem : '[' ∉ operand
  not_outside : ∀ word ∈ spelling operator :: soughtBefore operator,
    ¬ Outside word (spacedText before operand after)

variable {operator : Operator}

def SpacedOperand.text (o : SpacedOperand operator) : List Char :=
  spacedText o.before o.operand o.after

def arithText (operands : List (SpacedOperand operator)) : List Char :=
  (spelling operator).intercalate (operands.map SpacedOperand.text)

theorem arithText_single (o : SpacedOperand operator) : arithText [o] = o.text := by
  simp [arithText]

theorem arithText_cons (first next : SpacedOperand operator)
    (rest : List (SpacedOperand operator)) :
    arithText (first :: next :: rest) =
      first.text ++ (spelling operator ++ arithText (next :: rest)) := by
  rw [arithText, List.map_cons, List.intercalate_cons_of_ne_nil (by simp), List.append_assoc]
  rfl

/-! ## Operands -/

theorem isBlank_of_mem_replicate {n : Nat} {c : Char} (hc : c ∈ List.replicate n ' ') :
    isBlank c = true := by
  rw [List.eq_of_mem_replicate hc]
  rfl

theorem SpacedOperand.trim_text (o : SpacedOperand operator) : trim o.text = trim o.operand :=
  trim_blanks (fun _ => isBlank_of_mem_replicate) (fun _ => isBlank_of_mem_replicate) o.operand

theorem SpacedOperand.balanced_text (o : SpacedOperand operator) : Balanced '(' ')' o.text :=
  (balanced_blanks fun _ => isBlank_of_mem_replicate).append
    (o.balanced.append (balanced_blanks fun _ => isBlank_of_mem_replicate))

theorem SpacedOperand.not_mem_text (o : SpacedOperand operator) : '[' ∉ o.text := by
  simp [text, spacedText, o.bracket_not_mem]

theorem SpacedOperand.parse_text (o : SpacedOperand operator) : parse o.text = parse o.operand := by
  rw [← parse_trim, o.trim_text, parse_trim]

/-! ## Reading a chain -/

/-- What does not hold a mark stands on one side of it. -/
theorem outside_or_outside {word s t : List Char} {mark : Char} (hne : word ≠ [])
    (hword : mark ∉ word) (hparen : mark ≠ '(' ∧ mark ≠ ')') (hs : s.count '(' = s.count ')')
    (h : Outside word (s ++ mark :: t)) : Outside word s ∨ Outside word t := by
  obtain ⟨front, behind, heq, hfront⟩ := h
  rcases List.append_eq_append_iff.1 heq with ⟨more, rfl, hmore⟩ | ⟨more, rfl, hmore⟩
  · cases more with
    | nil =>
      -- the word would begin with the mark
      obtain ⟨c, word, rfl⟩ := List.exists_cons_of_ne_nil hne
      obtain ⟨rfl, -⟩ := List.cons.inj hmore
      exact absurd List.mem_cons_self hword
    | cons c more =>
      obtain ⟨rfl, rfl⟩ := List.cons.inj hmore
      simp only [List.count_append, List.count_cons_of_ne hparen.1, List.count_cons_of_ne hparen.2]
        at hfront
      exact .inr ⟨more, behind, rfl, by omega⟩
  · rcases List.append_eq_append_iff.1 hmore with ⟨after, rfl, -⟩ | ⟨after, rfl, hafter⟩
    · exact .inl ⟨front, after, rfl, hfront⟩
    · cases after with
      | nil => exact .inl ⟨front, [], by simp, hfront⟩
      | cons c after =>
        obtain ⟨rfl, -⟩ := List.cons.inj hafter
        exact absurd (by simp) hword

theorem disjoint_of_mem_soughtBefore (operator : Operator) :
    ∀ word ∈ soughtBefore operator, word ≠ [] ∧ ∀ mark ∈ spelling operator, mark ∉ word := by
  cases operator <;> simp [soughtBefore, earlier, spelling, orWord_eq, andWord_eq]

/-- Nothing that is looked for before the operator stands in a chain. -/
theorem not_outside_arithText (first : SpacedOperand operator)
    (rest : List (SpacedOperand operator)) :
    ∀ word ∈ soughtBefore operator, ¬ Outside word (arithText (first :: rest)) := by
  intro word hword
  obtain ⟨mark, hspelling, hparen, -⟩ := exists_spelling_eq operator
  obtain ⟨hne, hmark⟩ := disjoint_of_mem_soughtBefore operator word hword
  induction rest generalizing first with
  | nil =>
    rw [arithText_single]
    exact first.not_outside word (List.mem_cons_of_mem _ hword)
  | cons next rest ih =>
    rw [arithText_cons, hspelling]
    intro hout
    rcases outside_or_outside hne (hmark mark (by simp [hspelling])) hparen
      first.balanced_text.settled hout with h | h
    · exact first.not_outside word (List.mem_cons_of_mem _ hword) h
    · exact ih next h

theorem not_mem_arithText (first : SpacedOperand operator)
    (rest : List (SpacedOperand operator)) : '[' ∉ arithText (first :: rest) := by
  obtain ⟨mark, hspelling, -, hbracket⟩ := exists_spelling_eq operator
  induction rest generalizing first with
  | nil => rw [arithText_single]; exact first.not_mem_text
  | cons next rest ih =>
    simpa [arithText_cons, hspelling, first.not_mem_text, hbracket.symm] using ih next

theorem trim_arithText_ne_nil (first : SpacedOperand operator)
    (rest : List (SpacedOperand operator)) : trim (arithText (first :: rest)) ≠ [] := by
  have hfirst : ∃ c ∈ first.text, isBlank c = false := by
    simpa [← first.trim_text, trim_eq_nil_iff] using first.not_blank
  obtain ⟨c, hc, hblank⟩ := hfirst
  have hmem : c ∈ arithText (first :: rest) := by
    cases rest with
    | nil => rwa [arithText_single]
    | cons next rest => exact arithText_cons first next rest ▸ List.mem_append_left _ hc
  rw [ne_eq, trim_eq_nil_iff]
  exact fun h => by simp [h c hmem] at hblank

/-- A chain is read as its first operand and the rest of it. -/
theorem parse_arithText (first next : SpacedOperand operator)
    (rest : List (SpacedOperand operator)) :
    parse (arithText (first :: next :: rest)) =
      .arith operator (parse first.operand) (parse (arithText (next :: rest))) := by
  have hsought := not_outside_arithText first (next :: rest)
  rw [arithText_cons] at hsought ⊢
  rw [parse_arith (first.trim_text ▸ first.not_blank) (trim_arithText_ne_nil next rest)
    first.balanced_text ⟨first.not_mem_text, not_mem_arithText next rest⟩
    (first.not_outside _ List.mem_cons_self) hsought, first.parse_text]

theorem eval_arithText (first : SpacedOperand operator) (rest : List (SpacedOperand operator))
    (scope : Scope) :
    (parse (arithText (first :: rest))).eval scope =
      operator.foldRight ((first :: rest).map fun o => (parse o.operand).eval scope) := by
  induction rest generalizing first with
  | nil =>
    rw [arithText_single, first.parse_text]
    rfl
  | cons next rest ih =>
    rw [parse_arithText, Expr.eval, ih]
    rfl

/-! ## The value of a chain -/

/-- A chain has the values of its operands folded from the right, whatever these are; the blanks
beside its operators do not count. Arithmetic gives nil for what is no number and for a divisor of
zero. -/
theorem evaluate_arithText :
    (∀ (operator : Operator) (first : SpacedOperand operator)
      (rest : List (SpacedOperand operator)) (e : Entity) (context : Context),
        evaluate (arithText (first :: rest)) e context =
          operator.foldRight ((first :: rest).map fun o => evaluate o.operand e context)) ∧
    (∀ (operator : Operator) (a b : Value), (a.isNumber && b.isNumber) = false →
      operator.apply a b = .ok .nil) ∧
    ∀ a b : Value, b.isZero = true → Operator.over.apply a b = .ok .nil :=
  ⟨fun _ first rest e context => eval_arithText first rest (Scope.of e context),
    fun _ _ _ => Operator.apply_of_not_isNumber, fun _ _ => Operator.over_apply_of_isZero⟩

/-- A search that gives nothing shows that a word does not stand in a text. -/
theorem not_outside_of_search {words : List (List Char)} {s : List Char}
    (h : ∀ word ∈ words, ((word.head?.elim false fun c => c != '(' && c != ')') &&
      (splitTopLevel? word s).isNone) = true) : ∀ word ∈ words, ¬ Outside word s := by
  intro word hword
  have hnone := h word hword
  cases word with
  | nil => cases hnone
  | cons first more =>
    simp only [List.head?_cons, Option.elim_some, Bool.and_eq_true, bne_iff_ne,
      Option.isNone_iff_eq_none] at hnone
    exact (splitTopLevel?_eq_none_iff hnone.1).1 hnone.2

/-- An operand of one character, with blanks. -/
def SpacedOperand.ofChar (operator : Operator) (before : Nat) (c : Char) (after : Nat)
    (hblank : isBlank c = false) (hc : (c ≠ '(' ∧ c ≠ ')') ∧ c ≠ '[')
    (h : ∀ word ∈ spelling operator :: soughtBefore operator,
      ¬ Outside word (spacedText before [c] after)) : SpacedOperand operator where
  before := before
  operand := [c]
  after := after
  not_blank := by simp [trim_eq_nil_iff, hblank]
  balanced := balanced_of_forall_ne (by simpa using hc.1)
  bracket_not_mem := by simpa using hc.2.symm
  not_outside := h

/-- The operands of `8 -3 - 1`. -/
def difference : SpacedOperand .minus × List (SpacedOperand .minus) :=
  (.ofChar .minus 0 '8' 1 (by decide) (by decide) (not_outside_of_search (by decide)),
    [.ofChar .minus 0 '3' 1 (by decide) (by decide) (not_outside_of_search (by decide)),
     .ofChar .minus 1 '1' 0 (by decide) (by decide) (not_outside_of_search (by decide))])

/-- The operands of `8 -3 - 1 * 2`, where the product is the outermost operation. -/
def doubledDifference : SpacedOperand .times × List (SpacedOperand .times) :=
  ({ before := 0
     operand := "8 -3 - 1".toList
     after := 1
     not_blank := by decide
     balanced := balanced_of_forall_ne (by simp)
     bracket_not_mem := by decide
     not_outside := not_outside_of_search (by decide +kernel) },
    [.ofChar .times 1 '2' 0 (by decide) (by decide) (not_outside_of_search (by decide))])

/-- One is taken from three first, and the difference of that from eight is doubled. -/
theorem evaluate_doubledDifference :
    evaluate "8 -3 - 1 * 2".toList default .standard = .ok (.int 12) ∧
      Operator.plus.apply (.bool true) (.int 1) = .ok .nil ∧
      Operator.over.apply (.int 1) (.int 0) = .ok .nil := by
  obtain ⟨hchain, hnumbers, hzero⟩ := evaluate_arithText
  refine ⟨?_, hnumbers _ _ _ rfl, hzero _ _ rfl⟩
  have h8 : evaluate ['8'] default .standard = .ok (.int 8) :=
    evaluate_of_head (by decide) _ _
  have h3 : evaluate ['3'] default .standard = .ok (.int 3) :=
    evaluate_of_head (by decide) _ _
  have h1 : evaluate ['1'] default .standard = .ok (.int 1) :=
    evaluate_of_head (by decide) _ _
  have h2 : evaluate ['2'] default .standard = .ok (.int 2) :=
    evaluate_of_head (by decide) _ _
  have hdifference : evaluate "8 -3 - 1".toList default .standard = .ok (.int 6) := by
    have htext : "8 -3 - 1".toList = arithText (difference.1 :: difference.2) := rfl
    rw [htext, hchain]
    simp only [difference, SpacedOperand.ofChar, List.map_cons, h8, h3, h1]
    rfl
  have htext : "8 -3 - 1 * 2".toList = arithText (doubledDifference.1 :: doubledDifference.2) := rfl
  rw [htext, hchain]
  simp only [doubledDifference, SpacedOperand.ofChar, List.map_cons, hdifference, h2]
  rfl

/-- Neither `1 or` nor `2` holds a word or a product, but with a blank behind it `1 or` does: the
alternative is found before the product, and its left side counts. -/
theorem looseOr_not_folded :
    (∀ operand ∈ ["1 or".toList, "2".toList],
      trim operand ≠ [] ∧ Balanced '(' ')' operand ∧ '[' ∉ operand ∧
        ∀ word ∈ spelling .times :: soughtBefore .times, ¬ Outside word operand) ∧
    evaluate ((spelling .times).intercalate
      [spacedText 0 "1 or".toList 1, spacedText 1 "2".toList 0]) default .standard =
        .ok (.int 1) ∧
    Operator.times.foldRight (["1 or".toList, "2".toList].map fun operand =>
      evaluate operand default .standard) = .ok .nil := by
  have h1 : evaluate ['1'] default .standard = .ok (.int 1) :=
    evaluate_of_head (by decide) _ _
  have h2 : evaluate ['2'] default .standard = .ok (.int 2) :=
    evaluate_of_head (by decide) _ _
  have hloose : evaluate "1 or".toList default .standard = .ok .nil :=
    evaluate_of_head (by decide) _ _
  refine ⟨?_, ?_, ?_⟩
  · intro operand hoperand
    simp only [List.mem_cons, List.not_mem_nil, or_false] at hoperand
    rcases hoperand with rfl | rfl
    · exact ⟨by decide, balanced_of_forall_ne (by simp), by decide,
        not_outside_of_search (by decide +kernel)⟩
    · exact ⟨by decide, balanced_of_forall_ne (by simp), by decide,
        not_outside_of_search (by decide +kernel)⟩
  · have htext : (spelling .times).intercalate
        [spacedText 0 "1 or".toList 1, spacedText 1 "2".toList 0] = "1 or * 2".toList := rfl
    rw [htext, evaluate_of_head (by decide)]
    change (do
      let v ← evaluate ['1'] default .standard
      if v.holds then .ok v else evaluate "* 2".toList default .standard) = _
    rw [h1]
    rfl
  · simp only [List.map_cons, hloose]
    change Operator.times.foldRight [.ok .nil, evaluate ['2'] default .standard] = _
    rw [h2]
    rfl

end Expr

end ModAlmanac
