import ModAlmanac.Expr.Evaluate
import ModAlmanac.Proofs.FirstFault
import ModAlmanac.Proofs.Number.Range

/-!
# Expressions without a value

Evaluation gives nil for whatever it cannot determine, with two exceptions. Arithmetic fails where
an operand or a quotient is too large for a double (`Operator.apply_eq_error_iff`), and a path fails
where an index into a list is made of digits without a place value
(`Value.follow_eq_error_iff`). An expression fails exactly if evaluation reaches such a
subexpression (`Expr.eval_eq_error_iff`).
-/

namespace ModAlmanac

open Number OrderedMap Text

/-! ## Arithmetic -/

/-- Whether arithmetic needs a double that is too large: that of an integer beside a double, or the
quotient of two integers. A divisor of zero needs none. -/
def Operator.OutOfRange (operator : Operator) : Value → Value → Prop
  | .int m, .int n => operator = .over ∧ n ≠ 0 ∧ overflowBound * n.natAbs ≤ m.natAbs
  | .int m, .float y => ¬(operator = .over ∧ (y == 0) = true) ∧ overflowBound ≤ m.natAbs
  | .float _, .int n => overflowBound ≤ n.natAbs
  | _, _ => False

theorem toDouble_eq_error_iff {n : Int} {e : EvalError} :
    toDouble n = .error e ↔ e = .outOfRange ∧ overflowBound ≤ n.natAbs := by
  rw [← floatOfInt?_eq_none_iff]
  unfold toDouble
  cases floatOfInt? n <;> simp [eq_comm]

theorem Operator.onInts_eq_error_iff {operator : Operator} {m n : Int} {e : EvalError} :
    operator.onInts m n = .error e ↔
      e = .outOfRange ∧ operator = .over ∧ n ≠ 0 ∧ overflowBound * n.natAbs ≤ m.natAbs := by
  unfold onInts
  split
  · simp
  · simp
  · simp
  · split
    · next hn => simp [hn]
    · next hn =>
      rw [← floatOfQuotient?_eq_none_iff hn]
      cases floatOfQuotient? m n <;> simp [hn, eq_comm]

/-- Arithmetic fails only for want of a double. -/
theorem Operator.apply_eq_error_iff {operator : Operator} {left right : Value} {e : EvalError} :
    operator.apply left right = .error e ↔ e = .outOfRange ∧ operator.OutOfRange left right := by
  unfold apply
  split
  · exact onInts_eq_error_iff
  · simp [OutOfRange]
  · next m y =>
    simp only [Bool.and_eq_true, decide_eq_true_eq, OutOfRange]
    split
    · next hzero => simp [hzero]
    · next hnonzero =>
      rw [map_eq_error_iff, toDouble_eq_error_iff]
      simp [hnonzero]
  · next x n =>
    simp only [Bool.and_eq_true, decide_eq_true_eq, OutOfRange]
    split
    · next hzero =>
      have hpos := overflowBound_pos
      simp only [hzero.2, Int.natAbs_zero, reduceCtorEq, false_iff]
      omega
    · rw [map_eq_error_iff, toDouble_eq_error_iff]
  · next hints hfloats hleft hright =>
    refine iff_of_false (fun h => by cases h) ?_
    rintro ⟨-, h⟩
    unfold OutOfRange at h
    split at h
    · exact hints _ _ rfl rfl
    · exact hleft _ _ rfl rfl
    · exact hright _ _ rfl rfl
    · exact h

/-! ## Paths -/

/-- Whether a segment is made of digits of which at least one takes no place. -/
def isSignIndex (segment : List Char) : Bool :=
  !segment.isEmpty && segment.all isAnyDigit && !segment.all isDecimalDigit

/-- Whether some segments lead to a list and go on with an index of signs. -/
def Value.MissesPlace (v : Value) (segments : List (List Char)) : Prop :=
  ∃ front segment behind items, segments = front ++ segment :: behind ∧
    v.follow front = .ok (.list items) ∧ isSignIndex segment = true

theorem itemAt_eq_error_iff {items : List Value} {segment : List Char} {e : EvalError} :
    itemAt items segment = .error e ↔
      e = .badIndex ∧ segment.all isDecimalDigit = false := by
  unfold itemAt
  split
  · next hall =>
    rw [hall]
    split <;> simp
  · next hall => simp [hall, eq_comm]

theorem Value.follow_nil_value (segments : List (List Char)) :
    Value.nil.follow segments = .ok .nil := by
  cases segments <;> rfl

/-- A value is followed one segment at a time. -/
theorem Value.follow_cons (v : Value) (segment : List Char) (segments : List (List Char)) :
    v.follow (segment :: segments) = v.follow [segment] >>= (·.follow segments) := by
  rw [follow.eq_def, follow.eq_def v [segment]]
  dsimp only
  split
  · split
    · rfl
    · exact (follow_nil_value segments).symm
  · split
    · next items _ =>
      cases itemAt items segment with
      | error e => rfl
      | ok inner => rfl
    · exact (follow_nil_value segments).symm
  · exact (follow_nil_value segments).symm

theorem Value.follow_append (v : Value) (front behind : List (List Char)) :
    v.follow (front ++ behind) = v.follow front >>= (·.follow behind) := by
  induction front generalizing v with
  | nil => rfl
  | cons segment front ih =>
    rw [List.cons_append, follow_cons, follow_cons v segment front]
    cases v.follow [segment] with
    | error e => rfl
    | ok inner => exact ih inner

/-- One segment fails exactly if it is an index of signs into a list. -/
theorem Value.follow_single_eq_error_iff {v : Value} {segment : List Char} {e : EvalError} :
    v.follow [segment] = .error e ↔
      e = .badIndex ∧ ∃ items, v = .list items ∧ isSignIndex segment = true := by
  rw [follow.eq_def]
  dsimp only
  split
  · next fields =>
    split <;> simp [follow]
  · next items =>
    split
    · next hindex =>
      rw [bind_eq_error_iff, itemAt_eq_error_iff]
      simp_all [follow, isSignIndex]
    · next hindex =>
      simp_all [isSignIndex]
  · next hlist =>
    refine iff_of_false (fun h => by cases h) ?_
    rintro ⟨-, items, rfl, -⟩
    exact hlist items rfl

/-- Following segments fails exactly at an index of signs into a list. -/
theorem Value.follow_eq_error_iff {v : Value} {segments : List (List Char)} {e : EvalError} :
    v.follow segments = .error e ↔ e = .badIndex ∧ v.MissesPlace segments := by
  constructor
  · intro h
    induction segments generalizing v with
    | nil => cases h
    | cons segment segments ih =>
      rw [follow_cons, bind_eq_error_iff] at h
      rcases h with h | ⟨inner, hinner, h⟩
      · obtain ⟨he, items, rfl, hsegment⟩ := follow_single_eq_error_iff.1 h
        exact ⟨he, [], segment, segments, items, rfl, rfl, hsegment⟩
      · obtain ⟨he, front, sign, behind, items, rfl, hfront, hsign⟩ := ih h
        refine ⟨he, segment :: front, sign, behind, items, rfl, ?_, hsign⟩
        rw [follow_cons, hinner]
        exact hfront
  · rintro ⟨rfl, front, segment, behind, items, rfl, hfront, hsegment⟩
    have hfails : (Value.list items).follow [segment] = .error .badIndex :=
      follow_single_eq_error_iff.2 ⟨rfl, items, rfl, hsegment⟩
    rw [follow_append, hfront]
    change (Value.list items).follow (segment :: behind) = _
    rw [follow_cons, hfails]
    rfl

/-- The value that the segments of a path are followed from. -/
def Scope.start? (scope : Scope) (root : List Char) (segments : List (List Char)) : Option Value :=
  if root = "stg".toList then some ((extraFor? scope.config segments).getD (.table scope.config))
  else if root = "card".toList then some (.table scope.card)
  else if root = "G".toList then some scope.globals
  else none

theorem Scope.resolve_eq_error_iff {scope : Scope} {root : List Char}
    {segments : List (List Char)} {e : EvalError} :
    scope.resolve root segments = .error e ↔
      e = .badIndex ∧
        ∃ start, scope.start? root segments = some start ∧ start.MissesPlace segments := by
  have hresolve : scope.resolve root segments =
      (scope.start? root segments).elim (.ok .nil) (·.follow segments) := by
    unfold resolve start?
    split
    · cases extraFor? scope.config segments <;> rfl
    · split
      · rfl
      · split <;> rfl
  rw [hresolve]
  cases scope.start? root segments with
  | none => simp
  | some start => simp [Value.follow_eq_error_iff]

/-! ## Expressions -/

/-- The subexpressions that evaluation gets to, as long as none of them fails. -/
inductive Expr.Reaches (scope : Scope) : Expr → Expr → Prop
  | self (expr : Expr) : Reaches scope expr expr
  | eitherLeft {left right sub : Expr} (h : Reaches scope left sub) :
      Reaches scope (.either left right) sub
  | eitherRight {left right sub : Expr} {v : Value} (hleft : left.eval scope = .ok v)
      (hholds : v.holds = false) (h : Reaches scope right sub) :
      Reaches scope (.either left right) sub
  | condition {condition yes no sub : Expr} (h : Reaches scope condition sub) :
      Reaches scope (.choice condition yes no) sub
  | yes {condition yes no sub : Expr} {v : Value} (hcondition : condition.eval scope = .ok v)
      (hholds : v.holds = true) (h : Reaches scope yes sub) :
      Reaches scope (.choice condition yes no) sub
  | no {condition yes no sub : Expr} {v : Value} (hcondition : condition.eval scope = .ok v)
      (hholds : v.holds = false) (h : Reaches scope no sub) :
      Reaches scope (.choice condition yes no) sub
  | last {condition last sub : Expr} (h : Reaches scope last sub) :
      Reaches scope (.both condition last) sub
  | arithLeft {operator : Operator} {left right sub : Expr} (h : Reaches scope left sub) :
      Reaches scope (.arith operator left right) sub
  | arithRight {operator : Operator} {left right sub : Expr} {v : Value}
      (hleft : left.eval scope = .ok v) (h : Reaches scope right sub) :
      Reaches scope (.arith operator left right) sub

/-- Whether an expression fails by itself, its operands having values. -/
def Expr.Faulty (scope : Scope) (e : EvalError) : Expr → Prop
  | .arith operator left right =>
    ∃ a b, left.eval scope = .ok a ∧ right.eval scope = .ok b ∧
      e = .outOfRange ∧ operator.OutOfRange a b
  | .path root segments =>
    e = .badIndex ∧ ∃ start, scope.start? root segments = some start ∧ start.MissesPlace segments
  | _ => False

theorem Expr.eval_eq_error_of_faulty {scope : Scope} {e : EvalError} {expr : Expr}
    (h : expr.Faulty scope e) : expr.eval scope = .error e := by
  cases expr with
  | arith operator left right =>
    obtain ⟨a, b, ha, hb, hrange⟩ := h
    rw [eval, ha, hb]
    exact Operator.apply_eq_error_iff.2 hrange
  | path root segments => exact Scope.resolve_eq_error_iff.2 h
  | blank => exact h.elim
  | number value => exact h.elim
  | either left right => exact h.elim
  | choice condition yes no => exact h.elim
  | both condition last => exact h.elim

/-- What evaluation reaches makes it fail. -/
theorem Expr.Reaches.eval_eq_error {scope : Scope} {e : EvalError} {expr sub : Expr}
    (h : Reaches scope expr sub) (hsub : sub.eval scope = .error e) :
    expr.eval scope = .error e := by
  induction h with
  | self => exact hsub
  | eitherLeft _ ih => rw [eval, ih hsub]; rfl
  | eitherRight hleft hholds _ ih =>
    rw [eval, hleft]
    simpa [bind, Except.bind, hholds] using ih hsub
  | condition _ ih => rw [eval, ih hsub]; rfl
  | yes hcondition hholds _ ih =>
    rw [eval, hcondition]
    simpa [bind, Except.bind, hholds] using ih hsub
  | no hcondition hholds _ ih =>
    rw [eval, hcondition]
    simpa [bind, Except.bind, hholds] using ih hsub
  | last _ ih => exact ih hsub
  | arithLeft _ ih => rw [eval, ih hsub]; rfl
  | arithRight hleft _ ih => rw [eval, hleft, ih hsub]; rfl

/-- Evaluation that fails has reached an expression that fails by itself. -/
theorem Expr.exists_faulty_of_eval {scope : Scope} {e : EvalError} {expr : Expr}
    (h : expr.eval scope = .error e) : ∃ sub, Reaches scope expr sub ∧ sub.Faulty scope e := by
  induction expr with
  | blank => cases h
  | number value => cases h
  | path root segments => exact ⟨_, .self _, Scope.resolve_eq_error_iff.1 h⟩
  | either left right ihl ihr =>
    rw [eval, bind_eq_error_iff] at h
    rcases h with h | ⟨v, hv, h⟩
    · obtain ⟨sub, hsub, hfault⟩ := ihl h
      exact ⟨sub, .eitherLeft hsub, hfault⟩
    · split at h
      · cases h
      · next hholds =>
        obtain ⟨sub, hsub, hfault⟩ := ihr h
        exact ⟨sub, .eitherRight hv (Bool.eq_false_of_not_eq_true hholds) hsub, hfault⟩
  | choice condition yes no ihc ihy ihn =>
    rw [eval, bind_eq_error_iff] at h
    rcases h with h | ⟨v, hv, h⟩
    · obtain ⟨sub, hsub, hfault⟩ := ihc h
      exact ⟨sub, .condition hsub, hfault⟩
    · split at h
      · next hholds =>
        obtain ⟨sub, hsub, hfault⟩ := ihy h
        exact ⟨sub, .yes hv hholds hsub, hfault⟩
      · next hholds =>
        obtain ⟨sub, hsub, hfault⟩ := ihn h
        exact ⟨sub, .no hv (Bool.eq_false_of_not_eq_true hholds) hsub, hfault⟩
  | both condition last _ ihl =>
    obtain ⟨sub, hsub, hfault⟩ := ihl h
    exact ⟨sub, .last hsub, hfault⟩
  | arith operator left right ihl ihr =>
    rw [eval, bind_eq_error_iff] at h
    rcases h with h | ⟨a, ha, h⟩
    · obtain ⟨sub, hsub, hfault⟩ := ihl h
      exact ⟨sub, .arithLeft hsub, hfault⟩
    · rcases bind_eq_error_iff.1 h with h | ⟨b, hb, h⟩
      · obtain ⟨sub, hsub, hfault⟩ := ihr h
        exact ⟨sub, .arithRight ha hsub, hfault⟩
      · exact ⟨_, .self _, a, b, ha, hb, Operator.apply_eq_error_iff.1 h⟩

/-- An expression fails exactly if evaluation reaches a subexpression that fails by itself. -/
theorem Expr.eval_eq_error_iff {scope : Scope} {e : EvalError} {expr : Expr} :
    expr.eval scope = .error e ↔ ∃ sub, Reaches scope expr sub ∧ sub.Faulty scope e :=
  ⟨exists_faulty_of_eval,
    fun ⟨_, hreaches, hfault⟩ => hreaches.eval_eq_error (eval_eq_error_of_faulty hfault)⟩

example : evaluate "card.vars.²".toList default .standard = .error .badIndex := by
  decide +kernel

end ModAlmanac
