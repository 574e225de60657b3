import ModAlmanac.Proofs.Expr.Paths
import ModAlmanac.Proofs.Number.Finite

/-!
# Expressions whose value is not finite

Doubles that are not finite come up in two places. A numeral in an expression is out of range
(`Expr.isFinite_numeral?_iff`), or arithmetic on doubles leaves their range or has no defined result
(`Operator.isFinite_apply_iff`); arithmetic on integers alone never does either. Where the names of
an expression stand for finite values, its value is not finite exactly if it is that of such a
subexpression (`Expr.isFinite_eval_iff`).
-/

namespace ModAlmanac

open Number Text

/-! ## Numerals -/

theorem isFinite_of_integer? {x : Float} {n : Int} (h : integer? x = some n) :
    x.isFinite = true := by
  obtain ⟨p, hp, -⟩ := Option.bind_eq_some_iff.1 h
  rw [← Bool.not_eq_false, isFinite_eq_false_iff, hp]
  exact Option.some_ne_none p

theorem Expr.isFinite_wholeOrFloat (x : Float) :
    (Expr.wholeOrFloat x).IsFinite ↔ x.isFinite = true := by
  unfold Expr.wholeOrFloat
  split
  · next n hn => exact iff_of_true (isFinite_int n) (isFinite_of_integer? hn)
  · exact isFinite_float

/-- A hexadecimal numeral is no decimal one. -/
theorem signedDecimal?_of_hexPart? {s numeral : List Char}
    (h : hexPart? s = some (numeral, [])) : signedDecimal? s = none := by
  unfold hexPart? at h
  split at h
  · next x rest =>
    split at h
    · next hx =>
      have hpart : decimalPart? true ('0' :: x :: rest) = some (['0'], x :: rest) := by
        have hbase : x = 'x' ∨ x = 'X' := by simpa using hx
        rcases hbase with rfl | rfl <;> rfl
      have hsign : splitSign ('0' :: x :: rest) = (false, '0' :: x :: rest) := rfl
      unfold signedDecimal?
      rw [hsign]
      dsimp only
      rw [hpart]
    · cases h
  · cases h

/-- The value of a numeral is not finite exactly if the numeral is out of range. -/
theorem Expr.isFinite_numeral?_iff {s : List Char} {v : Value} (h : Expr.numeral? s = some v) :
    v.IsFinite ↔ ¬WritesOutOfRange (dropLineEnd s) := by
  unfold Expr.numeral? at h
  dsimp only at h
  split at h
  · next hhex =>
    cases h
    refine iff_of_true (isFinite_int _) ?_
    rintro ⟨p, hp, -⟩
    rw [signedDecimal?_of_hexPart? hhex] at hp
    cases hp
  · obtain ⟨x, hx, rfl⟩ := Option.map_eq_some_iff.1 h
    rw [Expr.isFinite_wholeOrFloat, ← isFinite_floatOfText?_iff hx, Bool.not_eq_false]

/-! ## Arithmetic -/

/-- Whether arithmetic on doubles has a result that is not finite. A divisor of zero has none. -/
def Operator.LeavesDoubles (operator : Operator) (x y : Float) : Prop :=
  ¬(operator = .over ∧ (y == 0) = true) ∧ (operator.onFloats x y).isFinite = false

/-- Whether arithmetic on values has a result that is not finite: at least one of them has to be a
double, and the other one is a number that is turned into one. -/
def Operator.Overflows (operator : Operator) : Value → Value → Prop
  | .float x, .float y => operator.LeavesDoubles x y
  | .int m, .float y => ∃ x, floatOfInt? m = some x ∧ operator.LeavesDoubles x y
  | .float x, .int n => ∃ y, floatOfInt? n = some y ∧ operator.LeavesDoubles x y
  | _, _ => False

theorem Operator.isFinite_onDoubles_iff {operator : Operator} {x y : Float} :
    (operator.onDoubles x y).IsFinite ↔ ¬operator.LeavesDoubles x y := by
  unfold onDoubles LeavesDoubles
  split
  · next hzero =>
    refine iff_of_true isFinite_nil fun h => h.1 ?_
    simpa using hzero
  · next hnonzero =>
    have hdivisor : ¬(operator = .over ∧ (y == 0) = true) := by simpa using hnonzero
    rw [Expr.isFinite_wholeOrFloat, ← Bool.not_eq_false]
    exact not_congr ⟨fun h => ⟨hdivisor, h⟩, And.right⟩

/-- Arithmetic on integers is finite. -/
theorem Operator.isFinite_of_onInts {operator : Operator} {m n : Int} {v : Value}
    (h : operator.onInts m n = .ok v) : v.IsFinite := by
  unfold onInts at h
  split at h
  · cases h
    exact isFinite_int _
  · cases h
    exact isFinite_int _
  · cases h
    exact isFinite_int _
  · split at h
    · cases h
      exact isFinite_nil
    · split at h
      · next x hx =>
        cases h
        exact (Expr.isFinite_wholeOrFloat x).2 (isFinite_of_nearest? hx)
      · cases h

theorem map_toDouble_eq_ok_iff {n : Int} {f : Float → Value} {v : Value} :
    (toDouble n).map f = .ok v ↔ ∃ x, floatOfInt? n = some x ∧ f x = v := by
  unfold toDouble
  cases floatOfInt? n <;> simp [Except.map]

/-- The result of arithmetic is not finite exactly if doubles are left. -/
theorem Operator.isFinite_apply_iff {operator : Operator} {left right v : Value}
    (h : operator.apply left right = .ok v) : v.IsFinite ↔ ¬operator.Overflows left right := by
  unfold apply at h
  split at h
  · exact iff_of_true (Operator.isFinite_of_onInts h) id
  · cases h
    exact Operator.isFinite_onDoubles_iff
  · next m y =>
    split at h
    · next hzero =>
      cases h
      refine iff_of_true isFinite_nil ?_
      rintro ⟨x, -, hx⟩
      exact hx.1 (by simpa using hzero)
    · obtain ⟨x, hx, rfl⟩ := map_toDouble_eq_ok_iff.1 h
      rw [Operator.isFinite_onDoubles_iff, Overflows, hx]
      simp
  · next x n =>
    split at h
    · next hzero =>
      have hover : operator = .over ∧ n = 0 := by simpa using hzero
      obtain ⟨rfl, rfl⟩ := hover
      cases h
      refine iff_of_true isFinite_nil ?_
      rintro ⟨y, hy, hleaves⟩
      cases hy
      exact hleaves.1 ⟨rfl, rfl⟩
    · obtain ⟨y, hy, rfl⟩ := map_toDouble_eq_ok_iff.1 h
      rw [Operator.isFinite_onDoubles_iff, Overflows, hy]
      simp
  · next hints hfloats hleft hright =>
    cases h
    refine iff_of_true isFinite_nil fun h => ?_
    unfold Overflows at h
    split at h
    · exact hfloats _ _ rfl rfl
    · exact hleft _ _ rfl rfl
    · exact hright _ _ rfl rfl
    · exact h

/-! ## Expressions -/

/-- The expressions that have their value from some subexpression: it is one of theirs, and its
value is taken as it is. -/
inductive Expr.Takes (scope : Scope) (sub : Expr) : Expr → Prop
  | self : Takes scope sub sub
  | eitherLeft {left right : Expr} {v : Value} (hleft : left.eval scope = .ok v)
      (hholds : v.holds = true) (h : Takes scope sub left) : Takes scope sub (.either left right)
  | eitherRight {left right : Expr} {v : Value} (hleft : left.eval scope = .ok v)
      (hholds : v.holds = false) (h : Takes scope sub right) : Takes scope sub (.either left right)
  | yes {condition yes no : Expr} {v : Value} (hcondition : condition.eval scope = .ok v)
      (hholds : v.holds = true) (h : Takes scope sub yes) :
      Takes scope sub (.choice condition yes no)
  | no {condition yes no : Expr} {v : Value} (hcondition : condition.eval scope = .ok v)
      (hholds : v.holds = false) (h : Takes scope sub no) :
      Takes scope sub (.choice condition yes no)
  | last {condition last : Expr} (h : Takes scope sub last) : Takes scope sub (.both condition last)

theorem Expr.Takes.eval_eq {scope : Scope} {sub expr : Expr} (h : Takes scope sub expr) :
    expr.eval scope = sub.eval scope := by
  induction h with
  | self => rfl
  | eitherLeft hleft hholds _ ih =>
    rw [eval, ← ih, hleft]
    simp [bind, Except.bind, hholds]
  | eitherRight hleft hholds _ ih =>
    rw [eval, ← ih, hleft]
    simp [bind, Except.bind, hholds]
  | yes hcondition hholds _ ih =>
    rw [eval, ← ih, hcondition]
    simp [bind, Except.bind, hholds]
  | no hcondition hholds _ ih =>
    rw [eval, ← ih, hcondition]
    simp [bind, Except.bind, hholds]
  | last _ ih => exact ih

/-- Whether an expression is a numeral out of range or arithmetic that leaves the doubles. -/
def Expr.Overflows (scope : Scope) : Expr → Prop
  | .number value => ¬value.IsFinite
  | .arith operator left right =>
    ∃ a b, left.eval scope = .ok a ∧ right.eval scope = .ok b ∧ operator.Overflows a b
  | _ => False

/-- Whether the names of an expression stand for finite values. -/
structure Scope.IsFinite (scope : Scope) : Prop where
  config : (Value.table scope.config).IsFinite
  card : (Value.table scope.card).IsFinite
  globals : scope.globals.IsFinite

theorem Scope.isFinite_of_resolve {scope : Scope} (hscope : scope.IsFinite) {root : List Char}
    {segments : List (List Char)} {v : Value} (h : scope.resolve root segments = .ok v) :
    v.IsFinite := by
  rcases Scope.resolve_cases h with rfl | h | h | h
  · exact isFinite_nil
  · exact hscope.config.of_within h
  · exact hscope.card.of_within h
  · exact hscope.globals.of_within h

/-- An overflow has no finite value. -/
theorem Expr.Overflows.not_isFinite {scope : Scope} {expr : Expr} {v : Value}
    (hover : expr.Overflows scope) (h : expr.eval scope = .ok v) : ¬v.IsFinite := by
  cases expr with
  | number value =>
    cases h
    exact hover
  | arith operator left right =>
    obtain ⟨a, b, ha, hb, hover⟩ := hover
    rw [eval, ha, hb] at h
    rw [Operator.isFinite_apply_iff h, not_not]
    exact hover
  | blank => exact hover.elim
  | either left right => exact hover.elim
  | choice condition yes no => exact hover.elim
  | both condition last => exact hover.elim
  | path root segments => exact hover.elim

/-- An expression that takes its value from no overflow has a finite one. -/
theorem Expr.isFinite_of_eval {scope : Scope} (hscope : scope.IsFinite) {expr : Expr} {v : Value}
    (htakes : ∀ sub, Takes scope sub expr → ¬sub.Overflows scope)
    (h : expr.eval scope = .ok v) : v.IsFinite := by
  induction expr generalizing v with
  | blank =>
    cases h
    exact isFinite_nil
  | number value =>
    cases h
    exact not_not.1 (htakes _ .self)
  | path root segments => exact Scope.isFinite_of_resolve hscope h
  | arith operator left right =>
    obtain ⟨a, ha, h'⟩ := bind_eq_ok_iff.1 h
    obtain ⟨b, hb, h'⟩ := bind_eq_ok_iff.1 h'
    rw [Operator.isFinite_apply_iff h']
    exact fun hover => htakes _ .self ⟨a, b, ha, hb, hover⟩
  | either left right ihl ihr =>
    obtain ⟨a, ha, h⟩ := bind_eq_ok_iff.1 h
    split at h
    · next hholds =>
      cases h
      exact ihl (fun sub hsub => htakes sub (.eitherLeft ha hholds hsub)) ha
    · next hholds =>
      have hholds := Bool.eq_false_of_not_eq_true hholds
      exact ihr (fun sub hsub => htakes sub (.eitherRight ha hholds hsub)) h
  | choice condition yes no _ ihy ihn =>
    obtain ⟨a, ha, h⟩ := bind_eq_ok_iff.1 h
    split at h
    · next hholds => exact ihy (fun sub hsub => htakes sub (.yes ha hholds hsub)) h
    · next hholds =>
      have hholds := Bool.eq_false_of_not_eq_true hholds
      exact ihn (fun sub hsub => htakes sub (.no ha hholds hsub)) h
  | both condition last _ ihl => exact ihl (fun sub hsub => htakes sub (.last hsub)) h

/-- The value of an expression is finite exactly if it is taken from no overflow. -/
theorem Expr.isFinite_eval_iff {scope : Scope} (hscope : scope.IsFinite) {expr : Expr} {v : Value}
    (h : expr.eval scope = .ok v) :
    v.IsFinite ↔ ∀ sub, Takes scope sub expr → ¬sub.Overflows scope := by
  constructor
  · intro hv sub hsub hover
    exact hover.not_isFinite (hsub.eval_eq.symm.trans h) hv
  · intro htakes
    exact Expr.isFinite_of_eval hscope htakes h

end ModAlmanac
