import ModAlmanac.Expr.Syntax
import ModAlmanac.Snapshot.Basic

/-!
Evaluation. The names of an expression stand for the config of a card, for the card itself and for
global constants; what they do not reach is nil. An alternative takes its left side unless that is
nil or false. Arithmetic works on numbers alone, with integers as long as the result is one.
-/

namespace ModAlmanac

open Number Text

/-- Why an expression has no value. -/
inductive EvalError where
  /-- A number is too large for a double. -/
  | outOfRange
  /-- An index is made of digits without a place value. -/
  | badIndex
  | bodyNotText
  deriving Repr, DecidableEq

/-- The constants that expressions can refer to, and the call that stands for a chance. -/
structure Context where
  constants : List (Key × Value)
  chanceCall : String
  deriving Inhabited

def Value.record (fields : List (String × Value)) : Value :=
  .table (fields.map fun (name, value) => (.text name, value))

def Context.standard : Context :=
  { constants :=
      [(.text "G", .record
        [("GAME", .record
          [("probabilities", .record [("normal", .int 1)]), ("health", .int 100)])])]
    chanceCall := "SMODS.get_probability_vars" }

/-! ## Arithmetic -/

/-- Whether a value counts as true: all but nil and false do. -/
def Value.holds : Value → Bool
  | .nil => false
  | .bool b => b
  | _ => true

def toDouble (n : Int) : Except EvalError Float :=
  match floatOfInt? n with
  | some x => .ok x
  | none => .error .outOfRange

/-- Arithmetic on doubles; division is not asked for a divisor of zero. -/
def Operator.onFloats (operator : Operator) (x y : Float) : Float :=
  match operator with
  | .times => x * y
  | .over => x / y
  | .plus => x + y
  | .minus => x - y

/-- Arithmetic on integers. A quotient is the double nearest to it. -/
def Operator.onInts (operator : Operator) (m n : Int) : Except EvalError Value :=
  match operator with
  | .times => .ok (.int (m * n))
  | .plus => .ok (.int (m + n))
  | .minus => .ok (.int (m - n))
  | .over =>
    if n = 0 then .ok .nil
    else
      match floatOfQuotient? m n with
      | some x => .ok (Expr.wholeOrFloat x)
      | none => .error .outOfRange

/-- Arithmetic on doubles as values: nil for a divisor of zero. -/
def Operator.onDoubles (operator : Operator) (x y : Float) : Value :=
  if operator = .over && y == 0 then .nil else Expr.wholeOrFloat (operator.onFloats x y)

/-- Arithmetic on values: nil unless both are numbers. -/
def Operator.apply (operator : Operator) (left right : Value) : Except EvalError Value :=
  match left, right with
  | .int m, .int n => operator.onInts m n
  | .float x, .float y => .ok (operator.onDoubles x y)
  | .int m, .float y =>
    if operator = .over && y == 0 then .ok .nil
    else (toDouble m).map fun x => operator.onDoubles x y
  | .float x, .int n =>
    if operator = .over && n = 0 then .ok .nil
    else (toDouble n).map fun y => operator.onDoubles x y
  | _, _ => .ok .nil

/-! ## Names -/

/-- What the names of an expression stand for. -/
structure Scope where
  config : List (Key × Value)
  card : List (Key × Value)
  globals : Value
  deriving Inhabited

def Entity.cardView (e : Entity) : List (Key × Value) :=
  [(.text "type", e.kind),
    (.text "key", e.key),
    (.text "atlas", e.atlasKey),
    (.text "pos", match e.position with
      | some (x, y) => .record [("x", .int x), ("y", .int y)]
      | none => .nil),
    (.text "config", .table e.config),
    (.text "ability", .table e.config),
    (.text "vars", .list e.vars),
    (.text "raw", e.body)]

def Scope.of (e : Entity) (context : Context) : Scope :=
  { config := e.config
    card := e.cardView
    globals := lookupD "G" context.constants }

/-- The item of a list under a segment of digits, counted from one. -/
def itemAt (items : List Value) (segment : List Char) : Except EvalError Value :=
  if segment.all isDecimalDigit then
    match digitsValue segment with
    | 0 => .ok .nil
    | place + 1 => .ok (items[place]?.getD .nil)
  else .error .badIndex

/-- What some segments lead to, one after the other, from a value. -/
def Value.follow (v : Value) : List (List Char) → Except EvalError Value
  | [] => .ok v
  | segment :: rest =>
    match v with
    | .table fields =>
      match lookup? (String.ofList segment) fields with
      | some inner => inner.follow rest
      | none => .ok .nil
    | .list items =>
      if !segment.isEmpty && segment.all isAnyDigit then do
        let inner ← itemAt items segment
        inner.follow rest
      else .ok .nil
    | _ => .ok .nil

/-- Whether a path into the config leads into its `extra` table: there is one, and the path is
empty or goes on with one of its keys. -/
def extraFor? (config : List (Key × Value)) (segments : List (List Char)) : Option Value :=
  match lookup? "extra" config with
  | some (.table extra) =>
    match segments with
    | [] => some (.table extra)
    | segment :: _ =>
      if (lookup? (String.ofList segment) extra).isSome then some (.table extra) else none
  | _ => none

def Scope.resolve (scope : Scope) (root : List Char) (segments : List (List Char)) :
    Except EvalError Value :=
  if root = "stg".toList then
    match extraFor? scope.config segments with
    | some extra => extra.follow segments
    | none => (Value.table scope.config).follow segments
  else if root = "card".toList then (Value.table scope.card).follow segments
  else if root = "G".toList then scope.globals.follow segments
  else .ok .nil

/-! ## Expressions -/

/-- The value of an expression. -/
def Expr.eval (scope : Scope) : Expr → Except EvalError Value
  | .blank => .ok .nil
  | .either left right => do
    let v ← left.eval scope
    if v.holds then .ok v else right.eval scope
  | .choice condition yes no => do
    let v ← condition.eval scope
    if v.holds then yes.eval scope else no.eval scope
  | .both _ last => last.eval scope
  | .arith operator left right => do
    let a ← left.eval scope
    let b ← right.eval scope
    operator.apply a b
  | .number value => .ok value
  | .path root segments => scope.resolve root segments

/-- The value of an expression text for a card. -/
def evaluate (text : List Char) (e : Entity) (context : Context) : Except EvalError Value :=
  (Expr.parse text).eval (Scope.of e context)

end ModAlmanac
