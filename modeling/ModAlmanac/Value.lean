import ModAlmanac.Number.Decimal
import ModAlmanac.OrderedMap
import ModAlmanac.Text.Quoted

/-!
Values. Config tables, substitution values and the documents of a cache are made of them. Integers
are unbounded, doubles are told apart from integers, and a table keeps its entries in order.
-/

namespace ModAlmanac

open Number Text

/-- What a table entry is found under. -/
inductive Key where
  | nil
  | bool (b : Bool)
  | int (n : Int)
  | float (x : Float)
  | text (s : String)

/-- A scalar, a list or a table. -/
inductive Value where
  | nil
  | bool (b : Bool)
  | int (n : Int)
  | float (x : Float)
  | text (s : String)
  | list (items : List Value)
  | table (fields : List (Key × Value))
  deriving Inhabited

/-! ## Keys -/

/-- The integer that a key counts as: truth values count as one and zero, and a double without a
fraction as its integer. -/
def Key.integer? : Key → Option Int
  | .bool b => some (if b then 1 else 0)
  | .int n => some n
  | .float x => Number.integer? x
  | _ => none

/-- Whether two keys are the same: numbers by their value, whatever their kind. -/
def Key.same (a b : Key) : Bool :=
  match a, b with
  | .nil, .nil => true
  | .text s, .text t => s == t
  | .float x, .float y => x == y
  | a, b =>
    match a.integer?, b.integer? with
    | some m, some n => m == n
    | _, _ => false

instance : BEq Key := ⟨Key.same⟩

def Key.value : Key → Value
  | .nil => .nil
  | .bool b => .bool b
  | .int n => .int n
  | .float x => .float x
  | .text s => .text s

/-- The key that a value can serve as; lists and tables cannot. -/
def Value.key? : Value → Option Key
  | .nil => some .nil
  | .bool b => some (.bool b)
  | .int n => some (.int n)
  | .float x => some (.float x)
  | .text s => some (.text s)
  | .list _ => none
  | .table _ => none

/-! ## Views -/

def lookup? (name : String) (fields : List (Key × Value)) : Option Value :=
  OrderedMap.find? (.text name) fields

/-- The value of a table under a text key, nothing counting as nil. -/
def lookupD (name : String) (fields : List (Key × Value)) : Value :=
  (lookup? name fields).getD .nil

def Value.text? : Value → Option String
  | .text s => some s
  | _ => none

/-- Whether a value stands for nothing: nil, false, zero and whatever is empty. -/
def Value.isVoid : Value → Bool
  | .nil => true
  | .bool b => !b
  | .int n => n == 0
  | .float x => x == 0
  | .text s => s.isEmpty
  | .list items => items.isEmpty
  | .table fields => fields.isEmpty

/-- The value, or another one if it stands for nothing. -/
def Value.orElse (v other : Value) : Value :=
  if v.isVoid then other else v

/-! ## Values in messages -/

def Key.shown : Key → List Char
  | .nil => "None".toList
  | .bool true => "True".toList
  | .bool false => "False".toList
  | .int n => intText n
  | .float x => floatText "inf" "nan" x
  | .text s => quoted s.toList

def commaSeparated : List (List Char) → List Char
  | [] => []
  | [s] => s
  | s :: rest => s ++ ',' :: ' ' :: commaSeparated rest

mutual

/-- A value as it is shown inside another one: texts stand between quotes. -/
def Value.shown : Value → List Char
  | .nil => Key.nil.shown
  | .bool b => (Key.bool b).shown
  | .int n => (Key.int n).shown
  | .float x => (Key.float x).shown
  | .text s => (Key.text s).shown
  | .list items => '[' :: commaSeparated (Value.shownItems items) ++ [']']
  | .table fields => '{' :: commaSeparated (Value.shownFields fields) ++ ['}']

def Value.shownItems : List Value → List (List Char)
  | [] => []
  | v :: rest => v.shown :: Value.shownItems rest

def Value.shownFields : List (Key × Value) → List (List Char)
  | [] => []
  | (k, v) :: rest => (k.shown ++ ':' :: ' ' :: v.shown) :: Value.shownFields rest

end

/-- A value as text: a text is itself, all else is as shown. -/
def Value.plain : Value → String
  | .text s => s
  | v => String.ofList v.shown

def Key.plain (k : Key) : String :=
  k.value.plain

end ModAlmanac
