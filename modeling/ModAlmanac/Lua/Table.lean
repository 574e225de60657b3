import ModAlmanac.Lua.Gap
import ModAlmanac.Lua.Literal
import ModAlmanac.Value

/-!
Table literals. The reader goes over a literal source once and never back. Fields without a key are
numbered from zero by their place among all fields; a table whose keys are exactly the numbers from
zero on is a list.
-/

namespace ModAlmanac.Lua

open Text Number

/-! ## Scalars -/

/-- A quoted string up to its closing quote. A backslash disappears in front of that quote and
stands for itself, together with the character behind it, anywhere else. -/
def quotedString? (q : Char) : List Char → Option (List Char × List Char)
  | [] => none
  | [c] => if c = q then some ([], []) else none
  | c :: d :: rest =>
    if c = q then some ([], d :: rest)
    else if c = '\\' then
      (quotedString? q rest).map fun (inner, after) =>
        (if d = q then d :: inner else c :: d :: inner, after)
    else (quotedString? q (d :: rest)).map fun (inner, after) => (c :: inner, after)

/-- A string in double brackets, up to the first two closing ones. -/
def bracketString? : List Char → Option (List Char × List Char)
  | [] => none
  | [_] => none
  | c :: d :: rest =>
    if c = ']' && d = ']' then some ([], rest)
    else (bracketString? (d :: rest)).map fun (inner, after) => (c :: inner, after)

/-- A word that has begun with `start`: it goes on with word characters until it is a literal
word. -/
def wordFrom (start : List Char) : List Char → List Char × List Char
  | [] => (start, [])
  | c :: rest =>
    if isWordChar c && !isLiteralWord start then wordFrom (start ++ [c]) rest
    else (start, c :: rest)

def wordValue (word : List Char) : Value :=
  if word = "true".toList then .bool true
  else if word = "false".toList then .bool false
  else if word = "nil".toList then .nil
  else .text (String.ofList word)

/-- The value of a written number: an integer when its digits have no superfluous zero in front and
nothing behind, a double otherwise. -/
def writtenNumber? (negative : Bool) (digits behind : List Char) : Option Value :=
  let value := digitsValue digits
  let plain := digits.length = 1 || digits.head?.bind digitValue? ≠ some 0 || value = 0
  if digits.all isDecimalDigit && behind.isEmpty && plain then
    some (.int (if negative then -(value : Int) else value))
  else
    (floatOfText? ((if negative then ['-'] else []) ++ digits ++ behind)).map .float

/-- The exponent of a number whose `e` has been passed: a sign and digits. Without them the number
counts as zero, and the reader goes on behind what it has passed. -/
def signedExponent : List Char → Option (List Char) × List Char
  | [] => (none, [])
  | sign :: rest =>
    if sign = '+' || sign = '-' then
      match rest.takeWhile isAnyDigit with
      | [] => (none, rest)
      | run => (some (sign :: run), rest.dropWhile isAnyDigit)
    else (none, sign :: rest)

/-- A number whose sign and whole digits have been passed, and the text behind it. A malformed
number counts as zero. -/
def numberBehind? (negative : Bool) (digits rest : List Char) : Option (Value × List Char) :=
  let hexadecimal :=
    match rest with
    | x :: more => if !negative && digits = ['0'] && (x = 'x' || x = 'X') then some more else none
    | [] => none
  match hexadecimal with
  | some more =>
    let isDigit := fun c => isHexDigit c || isAnyDigit c
    match more.takeWhile isDigit with
    | [] => none
    | run => (scriptHexValue run).map fun value => (.int value, more.dropWhile isDigit)
  | none =>
    let (fraction, rest) :=
      match rest with
      | '.' :: more =>
        match more.takeWhile isAnyDigit with
        | [] => (none, more)
        | run => (some ('.' :: run), more.dropWhile isAnyDigit)
      | rest => (some [], rest)
    match fraction with
    | none => some (.int 0, rest)
    | some fraction =>
      match rest with
      | e :: more =>
        if e = 'e' || e = 'E' then
          match signedExponent more with
          | (none, after) => some (.int 0, after)
          | (some exponent, after) =>
            (writtenNumber? negative digits (fraction ++ e :: exponent)).map (·, after)
        else (writtenNumber? negative digits fraction).map (·, rest)
      | [] => (writtenNumber? negative digits fraction).map (·, rest)

/-- A number at the front, which begins with a digit or a minus sign. -/
def numberAt? (s : List Char) : Option (Value × List Char) :=
  match s with
  | '-' :: rest =>
    match rest.takeWhile isAnyDigit with
    | [] => some (.int 0, rest)
    | run => numberBehind? true run (rest.dropWhile isAnyDigit)
  | s => numberBehind? false (s.takeWhile isAnyDigit) (s.dropWhile isAnyDigit)

/-- A scalar that begins with a character, and the text behind it. -/
def scalarAt? (c : Char) (rest : List Char) : Option (Value × List Char) :=
  if c = '[' then
    (bracketString? rest).map fun (inner, after) => (.text (String.ofList inner), after)
  else if c = '\x22' || c = '\x27' then
    (quotedString? c rest).map fun (inner, after) => (.text (String.ofList inner), after)
  else if isAnyDigit c || c = '-' then numberAt? (c :: rest)
  else
    let (word, after) := wordFrom (if c = '\n' then [] else [c]) rest
    some (wordValue word, after)

/-! ## Tables -/

/-- Puts an item at a place of a list, or at its end when the list is shorter. -/
def insertAt (place : Nat) (item : Value) (items : List Value) : List Value :=
  items.take place ++ item :: items.drop place

def Key.place (k : Key) : Nat :=
  match k with
  | .int n => n.toNat
  | _ => 0

/-- Whether a key is one of those that make no list: a text, a double or a truth value. -/
def Key.isNamed : Key → Bool
  | .text _ => true
  | .float _ => true
  | .bool _ => true
  | _ => false

def Key.isNil : Key → Bool
  | .nil => true
  | _ => false

/-- The value of a closed table: a list if its keys are the numbers from zero on, its items then put
to their places in the order of the fields. The key nil cannot be ordered among numbers. -/
def closedTable? (fields : List (Key × Value)) : Option Value :=
  if fields.any fun field => Key.isNamed field.1 then some (.table fields)
  else if (fields.any fun field => Key.isNil field.1) && 1 < fields.length then none
  else if !fields.isEmpty &&
      (List.range fields.length).all fun (i : Nat) => fields.any fun field => field.1 == .int i then
    some (.list (fields.foldl (fun items field => insertAt (Key.place field.1) field.2 items) []))
  else some (.table fields)

/-- The text behind a closing bracket, where there is one. -/
def dropBracket : List Char → List Char
  | ']' :: rest => rest
  | s => s

mutual

/-- A value at the front, and the text behind it. The fuel bounds the number of steps. -/
def valueAt? : Nat → List Char → Option (Value × List Char)
  | 0, _ => none
  | fuel + 1, s =>
    match dropGap s with
    | [] => none
    | c :: rest =>
      if c = '{' then tableBehind? fuel rest
      else if c = '[' then
        match rest with
        | [] => none
        | d :: more => scalarAt? d more
      else scalarAt? c rest

def tableBehind? : Nat → List Char → Option (Value × List Char)
  | 0, _ => none
  | fuel + 1, s =>
    match dropGap s with
    | '}' :: rest => some (.table [], rest)
    | rest => fieldsFrom? fuel [] .nil 0 rest

/-- The fields of a table from some place on: those read so far, the last value that has neither a
key nor a comma behind it yet, and the number of the next field. -/
def fieldsFrom? :
    Nat → List (Key × Value) → Value → Nat → List Char → Option (Value × List Char)
  | 0, _, _, _, _ => none
  | fuel + 1, fields, pending, index, s =>
    match dropGap s with
    | [] => none
    | '{' :: rest => do
      let (inner, rest) ← tableBehind? fuel rest
      fieldsFrom? fuel (OrderedMap.insert (.int index) inner fields) pending (index + 1) rest
    | '}' :: rest =>
      let all :=
        match pending with
        | .nil => fields
        | last => OrderedMap.insert (.int index) last fields
      (closedTable? all).map (·, rest)
    | ',' :: rest => fieldsFrom? fuel fields pending index rest
    | s => do
      let (first, rest) ← valueAt? fuel s
      match dropGap (dropBracket rest) with
      | '=' :: rest =>
        let (value, rest) ← valueAt? fuel rest
        let key ← first.key?
        fieldsFrom? fuel (OrderedMap.insert key value fields) .nil (index + 1) rest
      | ',' :: rest =>
        fieldsFrom? fuel (OrderedMap.insert (.int index) first fields) .nil (index + 1) rest
      | rest => fieldsFrom? fuel fields first index rest

end

mutual

/-- A value with the keys of all its tables turned into texts. -/
def textKeyed : Value → Value
  | .list items => .list (textKeyedItems items)
  | .table fields => .table (OrderedMap.ofList (textKeyedFields fields))
  | v => v

def textKeyedItems : List Value → List Value
  | [] => []
  | v :: rest => textKeyed v :: textKeyedItems rest

def textKeyedFields : List (Key × Value) → List (Key × Value)
  | [] => []
  | (k, v) :: rest => (.text k.plain, textKeyed v) :: textKeyedFields rest

end

/-- The value of a literal source. Every step takes a character, so the fuel is never used up. -/
def readLiteral? (source : List Char) : Option Value :=
  (valueAt? (2 * source.length + 2) source).map (·.1)

/-- The value that the source of a table denotes. -/
def decodeTable (source : List Char) : Except TableError Value := do
  let literal ← literalSource source
  match literal with
  | '{' :: _ =>
    match readLiteral? literal with
    | some value => .ok (textKeyed value)
    | none => .error .notLiteral
  | _ => .error .notATable

end ModAlmanac.Lua
