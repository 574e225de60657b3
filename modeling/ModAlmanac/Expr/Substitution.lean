import ModAlmanac.Expr.Evaluate
import ModAlmanac.Source.Config

/-!
Substitution values. The text of a card refers to values by their numbers; a declaration lists them
in a `vars` table, that of its `return` table if it has one. An item of the list is a localized
text, a chance, which takes two numbers, or an expression.
-/

namespace ModAlmanac

open Text Lua

/-- The inside of a `vars` table that begins at the front, up to its first closing brace. -/
def varsTable? (s : List Char) : Option (List Char) := do
  let inside ← fieldTable? "vars" s
  if inside.contains '}' then pure (inside.takeWhile (· ≠ '}')) else none

def returnTable? (s : List Char) : Option (List Char) :=
  ("return".toList.isPrefixOf? s).bind fun rest => afterBrace? (dropBlank rest)

/-- The first `vars` table whose name begins a word; the flag tells whether a word runs on in front
of the text. -/
def bareVars? (inWord : Bool) : List Char → Option (List Char)
  | [] => none
  | c :: rest =>
    match if inWord then none else varsTable? (c :: rest) with
    | some inside => some inside
    | none => bareVars? (isWordChar c) rest

/-- The inside of the list of substitution values: behind the first `return` table that opens, or
anywhere. -/
def varsList? (body : List Char) : Option (List Char) :=
  match (search returnTable? body).bind (search varsTable?) with
  | some inside => some inside
  | none => bareVars? false body

/-- The key of a call `localize('key')`, which may have further arguments. -/
def localizedKey? (item : List Char) : Option (List Char) := do
  let rest ← "localize".toList.isPrefixOf? item
  let inside ← match dropBlank rest with
    | '(' :: inside => some (dropBlank inside)
    | _ => none
  let opening ← inside.head?
  if !Source.isQuote opening then none
  else
    let key := inside.tail.takeWhile (!Source.isQuote ·)
    match inside.tail.dropWhile (!Source.isQuote ·) with
    | [] => none
    | _ :: behind =>
      let isCall :=
        behind = [')'] ||
          match dropBlank behind with
          | ',' :: arguments => arguments.getLast? = some ')'
          | _ => false
      if !key.isEmpty && isCall then pure key else none

/-- The display text of a key: its name, else its first line, else the key itself. -/
def localized (entries : EntryMap) (key : List Char) : Value :=
  let name := String.ofList key
  match OrderedMap.find? name entries with
  | none => .text name
  | some entry =>
    if !entry.displayName.isVoid then entry.displayName
    else
      match entry.textLines with
      | line :: _ => line.orElse (.text name)
      | [] => .text name

/-- The value, or a number in place of nil. -/
def Value.numberOr (n : Int) : Value → Value
  | .nil => .int n
  | v => v

/-- The numbers of a chance: the second and the third argument of the call. A call with fewer than
four arguments, or one that never closes, has none. -/
def chanceValues (item : List Char) (e : Entity) (context : Context) :
    Except EvalError (List Value) :=
  match Expr.callArguments? item with
  | some (_ :: numerator :: denominator :: _ :: _) => do
    let a ← evaluate numerator e context
    let b ← evaluate denominator e context
    pure [a.numberOr 0, b.numberOr 1]
  | _ => .ok []

def itemValues (entries : EntryMap) (item : List Char) (e : Entity) (context : Context) :
    Except EvalError (List Value) :=
  if item.isEmpty then .ok []
  else
    match localizedKey? item with
    | some key => .ok [localized entries key]
    | none =>
      if context.chanceCall.toList.isPrefixOf item then chanceValues item e context
      else (evaluate item e context).map ([·])

/-- The values of some items, one after the other. -/
def listValues (entries : EntryMap) (e : Entity) (context : Context) :
    List (List Char) → Except EvalError (List Value)
  | [] => .ok []
  | item :: rest => do
    let values ← itemValues entries (trim item) e context
    let more ← listValues entries e context rest
    pure (values ++ more)

/-- The substitution values of a card whose config has been decoded. -/
def Entity.substitutions (e : Entity) (entries : EntryMap) (context : Context) :
    Except EvalError (List Value) :=
  match e.body with
  | .text body =>
    match varsList? body.toList with
    | none => .ok []
    | some inside => listValues entries e context (Expr.splitCommas inside)
  | _ => .error .bodyNotText

/-- The card with its config decoded and its substitution values computed. -/
def Entity.evaluated (e : Entity) (entries : EntryMap) (context : Context) :
    Except EvalError Entity :=
  match e.body with
  | .text body => do
    let configured := { e with config := Source.decodeConfig body.toList }
    let vars ← configured.substitutions entries context
    pure { configured with vars, infoQueue := [] }
  | _ => .error .bodyNotText

end ModAlmanac
