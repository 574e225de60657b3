import ModAlmanac.Json.Reader
import ModAlmanac.Number.Numeral
import ModAlmanac.Snapshot.Basic

/-!
Snapshots from documents. The outer shape of a snapshot is checked; of its records only those fields
are that have to be there, and a field that stands for nothing counts as missing. Sizes and grid
positions are converted to integers, and lists are taken from whatever has items.
-/

namespace ModAlmanac

open Number

/-- Why a document is no snapshot. -/
inductive DecodeError where
  | notAnObject
  | missing (name : String)
  | invalidShape
  | versionNotText
  | invalidRecord
  | badNumber
  | badPair
  /-- An infinite number stands in an integer's place. -/
  | outOfRange
  deriving Repr, DecidableEq

/-- The message of an error, where it has one of its own. -/
def DecodeError.message? : DecodeError → Option String
  | .notAnObject => some "Snapshot payload must be an object."
  | .missing name =>
    some ("Snapshot payload is missing " ++ String.ofList (Text.quoted name.toList) ++ ".")
  | .invalidShape => some "Snapshot payload has an invalid shape."
  | .versionNotText => some "Snapshot version must be a string."
  | .invalidRecord => some "Snapshot payload contains an invalid record."
  | .badNumber => none
  | .badPair => none
  | .outOfRange => none

/-! ## Fields -/

def Value.fields : Value → Except DecodeError (List (Key × Value))
  | .table fields => .ok fields
  | _ => .error .invalidRecord

def requiredField (name : String) (fields : List (Key × Value)) : Except DecodeError Value :=
  match lookup? name fields with
  | some v => .ok v
  | none => .error .invalidRecord

/-- The items of a value: those of a list, the characters of a text, the keys of a table. -/
def Value.items? : Value → Option (List Value)
  | .list items => some items
  | .text s => some (s.toList.map fun c => .text (String.ofList [c]))
  | .table fields => some (fields.map fun field => field.1.value)
  | _ => none

def itemsField (name : String) (fields : List (Key × Value)) : Except DecodeError (List Value) :=
  let v := lookupD name fields
  if v.isVoid then .ok []
  else
    match v.items? with
    | some items => .ok items
    | none => .error .invalidRecord

/-- A value as an integer; a fraction is cut off. -/
def Value.toInteger : Value → Except DecodeError Int
  | .bool b => .ok (if b then 1 else 0)
  | .int n => .ok n
  | .float x =>
    match parts? x with
    | some parts => .ok parts.truncated
    | none => if x.isNaN then .error .badNumber else .error .outOfRange
  | .text s =>
    match intOfText? s.toList with
    | some n => .ok n
    | none => .error .badNumber
  | _ => .error .invalidRecord

/-- An optional size, zero when it is missing. -/
def sizeField (name : String) (fields : List (Key × Value)) : Except DecodeError Int :=
  ((lookupD name fields).orElse (.int 0)).toInteger

/-- The entries that a list of pairs makes, put into a table one after the other. -/
def pairEntries (table : List (Key × Value)) : List Value → Except DecodeError (List (Key × Value))
  | [] => .ok table
  | pair :: rest =>
    match pair.items? with
    | none => .error .invalidRecord
    | some [first, second] =>
      match first.key? with
      | some key => pairEntries (OrderedMap.insert key second table) rest
      | none => .error .invalidRecord
    | some _ => .error .badPair

/-- An optional config: a table, or pairs that make one. -/
def configField (name : String) (fields : List (Key × Value)) :
    Except DecodeError (List (Key × Value)) :=
  let v := lookupD name fields
  if v.isVoid then .ok []
  else
    match v with
    | .table inner => .ok inner
    | v =>
      match v.items? with
      | some pairs => pairEntries [] pairs
      | none => .error .invalidRecord

def positionField (name : String) (fields : List (Key × Value)) :
    Except DecodeError (Option (Int × Int)) :=
  match lookupD name fields with
  | .nil => .ok none
  | v => do
    let inner ← v.fields
    let x ← (← requiredField "x" inner).toInteger
    let y ← (← requiredField "y" inner).toInteger
    pure (some (x, y))

/-! ## Records -/

def Entry.decode (v : Value) : Except DecodeError Entry := do
  let fields ← v.fields
  let textLines ← itemsField "textLines" fields
  pure
    { displayName := (lookupD "displayName" fields).orElse (.text "")
      textLines
      category := (lookupD "category" fields).orElse (.text "") }

def Atlas.decode (key : Key) (v : Value) : Except DecodeError Atlas := do
  let fields ← v.fields
  let path ← requiredField "repoRelativePath" fields
  let tileWidth ← sizeField "tileWidth" fields
  let tileHeight ← sizeField "tileHeight" fields
  pure
    { key := (lookupD "key" fields).orElse (.text key.plain)
      path
      tileWidth
      tileHeight
      remotePath := lookupD "resolvedRemotePath" fields
      servedPath := lookupD "localCachePath" fields }

def Entity.decode (v : Value) : Except DecodeError Entity := do
  let fields ← v.fields
  let position ← positionField "gridPosition" fields
  let kind ← requiredField "type" fields
  let key ← requiredField "key" fields
  let config ← configField "config" fields
  let vars ← itemsField "vars" fields
  let infoQueue ← itemsField "infoQueue" fields
  pure
    { kind
      key
      atlasKey := lookupD "atlasKey" fields
      position
      body := (lookupD "rawBody" fields).orElse (.text "")
      config
      vars
      infoQueue }

/-! ## Snapshots -/

/-- The records of a table by the texts of their keys; of several keys with one text the last one
counts. -/
def decodeRecords {α : Type} (decode : Key → Value → Except DecodeError α)
    (records : List (String × α)) :
    List (Key × Value) → Except DecodeError (List (String × α))
  | [] => .ok records
  | (key, v) :: rest => do
    let record ← decode key v
    decodeRecords decode (OrderedMap.insert key.plain record records) rest

def decodeItems {α : Type} (decode : Value → Except DecodeError α) :
    List Value → Except DecodeError (List α)
  | [] => .ok []
  | v :: rest => do
    let item ← decode v
    let items ← decodeItems decode rest
    pure (item :: items)

def documentField (name : String) (fields : List (Key × Value)) : Except DecodeError Value :=
  match lookup? name fields with
  | some v => .ok v
  | none => .error (.missing name)

/-- The snapshot that a document holds. -/
def Snapshot.decode (document : Value) : Except DecodeError Snapshot := do
  let fields ← match document with
    | .table fields => Except.ok fields
    | _ => Except.error DecodeError.notAnObject
  let entries ← documentField "localizationMap" fields
  let atlases ← documentField "atlases" fields
  let entities ← documentField "entities" fields
  let version ← documentField "version" fields
  match entries, atlases, entities with
  | .table entries, .table atlases, .list entities =>
    match version with
    | .text version =>
      let entries ← decodeRecords (fun _ v => Entry.decode v) [] entries
      let atlases ← decodeRecords Atlas.decode [] atlases
      let entities ← decodeItems Entity.decode entities
      pure { entries, atlases, entities, version }
    | _ => .error .versionNotText
  | _, _, _ => .error .invalidShape

/-- The snapshot in the content of a file. A file that holds none is as good as missing; only a
number out of range is an error. -/
def Snapshot.load (content : ByteArray) : Except DecodeError (Option Snapshot) :=
  match (String.fromUTF8? content).bind fun text => Json.parse? text.toList with
  | none => .ok none
  | some document =>
    match Snapshot.decode document with
    | .ok snapshot => .ok (some snapshot)
    | .error .outOfRange => .error .outOfRange
    | .error _ => .ok none

end ModAlmanac
