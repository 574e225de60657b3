import ModAlmanac.Json.Printer
import ModAlmanac.Snapshot.Basic

/-!
Snapshots as documents: the field names under which a snapshot is stored and served.
-/

namespace ModAlmanac

def Value.mapRecord {α : Type} (f : α → Value) (entries : List (String × α)) : Value :=
  .table (entries.map fun (key, entry) => (.text key, f entry))

def Entry.encode (e : Entry) : Value :=
  .table
    [(.text "displayName", e.displayName),
      (.text "textLines", .list e.textLines),
      (.text "category", e.category)]

def Atlas.encode (a : Atlas) : Value :=
  .table
    [(.text "key", a.key),
      (.text "repoRelativePath", a.path),
      (.text "tileWidth", .int a.tileWidth),
      (.text "tileHeight", .int a.tileHeight),
      (.text "resolvedRemotePath", a.remotePath),
      (.text "localCachePath", a.servedPath)]

/-- A grid position as a table; nil when there is none. -/
def encodePosition : Option (Int × Int) → Value
  | some (x, y) => .table [(.text "x", .int x), (.text "y", .int y)]
  | none => .nil

def Entity.encode (e : Entity) : Value :=
  .table
    [(.text "type", e.kind),
      (.text "key", e.key),
      (.text "atlasKey", e.atlasKey),
      (.text "gridPosition", encodePosition e.position),
      (.text "rawBody", e.body),
      (.text "config", .table e.config),
      (.text "vars", .list e.vars),
      (.text "infoQueue", .list e.infoQueue)]

def Snapshot.encode (s : Snapshot) : Value :=
  .table
    [(.text "localizationMap", .mapRecord Entry.encode s.entries),
      (.text "atlases", .mapRecord Atlas.encode s.atlases),
      (.text "entities", .list (s.entities.map Entity.encode)),
      (.text "version", .text s.version)]

def Snapshot.fileText (s : Snapshot) : String :=
  Json.document s.encode

end ModAlmanac
