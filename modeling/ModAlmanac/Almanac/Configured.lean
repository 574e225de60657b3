import ModAlmanac.Almanac.Lookup
import ModAlmanac.GitHub.Backup

/-!
The almanac that settings describe: images are served below the configured address, expressions see
the constants of an unmodified game, and backups are stored on GitHub where a place for them has been
set. An event of its work stands for the requests that it leads to.
-/

namespace ModAlmanac

open GitHub Http Repository

def GitHub.Backup.stores (backup : Backup) (replies : Replies) (publication : Publication) : Bool :=
  match (backup.store replies publication.key publication.tag publication.content).result with
  | .ok () => true
  | .error _ => false

def Almanac.ofSettings (settings : Settings) (host : Host) (replies : Replies) : Almanac :=
  { host
    context := Context.standard
    imageRoot := settings.dataUrl
    backup? := (Backup.ofSettings? settings).map fun backup => backup.stores replies }

/-- The requests that an event leads to, with a client in place of the host and a place of backups
if there is one. -/
def Event.requests (client : Client) (place? : Option Backup) (replies : Replies) :
    Event → List Request
  | .call question => client.requests replies question
  | .backup publication _ =>
    match place? with
    | some place =>
      (place.store replies publication.key publication.tag publication.content).requests
    | none => []

end ModAlmanac
