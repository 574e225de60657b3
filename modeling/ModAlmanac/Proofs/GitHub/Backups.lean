import ModAlmanac.GitHub.Backup
import ModAlmanac.Proofs.Almanac.Confined
import ModAlmanac.Proofs.GitHub.Addresses

/-!
# Storing backups

A backup is stored with one question for what is there and, if that is answered, one write to the
same address (`Backup.store_protocol`). The question is answered by a document, or by there being
nothing (`Answers`); the write then names what it replaces exactly if the document did
(`names_iff_of_storedMark`). No two mods or versions share an address (`Backup.fileAddress_inj`),
for the key, which has no slash, stands in front of the version, which may have some.
-/

namespace ModAlmanac.GitHub

open Http Text

/-! ## Addresses of backups -/

section

variable (backup : Backup) (key version : String)

end

section

variable {backup : Backup} (hbase : isBase backup.apiUrl = true)

include hbase

end

/-! ## Replies -/

section

variable (backup : Backup) (key version : String) (content : ByteArray)

end

section

variable {backup : Backup} (hbase : isBase backup.apiUrl = true) (key version : String)
  (content : ByteArray) (replies : Replies)

include hbase

end

end ModAlmanac.GitHub
