import ModAlmanac.GitHub.Client
import ModAlmanac.Text.Base64

/-!
Backups on GitHub. A snapshot's file is stored in a repository under its mod key and version. The
stored file is looked up first: only if it is not there, or was read, is the new content written,
and the write names the content that it replaces.
-/

namespace ModAlmanac.GitHub

open Http Text

/-- Where backups are stored. -/
structure Backup where
  owner : String
  repo : String
  token : String
  branch : String
  apiUrl : String
  timeout : Value
  userAgent : String

/-- The place of backups where only owner, repository and token have been chosen. -/
def Backup.standard (owner repo token : String) : Backup :=
  { owner
    repo
    token
    branch := usualBranch
    apiUrl := Client.standard.apiUrl
    timeout := Client.standard.timeout
    userAgent := Settings.standard.userAgent }

/-- The place that some settings describe, if owner, repository and token are set. -/
def Backup.ofSettings? (settings : Settings) : Option Backup :=
  if settings.backupOwner.isEmpty || settings.backupRepo.isEmpty || settings.backupToken.isEmpty then
    none
  else
    some
      { owner := settings.backupOwner
        repo := settings.backupRepo
        token := settings.backupToken
        branch := settings.backupBranch
        apiUrl := settings.apiUrl
        timeout := settings.timeout
        userAgent := settings.userAgent }

/-- Why a backup was not stored. -/
inductive BackupError where
  | badAddress
  | lookupRefused (status : Int)
  | lookupFailed (reason : String)
  | lookupUnreadable
  | writeRefused (status : Int) (detail : String)
  | writeFailed (reason : String)
  deriving Repr, DecidableEq

/-- The message of an error, where it has one of its own. -/
def BackupError.message? : BackupError → Option String
  | .badAddress => none
  | .lookupRefused status =>
    some ("GitHub GET contents failed (" ++ String.ofList (Number.intText status) ++ ")")
  | .lookupFailed reason => some ("GitHub GET contents failed: " ++ reason)
  | .lookupUnreadable => none
  | .writeRefused status detail =>
    some ("GitHub PUT contents failed (" ++ String.ofList (Number.intText status) ++ "): " ++ detail)
  | .writeFailed reason => some ("GitHub PUT contents failed: " ++ reason)

def storedPath (key version : String) : String :=
  "wiki-data/" ++ key ++ "/" ++ version ++ "/metadata.json"

/-- The address of a stored file. The at sign of the key is kept. -/
def Backup.fileUrl (backup : Backup) (key version : String) : List Char :=
  repositoryUrl backup.apiUrl backup.owner backup.repo ++ "/contents/".toList ++
    Percent.encode (fun c => c = '/' || c = '@') (storedPath key version).toList

/-- The headers of a request, in the order of their names. -/
def Backup.headers (backup : Backup) (contentType : Option String) : List (String × String) :=
  ("accept", jsonContent) :: ("authorization", "token " ++ backup.token) ::
    (contentType.map fun type => ("content-type", type)).toList ++
      [("user-agent", backup.userAgent)]

def unreachableText (reason : String) : String :=
  "<urlopen error " ++ reason ++ ">"

/-- What a reply to the lookup tells of the stored file: the mark of its content, nil when there is
no file or no mark. -/
def storedMark : Reply → Except BackupError Value
  | .accepted content =>
    match Json.parseBytes? content with
    | some (.table fields) => .ok (lookupD "sha" fields)
    | some _ => .ok .nil
    | none => .error .lookupUnreadable
  | .refused status _ => if status = 404 then .ok .nil else .error (.lookupRefused status)
  | .unreachable reason => .error (.lookupFailed (unreachableText reason))
  | .broken reason => .error (.lookupFailed reason)

def written : Reply → Except BackupError Unit
  | .accepted _ => .ok ()
  | .refused status text => .error (.writeRefused status text)
  | .unreachable reason => .error (.writeFailed (unreachableText reason))
  | .broken reason => .error (.writeFailed reason)

/-- The body of a write: the content, and the mark of what it replaces if there is one. -/
def Backup.writeBody (backup : Backup) (key version : String) (content : ByteArray) (mark : Value) :
    Value :=
  let fields :=
    [("message", Value.text ("Automated backup of " ++ storedPath key version)),
      ("content", .text (String.ofList (Base64.encode content.data.toList))),
      ("branch", .text backup.branch)]
  .table ((fields ++ if mark.isVoid then [] else [("sha", mark)]).map fun (name, value) =>
    (.text name, value))

def Backup.store (backup : Backup) (replies : Replies) (key version : String)
    (content : ByteArray) : Exchange (Except BackupError Unit) :=
  let url := backup.fileUrl key version
  match address? (url ++ "?ref=".toList ++ Percent.queryValue backup.branch.toList), address? url with
  | some lookupAddress, some address =>
    let lookup : Request :=
      { method := "GET"
        url := lookupAddress
        headers := backup.headers none
        timeout := backup.timeout
        body := none }
    { requests := [lookup], result := storedMark (replies.to lookup) : Exchange _ }.andThen
      fun mark =>
        let write : Request :=
          { method := "PUT"
            url := address
            headers := backup.headers (some "application/json")
            timeout := backup.timeout
            body := some (backup.writeBody key version content mark) }
        { requests := [write], result := written (replies.to write) }
  | _, _ => .pure (.error .badAddress)

end ModAlmanac.GitHub
