import ModAlmanac.Http.Address
import ModAlmanac.Http.Exchange
import ModAlmanac.Json.Encoding
import ModAlmanac.Repository.Host
import ModAlmanac.Settings
import ModAlmanac.Text.Percent

/-!
Reading repositories on GitHub. A request that fails counts as having had no content: there is no
release then, the branch is the usual one, a folder is empty and a file has no bytes. Owner,
repository, branch and path stand in an address in coded form, so that none of them can run into
the next one.
-/

namespace ModAlmanac.GitHub

open Http Repository Text

/-- How to reach the host. -/
structure Client where
  apiUrl : String
  rawUrl : String
  token : String
  timeout : Value
  userAgent : String

def Client.standard : Client :=
  { apiUrl := "https://api.github.com"
    rawUrl := "https://raw.githubusercontent.com"
    token := ""
    timeout := .int 30
    userAgent := "modwiki" }

def Client.ofSettings (settings : Settings) : Client :=
  { apiUrl := settings.apiUrl
    rawUrl := settings.rawUrl
    token := settings.fetchToken
    timeout := settings.timeout
    userAgent := settings.userAgent }

def jsonContent : String := "application/vnd.github.v3+json"

def usualBranch : String := "main"

/-! ## Addresses -/

def repositoryUrl (apiUrl : String) (owner repo : String) : List Char :=
  dropTrailingSlashes apiUrl.toList ++ "/repos/".toList ++ Percent.segment owner.toList ++
    '/' :: Percent.segment repo.toList

def folderUrl (apiUrl : String) (owner repo folder branch : String) : List Char :=
  repositoryUrl apiUrl owner repo ++ "/contents/".toList ++ Percent.path folder.toList ++
    "?ref=".toList ++ Percent.queryValue branch.toList

def rawFileUrl (rawUrl : String) (owner repo path branch : String) : List Char :=
  dropTrailingSlashes rawUrl.toList ++ '/' :: Percent.segment owner.toList ++
    '/' :: Percent.segment repo.toList ++ '/' :: Percent.path branch.toList ++
    '/' :: Percent.path path.toList

/-! ## Requests -/

/-- The headers of a request, in the order of their names. -/
def Client.headers (client : Client) (accept : String) : List (String × String) :=
  let permission :=
    if client.token.isEmpty then [] else [("authorization", "Bearer " ++ client.token)]
  ("accept", accept) :: permission ++ [("user-agent", client.userAgent)]

/-- The content at an address; none if the request fails. -/
def Client.fetch (client : Client) (replies : Replies) (accept : String) (url : List Char) :
    Exchange (Except HostError (Option ByteArray)) :=
  match address? url with
  | none => .pure (.error .badAddress)
  | some address =>
    let request : Request :=
      { method := "GET"
        url := address
        headers := client.headers accept
        timeout := client.timeout
        body := none }
    { requests := [request]
      result := .ok (match replies.to request with
        | .accepted content => some content
        | _ => none) }

/-- The document at an address; nil if the request fails or there is no document. -/
def Client.fetchJson (client : Client) (replies : Replies) (url : List Char) :
    Exchange (Except HostError Value) :=
  (client.fetch replies jsonContent url).map fun content =>
    (content.bind Json.parseBytes?).getD .nil

/-- The text of a field of an object, if it stands for something. -/
def fieldText? (name : String) : Value → Option String
  | .table fields =>
    let v := lookupD name fields
    if v.isVoid then none else some v.plain
  | _ => none

def Client.latestTag (client : Client) (replies : Replies) (owner repo : String) :
    Exchange (Except HostError (Option String)) :=
  (client.fetchJson replies
    (repositoryUrl client.apiUrl owner repo ++ "/releases/latest".toList)).map
      (fieldText? "tag_name")

/-- The branch that is meant where none is named. -/
def Client.defaultBranch (client : Client) (replies : Replies) (owner repo : String) :
    Exchange (Except HostError String) :=
  (client.fetchJson replies (repositoryUrl client.apiUrl owner repo)).map fun document =>
    (fieldText? "default_branch" document).getD usualBranch

def Client.rawBytes (client : Client) (replies : Replies) (owner repo path branch : String) :
    Exchange (Except HostError (Option ByteArray)) :=
  client.fetch replies "*/*" (rawFileUrl client.rawUrl owner repo path branch)

/-- The text of a file, damaged characters replaced. -/
def Client.rawText (client : Client) (replies : Replies) (owner repo path branch : String) :
    Exchange (Except HostError String) :=
  (client.rawBytes replies owner repo path branch).map fun
    | some content => String.ofList (Utf8.replaced content.data.toList)
    | none => ""

/-! ## Listings -/

/-- The paths that one item of a listing leads to: its own, or those of the folder that it is. Other
items lead to none. -/
def itemPaths (inFolder : String → Exchange (Except HostError (List Value))) (item : Value) :
    Exchange (Except HostError (List Value)) :=
  match item with
  | .table fields =>
    match lookupD "type" fields, lookup? "path" fields with
    | .text "file", some path => .pure (.ok [path])
    | .text "dir", some (.text folder) => inFolder folder
    | .text "dir", some _ => .pure (.error .folderNotText)
    | .text "file", none => .pure (.error .missingPath)
    | .text "dir", none => .pure (.error .missingPath)
    | _, _ => .pure (.ok [])
  | _ => .pure (.ok [])

/-- The paths that some items lead to, one after the other. -/
def listingPaths (inFolder : String → Exchange (Except HostError (List Value))) :
    List Value → Exchange (Except HostError (List Value))
  | [] => .pure (.ok [])
  | item :: rest =>
    (itemPaths inFolder item).andThen fun paths =>
      (listingPaths inFolder rest).map (paths ++ ·)

/-- The items of a listing; whatever is no list has none. -/
def listingItems : Value → List Value
  | .list items => items
  | _ => []

/-- The paths of the files in a folder and all folders below it, to some depth. -/
def Client.filesIn (client : Client) (replies : Replies) (owner repo branch : String) :
    Nat → String → Exchange (Except HostError (List Value))
  | 0, _ => .pure (.error .endless)
  | depth + 1, folder =>
    (client.fetchJson replies (folderUrl client.apiUrl owner repo folder branch)).andThen
      fun document =>
        listingPaths (client.filesIn replies owner repo branch depth) (listingItems document)

/-- The paths of all files of a repository. Only a folder with a reply has anything in it, and
folders with one address are one folder; so a chain of folders that is longer than there are replies
leads from a folder to itself. -/
def Client.listFiles (client : Client) (replies : Replies) (owner repo branch : String) :
    Exchange (Except HostError (List Value)) :=
  client.filesIn replies owner repo branch (replies.length + 1) ""

/-! ## The host -/

def Client.host (client : Client) (replies : Replies) : Host :=
  { latestTag := fun owner repo => (client.latestTag replies owner repo).result
    defaultBranch := fun owner repo => (client.defaultBranch replies owner repo).result
    listFiles := fun owner repo branch => (client.listFiles replies owner repo branch).result
    rawText := fun owner repo path branch => (client.rawText replies owner repo path branch).result
    rawBytes := fun owner repo path branch =>
      (client.rawBytes replies owner repo path branch).result }

/-- The requests that a question leads to. -/
def Client.requests (client : Client) (replies : Replies) : Call → List Request
  | .latestTag owner repo => (client.latestTag replies owner repo).requests
  | .defaultBranch owner repo => (client.defaultBranch replies owner repo).requests
  | .listFiles owner repo branch => (client.listFiles replies owner repo branch).requests
  | .rawText owner repo path branch => (client.rawText replies owner repo path branch).requests
  | .rawBytes owner repo path branch => (client.rawBytes replies owner repo path branch).requests

end ModAlmanac.GitHub
