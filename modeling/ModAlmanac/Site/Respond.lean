import ModAlmanac.Almanac.Lookup
import ModAlmanac.Http.Address
import ModAlmanac.Site.Route

/-!
Answers of the site. A snapshot is given as a document on one line; a key that is none is a fault of
the request and any other failure one of the site, which is not told further. Of the files in the
cache only images are given out.
-/

namespace ModAlmanac.Site

open Text

/-- An answer of the site. -/
inductive Response where
  | document (status : Nat) (body : String)
  | image (content : ByteArray)
  | refusal (status : Nat)
  deriving DecidableEq

def Response.problem (status : Nat) (message : String) : Response :=
  .document status (Json.asciiLine (.record [("error", .text message)]))

/-- The answer to a request for a snapshot, by what came of looking it up. -/
def Response.ofLookup : Except Failure Snapshot → Response
  | .ok snapshot => .document 200 (Json.line snapshot.encode)
  | .error (.invalidKey e) => .problem 400 e.message
  | .error _ => .problem 500 "Internal server error while processing mod data."

/-- The answer to a request for an image. A path with a name that is too long cannot even be looked
at, which is a fault of the site. -/
def imageResponse (cache : Cache) (key version file : String) : Response :=
  match ModKey.parse (.text key) with
  | .error _ => .refusal 404
  | .ok key =>
    if ".png".toList.isSuffixOf (lower file.toList) then
      match cache.look (versionPath key version ++ [file]) with
      | .ok (some (.file content)) => .image content
      | .error .nameTooLong => .refusal 500
      | _ => .refusal 404
    else .refusal 404

/-- The answer to a request for a decoded path. Only `GET` is understood. -/
def respond (almanac : Almanac) (cache : Cache) (method : String) (path : List Char) :
    Run Response :=
  match Route.ofPath? path with
  | none => { value := .refusal 404, cache, events := [] }
  | some route =>
    if method.toUpper = "GET" then
      match route with
      | .snapshot key => (almanac.get cache (.text key)).map Response.ofLookup
      | .image key version file =>
        { value := imageResponse cache key version file, cache, events := [] }
    else { value := .refusal 405, cache, events := [] }

/-- The answer to a request for an address. -/
def visit (almanac : Almanac) (cache : Cache) (method address : String) :
    Except Http.AddressError (Run Response) := do
  let path ← Http.pathOf address.toList
  pure (respond almanac cache method (Percent.decode path))

end ModAlmanac.Site
