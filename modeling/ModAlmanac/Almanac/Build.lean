import ModAlmanac.Almanac.Basic
import ModAlmanac.Snapshot.Encode

/-!
Building a snapshot. The branch and the listing are asked for, every source file and image is
fetched and kept under its name in the folder of the version, the snapshot is compiled, and its file
is written last, so that a build that fails publishes nothing. A file that cannot be fetched or kept
is as good as missing.
-/

namespace ModAlmanac

open Repository

/-! ## Fetching files -/

/-- The text of a source file, if it can be had and is not empty. -/
def Almanac.source? (almanac : Almanac) (key : ModKey) (branch path : String) : Option String :=
  match almanac.host.rawText key.owner key.repo path branch with
  | .ok text => if text.isEmpty then none else some text
  | .error _ => none

/-- The bytes of an image, if they can be had and there are any. -/
def Almanac.image? (almanac : Almanac) (key : ModKey) (branch path : String) : Option ByteArray :=
  match almanac.host.rawBytes key.owner key.repo path branch with
  | .ok (some content) => if content.isEmpty then none else some content
  | .ok none => none
  | .error _ => none

/-- Keeps what is found at some paths in a folder of the cache, under the last segments of the
paths, and tells what was kept. Of two paths with one name the later one is kept on top. -/
def keepAll {α : Type} (folder : CachePath) (bytes : α → ByteArray) (find? : String → Option α) :
    List String → Cache → Cache × List (String × α)
  | [], cache => (cache, [])
  | path :: rest, cache =>
    match find? path with
    | none => keepAll folder bytes find? rest cache
    | some found =>
      match cache.save (folder ++ [fileName path]) (bytes found) with
      | .error _ => keepAll folder bytes find? rest cache
      | .ok saved =>
        let (final, kept) := keepAll folder bytes find? rest saved
        (final, (path, found) :: kept)

/-- The paths of a listing, unless one of them is not a text. -/
def textPaths? : List Value → Option (List String)
  | [] => some []
  | .text path :: rest => (textPaths? rest).map (path :: ·)
  | _ :: _ => none

/-! ## Publishing -/

/-- The backup of a publication, where there is a way to store one. -/
def Almanac.backupEvents (almanac : Almanac) (publication : Publication) : List Event :=
  match almanac.backup? with
  | some store => [.backup publication (store publication)]
  | none => []

def Almanac.publish (almanac : Almanac) (cache : Cache) (key : ModKey) (tag : String)
    (snapshot : Snapshot) : Outcome Snapshot :=
  let content := snapshot.fileText.toUTF8
  match cache.saveAside (partPath key tag almanac.worker) (snapshotPath key tag) content with
  | (left, .error e) => { value := .error (.storage e), cache := left, events := [] }
  | (saved, .ok ()) =>
    { value := .ok snapshot
      cache := saved
      events := almanac.backupEvents { key := key.text, tag, content } }

/-! ## Building -/

def Almanac.buildFrom (almanac : Almanac) (cache : Cache) (key : ModKey) (tag branch : String)
    (files : List String) : Outcome Snapshot :=
  let folder := versionPath key tag
  let sources := files.filter isSource
  let images := files.filter isImage
  let (withSources, texts) :=
    keepAll folder String.toUTF8 (almanac.source? key branch) sources cache
  let (withImages, kept) := keepAll folder id (almanac.image? key branch) images withSources
  let calls :=
    sources.map (fun path => Event.call (.rawText key.owner key.repo path branch)) ++
      images.map (fun path => Event.call (.rawBytes key.owner key.repo path branch))
  let material : Material :=
    { locale := localeText sources texts
      texts := declaringTexts sources texts
      images := kept.map fun (path, _) =>
        { path, address := almanac.imageAddress key tag path }
      files }
  match Snapshot.compile almanac.context tag material with
  | .error e => { value := .error (.evaluation e), cache := withImages, events := calls }
  | .ok snapshot => (almanac.publish withImages key tag snapshot).after calls

def Almanac.buildListing (almanac : Almanac) (cache : Cache) (key : ModKey) (tag branch : String)
    (listing : List Value) : Outcome Snapshot :=
  if listing.isEmpty then { value := .error (.noFiles key branch), cache, events := [] }
  else
    match cache.makeFolder (versionPath key tag) with
    | (made, .error e) => { value := .error (.storage e), cache := made, events := [] }
    | (made, .ok ()) =>
      match textPaths? listing with
      | none => { value := .error .pathNotText, cache := made, events := [] }
      | some files => almanac.buildFrom made key tag branch files

/-- Builds the snapshot of a mod in one version. -/
def Almanac.build (almanac : Almanac) (cache : Cache) (key : ModKey) (tag : String) :
    Outcome Snapshot :=
  let askBranch := Event.call (.defaultBranch key.owner key.repo)
  match almanac.host.defaultBranch key.owner key.repo with
  | .error e => { value := .error (.host e), cache, events := [askBranch] }
  | .ok branch =>
    let askFiles := Event.call (.listFiles key.owner key.repo branch)
    match almanac.host.listFiles key.owner key.repo branch with
    | .error e => { value := .error (.host e), cache, events := [askBranch, askFiles] }
    | .ok listing =>
      (almanac.buildListing cache key tag branch listing).after [askBranch, askFiles]

end ModAlmanac
