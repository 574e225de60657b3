import ModAlmanac.Proofs.GitHub.Listings
import ModAlmanac.Proofs.Text.Cutting

/-!
# What the address of a folder tells

Behind its base an address is cut at its marks, and the parts are decoded (`Http.Target.ofText`). Of
the marks none but the slash is in a coded folder, and there it stands where it stands in the folder
(`partsAt_path`). So the address of a folder is read as the names that it was made of, with no more
segments and no more parameters (`ofText_folderPath`), and every request of a listing is for such an
address (`Client.exists_folder_of_mem_requests`). Two of these addresses are the same only if all
names are (`Client.folderRequest_tells`).
-/

namespace ModAlmanac

open Text

/-! ## Targets -/

/-- What stands behind the base of an address: the segments of a path and the parameters of a
query. -/
structure Http.Target where
  segments : List String
  parameters : List (String × String)
  deriving DecidableEq

/-- The name of a parameter in front of the first sign of equality, and its value behind that. -/
def Http.parameter (s : List Char) : String × String :=
  let (name, value) := cutAt '=' s
  (String.ofList (Percent.queryText name), String.ofList (Percent.queryText value))

/-- The path ends at the first question mark, its segments at slashes, and the parameters at
ampersands. -/
def Http.Target.ofText (s : List Char) : Target :=
  let (path, query) := cutAt '?' s
  { segments := (partsAt '/' path).map fun segment => String.ofList (Percent.decode segment)
    parameters := ((partsAt '&' query).filter (· ≠ [])).map parameter }

namespace Text.Percent

theorem not_mem_segment {c : Char} (hcoded : isUnreserved c = false) (hsign : c ≠ '%')
    (s : List Char) : c ∉ segment s :=
  not_mem_encode hcoded rfl hsign s

theorem decode_segment (s : List Char) : decode (segment s) = s :=
  decode_of_codes (codes_encode rfl s)

/-- A coded path is cut where the path is. -/
theorem partsAt_path (s : List Char) : partsAt '/' (path s) = (partsAt '/' s).map segment := by
  induction s with
  | nil => rfl
  | cons c s ih =>
    rw [path, encode, List.flatMap_cons]
    change partsAt '/' (encodeChar _ c ++ path s) = _
    by_cases hc : c = '/'
    · rw [hc, partsAt, if_pos rfl, List.map_cons, ← ih]
      rfl
    · have hplain : encodeChar (fun d => decide (d = '/')) c = segment [c] := by
        rw [segment, encode, List.flatMap_singleton, encodeChar, encodeChar, decide_eq_false hc]
      have hslash : '/' ∉ segment [c] := not_mem_segment (by decide) (by decide) _
      have hcons : ∀ part, segment [c] ++ segment part = segment (c :: part) := fun part => by
        rw [segment, segment, encode, encode, ← List.flatMap_append]
        rfl
      rw [hplain, partsAt_append_of_not_mem hslash, ih, partsAt_cons_of_ne hc]
      cases partsAt '/' s with
      | nil => rfl
      | cons part parts => exact congrArg (· :: parts.map segment) (hcons part)

end Text.Percent

namespace GitHub

open Http Repository

/-! ## Targets of folders -/

/-- The target that names a folder. -/
def folderTarget (owner repo branch folder : String) : Target :=
  { segments := ["", "repos", owner, repo, "contents"] ++
      (partsAt '/' folder.toList).map String.ofList
    parameters := [("ref", branch)] }

/-- The owner, the repository, the branch and the folder that a target names. -/
def namedFolder? : Target → Option (String × String × String × String)
  | { segments := "" :: "repos" :: owner :: repo :: "contents" :: folder
      parameters := [("ref", branch)] } =>
    some (owner, repo, branch, String.ofList (['/'].intercalate (folder.map String.toList)))
  | _ => none

theorem namedFolder?_folderTarget (owner repo branch folder : String) :
    namedFolder? (folderTarget owner repo branch folder) = some (owner, repo, branch, folder) := by
  have hfolder : ['/'].intercalate (((partsAt '/' folder.toList).map String.ofList).map
      String.toList) = folder.toList := by
    rw [List.map_map, Function.comp_def, List.map_congr_left fun s _ => String.toList_ofList,
      List.map_id', intercalate_partsAt]
  simp only [namedFolder?, folderTarget, List.cons_append, List.nil_append, hfolder,
    String.ofList_toList]

section

variable (owner repo branch folder : String)

theorem partsAt_contentPath (coded : List Char) :
    partsAt '/' (contentPath owner repo coded) =
      (["", "repos", owner, repo, "contents"].map fun name => Percent.segment name.toList) ++
        partsAt '/' coded := by
  have hsegment : ∀ s, '/' ∉ Percent.segment s := Percent.not_mem_segment (by decide) (by decide)
  have hpath : contentPath owner repo coded = [] ++ '/' :: ("repos".toList ++
      '/' :: (Percent.segment owner.toList ++ '/' :: (Percent.segment repo.toList ++
        '/' :: ("contents".toList ++ '/' :: coded)))) := by
    unfold contentPath repositoryPath
    simp only [List.append_assoc, List.cons_append]
    rfl
  rw [hpath, partsAt_append List.not_mem_nil, partsAt_append (by decide),
    partsAt_append (hsegment _), partsAt_append (hsegment _), partsAt_append (by decide)]
  rfl

/-- There is no question mark in what names a folder. -/
theorem question_not_mem_contentPath :
    '?' ∉ contentPath owner repo (Percent.path folder.toList) := by
  have hsegment : ∀ s, '?' ∉ Percent.segment s := Percent.not_mem_segment (by decide) (by decide)
  have hslash : decide ('?' = '/') = false := by decide
  have hpath : '?' ∉ Percent.path folder.toList := by
    unfold Percent.path
    exact Percent.not_mem_encode (by decide) hslash (by decide) _
  have hrepository : '?' ∉ repositoryPath owner repo :=
    List.not_mem_append (List.not_mem_append (by decide) (hsegment _))
      (List.not_mem_cons_of_ne_of_not_mem (by decide) (hsegment _))
  exact List.not_mem_append hrepository (List.not_mem_append (by decide) hpath)

theorem parameter_branch :
    parameter ("ref".toList ++ '=' :: Percent.queryValue branch.toList) = ("ref", branch) := by
  have hname : Percent.queryText "ref".toList = "ref".toList := by
    have hcoded : Percent.queryValue "ref".toList = "ref".toList := by decide
    rw [← hcoded, Percent.queryText_queryValue, hcoded]
  rw [parameter, cutAt_append (by decide)]
  dsimp only
  rw [hname, Percent.queryText_queryValue, String.ofList_toList, String.ofList_toList]

/-- The address of a folder is read as the names that it was made of. -/
theorem ofText_folderPath :
    Target.ofText (folderPath owner repo branch folder) = folderTarget owner repo branch folder := by
  have hpath : folderPath owner repo branch folder =
      contentPath owner repo (Percent.path folder.toList) ++
        '?' :: ("ref".toList ++ '=' :: Percent.queryValue branch.toList) := by
    simp [folderPath, contentPath, branchQuery]
  have hparts : (partsAt '&' ("ref".toList ++ '=' :: Percent.queryValue branch.toList)).filter
      (· ≠ []) = ["ref".toList ++ '=' :: Percent.queryValue branch.toList] := by
    have hvalue : '&' ∉ Percent.queryValue branch.toList :=
      Percent.not_mem_queryValue (by decide) (by decide) (by decide) _
    rw [partsAt_of_not_mem (by simp [hvalue])]
    rfl
  rw [hpath, Target.ofText, cutAt_append (question_not_mem_contentPath owner repo folder)]
  dsimp only
  rw [hparts, partsAt_contentPath, Percent.partsAt_path, List.map_append, List.map_map,
    List.map_map]
  simp only [Function.comp_def, Percent.decode_segment, String.ofList_toList, List.map_cons,
    List.map_nil, parameter_branch, folderTarget]

/-- The paths behind a base are the same only if all names are. -/
theorem folderPath_inj {owner repo branch folder owner' repo' branch' folder' : String} :
    folderPath owner repo branch folder = folderPath owner' repo' branch' folder' ↔
      owner = owner' ∧ repo = repo' ∧ branch = branch' ∧ folder = folder' := by
  constructor
  · intro h
    have hnames := congrArg (fun s => namedFolder? (Target.ofText s)) h
    simp only [ofText_folderPath, namedFolder?_folderTarget] at hnames
    cases hnames
    exact ⟨rfl, rfl, rfl, rfl⟩
  · rintro ⟨rfl, rfl, rfl, rfl⟩
    rfl

end

/-! ## Requests of a listing -/

/-- An item leads to requests only if it is a folder. -/
theorem exists_inFolder_of_mem_itemPaths
    {inFolder : String → Exchange (Except HostError (List Value))} {item : Value}
    {request : Request} (h : request ∈ (itemPaths inFolder item).requests) :
    ∃ folder, request ∈ (inFolder folder).requests := by
  unfold itemPaths at h
  split at h
  · split at h
    case h_2 => exact ⟨_, h⟩
    all_goals cases h
  · cases h

theorem exists_inFolder_of_mem_listingPaths
    {inFolder : String → Exchange (Except HostError (List Value))} {items : List Value}
    {request : Request} (h : request ∈ (listingPaths inFolder items).requests) :
    ∃ folder, request ∈ (inFolder folder).requests := by
  induction items with
  | nil => cases h
  | cons item items ih =>
    rw [listingPaths, Exchange.andThen] at h
    split at h
    · exact exists_inFolder_of_mem_itemPaths h
    · rcases List.mem_append.1 h with hitem | hothers
      · exact exists_inFolder_of_mem_itemPaths hitem
      · exact ih hothers

section

variable (client : Client) (replies : Replies) (owner repo branch : String)

/-- Without a scheme nothing is asked for. -/
theorem Client.filesIn_of_not_isBase {client : Client} (hbase : isBase client.apiUrl = false)
    (depth : Nat) (folder : String) :
    (client.filesIn replies owner repo branch depth folder).requests = [] := by
  cases depth with
  | zero => rfl
  | succ depth =>
    have haddress : address? (folderUrl client.apiUrl owner repo folder branch) = none := by
      rw [folderUrl_eq, address?_append_path (isPath_folderPath owner repo branch folder), hbase]
      rfl
    rw [Client.filesIn, Client.fetchJson, Client.fetch, haddress]
    rfl

/-- Whatever the replies are, all requests of a listing are for folders of the repository. -/
theorem Client.exists_folder_of_mem_requests {depth : Nat} {folder : String} {request : Request}
    (h : request ∈ (client.filesIn replies owner repo branch depth folder).requests) :
    ∃ inner, request = client.folderRequest owner repo branch inner := by
  cases hbase : isBase client.apiUrl with
  | false =>
    rw [Client.filesIn_of_not_isBase replies owner repo branch hbase] at h
    cases h
  | true =>
    induction depth generalizing folder with
    | zero => cases h
    | succ depth ih =>
      rw [Client.filesIn_succ hbase owner repo branch _ rfl] at h
      rcases List.mem_cons.1 h with hfirst | hinside
      · exact ⟨folder, hfirst⟩
      · obtain ⟨inner, hinner⟩ := exists_inFolder_of_mem_listingPaths hinside
        exact ih hinner

end

/-! ## What requests tell -/

/-- The address of a folder is a text of the base alone with a path behind it, and this path is read
as the owner, the repository, the branch and the folder, with no further segment and no further
parameter. Listing a folder requests this address first, unless the base has no scheme and nothing
is requested; whatever the replies are, every later request is for such an address too. Two
addresses are the same only if all four names are, and so are two addresses that are requested. -/
theorem Client.folderRequest_tells (client : Client) (owner repo branch folder : String) :
    folderUrl client.apiUrl owner repo folder branch =
        dropTrailingSlashes client.apiUrl.toList ++ folderPath owner repo branch folder ∧
      Target.ofText (folderPath owner repo branch folder) =
        folderTarget owner repo branch folder ∧
      namedFolder? (folderTarget owner repo branch folder) = some (owner, repo, branch, folder) ∧
      (∀ replies depth,
        (client.filesIn replies owner repo branch (depth + 1) folder).requests.head? =
            (if isBase client.apiUrl then some (client.folderRequest owner repo branch folder)
              else none) ∧
          ∀ request ∈ (client.filesIn replies owner repo branch depth folder).requests,
            ∃ inner, request = client.folderRequest owner repo branch inner) ∧
      (∀ owner' repo' branch' folder',
        folderUrl client.apiUrl owner repo folder branch =
            folderUrl client.apiUrl owner' repo' folder' branch' ↔
          owner = owner' ∧ repo = repo' ∧ branch = branch' ∧ folder = folder') ∧
      (isBase client.apiUrl = true →
        (client.folderRequest owner repo branch folder).url.toList =
            frontOf client.apiUrl ++ folderPath owner repo branch folder ∧
          ∀ owner' repo' branch' folder',
            (client.folderRequest owner repo branch folder).url =
                (client.folderRequest owner' repo' branch' folder').url ↔
              owner = owner' ∧ repo = repo' ∧ branch = branch' ∧ folder = folder') := by
  have haddress : ∀ {owner repo branch folder}, isBase client.apiUrl = true →
      (client.folderRequest owner repo branch folder).url =
        String.ofList (frontOf client.apiUrl ++ folderPath owner repo branch folder) := by
    intro owner repo branch folder hbase
    rw [Client.folderRequest_url, Client.folderAddress, folderUrl_eq,
      address?_append_path (isPath_folderPath owner repo branch folder), if_pos hbase,
      Option.getD_some]
  refine ⟨folderUrl_eq .., ofText_folderPath .., namedFolder?_folderTarget ..,
    fun replies depth => ⟨?_, fun request => client.exists_folder_of_mem_requests replies _ _ _⟩,
    fun owner' repo' branch' folder' => ?_, fun hbase => ⟨?_, fun owner' repo' branch' folder' => ?_⟩⟩
  · cases hbase : isBase client.apiUrl with
    | false =>
      rw [Client.filesIn_of_not_isBase replies owner repo branch hbase]
      rfl
    | true =>
      rw [Client.filesIn_succ hbase owner repo branch _ rfl]
      rfl
  · rw [folderUrl_eq, folderUrl_eq, List.append_cancel_left_eq, folderPath_inj]
  · rw [haddress hbase, String.toList_ofList]
  · rw [haddress hbase, haddress hbase, String.ofList_inj, List.append_cancel_left_eq,
      folderPath_inj]

/-- Names that are full of marks are told as they are. -/
theorem hardNames_told :
    isBase Client.standard.apiUrl = true ∧
      (Client.standard.folderRequest "a/b" "?ref=x" "+ &ref=" "x y//\u00e4#").url =
        "https://api.github.com/repos/a%2Fb/%3Fref%3Dx/contents/x%20y//%C3%A4%23?ref=%2B+%26ref%3D" ∧
      Target.ofText (folderPath "a/b" "?ref=x" "+ &ref=" "x y//\u00e4#") =
        { segments := ["", "repos", "a/b", "?ref=x", "contents", "x y", "", "\u00e4#"]
          parameters := [("ref", "+ &ref=")] } := by
  have hbase : isBase Client.standard.apiUrl = true := by decide +kernel
  obtain ⟨-, hread, -, -, -, haddress⟩ :=
    Client.standard.folderRequest_tells "a/b" "?ref=x" "+ &ref=" "x y//\u00e4#"
  refine ⟨hbase, ?_, ?_⟩
  · rw [← String.toList_inj, (haddress hbase).1]
    decide +kernel
  · rw [hread]
    decide +kernel

end GitHub

end ModAlmanac
