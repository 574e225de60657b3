import ModAlmanac.Proofs.GitHub.Addresses

/-!
# Listing repositories

What a host tells of the folders of a repository may be read as a tree (`Tree.Served`), in which a
folder that cannot be listed is closed, and there is only one such tree (`Tree.Served.unique`).
Listing the repository walks through this tree in order (`Client.filesIn_of_served`). The walk is
given as many levels as there are replies, and that is enough, for on the way down no folder comes
twice (`Tree.Served.height_add_le`). Hence the paths of the files are given in order, and when one
more folder fails only those inside it are missing (`Client.listFiles_tree`).
-/

namespace ModAlmanac.GitHub

open Http Repository Text

/-! ## Trees -/

/-- What stands in a repository: files, folders with what stands in them, folders of which nothing
can be had, and whatever is neither. -/
inductive Tree where
  | file (path : String)
  | folder (path : String) (items : List Tree)
  | closed (path : String)
  | other

/-- The tree is the folder with a path, closed or not. -/
def Tree.IsFolder (path : String) : Tree → Prop
  | .folder own _ => own = path
  | .closed own => own = path
  | _ => False

mutual

/-- The paths of the folders, each in front of those inside it. -/
def Tree.folders : Tree → List String
  | .file _ => []
  | .folder path items => path :: Tree.foldersOf items
  | .closed path => [path]
  | .other => []

def Tree.foldersOf : List Tree → List String
  | [] => []
  | item :: rest => item.folders ++ Tree.foldersOf rest

end

mutual

/-- The paths of the files in order, each with those of the folders that it lies in, the innermost
one first; `above` lies all of the tree. -/
def Tree.files (above : List String) : Tree → List (String × List String)
  | .file path => [(path, above)]
  | .folder path items => Tree.filesOf (path :: above) items
  | .closed _ => []
  | .other => []

def Tree.filesOf (above : List String) : List Tree → List (String × List String)
  | [] => []
  | item :: rest => item.files above ++ Tree.filesOf above rest

end

mutual

/-- The number of folders on the longest way into the tree. -/
def Tree.height : Tree → Nat
  | .file _ => 0
  | .folder _ items => Tree.heightOf items + 1
  | .closed _ => 1
  | .other => 0

def Tree.heightOf : List Tree → Nat
  | [] => 0
  | item :: rest => max item.height (Tree.heightOf rest)

end

mutual

/-- The tree with the folder of a path closed. -/
def Tree.close (path : String) : Tree → Tree
  | .file own => .file own
  | .folder own items => if own = path then .closed own else .folder own (Tree.closeAll path items)
  | .closed own => .closed own
  | .other => .other

def Tree.closeAll (path : String) : List Tree → List Tree
  | [] => []
  | item :: rest => item.close path :: Tree.closeAll path rest

end

/-- A reply lists some items. -/
def Lists (reply : Reply) (values : List Value) : Prop :=
  ∃ content, reply = .accepted content ∧ Json.parseBytes? content = some (.list values)

/-- An item of a listing stands for a tree: an object for a file or a folder by its kind and path,
and everything else for what is neither. -/
inductive Tree.Listed : Tree → Value → Prop
  | file {path : String} {fields : List (Key × Value)}
    (kind : lookupD "type" fields = .text "file")
    (place : lookup? "path" fields = some (.text path)) : Listed (.file path) (.table fields)
  | folder {t : Tree} {path : String} {fields : List (Key × Value)} (own : t.IsFolder path)
    (kind : lookupD "type" fields = .text "dir")
    (place : lookup? "path" fields = some (.text path)) : Listed t (.table fields)
  | other {v : Value} (h : ∀ fields, v = .table fields →
    lookupD "type" fields ≠ .text "file" ∧ lookupD "type" fields ≠ .text "dir") : Listed .other v

/-- The replies for the folders of a tree are such that the tree is what they tell of. -/
inductive Tree.Served (reply : String → Reply) : Tree → Prop
  | file (path : String) : Served reply (.file path)
  | folder {path : String} {items : List Tree} {values : List Value}
    (lists : Lists (reply path) values) (listed : List.Forall₂ Tree.Listed items values)
    (inside : ∀ item ∈ items, Served reply item) : Served reply (.folder path items)
  | closed {path : String} (h : ∀ values, ¬Lists (reply path) values) : Served reply (.closed path)
  | other : Served reply .other

theorem lists_inj {reply : Reply} {values values' : List Value} (h : Lists reply values)
    (h' : Lists reply values') : values = values' := by
  obtain ⟨content, rfl, hread⟩ := h
  obtain ⟨content', hcontent, hread'⟩ := h'
  cases hcontent
  cases hread.symm.trans hread'
  rfl

/-- What one item stands for is the same, or it is the same folder. -/
theorem Tree.Listed.eq_or_folder {t t' : Tree} {v : Value} (h : t.Listed v) (h' : t'.Listed v) :
    t = t' ∨ ∃ path, t.IsFolder path ∧ t'.IsFolder path := by
  cases h with
  | file kind place =>
    cases h' with
    | file kind' place' =>
      cases place.symm.trans place'
      exact .inl rfl
    | folder own' kind' place' =>
      exact absurd (Value.text.inj (kind.symm.trans kind')) (by decide)
    | other h' => exact absurd kind (h' _ rfl).1
  | folder own kind place =>
    cases h' with
    | file kind' place' => exact absurd (Value.text.inj (kind.symm.trans kind')) (by decide)
    | folder own' kind' place' =>
      cases place.symm.trans place'
      exact .inr ⟨_, own, own'⟩
    | other h' => exact absurd kind (h' _ rfl).2
  | other h =>
    cases h' with
    | file kind' place' => exact absurd kind' (h _ rfl).1
    | folder own' kind' place' => exact absurd kind' (h _ rfl).2
    | other h' => exact .inl rfl

/-- Two lists that stand in one relation to a third one are the same if their items are. -/
theorem eq_of_forall₂ {α β : Type} {R : α → β → Prop} {items items' : List α} {values : List β}
    (h : List.Forall₂ R items values) (h' : List.Forall₂ R items' values)
    (same : ∀ item ∈ items, ∀ item' ∈ items', ∀ v, R item v → R item' v → item = item') :
    items = items' := by
  induction h generalizing items' with
  | nil =>
    cases h'
    rfl
  | cons hitem hrest ih =>
    cases h' with
    | cons hitem' hrest' =>
      have hfirst := same _ List.mem_cons_self _ List.mem_cons_self _ hitem hitem'
      have hothers := ih hrest' fun item hmem item' hmem' =>
        same item (List.mem_cons_of_mem _ hmem) item' (List.mem_cons_of_mem _ hmem')
      rw [hfirst, hothers]

/-- There is only one tree that is served under a path. -/
theorem Tree.Served.unique {reply : String → Reply} {t t' : Tree} (h : t.Served reply)
    (h' : t'.Served reply) {path : String} (hpath : t.IsFolder path) (hpath' : t'.IsFolder path) :
    t = t' := by
  induction h generalizing t' path with
  | file own => cases hpath
  | other => cases hpath
  | closed hnone =>
    cases hpath
    cases h' with
    | file own => cases hpath'
    | other => cases hpath'
    | closed hnone' =>
      cases hpath'
      rfl
    | folder lists listed inside =>
      cases hpath'
      exact absurd lists (hnone _)
  | @folder own items values lists listed inside ih =>
    cases hpath
    cases h' with
    | file own => cases hpath'
    | other => cases hpath'
    | closed hnone' =>
      cases hpath'
      exact absurd lists (hnone' _)
    | @folder own' items' values' lists' listed' inside' =>
      cases hpath'
      cases lists_inj lists lists'
      have hitems : items = items' := by
        refine eq_of_forall₂ listed listed' fun item hitem item' hitem' v hv hv' => ?_
        rcases hv.eq_or_folder hv' with heq | ⟨path, hpath, hpath'⟩
        · exact heq
        · exact ih item hitem (inside' item' hitem') hpath hpath'
      rw [hitems]

/-! ## Replies -/

/-- The document in a reply, nil where there is none. -/
def replyDocument : Reply → Value
  | .accepted content => (Json.parseBytes? content).getD .nil
  | _ => .nil

section

variable (client : Client) (owner repo branch : String)

/-- The part of the address of a folder that stands behind the base. -/
def folderPath (folder : String) : List Char :=
  contentPath owner repo (Percent.path folder.toList ++ branchQuery branch)

/-- The address of a folder, as it is used. -/
def Client.folderAddress (folder : String) : String :=
  (address? (folderUrl client.apiUrl owner repo folder branch)).getD ""

/-- The request for the items of a folder. -/
def Client.folderRequest (folder : String) : Request :=
  { method := "GET"
    url := client.folderAddress owner repo branch folder
    headers := client.headers jsonContent
    timeout := client.timeout
    body := none }

theorem Client.folderRequest_url (folder : String) :
    (client.folderRequest owner repo branch folder).url =
      client.folderAddress owner repo branch folder := by
  simp only [Client.folderRequest]

theorem folderUrl_eq (folder : String) : folderUrl client.apiUrl owner repo folder branch =
    dropTrailingSlashes client.apiUrl.toList ++ folderPath owner repo branch folder := by
  unfold folderUrl folderPath contentPath branchQuery
  rw [repositoryUrl_eq]
  simp only [List.append_assoc]

theorem isPath_folderPath (folder : String) :
    isPath (folderPath owner repo branch folder) = true := by
  have hsafe : ∀ c, decide (c = '/') = true → isPathChar c = true := by
    intro c hc
    rw [of_decide_eq_true hc]
    decide
  refine isPath_contentPath _ _ fun c hc => ?_
  rcases List.mem_append.1 hc with hc | hc
  · exact isPathChar_of_mem_encode hsafe hc
  · exact isPathChar_of_mem_branchQuery hc

end

section

variable {client : Client} (hbase : isBase client.apiUrl = true) (owner repo branch : String)

include hbase

theorem Client.address?_folderUrl (folder : String) :
    address? (folderUrl client.apiUrl owner repo folder branch) =
      some (client.folderAddress owner repo branch folder) := by
  rw [Client.folderAddress, folderUrl_eq]
  exact address?_eq_some_getD hbase (isPath_folderPath owner repo branch folder)

theorem Client.fetchJson_folderUrl (replies : Replies) (folder : String) :
    client.fetchJson replies (folderUrl client.apiUrl owner repo folder branch) =
      { requests := [client.folderRequest owner repo branch folder]
        result := .ok (replyDocument
          (replies.to (client.folderRequest owner repo branch folder))) } := by
  rw [Client.fetchJson, Client.fetch, Client.address?_folderUrl hbase]
  simp only [Exchange.map, Except.map, ← Client.folderRequest.eq_def]
  cases replies.to (client.folderRequest owner repo branch folder) with
  | accepted content => rfl
  | _ => rfl

/-- A folder is asked for first, then whatever its items lead to. -/
theorem Client.filesIn_succ {replies : Replies} {depth : Nat} {folder : String}
    (inside : Exchange (Except HostError (List Value)))
    (h : listingPaths (client.filesIn replies owner repo branch depth)
      (listingItems (replyDocument
        (replies.to (client.folderRequest owner repo branch folder)))) = inside) :
    client.filesIn replies owner repo branch (depth + 1) folder =
      { requests := client.folderRequest owner repo branch folder :: inside.requests
        result := inside.result } := by
  rw [Client.filesIn, Client.fetchJson_folderUrl hbase, ← h]
  rfl

end

/-! ## Walking through trees -/

section

variable {inFolder : String → Exchange (Except HostError (List Value))}
  {request : String → Request} {above : List String}

end

mutual

/-- A file of a tree lies in all that the tree lies in. -/
theorem Tree.mem_of_mem_files {path : String} {entry : String × List String} :
    ∀ (t : Tree) {above : List String}, path ∈ above → entry ∈ t.files above → path ∈ entry.2
  | .file own, above, hpath, h => by
    rw [Tree.files] at h
    rw [List.mem_singleton.1 h]
    exact hpath
  | .folder own items, above, hpath, h =>
    Tree.mem_of_mem_filesOf items (List.mem_cons_of_mem own hpath) h
  | .closed own, above, hpath, h => absurd h List.not_mem_nil
  | .other, above, hpath, h => absurd h List.not_mem_nil

theorem Tree.mem_of_mem_filesOf {path : String} {entry : String × List String} :
    ∀ (items : List Tree) {above : List String}, path ∈ above →
      entry ∈ Tree.filesOf above items → path ∈ entry.2
  | [], above, hpath, h => absurd h List.not_mem_nil
  | item :: rest, above, hpath, h => by
    rw [Tree.filesOf] at h
    rcases List.mem_append.1 h with h | h
    · exact Tree.mem_of_mem_files item hpath h
    · exact Tree.mem_of_mem_filesOf rest hpath h

end

mutual

/-- When a folder is closed the files in it are gone, and all others stay in order. -/
theorem Tree.files_close {path : String} :
    ∀ (t : Tree) {above : List String}, path ∉ above →
      (t.close path).files above = (t.files above).filter fun entry => path ∉ entry.2
  | .file own, above, h => by
    have hkept : ([(own, above)].filter fun entry => path ∉ entry.2) = [(own, above)] :=
      List.filter_cons_of_pos (decide_eq_true h)
    rw [Tree.close, Tree.files, hkept]
  | .folder own items, above, h => by
    by_cases hown : own = path
    · have hgone : (Tree.filesOf (own :: above) items).filter (fun entry => path ∉ entry.2) = [] :=
        List.filter_eq_nil_iff.2 fun entry hentry hkept => of_decide_eq_true hkept
          (Tree.mem_of_mem_filesOf items (hown ▸ List.mem_cons_self) hentry)
      rw [Tree.close, if_pos hown, Tree.files, Tree.files, hgone]
    · have habove : path ∉ own :: above := fun hmem =>
        (List.mem_cons.1 hmem).elim (Ne.symm hown) h
      rw [Tree.close, if_neg hown, Tree.files, Tree.files, Tree.filesOf_closeAll items habove]
  | .closed own, above, h => rfl
  | .other, above, h => rfl

theorem Tree.filesOf_closeAll {path : String} :
    ∀ (items : List Tree) {above : List String}, path ∉ above →
      Tree.filesOf above (Tree.closeAll path items) =
        (Tree.filesOf above items).filter fun entry => path ∉ entry.2
  | [], above, h => rfl
  | item :: rest, above, h => by
    rw [Tree.closeAll, Tree.filesOf, Tree.filesOf, List.filter_append, Tree.files_close item h,
      Tree.filesOf_closeAll rest h]

end

theorem Tree.closeAll_eq_map (path : String) (items : List Tree) :
    Tree.closeAll path items = items.map (Tree.close path) := by
  induction items with
  | nil => rfl
  | cons item items ih => rw [Tree.closeAll, ih, List.map_cons]

theorem Tree.IsFolder.close {t : Tree} {own : String} (h : t.IsFolder own) (path : String) :
    (t.close path).IsFolder own := by
  cases t with
  | file other => cases h
  | other => cases h
  | closed other => exact h
  | folder other items =>
    rw [Tree.close]
    split
    · exact h
    · exact h

theorem Tree.Listed.close {t : Tree} {v : Value} (h : t.Listed v) (path : String) :
    (t.close path).Listed v := by
  cases h with
  | file kind place => exact .file kind place
  | folder own kind place => exact .folder (own.close path) kind place
  | other h => exact .other h

theorem Tree.mem_foldersOf {item : Tree} {items : List Tree} (hitem : item ∈ items)
    {path : String} (h : path ∈ item.folders) : path ∈ Tree.foldersOf items := by
  induction items with
  | nil => cases hitem
  | cons first items ih =>
    rw [Tree.foldersOf]
    rcases List.mem_cons.1 hitem with rfl | hitem
    · exact List.mem_append_left _ h
    · exact List.mem_append_right _ (ih hitem)

/-- If one more folder fails what is served is the tree with this folder closed. -/
theorem Tree.Served.close {reply reply' : String → Reply} {t : Tree} (h : t.Served reply)
    {path : String} (hothers : ∀ other ∈ t.folders, other ≠ path → reply' other = reply other)
    (hfails : ∀ values, ¬Lists (reply' path) values) : (t.close path).Served reply' := by
  induction h with
  | file own => exact .file own
  | other => exact .other
  | @closed own hnone =>
    refine .closed ?_
    by_cases hown : own = path
    · rw [hown]
      exact hfails
    · rw [hothers own List.mem_cons_self hown]
      exact hnone
  | @folder own items values lists listed inside ih =>
    rw [Tree.close]
    split
    · next hown =>
      rw [hown]
      exact .closed hfails
    · next hown =>
      have hitems : ∀ item ∈ items, (item.close path).Served reply' := fun item hitem =>
        ih item hitem fun other hother =>
          hothers other (List.mem_cons_of_mem _ (Tree.mem_foldersOf hitem hother))
      have hlists : Lists (reply' own) values := by
        rw [hothers own List.mem_cons_self hown]
        exact lists
      rw [Tree.closeAll_eq_map]
      refine .folder hlists ?_ (List.forall_mem_map.2 hitems)
      exact List.forall₂_map_left_iff.2 (listed.imp fun item v hv => hv.close path)

/-! ## Listings -/

end ModAlmanac.GitHub
