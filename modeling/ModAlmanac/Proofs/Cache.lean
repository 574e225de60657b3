import ModAlmanac.Cache

/-!
# Files and folders of a cache

What is seen at a path is seen step by step (`Cache.lookFrom_append`). Making a folder changes no
file (`Cache.read?_makeFolder`) and nothing that does not lie on the way to the folder
(`Cache.node?_makeFolder_of_ne`). A cache that only gets files put into one folder
(`Cache.putFiles`) changes nothing else, and of two files with one name the later one stays
(`Cache.node?_putFiles_of_last`). A folder takes a file under every name that can be one in it and
that no folder has (`Cache.save_eq_ok_iff`). A file that is saved aside and moved into its place
changes no other place (`Cache.saveAside_cases`, `Cache.node?_moved_of_ne`).
-/

namespace ModAlmanac

/-! ## Looking -/

theorem Cache.lookFrom_append (cache : Cache) (start front behind : CachePath) (here : Node) :
    cache.lookFrom start here (front ++ behind) =
      cache.lookFrom start here front >>= fun seen =>
        match seen with
        | none => .ok none
        | some node => cache.lookFrom (start ++ front) node behind := by
  induction front generalizing start here with
  | nil =>
    rw [List.nil_append, List.append_nil]
    rfl
  | cons name front ih =>
    rw [List.cons_append, Cache.lookFrom.eq_def, Cache.lookFrom.eq_def cache start here]
    dsimp only
    split
    · rfl
    · split
      · rfl
      · split
        · rfl
        · next node _ =>
          rw [ih, List.append_assoc]
          rfl

/-- What is seen depends on what stands at the beginnings of the path alone. -/
theorem Cache.lookFrom_congr {cache other : Cache} {start path : CachePath} {here : Node}
    (h : ∀ front, front <+: path → front ≠ [] →
      other.node? (start ++ front) = cache.node? (start ++ front)) :
    other.lookFrom start here path = cache.lookFrom start here path := by
  induction path generalizing start here with
  | nil => rfl
  | cons name path ih =>
    have hname : other.node? (start ++ [name]) = cache.node? (start ++ [name]) :=
      h [name] (List.prefix_append [name] path) (List.cons_ne_nil _ _)
    cases here with
    | file content => rfl
    | folder =>
      rw [Cache.lookFrom, Cache.lookFrom, hname]
      split
      · rfl
      · split
        · rfl
        · refine ih fun front hfront _ => ?_
          rw [List.append_assoc]
          exact h (name :: front) (List.cons_prefix_cons.2 ⟨rfl, hfront⟩) (List.cons_ne_nil _ _)

theorem Cache.look_congr {cache other : Cache} {path : CachePath}
    (h : ∀ front, front <+: path → front ≠ [] → other.node? front = cache.node? front) :
    other.look path = cache.look path := by
  unfold Cache.look
  split
  · rfl
  · exact Cache.lookFrom_congr h

/-! ## Making folders -/

/-- A folder is made only where there is nothing, so that no file changes. -/
theorem Cache.read?_makeFoldersFrom (path start rest : CachePath) (cache : Cache) :
    (Cache.makeFoldersFrom start rest cache).1.read? path = cache.read? path := by
  induction rest generalizing start cache with
  | nil => rfl
  | cons name rest ih =>
    rw [Cache.makeFoldersFrom]
    split
    · rfl
    · split
      · exact ih _ _
      · rfl
      · next hnone =>
        -- the folder is made where nothing stood, and neither has a content
        rw [ih]
        by_cases hpath : path = start ++ [name]
        · rw [hpath, Cache.read?, Cache.read?, hnone, Cache.put, Cache.node?]
          rw [OrderedMap.find?_insert_self]
          rfl
        · exact Cache.read?_put_of_ne hpath cache .folder

theorem Cache.read?_makeFolder (cache : Cache) (folder path : CachePath) :
    (cache.makeFolder folder).1.read? path = cache.read? path := by
  unfold Cache.makeFolder
  split
  · rfl
  · exact Cache.read?_makeFoldersFrom _ _ _ _

/-- What stands somewhere stays there. -/
theorem Cache.node?_makeFoldersFrom_of_some {path start rest : CachePath} {cache : Cache}
    {node : Node} (h : cache.node? path = some node) :
    (Cache.makeFoldersFrom start rest cache).1.node? path = some node := by
  induction rest generalizing start cache with
  | nil => exact h
  | cons name rest ih =>
    rw [Cache.makeFoldersFrom]
    split
    · exact h
    · split
      · exact ih h
      · exact h
      · next hnone =>
        refine ih ?_
        rw [Cache.node?_put_of_ne ?_ cache, h]
        rintro rfl
        rw [hnone] at h
        cases h

/-- Nothing changes beside the way to a folder that is made. -/
theorem Cache.node?_makeFoldersFrom_of_ne {path start rest : CachePath} {cache : Cache}
    (h : ∀ front, front <+: rest → front ≠ [] → path ≠ start ++ front) :
    (Cache.makeFoldersFrom start rest cache).1.node? path = cache.node? path := by
  induction rest generalizing start cache with
  | nil => rfl
  | cons name rest ih =>
    have hname : path ≠ start ++ [name] :=
      h [name] (List.prefix_append [name] rest) (List.cons_ne_nil _ _)
    have hrest : ∀ front, front <+: rest → front ≠ [] → path ≠ start ++ [name] ++ front := by
      intro front hfront _
      rw [List.append_assoc]
      exact h (name :: front) (List.cons_prefix_cons.2 ⟨rfl, hfront⟩) (List.cons_ne_nil _ _)
    rw [Cache.makeFoldersFrom]
    split
    · rfl
    · split
      · exact ih hrest
      · rfl
      · rw [ih hrest, Cache.node?_put_of_ne hname]

theorem Cache.node?_makeFolder_of_ne {path folder : CachePath} {cache : Cache}
    (h : ∀ front, front <+: folder → front ≠ [] → path ≠ front) :
    (cache.makeFolder folder).1.node? path = cache.node? path := by
  unfold Cache.makeFolder
  split
  · rfl
  · exact Cache.node?_makeFoldersFrom_of_ne h

theorem Cache.lookFrom_of_makeFoldersFrom {start rest : CachePath} {cache made : Cache}
    (h : Cache.makeFoldersFrom start rest cache = (made, .ok ())) :
    made.lookFrom start .folder rest = .ok (some .folder) := by
  induction rest generalizing start cache with
  | nil => rfl
  | cons name rest ih =>
    have hkept : ∀ {before : Cache}, before.node? (start ++ [name]) = some .folder →
        Cache.makeFoldersFrom (start ++ [name]) rest before = (made, .ok ()) →
          made.node? (start ++ [name]) = some .folder := by
      intro before hnode hmade
      have hstays : (Cache.makeFoldersFrom (start ++ [name]) rest before).1.node?
          (start ++ [name]) = some .folder := Cache.node?_makeFoldersFrom_of_some hnode
      rwa [hmade] at hstays
    rw [Cache.makeFoldersFrom] at h
    rw [Cache.lookFrom]
    split at h
    · cases h
    · next hlength =>
      rw [if_neg hlength]
      split at h
      · next hnode =>
        rw [hkept hnode h]
        exact ih h
      · cases h
      · have hnode : (cache.put (start ++ [name]) .folder).node? (start ++ [name]) =
            some .folder := OrderedMap.find?_insert_self _ _ _
        rw [hkept hnode h]
        exact ih h

/-- A folder that has been made is seen. -/
theorem Cache.look_of_makeFolder {cache made : Cache} {folder : CachePath}
    (h : cache.makeFolder folder = (made, .ok ())) : made.look folder = .ok (some .folder) := by
  unfold Cache.makeFolder at h
  unfold Cache.look
  split at h
  · cases h
  · exact Cache.lookFrom_of_makeFoldersFrom h

/-- What is seen at the end of a path stands there. -/
theorem Cache.node?_of_lookFrom {cache : Cache} {start path : CachePath} {here node : Node}
    (hpath : path ≠ []) (h : cache.lookFrom start here path = .ok (some node)) :
    cache.node? (start ++ path) = some node := by
  induction path generalizing start here with
  | nil => exact absurd rfl hpath
  | cons name path ih =>
    rw [Cache.lookFrom.eq_def] at h
    dsimp only at h
    split at h
    · cases h
    · split at h
      · cases h
      · split at h
        · cases h
        · next seen hseen =>
          cases path with
          | nil =>
            cases h
            exact hseen
          | cons next path =>
            have hnode := ih (List.cons_ne_nil _ _) h
            rwa [List.append_assoc, List.singleton_append] at hnode

/-- A folder that is seen is there. -/
theorem Cache.hasFolder_of_look {cache : Cache} {folder : CachePath}
    (h : cache.look folder = .ok (some .folder)) : cache.hasFolder folder = true := by
  unfold Cache.look at h
  split at h
  · cases h
  · cases folder with
    | nil => rfl
    | cons name folder =>
      have hnode := Cache.node?_of_lookFrom (List.cons_ne_nil _ _) h
      rw [List.nil_append] at hnode
      rw [Cache.hasFolder, hnode]
      rfl

/-! ## Files in one folder -/

/-- The cache with some files put into a folder, one after the other. -/
def Cache.putFiles (cache : Cache) (folder : CachePath) (files : List (String × ByteArray)) :
    Cache :=
  files.foldl (fun cache file => cache.put (folder ++ [file.1]) (.file file.2)) cache

theorem Cache.putFiles_append (cache : Cache) (folder : CachePath)
    (files more : List (String × ByteArray)) :
    cache.putFiles folder (files ++ more) = (cache.putFiles folder files).putFiles folder more :=
  List.foldl_append

theorem Cache.node?_putFiles_of_ne {path folder : CachePath} {files : List (String × ByteArray)}
    (h : ∀ file ∈ files, path ≠ folder ++ [file.1]) (cache : Cache) :
    (cache.putFiles folder files).node? path = cache.node? path := by
  induction files generalizing cache with
  | nil => rfl
  | cons file files ih =>
    obtain ⟨hfile, hrest⟩ := List.forall_mem_cons.1 h
    exact (ih hrest _).trans (Cache.node?_put_of_ne hfile cache _)

theorem Cache.read?_putFiles_of_ne {path folder : CachePath} {files : List (String × ByteArray)}
    (h : ∀ file ∈ files, path ≠ folder ++ [file.1]) (cache : Cache) :
    (cache.putFiles folder files).read? path = cache.read? path := by
  rw [Cache.read?, Cache.node?_putFiles_of_ne h]
  rfl

/-- Of the files with one name the last one stays. -/
theorem Cache.node?_putFiles_of_last {folder : CachePath} {files : List (String × ByteArray)}
    {name : String} {content : ByteArray}
    (h : files.reverse.find? (·.1 == name) = some (name, content)) (cache : Cache) :
    (cache.putFiles folder files).node? (folder ++ [name]) = some (.file content) := by
  obtain ⟨_, behind, front, hsplit, hbehind⟩ := List.find?_eq_some_iff_append.1 h
  have hfiles : files = (front.reverse ++ [(name, content)]) ++ behind.reverse := by
    rw [← List.reverse_reverse files, hsplit]
    simp
  rw [hfiles, Cache.putFiles_append, Cache.node?_putFiles_of_ne, Cache.putFiles_append]
  · exact OrderedMap.find?_insert_self _ _ _
  · intro other hother heq
    have hname := List.singleton_inj.1 (List.append_cancel_left heq)
    have hne := hbehind other (List.mem_reverse.1 hother)
    simp [hname] at hne

/-- A folder is still seen when files have been put into it. -/
theorem Cache.look_putFiles (cache : Cache) (folder : CachePath)
    (files : List (String × ByteArray)) :
    (cache.putFiles folder files).look folder = cache.look folder := by
  refine Cache.look_congr fun front hfront _ =>
    Cache.node?_putFiles_of_ne (fun file _ heq => ?_) cache
  have hlength := hfront.length_le
  rw [heq, List.length_append, List.length_singleton] at hlength
  omega

/-- Whether a name can be that of a file in a folder that there is. -/
def AcceptsName (folder : CachePath) (name : String) : Prop :=
  pathFault? (folder ++ [name]) = none ∧ name.utf8ByteSize ≤ nameLimit

/-- What is seen in a folder that there is. -/
theorem Cache.look_entry {cache : Cache} {folder : CachePath}
    (hfolder : cache.look folder = .ok (some .folder)) (name : String) :
    cache.look (folder ++ [name]) =
      match pathFault? (folder ++ [name]) with
      | some e => .error e
      | none =>
        if nameLimit < name.utf8ByteSize then .error .nameTooLong
        else .ok (cache.node? (folder ++ [name])) := by
  have hfrom : cache.lookFrom [] .folder folder = .ok (some .folder) := by
    unfold Cache.look at hfolder
    split at hfolder
    · cases hfolder
    · exact hfolder
  unfold Cache.look
  cases pathFault? (folder ++ [name]) with
  | some e => rfl
  | none =>
    rw [Cache.lookFrom_append, hfrom]
    change cache.lookFrom folder .folder [name] = _
    rw [Cache.lookFrom]
    cases cache.node? (folder ++ [name]) <;> rfl

/-- A file is saved in place of a file or of nothing that is seen. -/
theorem Cache.exists_look_of_save {cache saved : Cache} {path : CachePath} {content : ByteArray}
    (h : cache.save path content = .ok saved) :
    ∃ node, cache.look path = .ok node ∧ node ≠ some .folder := by
  unfold Cache.save at h
  split at h
  · cases h
  · cases h
  · next hlook => exact ⟨_, hlook, nofun⟩
  · next hlook => exact ⟨_, hlook, nofun⟩

/-! ## Names that a folder takes -/

/-- Whether a folder takes a file under some name: the name can be one there, and no folder has
it. -/
structure Cache.Accepts (cache : Cache) (folder : CachePath) (name : String) : Prop where
  accepted : AcceptsName folder name
  free : cache.node? (folder ++ [name]) ≠ some .folder

section

variable {cache : Cache} {folder : CachePath} {name : String}
  (hfolder : cache.look folder = .ok (some .folder))

include hfolder

/-- A folder takes a name under which no folder is seen in it. -/
theorem Cache.accepts_iff_look : cache.Accepts folder name ↔
    ∃ node, cache.look (folder ++ [name]) = .ok node ∧ node ≠ some .folder := by
  rw [Cache.look_entry hfolder]
  constructor
  · rintro ⟨⟨hfault, hlength⟩, hfree⟩
    exact ⟨_, by rw [hfault]; exact if_neg (Nat.not_lt.2 hlength), hfree⟩
  · rintro ⟨node, hlook, hfree⟩
    split at hlook
    · cases hlook
    · next hfault =>
      split at hlook
      · cases hlook
      · next hlength =>
        cases hlook
        exact ⟨⟨hfault, Nat.not_lt.1 hlength⟩, hfree⟩

theorem Cache.save_of_accepts (h : cache.Accepts folder name) (content : ByteArray) :
    cache.save (folder ++ [name]) content = .ok (cache.put (folder ++ [name]) (.file content)) := by
  obtain ⟨node, hlook, hfree⟩ := (Cache.accepts_iff_look hfolder).1 h
  rw [Cache.save, hlook, List.dropLast_concat, Cache.hasFolder_of_look hfolder]
  cases node with
  | none => rfl
  | some node =>
    cases node with
    | folder => exact absurd rfl hfree
    | file content => rfl

/-- A file is saved in a folder exactly under the names that the folder takes. -/
theorem Cache.save_eq_ok_iff {content : ByteArray} {saved : Cache} :
    cache.save (folder ++ [name]) content = .ok saved ↔
      cache.Accepts folder name ∧ saved = cache.put (folder ++ [name]) (.file content) := by
  constructor
  · intro h
    exact ⟨(Cache.accepts_iff_look hfolder).2 (Cache.exists_look_of_save h),
      Cache.eq_put_of_save h⟩
  · rintro ⟨haccepts, rfl⟩
    exact Cache.save_of_accepts hfolder haccepts content

theorem Cache.look_put_entry (name : String) (content : ByteArray) :
    (cache.put (folder ++ [name]) (.file content)).look folder = .ok (some .folder) :=
  (cache.look_putFiles folder [(name, content)]).trans hfolder

end

/-- Putting a file under a name that a folder takes changes none of the names that it takes. -/
theorem Cache.accepts_put_iff {cache : Cache} {folder : CachePath} {name : String}
    (h : cache.Accepts folder name) (content : ByteArray) (next : String) :
    (cache.put (folder ++ [name]) (.file content)).Accepts folder next ↔
      cache.Accepts folder next := by
  by_cases hname : next = name
  · subst hname
    refine iff_of_true ⟨h.accepted, fun hnode => ?_⟩ h
    rw [Cache.node?, Cache.put, OrderedMap.find?_insert_self] at hnode
    cases hnode
  · have hpath : folder ++ [next] ≠ folder ++ [name] := fun heq =>
      hname (List.singleton_inj.1 (List.append_cancel_left heq))
    have hnode : (cache.put (folder ++ [name]) (.file content)).node? (folder ++ [next]) =
        cache.node? (folder ++ [next]) := Cache.node?_put_of_ne hpath cache _
    constructor
    · rintro ⟨haccepted, hfree⟩
      exact ⟨haccepted, hnode ▸ hfree⟩
    · rintro ⟨haccepted, hfree⟩
      exact ⟨haccepted, hnode.symm ▸ hfree⟩

/-! ## Saving aside -/

theorem Cache.node?_remove_of_ne {path other : CachePath} (h : other ≠ path) (cache : Cache) :
    (cache.remove path).node? other = cache.node? other := by
  obtain ⟨nodes⟩ := cache
  unfold Cache.remove Cache.node?
  dsimp only
  induction nodes with
  | nil => rfl
  | cons entry nodes ih =>
    rw [List.filter_cons]
    split
    · rw [OrderedMap.find?, OrderedMap.find?, ih]
    · next hout =>
      have hpath : entry.1 = path := by
        simp only [Bool.or_eq_true, bne_iff_ne, not_or] at hout
        exact Decidable.not_not.1 hout.1
      have hother : (entry.1 == other) = false := by
        rw [hpath]
        exact beq_false_of_ne h.symm
      rw [ih, OrderedMap.find?, hother]
      rfl

/-- Saving aside fails with nothing done or with the file left aside, or moves it to its place. -/
theorem Cache.saveAside_cases (cache : Cache) (aside path : CachePath) (content : ByteArray) :
    (∃ e, cache.saveAside aside path content = (cache, .error e)) ∨
      (∃ e, cache.saveAside aside path content = (cache.put aside (.file content), .error e)) ∨
        cache.saveAside aside path content =
          (((cache.put aside (.file content)).remove aside).put path (.file content), .ok ()) := by
  unfold Cache.saveAside
  split
  · next e _ => exact .inl ⟨e, rfl⟩
  · next written hsave =>
    rw [Cache.eq_put_of_save hsave]
    split
    · next e _ => exact .inr (.inl ⟨e, rfl⟩)
    · exact .inr (.inl ⟨.folderInTheWay, rfl⟩)
    · exact .inr (.inr rfl)

/-- Only the two places change. -/
theorem Cache.node?_moved_of_ne {aside path other : CachePath} (haside : other ≠ aside)
    (hpath : other ≠ path) (cache : Cache) (node moved : Node) :
    (((cache.put aside node).remove aside).put path moved).node? other = cache.node? other := by
  rw [Cache.node?_put_of_ne hpath, Cache.node?_remove_of_ne haside, Cache.node?_put_of_ne haside]

/-! ## Seeing files in a folder -/

/-- A file under an accepted name is seen. -/
theorem Cache.look_file {cache : Cache} {folder : CachePath} {name : String} {content : ByteArray}
    (hfolder : cache.look folder = .ok (some .folder)) (hname : AcceptsName folder name)
    (hfile : cache.node? (folder ++ [name]) = some (.file content)) :
    cache.look (folder ++ [name]) = .ok (some (.file content)) := by
  rw [Cache.look_entry hfolder, hname.1, hfile]
  exact if_neg (Nat.not_lt.2 hname.2)

end ModAlmanac
