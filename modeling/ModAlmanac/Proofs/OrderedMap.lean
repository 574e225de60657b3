import ModAlmanac.Proofs.TextKeys

/-!
# Maps made from records

A map is told by its keys in order and by what it holds under each (`eq_filterMap_find?`). Records
put into it one after the other leave the last value under each key when later ones win
(`find?_union`), the first one when they do not (`find?_foldl_insertNew`), and the keys in the order
of their first records in both cases (`keys_foldl`). Values that are replaced while the map is gone
through are replaced each by itself (`updateEach_eq_map`).
-/

namespace ModAlmanac.OrderedMap

variable {κ ν : Type} [BEq κ]

theorem find?_append (key : κ) (entries others : List (κ × ν)) :
    find? key (entries ++ others) = (find? key entries).or (find? key others) := by
  induction entries with
  | nil => rfl
  | cons e entries ih =>
    rw [List.cons_append, find?, find?]
    split
    · rfl
    · exact ih

theorem insert_map {μ : Type} (f : ν → μ) (key : κ) (value : ν) (entries : List (κ × ν)) :
    (insert key value entries).map (fun e => (e.1, f e.2)) =
      insert key (f value) (entries.map fun e => (e.1, f e.2)) := by
  induction entries with
  | nil => rfl
  | cons e entries ih =>
    rw [insert, List.map_cons, insert]
    split
    · rfl
    · rw [List.map_cons, ih]

/-- Values can be mapped before maps are put together or behind it. -/
theorem union_map {μ : Type} (f : ν → μ) (entries others : List (κ × ν)) :
    (union entries others).map (fun e => (e.1, f e.2)) =
      union (entries.map fun e => (e.1, f e.2)) (others.map fun e => (e.1, f e.2)) := by
  induction others generalizing entries with
  | nil => rfl
  | cons e others ih =>
    rw [union_cons, ih, insert_map]
    rfl

theorem isSome_find?_of_any {key : κ} {entries : List (κ × ν)}
    (h : (entries.any (·.1 == key)) = true) : (find? key entries).isSome = true := by
  induction entries with
  | nil => cases h
  | cons e entries ih =>
    rw [find?]
    split
    · rfl
    · next hne =>
      rw [List.any_cons, Bool.eq_false_iff.2 hne, Bool.false_or] at h
      exact ih h

theorem distinct_foldl_insertNew {entries : List (κ × ν)} (h : Distinct entries)
    (records : List (κ × ν)) :
    Distinct (records.foldl (fun m r => insertNew r.1 r.2 m) entries) := by
  induction records generalizing entries with
  | nil => exact h
  | cons r records ih => exact ih (distinct_insertNew h r.1 r.2)

/-! ## Sharp keys -/

/-- Whether no other key counts as the same. -/
structure Sharp (key : κ) : Prop where
  left : ∀ k, (k == key) = true ↔ k = key
  right : ∀ k, (key == k) = true ↔ key = k

section

variable {key : κ} (hkey : Sharp key)

include hkey

theorem find?_insert_of_sharp (k : κ) (value : ν) (entries : List (κ × ν)) :
    find? key (insert k value entries) = if k == key then some value else find? key entries := by
  induction entries with
  | nil => rfl
  | cons e entries ih =>
    -- the same key as both the inserted one and the one that is looked for makes these two equal
    have hboth : (e.1 == key) = true → (e.1 == k) = (k == key) := by
      intro he
      rw [(hkey.left e.1).1 he, Bool.eq_iff_iff, hkey.right, hkey.left]
      exact eq_comm
    rw [insert]
    cases he : e.1 == key with
    | true =>
      rw [hboth he]
      split
      · rw [find?, he, if_pos rfl]
      · rw [find?, he, if_pos rfl, find?, he, if_pos rfl]
    | false =>
      cases hk : e.1 == k with
      | true =>
        have hne : (k == key) = false := by
          rw [Bool.eq_false_iff]
          intro h
          rw [(hkey.left k).1 h, he] at hk
          cases hk
        rw [if_pos rfl, find?, he, hne, if_neg Bool.false_ne_true, if_neg Bool.false_ne_true, find?,
          he, if_neg Bool.false_ne_true]
      | false =>
        rw [if_neg Bool.false_ne_true, find?, he, if_neg Bool.false_ne_true, ih, find?, he,
          if_neg Bool.false_ne_true]

/-- The last value under a sharp key wins. -/
theorem find?_union_of_sharp (entries others : List (κ × ν)) :
    find? key (union entries others) =
      ((others.filter (·.1 == key)).getLast?.map (·.2)).or (find? key entries) := by
  induction others generalizing entries with
  | nil => rfl
  | cons e others ih =>
    rw [union_cons, ih, find?_insert_of_sharp hkey]
    cases he : e.1 == key with
    | true =>
      rw [List.filter_cons, if_pos he, List.getLast?_cons, if_pos rfl]
      cases (others.filter fun r => r.1 == key).getLast? <;> rfl
    | false => rw [if_neg Bool.false_ne_true, List.filter_cons, if_neg (by simp [he])]

/-- What all entries under a sharp key agree on is found there. -/
theorem find?_ofList_of_forall {value : ν} {pairs : List (κ × ν)} (hmem : (key, value) ∈ pairs)
    (h : ∀ e ∈ pairs, e.1 = key → e.2 = value) : find? key (ofList pairs) = some value := by
  have hfilter : (key, value) ∈ pairs.filter (·.1 == key) :=
    List.mem_filter.2 ⟨hmem, (hkey.left key).2 rfl⟩
  obtain ⟨last, hlast⟩ : ∃ last, (pairs.filter (·.1 == key)).getLast? = some last :=
    ⟨_, List.getLast?_eq_some_getLast (List.ne_nil_of_mem hfilter)⟩
  obtain ⟨hlastMem, hlastKey⟩ := List.mem_filter.1 (List.mem_of_getLast? hlast)
  have hfound := find?_union_of_sharp hkey [] pairs
  rw [hlast, Option.map_some, h last hlastMem ((hkey.left last.1).1 hlastKey)] at hfound
  exact hfound

theorem find?_ofList_eq_none {pairs : List (κ × ν)} (h : ∀ e ∈ pairs, e.1 ≠ key) :
    find? key (ofList pairs) = none := by
  have hfilter : pairs.filter (·.1 == key) = [] :=
    List.filter_eq_nil_iff.2 fun e he hsame => h e he ((hkey.left e.1).1 hsame)
  have hfound := find?_union_of_sharp hkey [] pairs
  rw [hfilter] at hfound
  exact hfound

end

/-- An entry that is the only one of its kind among some pairs is so in their map. -/
theorem only_ofList {p : κ → Prop} {entry : κ × ν} (hkey : ∀ k, (entry.1 == k) = true → p k)
    {pairs : List (κ × ν)} (h : ∀ e ∈ pairs, p e.1 → e = entry) :
    ∀ e ∈ ofList pairs, p e.1 → e = entry := by
  have hunion : ∀ {entries : List (κ × ν)}, (∀ e ∈ entries, p e.1 → e = entry) →
      ∀ e ∈ union entries pairs, p e.1 → e = entry := by
    induction pairs with
    | nil => exact fun hentries => hentries
    | cons first pairs ih =>
      obtain ⟨hfirst, hrest⟩ := List.forall_mem_cons.1 h
      intro entries hentries
      refine ih hrest (forall_mem_insert_of_same (R := fun k w => p k → (k, w) = entry) hentries
        hfirst fun k old hold hsame hk => ?_)
      -- the old entry is the one in question, and so is the new one
      obtain rfl : (k, old) = entry := hold hk
      exact congrArg (fun e : κ × ν => (k, e.2)) (hfirst (hkey first.1 hsame))
  exact hunion fun _ he => absurd he List.not_mem_nil

/-! ## Parts of maps -/

section

variable {p : κ → Bool}

/-- Of the entries that are kept, an insertion under a key that is not kept changes none. -/
theorem filter_insert_of_not {key : κ} {entries : List (κ × ν)} (hkey : p key = false)
    (hsame : ∀ e ∈ entries, (e.1 == key) = true → p e.1 = false) (value : ν) :
    (insert key value entries).filter (fun e => p e.1) = entries.filter fun e => p e.1 := by
  induction entries with
  | nil => rw [insert, List.filter_cons, if_neg (by simp [hkey])]
  | cons e entries ih =>
    obtain ⟨he, hrest⟩ := List.forall_mem_cons.1 hsame
    rw [insert]
    split
    · next heq =>
      rw [List.filter_cons, List.filter_cons, he heq]
      rfl
    · rw [List.filter_cons, List.filter_cons, ih hrest]

/-- An insertion under a key that is kept can come before or behind. -/
theorem filter_insert {key : κ} {entries : List (κ × ν)} (hkey : p key = true)
    (hsame : ∀ e ∈ entries, (e.1 == key) = true → p e.1 = true) (value : ν) :
    (insert key value entries).filter (fun e => p e.1) =
      insert key value (entries.filter fun e => p e.1) := by
  induction entries with
  | nil => rw [insert, List.filter_cons, if_pos hkey]; rfl
  | cons e entries ih =>
    obtain ⟨he, hrest⟩ := List.forall_mem_cons.1 hsame
    rw [insert]
    split
    · next heq =>
      rw [List.filter_cons, List.filter_cons, he heq, if_pos rfl, if_pos rfl, insert, if_pos heq]
    · next hne =>
      rw [List.filter_cons, List.filter_cons, ih hrest]
      split
      · rw [insert, if_neg hne]
      · rfl

/-- Entries can be taken out of a map before it is made or behind it, if keys that count as the same
are taken out together. -/
theorem filter_ofList (hp : ∀ k k', (k == k') = true → p k = p k') (pairs : List (κ × ν)) :
    (ofList pairs).filter (fun e => p e.1) = ofList (pairs.filter fun e => p e.1) := by
  have hunion : ∀ entries : List (κ × ν), (union entries pairs).filter (fun e => p e.1) =
      union (entries.filter fun e => p e.1) (pairs.filter fun e => p e.1) := by
    induction pairs with
    | nil => exact fun _ => rfl
    | cons e pairs ih =>
      intro entries
      rw [union_cons, ih, List.filter_cons]
      cases he : p e.1 with
      | true =>
        rw [filter_insert he (fun old _ hsame => by rw [hp _ _ hsame, he]), if_pos rfl]
        rfl
      | false =>
        rw [filter_insert_of_not he (fun old _ hsame => by rw [hp _ _ hsame, he]),
          if_neg Bool.false_ne_true]
  exact hunion []

section

variable {key : κ} {value : ν}

/-- The entries that are put into a map behind the one under a key leave that one alone. -/
theorem filter_union_of_ne {entries others : List (κ × ν)}
    (hentries : ∀ e ∈ entries, p e.1 = false → e.1 = key)
    (hothers : ∀ e ∈ others, p e.1 = true ∧ (key == e.1) = false) :
    (union entries others).filter (fun e => p e.1) = union (entries.filter fun e => p e.1) others ∧
      (union entries others).filter (fun e => !p e.1) = entries.filter fun e => !p e.1 := by
  induction others generalizing entries with
  | nil => exact ⟨rfl, rfl⟩
  | cons e others ih =>
    obtain ⟨⟨hkept, hne⟩, hrest⟩ := List.forall_mem_cons.1 hothers
    have hsame : ∀ old ∈ entries, (old.1 == e.1) = true → p old.1 = true := by
      intro old hold heq
      by_contra hnot
      rw [hentries old hold (Bool.eq_false_iff.2 hnot), hne] at heq
      cases heq
    have hnext : ∀ old ∈ insert e.1 e.2 entries, p old.1 = false → old.1 = key := fun old hold =>
      (forall_mem_insert (P := fun k => p k = false → k = key) (Q := fun _ : ν => True)
        (fun old hold => ⟨hentries old hold, trivial⟩)
        (fun hnot => absurd (hkept.symm.trans hnot).symm Bool.false_ne_true) trivial old hold).1
    obtain ⟨hfilter, hrestFilter⟩ := ih hnext hrest
    rw [filter_insert hkept hsame] at hfilter
    rw [filter_insert_of_not (p := fun k => !p k) (by rw [hkept]; rfl)
      (fun old hold heq => by rw [hsame old hold heq]; rfl)] at hrestFilter
    rw [union_cons]
    exact ⟨hfilter, hrestFilter⟩

/-- An entry whose key is new among those in front of it and not used behind it is a part of the map
of its own. -/
theorem filter_ofList_among {front behind : List (κ × ν)} (hkey : p key = false)
    (hfront : ∀ e ∈ front, p e.1 = true ∧ (e.1 == key) = false)
    (hbehind : ∀ e ∈ behind, p e.1 = true ∧ (key == e.1) = false) :
    (ofList (front ++ (key, value) :: behind)).filter (fun e => p e.1) = ofList (front ++ behind) ∧
      (ofList (front ++ (key, value) :: behind)).filter (fun e => !p e.1) = [(key, value)] := by
  have hmap : ∀ e ∈ ofList front, p e.1 = true ∧ (e.1 == key) = false := fun e he =>
    (forall_mem_ofList (P := fun k => p k = true ∧ (k == key) = false) (Q := fun _ : ν => True)
      (fun e he => ⟨hfront e he, trivial⟩) e he).1
  have hinsert := insert_of_forall_ne (fun e he => (hmap e he).2) value
  have hofList : ofList (front ++ (key, value) :: behind) =
      union (ofList front ++ [(key, value)]) behind := by
    rw [← hinsert]
    simp [ofList, union]
  have hwithout : ofList (front ++ behind) = union (ofList front) behind := by
    simp [ofList, union]
  have hentries : ∀ e ∈ ofList front ++ [(key, value)], p e.1 = false → e.1 = key := by
    intro e he hnot
    rcases List.mem_append.1 he with he | he
    · exact absurd ((hmap e he).1.symm.trans hnot).symm Bool.false_ne_true
    · rw [List.mem_singleton.1 he]
  obtain ⟨hkept, htaken⟩ := filter_union_of_ne hentries hbehind
  have hall : (ofList front).filter (fun e => p e.1) = ofList front :=
    List.filter_eq_self.2 fun e he => (hmap e he).1
  have hnone : (ofList front).filter (fun e => !p e.1) = [] :=
    List.filter_eq_nil_iff.2 fun e he => by simp [(hmap e he).1]
  rw [hofList, hkept, htaken, hwithout, List.filter_append, List.filter_append, hall, hnone]
  simp [hkey]

end

end

variable [LawfulBEq κ]

theorem sharp_of_lawful (key : κ) : Sharp key where
  left _ := beq_iff_eq
  right _ := beq_iff_eq

/-- A map holds under each of its keys what it finds there. -/
theorem eq_filterMap_find? {entries : List (κ × ν)} (h : Distinct entries) :
    entries = (entries.map (·.1)).filterMap fun key => (find? key entries).map (key, ·) := by
  induction entries with
  | nil => rfl
  | cons e entries ih =>
    obtain ⟨hfirst, hrest⟩ := List.pairwise_cons.1 h
    have htail : ∀ key ∈ entries.map (·.1), find? key (e :: entries) = find? key entries := by
      intro key hkey
      obtain ⟨other, hother, rfl⟩ := List.mem_map.1 hkey
      rw [find?, hfirst other hother, if_neg Bool.false_ne_true]
    have hhead : find? e.1 (e :: entries) = some e.2 := by rw [find?, beq_self_eq_true, if_pos rfl]
    rw [List.map_cons, List.filterMap_cons, hhead]
    dsimp only [Option.map_some]
    rw [List.filterMap_congr fun key hkey => by rw [htail key hkey], ← ih hrest]

/-! ## Keys -/

/-- The keys of the records are added in the order in which they come first. -/
theorem keys_foldl {add : List (κ × ν) → κ × ν → List (κ × ν)}
    (hadd : ∀ entries e, (add entries e).map (·.1) =
      if e.1 ∈ entries.map (·.1) then entries.map (·.1) else entries.map (·.1) ++ [e.1])
    (records : List (κ × ν)) {entries : List (κ × ν)} {front : List κ}
    (h : entries.map (·.1) = front.eraseDups) :
    (records.foldl add entries).map (·.1) = (front ++ records.map (·.1)).eraseDups := by
  induction records generalizing entries front with
  | nil => rw [List.map_nil, List.append_nil, List.foldl_nil, h]
  | cons r records ih =>
    have hstep : (add entries r).map (·.1) = (front ++ [r.1]).eraseDups := by
      rw [hadd, h, List.eraseDups_append]
      by_cases hmem : r.1 ∈ front
      · simp [List.removeAll, hmem]
      · simp [List.removeAll, hmem, List.eraseDups_cons]
    rw [List.foldl_cons, ih hstep, List.map_cons, ← List.append_cons]

theorem keys_insertNew (key : κ) (value : ν) (entries : List (κ × ν)) :
    (insertNew key value entries).map (·.1) =
      if key ∈ entries.map (·.1) then entries.map (·.1) else entries.map (·.1) ++ [key] := by
  have hany : (entries.any fun e => e.1 == key) = decide (key ∈ entries.map (·.1)) := by
    rw [Bool.eq_iff_iff, List.any_eq_true, decide_eq_true_iff, List.mem_map]
    simp only [beq_iff_eq]
  unfold insertNew
  rw [hany]
  by_cases h : key ∈ entries.map (·.1) <;> simp [h]

/-! ## Values -/

theorem find?_union (key : κ) (entries others : List (κ × ν)) :
    find? key (union entries others) =
      ((others.filter (·.1 == key)).getLast?.map (·.2)).or (find? key entries) :=
  find?_union_of_sharp (sharp_of_lawful key) entries others

/-- Of a map that has no key twice every value wins. -/
theorem find?_union_of_distinct {others : List (κ × ν)} (h : Distinct others) (key : κ)
    (entries : List (κ × ν)) :
    find? key (union entries others) = (find? key others).or (find? key entries) := by
  rw [find?_union]
  congr 1
  induction others with
  | nil => rfl
  | cons e others ih =>
    obtain ⟨hfirst, hrest⟩ := List.pairwise_cons.1 h
    rw [find?]
    cases he : e.1 == key with
    | true =>
      have hothers : others.filter (·.1 == key) = [] := by
        refine List.filter_eq_nil_iff.2 fun r hr => ?_
        rw [← eq_of_beq he, BEq.comm, hfirst r hr]
        exact Bool.false_ne_true
      rw [List.filter_cons, if_pos he, hothers]
      rfl
    | false => rw [List.filter_cons, if_neg (by simp [he]), ih hrest, if_neg Bool.false_ne_true]

theorem find?_insertNew (key other : κ) (value : ν) (entries : List (κ × ν)) :
    find? other (insertNew key value entries) =
      (find? other entries).or (if key == other then some value else none) := by
  unfold insertNew
  split
  · next hany =>
    split
    · next heq =>
      rw [eq_of_beq heq] at hany
      obtain ⟨found, hfound⟩ := Option.isSome_iff_exists.1 (isSome_find?_of_any hany)
      rw [hfound, Option.some_or]
    · rw [Option.or_none]
  · exact find?_append other entries [(key, value)]

theorem find?_foldl_insertNew (key : κ) (records entries : List (κ × ν)) :
    find? key (records.foldl (fun m r => insertNew r.1 r.2 m) entries) =
      (find? key entries).or ((records.filter (·.1 == key)).head?.map (·.2)) := by
  induction records generalizing entries with
  | nil => simp
  | cons r records ih =>
    rw [List.foldl_cons, ih, find?_insertNew, Option.or_assoc]
    cases hr : r.1 == key with
    | true => rw [List.filter_cons, hr, if_pos rfl, if_pos rfl]; rfl
    | false => rw [List.filter_cons, hr, if_neg Bool.false_ne_true, if_neg Bool.false_ne_true]; rfl

/-! ## Values replaced -/

/-- A value is found in its place if no entry in front has its key. -/
theorem find?_append_cons {key : κ} {front : List (κ × ν)}
    (h : ∀ e ∈ front, (e.1 == key) = false) (value : ν) (behind : List (κ × ν)) :
    find? key (front ++ (key, value) :: behind) = some value := by
  induction front with
  | nil => exact if_pos BEq.rfl
  | cons e front ih =>
    obtain ⟨he, hfront⟩ := List.forall_mem_cons.1 h
    rw [List.cons_append, find?, he, if_neg Bool.false_ne_true, ih hfront]

theorem insert_append_cons {key : κ} {front : List (κ × ν)}
    (h : ∀ e ∈ front, (e.1 == key) = false) (old value : ν) (behind : List (κ × ν)) :
    insert key value (front ++ (key, old) :: behind) = front ++ (key, value) :: behind := by
  induction front with
  | nil => exact if_pos BEq.rfl
  | cons e front ih =>
    obtain ⟨he, hfront⟩ := List.forall_mem_cons.1 h
    rw [List.cons_append, insert, he, if_neg Bool.false_ne_true, ih hfront, List.cons_append]

theorem updateAt_append_cons (f : ν → Option ν) {key : κ} {front : List (κ × ν)}
    (h : ∀ e ∈ front, (e.1 == key) = false) (old : ν) (behind : List (κ × ν)) :
    updateAt f (front ++ (key, old) :: behind) key =
      front ++ (key, (f old).getD old) :: behind := by
  rw [updateAt, find?_append_cons h, Option.bind_some]
  cases f old with
  | none => rfl
  | some value => exact insert_append_cons h old value behind

/-- What stands under a key when its turn comes is what stood there at first. -/
theorem updateEach_eq_map (f : ν → Option ν) {entries : List (κ × ν)} (h : Distinct entries) :
    updateEach f entries = entries.map fun e => (e.1, (f e.2).getD e.2) := by
  -- with `front` gone through, the loop does the rest and leaves `front` alone
  suffices hgen : ∀ behind front : List (κ × ν), Distinct (front ++ behind) →
      (behind.map (·.1)).foldl (updateAt f) (front ++ behind) =
        front ++ behind.map fun e => (e.1, (f e.2).getD e.2) from hgen entries [] h
  intro behind
  induction behind with
  | nil => exact fun front _ => rfl
  | cons e behind ih =>
    intro front hdistinct
    obtain ⟨key, old⟩ := e
    have hfront : ∀ e ∈ front, (e.1 == key) = false := fun e he =>
      (List.pairwise_append.1 hdistinct).2.2 e he (key, old) List.mem_cons_self
    have hnext : Distinct ((front ++ [(key, (f old).getD old)]) ++ behind) := by
      have hinserted := distinct_insert hdistinct key ((f old).getD old)
      rwa [insert_append_cons hfront, List.append_cons] at hinserted
    rw [List.map_cons, List.foldl_cons, updateAt_append_cons f hfront, List.append_cons,
      ih _ hnext, List.map_cons, List.append_assoc]
    rfl

/-! ## Maps put together -/

theorem insert_insert_self (key : κ) (old value : ν) (entries : List (κ × ν)) :
    insert key value (insert key old entries) = insert key value entries := by
  induction entries with
  | nil => simp [insert]
  | cons e entries ih =>
    rw [insert]
    split
    · next hsame => rw [insert, if_pos hsame, insert, if_pos hsame]
    · next hne => rw [insert, if_neg hne, ih, insert, if_neg hne]

/-- A key that is there stays in its place whatever is inserted under another one. -/
theorem insert_insert_of_mem {key other : κ} (hne : key ≠ other) {entries : List (κ × ν)}
    (hmem : key ∈ entries.map (·.1)) (value otherValue : ν) :
    insert key value (insert other otherValue entries) =
      insert other otherValue (insert key value entries) := by
  induction entries with
  | nil => cases hmem
  | cons e entries ih =>
    by_cases hkey : e.1 = key
    · have hother : (e.1 == other) = false := by rw [hkey]; exact beq_false_of_ne hne
      have hsame : (e.1 == key) = true := by rw [hkey]; exact BEq.rfl
      simp only [insert, hsame, hother, if_true, Bool.false_eq_true, if_false]
    · have htail := (List.mem_cons.1 hmem).resolve_left (Ne.symm hkey)
      have hdiffers : (e.1 == key) = false := beq_false_of_ne hkey
      by_cases hother : e.1 = other
      · have hsame : (e.1 == other) = true := by rw [hother]; exact BEq.rfl
        simp only [insert, hsame, hdiffers, if_true, Bool.false_eq_true, if_false]
      · have hnot : (e.1 == other) = false := beq_false_of_ne hother
        simp only [insert, hnot, hdiffers, Bool.false_eq_true, if_false, ih htail]

theorem mem_keys_insert {key other : κ} {value : ν} {entries : List (κ × ν)} :
    other ∈ (insert key value entries).map (·.1) ↔ other = key ∨ other ∈ entries.map (·.1) := by
  rw [keys_insert]
  split
  · next hmem => exact (or_iff_right_of_imp fun heq => heq ▸ hmem).symm
  · rw [List.mem_append, List.mem_singleton, or_comm]

/-- Entries under other keys can be put in before or behind a value for a key that is there. -/
theorem insert_union_of_mem {key : κ} {entries others : List (κ × ν)}
    (hmem : key ∈ entries.map (·.1)) (hothers : key ∉ others.map (·.1)) (value : ν) :
    insert key value (union entries others) = union (insert key value entries) others := by
  induction others generalizing entries with
  | nil => rfl
  | cons e others ih =>
    obtain ⟨hne, hrest⟩ := not_or.1 (List.mem_cons.not.1 hothers)
    have hstill : key ∈ (insert e.1 e.2 entries).map (·.1) := mem_keys_insert.2 (.inr hmem)
    rw [union_cons, union_cons, ih hstill hrest, insert_insert_of_mem hne hmem]

/-- An insertion can be made in a map or behind the map's own entries. -/
theorem union_insert {others : List (κ × ν)} (h : Distinct others) (entries : List (κ × ν))
    (key : κ) (value : ν) :
    union entries (insert key value others) = insert key value (union entries others) := by
  induction others generalizing entries with
  | nil => rfl
  | cons e others ih =>
    obtain ⟨hfirst, hrest⟩ := List.pairwise_cons.1 h
    rw [insert]
    split
    · next hsame =>
      obtain rfl : e.1 = key := eq_of_beq hsame
      have hnew : e.1 ∉ others.map (·.1) := by
        intro hmem
        obtain ⟨other, hother, heq⟩ := List.mem_map.1 hmem
        have hdiffers := hfirst other hother
        rw [heq, beq_self_eq_true] at hdiffers
        cases hdiffers
      have hthere : e.1 ∈ (insert e.1 e.2 entries).map (·.1) := mem_keys_insert.2 (.inl rfl)
      rw [union_cons, union_cons, insert_union_of_mem hthere hnew, insert_insert_self]
    · rw [union_cons, union_cons, ih hrest]

/-- Putting a map together with the map of some records is putting in the records. -/
theorem union_ofList (entries pairs : List (κ × ν)) :
    union entries (ofList pairs) = union entries pairs := by
  induction pairs using List.reverseRecOn with
  | nil => rfl
  | append_singleton pairs e ih =>
    have hsnoc : ∀ m : List (κ × ν), union m (pairs ++ [e]) = insert e.1 e.2 (union m pairs) :=
      fun m => List.foldl_concat ..
    have hmap : ofList (pairs ++ [e]) = insert e.1 e.2 (ofList pairs) := hsnoc []
    rw [hmap, union_insert (distinct_ofList pairs), ih, hsnoc]

/-- Putting the maps of groups of records together is putting in all of the records. -/
theorem foldl_union_ofList (groups : List (List (κ × ν))) :
    groups.foldl (fun entries pairs => union entries (ofList pairs)) [] = ofList groups.flatten := by
  have hgen : ∀ entries : List (κ × ν), groups.foldl (fun entries pairs =>
      union entries (ofList pairs)) entries = union entries groups.flatten := by
    induction groups with
    | nil => exact fun _ => rfl
    | cons pairs groups ih =>
      intro entries
      rw [List.foldl_cons, ih, union_ofList, List.flatten_cons]
      exact List.foldl_append.symm
  exact hgen []

/-- The keys of the map of some records, in the order in which they come first. -/
theorem keys_ofList (pairs : List (κ × ν)) :
    (ofList pairs).map (·.1) = (pairs.map (·.1)).eraseDups :=
  have hempty : ([] : List (κ × ν)).map (·.1) = ([] : List κ).eraseDups := rfl
  keys_foldl (fun m e => keys_insert e.1 e.2 m) pairs hempty

/-- The map of some records: under each key, in the order in which the keys come first, the value of
the key's last record. -/
theorem ofList_eq_filterMap (pairs : List (κ × ν)) :
    ofList pairs = (pairs.map (·.1)).eraseDups.filterMap fun key =>
      (pairs.filter (·.1 == key)).getLast?.map fun e => (key, e.2) := by
  have hfind : ∀ key, find? key (ofList pairs) =
      (pairs.filter (·.1 == key)).getLast?.map (·.2) := fun key => by
    have hunion := find?_union key [] pairs
    rwa [find?, Option.or_none] at hunion
  rw [eq_filterMap_find? (distinct_ofList pairs), keys_ofList]
  refine List.filterMap_congr fun key _ => ?_
  rw [hfind, Option.map_map]
  rfl

end ModAlmanac.OrderedMap
