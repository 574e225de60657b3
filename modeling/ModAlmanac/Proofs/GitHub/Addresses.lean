import ModAlmanac.GitHub.Client
import ModAlmanac.Proofs.Text.Blank
import ModAlmanac.Proofs.Text.Percent
import ModAlmanac.Proofs.Text.Skipping

/-!
# Addresses of requests

A request goes to a base with a path behind it. What is made of an address before it is used, be it
that white space is dropped, brackets are taken off or a fragment is set apart, concerns the base
only (`Http.exists_front`), for a path of coded texts begins with a slash and has no character that
means anything there (`Http.isPath`). Hence all addresses with one base that has a scheme are used
(`Http.address?_eq_some_getD`), and two of them are the same only if their paths are
(`Http.getD_address?_inj`).
-/

namespace ModAlmanac

open Text

/-! ## Coded texts -/

namespace Http

/-- Whether a character means nothing to whoever takes an address apart. -/
def isPathChar (c : Char) : Bool :=
  !(isBlank c || c = '#' || c = '>')

theorem isPathChar_of_isUnreserved {c : Char} (h : Percent.isUnreserved c = true) :
    isPathChar c = true := by
  have hblank : isBlank c = false := by
    refine Bool.eq_false_iff.2 fun hc => ?_
    have := forall_isBlank (p := fun c => !Percent.isUnreserved c) (by decide +kernel) hc
    rw [h] at this
    cases this
  have hother : ∀ d ∈ ['#', '>'], c ≠ d := by
    have hcut : ['#', '>'].all (!Percent.isUnreserved ·) = true := by decide
    rintro d hd rfl
    have := List.all_eq_true.1 hcut c hd
    rw [h] at this
    cases this
  simp only [List.forall_mem_cons, List.not_mem_nil] at hother
  simp [isPathChar, hblank, hother]

/-- A coded text is made of such characters if whatever is not coded in it is. -/
theorem isPathChar_of_mem_encode {safe : Char → Bool}
    (hsafe : ∀ c, safe c = true → isPathChar c = true) {s : List Char} {c : Char}
    (h : c ∈ Percent.encode safe s) : isPathChar c = true := by
  rcases Percent.mem_encode h with hplain | hplain | rfl
  · exact isPathChar_of_isUnreserved hplain
  · exact hsafe c hplain
  · decide

theorem isPathChar_of_mem_queryValue {s : List Char} {c : Char} (h : c ∈ Percent.queryValue s) :
    isPathChar c = true := by
  obtain ⟨d, -, hd⟩ := List.mem_flatMap.1 h
  split at hd
  · rw [List.mem_singleton.1 hd]
    decide
  · have hcoded : c ∈ Percent.encode (fun _ => false) [d] := by
      rwa [Percent.encode, List.flatMap_singleton]
    exact isPathChar_of_mem_encode (fun _ h => by cases h) hcoded

/-- Whether a text can stand behind the base of an address: it begins with a slash, and all its
characters mean nothing to whoever takes the address apart. -/
def isPath (s : List Char) : Bool :=
  s.head? = some '/' && s.all isPathChar

theorem isPath_iff {s : List Char} :
    isPath s = true ↔ s.head? = some '/' ∧ ∀ c ∈ s, isPathChar c = true := by
  rw [isPath, Bool.and_eq_true, decide_eq_true_eq, List.all_eq_true]

theorem isPath_append {s t : List Char} (h : isPath s = true)
    (ht : ∀ c ∈ t, isPathChar c = true) : isPath (s ++ t) = true := by
  obtain ⟨hhead, hall⟩ := isPath_iff.1 h
  refine isPath_iff.2 ⟨?_, fun c hc => (List.mem_append.1 hc).elim (hall c) (ht c)⟩
  rw [List.head?_append, hhead]
  rfl

/-! ## Bases -/

section

variable {path : List Char} (hpath : isPath path = true)

include hpath

theorem exists_cons_of_isPath : ∃ more, path = '/' :: more := by
  obtain ⟨hhead, -⟩ := isPath_iff.1 hpath
  exact ⟨path.tail, List.eq_cons_of_mem_head? hhead⟩

theorem exists_getLast?_of_isPath : ∃ c, path.getLast? = some c ∧ isPathChar c = true := by
  obtain ⟨hhead, hall⟩ := isPath_iff.1 hpath
  have hne : path ≠ [] := by
    rintro rfl
    cases hhead
  exact ⟨path.getLast hne, List.getLast?_eq_some_getLast hne, hall _ (List.getLast_mem hne)⟩

theorem trim_append_path (base : List Char) : trim (base ++ path) = dropBlank base ++ path := by
  obtain ⟨more, rfl⟩ := exists_cons_of_isPath hpath
  obtain ⟨c, hlast, hc⟩ := exists_getLast?_of_isPath hpath
  have hslash : ('/' :: more).dropWhile isBlank = '/' :: more :=
    List.dropWhile_cons_of_neg (by decide)
  have hfront : (base ++ '/' :: more).dropWhile isBlank = dropBlank base ++ '/' :: more := by
    rw [List.dropWhile_append, hslash, dropBlank]
    split
    · next hnone => rw [List.isEmpty_iff.1 hnone, List.nil_append]
    · rfl
  obtain ⟨front, hfront'⟩ := List.getLast?_eq_some_iff.1 hlast
  have hblank : isBlank c = false := by
    simp only [isPathChar, Bool.not_eq_true', Bool.or_eq_false_iff] at hc
    exact hc.1.1
  have hbehind : ((dropBlank base ++ '/' :: more).reverse).dropWhile isBlank =
      (dropBlank base ++ '/' :: more).reverse := by
    rw [hfront', ← List.append_assoc, List.reverse_concat,
      List.dropWhile_cons_of_neg (by simp [hblank])]
  rw [trim, trimOf, hfront, hbehind, List.reverse_reverse]

/-- No mark of letters ends in a path. -/
theorem isPrefixOf?_append_path {mark : List Char} (hmark : '/' ∉ mark) (base : List Char) :
    mark.isPrefixOf? (base ++ path) = (mark.isPrefixOf? base).map (· ++ path) := by
  obtain ⟨more, rfl⟩ := exists_cons_of_isPath hpath
  exact isPrefixOf?_append_cons hmark base more

end

/-- What is left of a base when the address that it begins is unwrapped. -/
def unwrappedBase (base : List Char) : List Char :=
  (("URL:".toList.isPrefixOf? (dropBlank base)).map dropBlank).getD (dropBlank base)

/-- A text that is not enclosed in brackets keeps them. -/
theorem unwrapped_eq_of_trim {s text : List Char} (htrim : trim s = text)
    (hopen : ∀ rest, text = '<' :: rest → rest.getLast? ≠ some '>') :
    unwrapped s = (("URL:".toList.isPrefixOf? text).map trim).getD text := by
  unfold unwrapped
  rw [htrim]
  cases text with
  | nil => rfl
  | cons c rest =>
    by_cases hc : c = '<'
    · subst hc
      simp only [if_neg (hopen rest rfl)]
      cases "URL:".toList.isPrefixOf? ('<' :: rest) with
      | none => rfl
      | some behind => rfl
    · simp only [List.cons.injEq, hc, false_and, imp_self, implies_true]
      cases "URL:".toList.isPrefixOf? (c :: rest) with
      | none => rfl
      | some behind => rfl

theorem unwrapped_append_path {path : List Char} (hpath : isPath path = true) (base : List Char) :
    unwrapped (base ++ path) = unwrappedBase base ++ path := by
  obtain ⟨c, hlast, hc⟩ := exists_getLast?_of_isPath hpath
  have hopen : ∀ rest, dropBlank base ++ path = '<' :: rest → rest.getLast? ≠ some '>' := by
    intro rest hrest hbracket
    have hwhole : (dropBlank base ++ path).getLast? = some '>' := by
      rw [hrest, List.getLast?_cons, hbracket]
      rfl
    rw [List.getLast?_append, hlast] at hwhole
    cases hwhole
    cases hc
  rw [unwrapped_eq_of_trim (trim_append_path hpath base) hopen,
    isPrefixOf?_append_path hpath (by decide), unwrappedBase]
  cases "URL:".toList.isPrefixOf? (dropBlank base) with
  | none => rfl
  | some rest => exact trim_append_path hpath rest

/-! ## Fragments and schemes -/

theorem splitFragment_of_not_mem {s : List Char} (h : '#' ∉ s) : splitFragment s = (s, []) := by
  have hall : s.reverse.takeWhile (· ≠ '#') = s.reverse :=
    List.takeWhile_eq_self_iff.2 fun c hc =>
      decide_eq_true fun heq => h (heq ▸ List.mem_reverse.1 hc)
  rw [splitFragment, hall, List.reverse_reverse]
  exact if_pos rfl

theorem splitFragment_append {front fragment : List Char} (h : '#' ∉ fragment) :
    splitFragment (front ++ '#' :: fragment) = (front, fragment) := by
  have hbehind : ((front ++ '#' :: fragment).reverse.takeWhile (· ≠ '#')).reverse = fragment := by
    have hall : ∀ c ∈ fragment.reverse, decide (c ≠ '#') = true := fun c hc =>
      decide_eq_true fun heq => h (heq ▸ List.mem_reverse.1 hc)
    rw [List.reverse_append, List.reverse_cons, List.append_assoc,
      List.takeWhile_append_of_pos hall, List.singleton_append,
      List.takeWhile_cons_of_neg (by decide), List.append_nil, List.reverse_reverse]
  have hlength : (front ++ '#' :: fragment).length = front.length + fragment.length + 1 :=
    List.length_append
  rw [splitFragment, hbehind, if_neg (by omega), hlength,
    show front.length + fragment.length + 1 - fragment.length - 1 = front.length by omega,
    List.take_left]

/-- A path does not take part in the scheme. -/
theorem hasScheme_append_path {path : List Char} (hpath : isPath path = true) (base : List Char) :
    hasScheme (base ++ path) = hasScheme (base ++ ['/']) := by
  have hscheme : ∀ more, hasScheme (base ++ '/' :: more) =
      (!(base.takeWhile fun c => c ≠ '/' && c ≠ ':').isEmpty &&
        (base.drop (base.takeWhile fun c => c ≠ '/' && c ≠ ':').length).head?.or (some '/') =
          some ':') := by
    intro more
    have hfront : ((base ++ '/' :: more).takeWhile fun c => c ≠ '/' && c ≠ ':') =
        base.takeWhile fun c => c ≠ '/' && c ≠ ':' := by
      rw [List.takeWhile_append, List.takeWhile_cons_of_neg (by decide), List.append_nil]
      split
      · next hlength => exact ((List.takeWhile_prefix _).eq_of_length hlength).symm
      · rfl
    rw [hasScheme, hfront, List.drop_append_of_le_length (List.takeWhile_prefix _).length_le,
      List.head?_append]
    rfl
  obtain ⟨more, rfl⟩ := exists_cons_of_isPath hpath
  rw [hscheme, hscheme]

/-- What stands in front of the fragment has a scheme whatever path stands at the end. -/
theorem address?_of_unwrapped {url front path : List Char} (hpath : isPath path = true)
    (h : unwrapped url = front ++ path) :
    address? url =
      if hasScheme (splitFragment (front ++ ['/'])).1 then some (String.ofList (front ++ path))
      else none := by
  have hsign : ∀ {path}, isPath path = true → '#' ∉ path := fun hpath hmem => by
    cases (isPath_iff.1 hpath).2 _ hmem
  have hslash : isPath ['/'] = true := by decide
  have hsplit : ∀ {path}, isPath path = true → '#' ∉ front →
      splitFragment (front ++ path) = (front ++ path, []) := fun hpath hfront =>
    splitFragment_of_not_mem (mt List.mem_append.1 (not_or.2 ⟨hfront, hsign hpath⟩))
  unfold address?
  rw [h]
  by_cases hfront : '#' ∈ front
  · -- the fragment begins in the base, so that the path belongs to it
    obtain ⟨fragment, resource, hreverse, hnone⟩ :=
      List.eq_append_cons_of_mem (List.mem_reverse.2 hfront)
    have hbase : front = resource.reverse ++ '#' :: fragment.reverse := by
      rw [← List.reverse_reverse front, hreverse]
      simp
    have hends : ∀ {path}, isPath path = true →
        splitFragment (front ++ path) = (resource.reverse, fragment.reverse ++ path) := by
      intro path hpath
      rw [hbase, List.append_assoc, List.cons_append]
      refine splitFragment_append (mt List.mem_append.1 (not_or.2 ⟨?_, hsign hpath⟩))
      rwa [List.mem_reverse]
    obtain ⟨more, rfl⟩ := exists_cons_of_isPath hpath
    rw [hends hslash]
    dsimp only
    rw [hends hpath]
    simp
  · rw [hsplit hslash hfront]
    dsimp only
    rw [hsplit hpath hfront, hasScheme_append_path hpath]
    simp

/-- Whether the addresses that begin with a base have a scheme. -/
def isBase (base : String) : Bool :=
  (address? (dropTrailingSlashes base.toList ++ ['/'])).isSome

/-- What is used of a base in front of a path. -/
def frontOf (base : String) : List Char :=
  unwrappedBase (dropTrailingSlashes base.toList)

/-- An address over a base is used exactly if the base has a scheme, with the path as it is. -/
theorem address?_append_path {path : List Char} (hpath : isPath path = true) (base : String) :
    address? (dropTrailingSlashes base.toList ++ path) =
      if isBase base then some (String.ofList (frontOf base ++ path)) else none := by
  have hslash : isPath ['/'] = true := by decide
  rw [isBase, address?_of_unwrapped hslash (unwrapped_append_path hslash _),
    address?_of_unwrapped hpath (unwrapped_append_path hpath _), frontOf]
  split
  · rfl
  · rfl

/-- Of a base that has a scheme a part is used, with every path behind it as it is. -/
theorem exists_front {base : String} (h : isBase base = true) :
    ∃ front, ∀ path, isPath path = true →
      address? (dropTrailingSlashes base.toList ++ path) =
        some (String.ofList (front ++ path)) :=
  ⟨frontOf base, fun path hpath => by rw [address?_append_path hpath, if_pos h]⟩

section

variable {base : String} (hbase : isBase base = true)

include hbase

/-- Every address over the base is used. -/
theorem address?_eq_some_getD {path : List Char} (hpath : isPath path = true) :
    address? (dropTrailingSlashes base.toList ++ path) =
      some ((address? (dropTrailingSlashes base.toList ++ path)).getD "") := by
  obtain ⟨front, hfront⟩ := exists_front hbase
  rw [hfront path hpath]
  rfl

end

end Http

/-! ## Addresses of repositories -/

namespace GitHub

open Http

/-- The part of an address that names a repository. -/
def repositoryPath (owner repo : String) : List Char :=
  "/repos/".toList ++ Percent.segment owner.toList ++ '/' :: Percent.segment repo.toList

theorem repositoryUrl_eq (apiUrl owner repo : String) :
    repositoryUrl apiUrl owner repo =
      dropTrailingSlashes apiUrl.toList ++ repositoryPath owner repo := by
  unfold repositoryUrl repositoryPath
  simp only [List.append_assoc]

theorem isPath_repositoryPath (owner repo : String) :
    isPath (repositoryPath owner repo) = true := by
  have hcoded : ∀ s, ∀ c ∈ Percent.segment s, isPathChar c = true :=
    fun s c hc => isPathChar_of_mem_encode (fun _ h => by cases h) hc
  have hroot : isPath "/repos/".toList = true := by decide
  unfold repositoryPath
  refine isPath_append (isPath_append hroot (hcoded owner.toList)) fun c hc => ?_
  rcases List.mem_cons.1 hc with rfl | hc
  · decide
  · exact hcoded _ c hc

/-- What names a branch at the end of an address. -/
def branchQuery (branch : String) : List Char :=
  "?ref=".toList ++ Percent.queryValue branch.toList

theorem isPathChar_of_mem_branchQuery {branch : String} {c : Char} (h : c ∈ branchQuery branch) :
    isPathChar c = true := by
  have hmark : "?ref=".toList.all isPathChar = true := by decide
  unfold branchQuery at h
  rcases List.mem_append.1 h with h | h
  · exact List.all_eq_true.1 hmark c h
  · exact isPathChar_of_mem_queryValue h

/-- The part of an address that names something in a repository. -/
def contentPath (owner repo : String) (coded : List Char) : List Char :=
  repositoryPath owner repo ++ ("/contents/".toList ++ coded)

theorem isPath_contentPath (owner repo : String) {coded : List Char}
    (h : ∀ c ∈ coded, isPathChar c = true) : isPath (contentPath owner repo coded) = true := by
  have hcontents : "/contents/".toList.all isPathChar = true := by decide
  unfold contentPath
  refine isPath_append (isPath_repositoryPath owner repo) fun c hc => ?_
  rcases List.mem_append.1 hc with hc | hc
  · exact List.all_eq_true.1 hcontents c hc
  · exact h c hc

end GitHub

end ModAlmanac
