import ModAlmanac.Proofs.Source.Locales

/-!
# The merge of a locale's sections

A later description replaces whatever stands under its key, and a single value counts only where
nothing stands yet. The two rules act on one map while sections of both kinds alternate, yet what the
map holds under a key in the end is told by the descriptions and the single values apart
(`parse_merged`): the last description, or else the first single value.

One section changes what the map holds by its own records alone (`find?_addSection_descriptions`,
`find?_addSection_misc`). Over a run of sections what is put in later by descriptions stands in front
of what the map held, and what is put in later by single values behind it (`find?_foldl_addSection`).
-/

namespace ModAlmanac.Source

open Lua OrderedMap Text

/-! ## Sections and their records -/

/-- The contents of the blocks with a name, in order. -/
def contentsOf (name : String) (blocks : List NamedBlock) : List (List Char) :=
  blocks.filterMap fun block => if block.name = name.toList then some block.content else none

/-- A single value of a `misc` section, with the group that it stands in. -/
structure MiscValue where
  key : String
  value : String
  group : String
  deriving Repr, DecidableEq

/-- The single values of a `misc` section in order. -/
def miscValues (content : List Char) : List MiscValue :=
  (namedBlocks content).flatMap fun group =>
    (collect pair? (emptyBlocks group.content)).map fun (key, value) =>
      { key := String.ofList key, value := String.ofList value, group := String.ofList group.name }

/-- The record of a single value: the value for its name, no lines, the group for its category. -/
def MiscValue.entry (v : MiscValue) : LocaleEntry :=
  { displayName := v.value, lines := [], category := v.group }

/-- The last record that some `descriptions` sections give for a key. -/
def lastDescription? (descriptions : List (List Char)) (key : String) : Option LocaleEntry :=
  ((descriptions.flatMap descriptionRecords).filter (·.1 == key)).getLast?.map (·.2)

/-- The first value that some `misc` sections give for a key. -/
def firstValue? (misc : List (List Char)) (key : String) : Option LocaleEntry :=
  ((misc.flatMap miscValues).filter (·.key == key)).head?.map MiscValue.entry

theorem miscRecords_eq (content : List Char) :
    miscRecords content = (miscValues content).map fun v => (v.key, v.entry) := by
  rw [miscRecords, miscValues, List.map_flatMap]
  refine List.flatMap_congr fun group _ => ?_
  rw [List.map_map]
  rfl

theorem lastDescription?_cons (content : List Char) (more : List (List Char)) (key : String) :
    lastDescription? (content :: more) key =
      (lastDescription? more key).or (lastDescription? [content] key) := by
  unfold lastDescription?
  rw [List.flatMap_cons, List.filter_append, List.getLast?_append, Option.map_or,
    List.flatMap_singleton]

theorem firstValue?_cons (content : List Char) (more : List (List Char)) (key : String) :
    firstValue? (content :: more) key =
      (firstValue? [content] key).or (firstValue? more key) := by
  unfold firstValue?
  rw [List.flatMap_cons, List.filter_append, List.head?_append, Option.map_or,
    List.flatMap_singleton]

/-! ## One section -/

section

variable {block : NamedBlock} (locale : Locale) (key : String)

theorem find?_addSection_descriptions (h : block.name = "descriptions".toList) :
    find? key (locale.addSection block) =
      (lastDescription? [block.content] key).or (find? key locale) := by
  have hunion : locale.addSection block = union locale (descriptionRecords block.content) :=
    if_pos h
  rw [hunion, find?_union, lastDescription?, List.flatMap_singleton]

theorem find?_addSection_misc (h : block.name = "misc".toList) :
    find? key (locale.addSection block) =
      (find? key locale).or (firstValue? [block.content] key) := by
  have hne : block.name ≠ "descriptions".toList := by rw [h]; decide
  rw [Locale.addSection, if_neg hne, if_pos h, find?_foldl_insertNew, miscRecords_eq, firstValue?,
    List.flatMap_singleton, List.filter_map, List.head?_map, Option.map_map]
  rfl

theorem addSection_of_ne (hdescriptions : block.name ≠ "descriptions".toList)
    (hmisc : block.name ≠ "misc".toList) : locale.addSection block = locale :=
  (if_neg hdescriptions).trans (if_neg hmisc)

end

theorem distinct_addSection {locale : Locale} (h : Distinct locale) (block : NamedBlock) :
    Distinct (locale.addSection block) := by
  unfold Locale.addSection
  split
  · exact List.foldlRecOn _ _ h fun m hm r _ => distinct_insert hm r.1 r.2
  · split
    · exact List.foldlRecOn _ _ h fun m hm r _ => distinct_insertNew hm r.1 r.2
    · exact h

/-! ## All sections -/

theorem contentsOf_cons_of_eq {name : String} {block : NamedBlock} (h : block.name = name.toList)
    (blocks : List NamedBlock) :
    contentsOf name (block :: blocks) = block.content :: contentsOf name blocks :=
  List.filterMap_cons_some (if_pos h)

theorem contentsOf_cons_of_ne {name : String} {block : NamedBlock} (h : block.name ≠ name.toList)
    (blocks : List NamedBlock) : contentsOf name (block :: blocks) = contentsOf name blocks :=
  List.filterMap_cons_none (if_neg h)

/-- What a map holds after some sections: what they describe last, or else what it held, or else
what they give first as a single value. -/
theorem find?_foldl_addSection (blocks : List NamedBlock) (locale : Locale) (key : String) :
    find? key (blocks.foldl Locale.addSection locale) =
      ((lastDescription? (contentsOf "descriptions" blocks) key).or (find? key locale)).or
        (firstValue? (contentsOf "misc" blocks) key) := by
  induction blocks generalizing locale with
  | nil => exact (Option.or_none).symm
  | cons block blocks ih =>
    rw [List.foldl_cons, ih]
    by_cases hdescriptions : block.name = "descriptions".toList
    · have hmisc : block.name ≠ "misc".toList := by rw [hdescriptions]; decide
      rw [find?_addSection_descriptions locale key hdescriptions,
        contentsOf_cons_of_eq hdescriptions, contentsOf_cons_of_ne hmisc,
        lastDescription?_cons block.content (contentsOf "descriptions" blocks)]
      simp only [Option.or_assoc]
    · rw [contentsOf_cons_of_ne hdescriptions]
      by_cases hmisc : block.name = "misc".toList
      · rw [find?_addSection_misc locale key hmisc, contentsOf_cons_of_eq hmisc,
          firstValue?_cons block.content (contentsOf "misc" blocks)]
        simp only [Option.or_assoc]
      · rw [addSection_of_ne locale hdescriptions hmisc, contentsOf_cons_of_ne hmisc]

theorem distinct_parse (s : List Char) : Distinct (Locale.parse s) :=
  List.foldlRecOn (motive := fun locale => Distinct locale) _ _ List.Pairwise.nil
    fun _ hlocale block _ => distinct_addSection hlocale block

theorem find?_parse (s : List Char) (key : String) :
    find? key (Locale.parse s) =
      (lastDescription? (contentsOf "descriptions" (namedBlocks s)) key).or
        (firstValue? (contentsOf "misc" (namedBlocks s)) key) := by
  rw [Locale.parse, find?_foldl_addSection, find?, Option.or_none]

/-- A locale holds under each key one record: the last of the descriptions for that key, or else the
first of the single values, or else none. In which order the sections of the two kinds follow each
other does not matter to it. -/
theorem parse_merged (s : List Char) :
    Distinct (Locale.parse s) ∧
      (∀ key, find? key (Locale.parse s) =
        (lastDescription? (contentsOf "descriptions" (namedBlocks s)) key).or
          (firstValue? (contentsOf "misc" (namedBlocks s)) key)) ∧
      ∀ t, contentsOf "descriptions" (namedBlocks t) = contentsOf "descriptions" (namedBlocks s) →
        contentsOf "misc" (namedBlocks t) = contentsOf "misc" (namedBlocks s) →
          ∀ key, find? key (Locale.parse t) = find? key (Locale.parse s) := by
  refine ⟨distinct_parse s, find?_parse s, fun t hdescriptions hmisc key => ?_⟩
  rw [find?_parse, find?_parse, hdescriptions, hmisc]

/-- A key that is described and given as a single value, with the single value first and with the
description first. -/
theorem parse_merged_swapped :
    let misc := "misc = \x7b labels = \x7b j = \x27B\x27, k = \x27C\x27 \x7d \x7d\n".toList
    let descriptions := "descriptions = \x7b Joker = \x7b j = \x7b name = \x27A\x27 \x7d \x7d \x7d\n".toList
    contentsOf "descriptions" (namedBlocks (misc ++ descriptions)) =
        contentsOf "descriptions" (namedBlocks (descriptions ++ misc)) ∧
      contentsOf "misc" (namedBlocks (misc ++ descriptions)) =
        contentsOf "misc" (namedBlocks (descriptions ++ misc)) ∧
      find? "j" (Locale.parse (descriptions ++ misc)) = some ⟨"A", [], "Joker"⟩ ∧
      find? "j" (Locale.parse (misc ++ descriptions)) =
        find? "j" (Locale.parse (descriptions ++ misc)) := by
  intro misc descriptions
  have hdescriptions : contentsOf "descriptions" (namedBlocks (misc ++ descriptions)) =
      contentsOf "descriptions" (namedBlocks (descriptions ++ misc)) := by decide +kernel
  have hmisc : contentsOf "misc" (namedBlocks (misc ++ descriptions)) =
      contentsOf "misc" (namedBlocks (descriptions ++ misc)) := by decide +kernel
  exact ⟨hdescriptions, hmisc, by decide +kernel,
    (parse_merged (descriptions ++ misc)).2.2 _ hdescriptions hmisc "j"⟩

end ModAlmanac.Source
