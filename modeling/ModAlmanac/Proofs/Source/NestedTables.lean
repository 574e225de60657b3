import ModAlmanac.Proofs.Lua.Contents
import ModAlmanac.Source.Locale

/-!
# Tables inside of a group

The values of a `misc` group are read from its text with every table in it empty. So whatever
balanced text is written into such a table, the locale is the same (`parse_exchanged`): no key or
value comes out of the table, and none is hidden or changed by it.

Three scans see the exchange, each as another content of one block: the scan of the locale sees
another section, that of the section another group, and that of the group another table, whose
content it drops.
-/

namespace ModAlmanac.Source

open Lua Text

/-! ## Locales by the parts of their blocks -/

/-- The records of a group, told by its name and its content. -/
def groupRecords (parts : List Char × List Char) : List (String × LocaleEntry) :=
  (collect pair? (emptyBlocks parts.2)).map fun (name, value) =>
    (String.ofList name,
      { displayName := String.ofList value, lines := [], category := String.ofList parts.1 })

theorem miscRecords_eq_flatMap (content : List Char) :
    miscRecords content = (collect blockParts? content).flatMap groupRecords := by
  rw [← map_parts_namedBlocks, List.flatMap_map]
  rfl

/-- A section added to a locale, told by its name and its content. -/
def Locale.addParts (locale : Locale) (parts : List Char × List Char) : Locale :=
  locale.addSection { name := parts.1, content := parts.2, start := 0, stop := 0 }

theorem parse_eq_foldl (s : List Char) :
    Locale.parse s = (collect blockParts? s).foldl Locale.addParts [] := by
  rw [← map_parts_namedBlocks, List.foldl_map]
  rfl

theorem emptyBlocks_eq (s : List Char) :
    emptyBlocks s = replaceBlocks (fun name => name ++ " = \x7b\x7d".toList) s := by
  refine congrArg (replaceAll · s) (funext fun t => ?_)
  rw [← map_parts_read? 0, Option.map_map]
  rfl

/-! ## One scan -/

section

variable {s front behind inner : List Char} {block : NamedBlock}
  (h : StandsIn 0 s block front behind) (hinner : Balanced '{' '}' inner)

include h hinner

theorem emptyBlocks_exchanged : emptyBlocks (front ++ (inner ++ behind)) = emptyBlocks s := by
  rw [emptyBlocks_eq, emptyBlocks_eq, h.replaced _ inner hinner]

theorem miscRecords_exchanged (hempty : emptyBlocks inner = emptyBlocks block.content) :
    miscRecords (front ++ (inner ++ behind)) = miscRecords s := by
  obtain ⟨before, after, hblocks⟩ := h.blocks
  have hsame : groupRecords (block.name, inner) = groupRecords (block.name, block.content) := by
    rw [groupRecords, groupRecords, hempty]
  rw [miscRecords_eq_flatMap, hblocks inner hinner, miscRecords_eq_flatMap s, h.text_eq,
    hblocks _ h.balanced, List.flatMap_append, List.flatMap_append, List.flatMap_cons,
    List.flatMap_cons, hsame]

theorem parse_exchanged_misc (hname : block.name = "misc".toList)
    (hrecords : miscRecords inner = miscRecords block.content) :
    Locale.parse (front ++ (inner ++ behind)) = Locale.parse s := by
  obtain ⟨before, after, hblocks⟩ := h.blocks
  have hne : block.name ≠ "descriptions".toList := by rw [hname]; decide
  have hsame : ∀ locale : Locale, locale.addParts (block.name, inner) =
      locale.addParts (block.name, block.content) := by
    intro locale
    unfold Locale.addParts Locale.addSection
    rw [if_neg hne, if_neg hne, if_pos hname, if_pos hname, hrecords]
  rw [parse_eq_foldl, hblocks inner hinner, parse_eq_foldl s, h.text_eq, hblocks _ h.balanced,
    List.foldl_append, List.foldl_append, List.foldl_cons, List.foldl_cons, hsame]

end

/-! ## All three -/

/-- The place in a text at which the content of a block begins. -/
def contentStart (block : NamedBlock) : Nat :=
  block.stop - block.content.length

theorem length_of_standsIn {s front behind : List Char} {block : NamedBlock}
    (h : StandsIn 0 s block front behind) : front.length = contentStart block := by
  rw [contentStart, h.stop_eq]
  omega

/-- What a table in a `misc` group holds can be exchanged for any balanced text: the locale stays
the same, with the same keys in the same order. -/
theorem parse_exchanged {s : List Char} {misc group table : NamedBlock}
    (hmisc : misc ∈ namedBlocks s) (hname : misc.name = "misc".toList)
    (hgroup : group ∈ namedBlocks misc.content) (htable : table ∈ namedBlocks group.content) :
    ∃ front behind, s = front ++ (table.content ++ behind) ∧
      front.length = contentStart misc + contentStart group + contentStart table ∧
        ∀ inner, Balanced '{' '}' inner →
          Locale.parse (front ++ (inner ++ behind)) = Locale.parse s := by
  obtain ⟨front, behind, hin⟩ := exists_standsIn hmisc
  obtain ⟨groupFront, groupBehind, hinMisc⟩ := exists_standsIn hgroup
  obtain ⟨tableFront, tableBehind, hinGroup⟩ := exists_standsIn htable
  have hjoined : ∀ t, (front ++ (groupFront ++ tableFront)) ++
      (t ++ (tableBehind ++ (groupBehind ++ behind))) =
        front ++ ((groupFront ++ ((tableFront ++ (t ++ tableBehind)) ++ groupBehind)) ++ behind) :=
    fun t => by simp
  refine ⟨front ++ (groupFront ++ tableFront), tableBehind ++ (groupBehind ++ behind), ?_, ?_,
    fun inner hinner => ?_⟩
  · rw [hjoined, ← hinGroup.text_eq, ← hinMisc.text_eq]
    exact hin.text_eq
  · rw [List.length_append, List.length_append, length_of_standsIn hin,
      length_of_standsIn hinMisc, length_of_standsIn hinGroup, Nat.add_assoc]
  · have hempty := emptyBlocks_exchanged hinGroup hinner
    have hbalanced := hinGroup.balanced_exchanged hinMisc.balanced hinner
    have hrecords := miscRecords_exchanged hinMisc hbalanced hempty
    have hsection := hinMisc.balanced_exchanged hin.balanced hbalanced
    rw [hjoined]
    exact parse_exchanged_misc hin hsection hname hrecords

/-- A table that is made to hold the key of a value beside it and a table of its own. -/
theorem parse_exchanged_labels :
    let front := "misc = \x7b labels = \x7b a = \x7b".toList
    let behind := "\x7d, k = \x27\x7bC:red\x7d\x27 \x7d \x7d".toList
    let s := front ++ (" x = \x27A\x27 ".toList ++ behind)
    let inner := " k = \x27B\x27, t = \x7b y = \x27C\x27 \x7d ".toList
    ∃ misc group table, misc ∈ namedBlocks s ∧ misc.name = "misc".toList ∧
      group ∈ namedBlocks misc.content ∧ table ∈ namedBlocks group.content ∧
        table.content = " x = \x27A\x27 ".toList ∧ Balanced '{' '}' inner ∧
          Locale.parse (front ++ (inner ++ behind)) = Locale.parse s ∧
            Locale.parse s = [("k", ⟨"\x7bC:red\x7d", [], "labels"⟩)] := by
  intro front behind s inner
  let misc : NamedBlock :=
    { name := "misc".toList
      content :=
        " labels = \x7b a = \x7b x = \x27A\x27 \x7d, k = \x27\x7bC:red\x7d\x27 \x7d ".toList
      start := 0, stop := 53 }
  let group : NamedBlock :=
    { name := "labels".toList
      content := " a = \x7b x = \x27A\x27 \x7d, k = \x27\x7bC:red\x7d\x27 ".toList
      start := 1, stop := 43 }
  let table : NamedBlock :=
    { name := "a".toList, content := " x = \x27A\x27 ".toList, start := 1, stop := 15 }
  have hmisc : misc ∈ namedBlocks s := by decide +kernel
  have hgroup : group ∈ namedBlocks misc.content := by decide +kernel
  have htable : table ∈ namedBlocks group.content := by decide +kernel
  have hinner : Balanced '{' '}' inner := by
    have htail : Balanced '{' '}' [' '] := balanced_of_forall_ne (by simp)
    have hnested : Balanced '{' '}' " y = \x27C\x27 ".toList := balanced_of_forall_ne (by simp)
    have hhead : Balanced '{' '}' " k = \x27B\x27, t = ".toList := balanced_of_forall_ne (by simp)
    exact hhead.append ((hnested.nest (by decide)).append htail)
  obtain ⟨found, rest, hs, hlength, hsame⟩ := parse_exchanged hmisc rfl hgroup htable
  obtain ⟨rfl, hrest⟩ := List.append_inj hs (show front.length = found.length by rw [hlength]; rfl)
  obtain rfl := List.append_cancel_left hrest
  exact ⟨misc, group, table, hmisc, rfl, hgroup, htable, rfl, hinner, hsame inner hinner,
    by decide +kernel⟩

end ModAlmanac.Source
