import ModAlmanac.Proofs.Lua.NamedBlocks
import ModAlmanac.Proofs.OrderedMap
import ModAlmanac.Source.Locale

/-!
# Locale files are read back

A described locale has categories of entries and groups of single values. Written as a locale file
it is read back as the map that it describes (`parse_describedText`): under a described key the last
description, under any other key the first single value.

The texts may hold formatting braces, quotes, backslashes and line feeds; without an equality sign
they hold no field, and with balanced braces they end no block.
-/

namespace ModAlmanac.Source

open Text Lua Number

/-! ## Described locales -/

/-- A text that can stand in a locale file. -/
structure LocaleText where
  chars : List Char
  noSign : '=' ∉ chars
  balanced : Balanced '{' '}' chars

structure DescribedEntry where
  key : Word
  key_ne : key.chars ≠ "text".toList
  name : Option LocaleText
  lines : List LocaleText

structure DescribedCategory where
  name : Word
  entries : List DescribedEntry

structure DescribedGroup where
  name : Word
  values : List (Word × LocaleText)

structure DescribedLocale where
  categories : List DescribedCategory
  groups : List DescribedGroup

/-! ## Writing -/

def nameWord : Word :=
  { chars := "name".toList, ne_nil := by decide, isWordChar := forall_isWordChar (by decide) }

def textWord : Word :=
  { chars := "text".toList, ne_nil := by decide, isWordChar := forall_isWordChar (by decide) }

def descriptionsWord : Word :=
  { chars := "descriptions".toList, ne_nil := by decide
    isWordChar := forall_isWordChar (by decide) }

def miscWord : Word :=
  { chars := "misc".toList, ne_nil := by decide, isWordChar := forall_isWordChar (by decide) }

def LocaleText.quoted (t : LocaleText) : List Char :=
  quote t.chars

def DescribedEntry.content (e : DescribedEntry) : List Char :=
  spaced ((e.name.map fun n => nameWord.field n.quoted).toList ++
    [textWord.block (spaced (e.lines.map LocaleText.quoted))])

def DescribedEntry.text (e : DescribedEntry) : List Char :=
  e.key.block e.content

def DescribedCategory.content (c : DescribedCategory) : List Char :=
  spaced (c.entries.map DescribedEntry.text)

def DescribedCategory.text (c : DescribedCategory) : List Char :=
  c.name.block c.content

def DescribedGroup.content (g : DescribedGroup) : List Char :=
  spaced (g.values.map fun v => v.1.field v.2.quoted)

def DescribedGroup.text (g : DescribedGroup) : List Char :=
  g.name.block g.content

/-- The sections of a locale file, by name and content. -/
def DescribedLocale.sections (d : DescribedLocale) : List (Word × List Char) :=
  [(descriptionsWord, spaced (d.categories.map DescribedCategory.text)),
    (miscWord, spaced (d.groups.map DescribedGroup.text))]

/-- The locale file `return { descriptions = { … }, misc = { … } }`. -/
def DescribedLocale.text (d : DescribedLocale) : List Char :=
  "return \x7b".toList ++ (spaced (d.sections.map fun s => s.1.block s.2) ++ ['}'])

/-! ## What is described -/

/-- The records of all descriptions in order. -/
def DescribedLocale.descriptions (d : DescribedLocale) : Locale :=
  d.categories.flatMap fun c => c.entries.map fun e =>
    (String.ofList e.key.chars,
      { displayName := String.ofList ((e.name.map LocaleText.chars).getD [])
        lines := e.lines.map fun line => String.ofList line.chars
        category := String.ofList c.name.chars })

/-- The records of all single values in order. -/
def DescribedLocale.values (d : DescribedLocale) : Locale :=
  d.groups.flatMap fun g => g.values.map fun v =>
    (String.ofList v.1.chars,
      { displayName := String.ofList v.2.chars, lines := []
        category := String.ofList g.name.chars })

/-- What a locale describes under a key: the last description, or else the first single value. -/
def DescribedLocale.entry? (d : DescribedLocale) (key : String) : Option LocaleEntry :=
  ((d.descriptions.filter (·.1 == key)).getLast?.or (d.values.filter (·.1 == key)).head?).map (·.2)

/-- The map that a locale describes, its keys in the order in which they come first. -/
def DescribedLocale.locale (d : DescribedLocale) : Locale :=
  ((d.descriptions ++ d.values).map (·.1)).eraseDups.filterMap fun key =>
    (d.entry? key).map (key, ·)

/-- Putting the records into a map one after the other makes the map they describe. -/
theorem locale_eq_foldl (d : DescribedLocale) :
    d.values.foldl (fun l r => OrderedMap.insertNew r.1 r.2 l)
      (d.descriptions.foldl (fun l r => OrderedMap.insert r.1 r.2 l) []) = d.locale := by
  have hdescriptions : d.descriptions.foldl (fun l r => OrderedMap.insert r.1 r.2 l) [] =
      OrderedMap.union [] d.descriptions := rfl
  have hempty : ([] : Locale).map (·.1) = ([] : List String).eraseDups := rfl
  have hkeys : ((OrderedMap.union [] d.descriptions).map (·.1)) =
      (d.descriptions.map (·.1)).eraseDups :=
    OrderedMap.keys_foldl (fun m e => OrderedMap.keys_insert e.1 e.2 m) d.descriptions hempty
  have hall := OrderedMap.keys_foldl (fun m e => OrderedMap.keys_insertNew e.1 e.2 m) d.values
    hkeys
  have hfind : ∀ key, OrderedMap.find? key (d.values.foldl
      (fun l r => OrderedMap.insertNew r.1 r.2 l) (OrderedMap.union [] d.descriptions)) =
        d.entry? key := by
    intro key
    rw [OrderedMap.find?_foldl_insertNew, OrderedMap.find?_union, DescribedLocale.entry?,
      Option.map_or, OrderedMap.find?, Option.or_none]
  rw [hdescriptions, OrderedMap.eq_filterMap_find?
    (OrderedMap.distinct_foldl_insertNew (OrderedMap.distinct_union List.Pairwise.nil _) _), hall]
  simp only [hfind]
  rw [DescribedLocale.locale, List.map_append]

/-! ## Balanced braces -/

theorem Word.balanced_field (w : Word) {value : List Char} (h : Balanced '{' '}' value) :
    Balanced '{' '}' (w.field value) := by
  have hword : Balanced '{' '}' w.chars := balanced_of_forall_ne fun c hc =>
    ⟨fun heq => absurd (heq ▸ w.isWordChar c hc) (by decide),
      fun heq => absurd (heq ▸ w.isWordChar c hc) (by decide)⟩
  have hsign : Balanced '{' '}' [' ', '=', ' '] := balanced_of_forall_ne (by simp)
  exact hword.append (hsign.append h)

theorem Word.balanced_block (w : Word) {inner : List Char} (h : Balanced '{' '}' inner) :
    Balanced '{' '}' (w.block inner) :=
  balanced_field w (h.nest (by decide))

theorem commaSeparated_eq_intercalate (parts : List (List Char)) :
    commaSeparated parts = [',', ' '].intercalate parts := by
  induction parts with
  | nil => rfl
  | cons part parts ih =>
    cases parts with
    | nil => rw [List.intercalate_singleton, commaSeparated]
    | cons next parts =>
      rw [commaSeparated_cons_cons, ih, List.intercalate_cons_cons, List.append_assoc]
      rfl

theorem balanced_commaSeparated {parts : List (List Char)}
    (h : ∀ part ∈ parts, Balanced '{' '}' part) : Balanced '{' '}' (commaSeparated parts) := by
  have hcomma : Balanced '{' '}' [',', ' '] := balanced_of_forall_ne (by simp)
  rw [commaSeparated_eq_intercalate]
  exact hcomma.intercalate h

theorem balanced_spaced {parts : List (List Char)} (h : ∀ part ∈ parts, Balanced '{' '}' part) :
    Balanced '{' '}' (spaced parts) := by
  have hspace : Balanced '{' '}' [' '] := balanced_of_forall_ne (by simp)
  exact (hspace.append (balanced_commaSeparated h)).append hspace

theorem balanced_spaced_map {α : Type} {render : α → List Char} {items : List α}
    (h : ∀ item ∈ items, Balanced '{' '}' (render item)) :
    Balanced '{' '}' (spaced (items.map render)) :=
  balanced_spaced fun part hpart => by
    obtain ⟨item, hitem, rfl⟩ := List.mem_map.1 hpart
    exact h item hitem

theorem DescribedEntry.balanced_content (e : DescribedEntry) : Balanced '{' '}' e.content := by
  have hlines : Balanced '{' '}' (spaced (e.lines.map LocaleText.quoted)) :=
    balanced_spaced_map fun line _ => balanced_quote line.balanced
  refine balanced_spaced fun part hpart => ?_
  rcases List.mem_append.1 hpart with hname | htext
  · obtain ⟨n, -, rfl⟩ := Option.map_eq_some_iff.1 (Option.mem_toList.1 hname)
    exact Word.balanced_field _ (balanced_quote n.balanced)
  · rw [List.mem_singleton.1 htext]
    exact Word.balanced_block _ hlines

theorem DescribedCategory.balanced_content (c : DescribedCategory) :
    Balanced '{' '}' c.content :=
  balanced_spaced_map fun e _ => Word.balanced_block _ e.balanced_content

theorem DescribedGroup.balanced_content (g : DescribedGroup) : Balanced '{' '}' g.content :=
  balanced_spaced_map fun v _ => Word.balanced_field _ (balanced_quote v.2.balanced)

theorem DescribedLocale.balanced_section {d : DescribedLocale} {s : Word × List Char}
    (hs : s ∈ d.sections) : Balanced '{' '}' s.2 := by
  simp only [DescribedLocale.sections, List.mem_cons, List.not_mem_nil, or_false] at hs
  rcases hs with rfl | rfl
  · exact balanced_spaced_map fun c _ => Word.balanced_block _ c.balanced_content
  · exact balanced_spaced_map fun g _ => Word.balanced_block _ g.balanced_content

/-! ## Blocks -/

/-- The blocks of a list of blocks, by name and content. -/
theorem collect_blocks {α : Type} (name : α → Word) (content : α → List Char) {items : List α}
    (h : ∀ item ∈ items, Balanced '{' '}' (content item)) (rest : List Char) :
    collect blockParts? (spaced (items.map fun item => (name item).block (content item)) ++ rest) =
      items.map (fun item => ((name item).chars, content item)) ++ collect blockParts? rest :=
  collect_spaced (fun item _ => (name item).field_ne_nil _)
    (fun item hitem rest => blockParts?_block (name item) (h item hitem) rest)
    (fun c hc s => blockParts?_cons_eq_none (by rcases hc with rfl | rfl <;> rfl) s) rest

theorem map_parts_blocks {α : Type} {name : α → Word} {content : α → List Char} {items : List α}
    (h : ∀ item ∈ items, Balanced '{' '}' (content item)) :
    (namedBlocks (spaced (items.map fun item => (name item).block (content item)))).map
      NamedBlock.parts = items.map fun item => ((name item).chars, content item) := by
  have hcollect := collect_blocks name content h []
  rw [List.append_nil] at hcollect
  rw [map_parts_namedBlocks, hcollect, collect, List.append_nil]

/-! ## Entries -/

theorem passes_quotedText {c : Char} (hc : c = ',' ∨ c = ' ') (s : List Char) :
    quotedText? (c :: s) = none := by
  rcases hc with rfl | rfl <;> rfl

theorem collect_lines (lines : List LocaleText) :
    (collect quotedText? (spaced (lines.map LocaleText.quoted))).map unescape =
      lines.map LocaleText.chars := by
  have hcollect : collect quotedText? (spaced (lines.map LocaleText.quoted) ++ []) =
      lines.map (fun line => escape line.chars) ++ collect quotedText? [] :=
    collect_spaced (fun line _ => List.cons_ne_nil _ _)
      (fun line _ rest => quotedText?_quote line.chars rest) (fun c hc s => passes_quotedText hc s)
      []
  rw [List.append_nil] at hcollect
  rw [hcollect, collect, List.append_nil, List.map_map]
  exact List.map_congr_left fun line _ => unescape_escape line.chars

theorem sign_not_mem_commaSeparated {parts : List (List Char)} (h : ∀ part ∈ parts, '=' ∉ part) :
    '=' ∉ commaSeparated parts := by
  induction parts with
  | nil => exact List.not_mem_nil
  | cons part parts ih =>
    obtain ⟨hpart, hparts⟩ := List.forall_mem_cons.1 h
    cases parts with
    | nil => exact hpart
    | cons next parts =>
      rw [commaSeparated_cons_cons]
      simp [hpart, ih hparts]

theorem sign_not_mem_lines (lines : List LocaleText) :
    '=' ∉ spaced (lines.map LocaleText.quoted) := by
  have hlines : '=' ∉ commaSeparated (lines.map LocaleText.quoted) :=
    sign_not_mem_commaSeparated fun part hpart => by
      obtain ⟨line, -, rfl⟩ := List.mem_map.1 hpart
      exact sign_not_mem_quote line.noSign
  simp [spaced, hlines]

/-- The name of an entry as it stands in front of its lines. -/
def DescribedEntry.nameText (e : DescribedEntry) : List Char :=
  match e.name with
  | none => []
  | some n => nameWord.field n.quoted ++ [',', ' ']

theorem DescribedEntry.content_eq (e : DescribedEntry) :
    e.content = [' '] ++ (e.nameText ++
      (textWord.block (spaced (e.lines.map LocaleText.quoted)) ++ [' '])) := by
  unfold DescribedEntry.content DescribedEntry.nameText
  cases e.name with
  | none => rfl
  | some n =>
    simp [spaced, commaSeparated]

/-- A name in front is found, whatever stands behind it. -/
theorem findQuoted?_named (n : LocaleText) (rest : List Char) :
    findQuoted? "name" ([' '] ++ (nameWord.field n.quoted ++ rest)) = some n.chars := by
  have hspace : Passes (fieldValue? "name") [' '] (nameWord.field n.quoted ++ rest) :=
    passes_of_head (c := 'n') rfl (by decide)
  have hread : (fieldValue? "name" (nameWord.field (n.quoted ++ rest))).bind quotedText? =
      some (escape n.chars, rest) := by
    rw [fieldValue?_field rfl, Option.bind_some]
    exact quotedText?_quote n.chars rest
  have hfound : search (fun t => (fieldValue? "name" t).bind quotedText?)
      (nameWord.field (n.quoted ++ rest)) = some (escape n.chars, rest) := search_of_read hread
  rw [findQuoted?, search_append (hspace.bind _), Word.field_append, hfound]
  exact congrArg some (unescape_escape n.chars)

theorem findQuoted?_content (e : DescribedEntry) :
    findQuoted? "name" e.content = e.name.map LocaleText.chars := by
  rw [e.content_eq]
  unfold DescribedEntry.nameText
  cases e.name with
  | none =>
    have hfront : ∀ rest, Passes (fieldValue? "name") " text = \x7b".toList rest := fun rest =>
      passes_of_head (c := 'n') rfl (by decide)
    have hlines : Passes (fieldValue? "name")
        (spaced (e.lines.map LocaleText.quoted) ++ ['}', ' ']) [] :=
      passes_fieldValue (c := ' ') (by simp [sign_not_mem_lines]) (by simp) (by decide) rfl
    have hblock : [' '] ++ ([] ++ (textWord.block (spaced (e.lines.map LocaleText.quoted)) ++
        [' '])) = " text = \x7b".toList ++ (spaced (e.lines.map LocaleText.quoted) ++
          ['}', ' ']) := by
      simp [Word.block, Word.field, textWord]
    rw [hblock, findQuoted?, search_eq_none (((hfront _).append hlines).bind _) rfl]
    rfl
  | some n =>
    dsimp only
    rw [List.append_assoc (nameWord.field n.quoted)]
    exact findQuoted?_named n _

/-- The text table of an entry is found behind the entry's name, whatever stands behind it. -/
theorem search_text (e : DescribedEntry) (rest : List Char) :
    search (fieldTable? "text") ([' '] ++ (e.nameText ++
      (textWord.block (spaced (e.lines.map LocaleText.quoted)) ++ rest))) =
        some (spaced (e.lines.map LocaleText.quoted) ++ '}' :: rest) := by
  have hspace : ∀ rest, Passes (fieldTable? "text") [' '] rest := fun rest =>
    (passes_of_head (c := 't') rfl (by decide)).bind afterBrace?
  have hname : Passes (fieldValue? "text") e.nameText
      (textWord.block (spaced (e.lines.map LocaleText.quoted)) ++ rest) := by
    unfold DescribedEntry.nameText
    cases e.name with
    | none => exact passes_nil _
    | some n =>
      have hfield : ∀ rest, Passes (fieldValue? "text") "name = ".toList rest := fun rest =>
        passes_of_head (c := 't') rfl (by decide)
      have hquoted : Passes (fieldValue? "text") (n.quoted ++ [',', ' '])
          (textWord.block (spaced (e.lines.map LocaleText.quoted)) ++ rest) :=
        passes_fieldValue (c := ' ') (by simp [LocaleText.quoted, sign_not_mem_quote n.noSign])
          (by simp) (by decide) rfl
      exact (hfield _).append hquoted
  have hskip : Passes (fieldTable? "text") e.nameText _ := hname.bind afterBrace?
  rw [search_append (hspace _), search_append hskip, Word.block, Word.field_append]
  refine search_of_read ?_
  rw [fieldTable?, fieldValue?_field rfl]
  simp [dropBlank, isBlank, afterBrace?]

theorem textLines_append (e : DescribedEntry) (rest : List Char) :
    textLines ([' '] ++ (e.nameText ++
      (textWord.block (spaced (e.lines.map LocaleText.quoted)) ++ rest))) =
        e.lines.map LocaleText.chars := by
  have hclose : closeBrace (spaced (e.lines.map LocaleText.quoted) ++ '}' :: rest) =
      some (spaced (e.lines.map LocaleText.quoted), rest) :=
    closeBrace_balanced (balanced_spaced_map fun line _ => balanced_quote line.balanced) rest
  rw [textLines, search_text]
  dsimp only
  rw [hclose]
  exact collect_lines e.lines

theorem ofBlock_content {category : String} {block : NamedBlock} {e : DescribedEntry}
    (h : block.content = e.content) :
    LocaleEntry.ofBlock category block =
      { displayName := String.ofList ((e.name.map LocaleText.chars).getD [])
        lines := e.lines.map fun line => String.ofList line.chars
        category } := by
  rw [LocaleEntry.ofBlock, h, findQuoted?_content, e.content_eq, textLines_append, List.map_map]
  rfl

/-! ## Sections -/

/-- What is made of blocks with given names and contents alone. -/
theorem map_namedBlocks {α β : Type} {s : List Char} {items : List α}
    {parts : α → List Char × List Char} {f : NamedBlock → β} {g : α → β}
    (h : (namedBlocks s).map NamedBlock.parts = items.map parts)
    (hfg : ∀ block item, block.parts = parts item → f block = g item) :
    (namedBlocks s).map f = items.map g := by
  generalize namedBlocks s = blocks at h
  induction blocks generalizing items with
  | nil =>
    cases items with
    | nil => rfl
    | cons item items => cases h
  | cons block blocks ih =>
    cases items with
    | nil => cases h
    | cons item items =>
      obtain ⟨hblock, hblocks⟩ := List.cons.inj h
      rw [List.map_cons, List.map_cons, hfg block item hblock, ih hblocks]

theorem DescribedCategory.map_parts (c : DescribedCategory) :
    (namedBlocks c.content).map NamedBlock.parts =
      c.entries.map fun e => (e.key.chars, e.content) :=
  map_parts_blocks fun e _ => e.balanced_content

/-- Whether a block is an entry, told by the names of the blocks in it. -/
theorem isEntry_eq {α : Type} {block : NamedBlock} {items : List α} {name : α → Word}
    {content : α → List Char}
    (h : (namedBlocks block.content).map NamedBlock.parts =
      items.map fun item => ((name item).chars, content item)) :
    NamedBlock.isEntry block =
      (items.all (fun item => decide ((name item).chars = "text".toList)) &&
        (!items.isEmpty || (findQuoted? "name" block.content).isSome)) := by
  have hnames : (namedBlocks block.content).map (fun b => decide (b.name = "text".toList)) =
      items.map fun item => decide ((name item).chars = "text".toList) :=
    map_namedBlocks h fun b item hb => by
      rw [show b.name = (name item).chars from congrArg Prod.fst hb]
  have hall := congrArg (List.all · id) hnames
  rw [List.all_map, List.all_map] at hall
  have hempty := congrArg List.isEmpty h
  rw [List.isEmpty_map, List.isEmpty_map] at hempty
  rw [← hempty]
  exact congrArg (· && _) hall

/-- A category is never taken for an entry: its blocks are not named `text`, and without a block it
has no name. -/
theorem isEntry_category {block : NamedBlock} {c : DescribedCategory}
    (h : block.content = c.content) : NamedBlock.isEntry block = false := by
  rw [isEntry_eq (h ▸ c.map_parts)]
  cases hentries : c.entries with
  | nil =>
    have hcontent : block.content = spaced [] := by
      rw [h, DescribedCategory.content, hentries]
      rfl
    rw [hcontent]
    rfl
  | cons e entries => rw [List.all_cons, decide_eq_false e.key_ne, Bool.false_and, Bool.false_and]

theorem descriptionRecords_categories (d : DescribedLocale) :
    descriptionRecords (spaced (d.categories.map DescribedCategory.text)) = d.descriptions := by
  have hparts : (namedBlocks (spaced (d.categories.map DescribedCategory.text))).map
      NamedBlock.parts = d.categories.map fun c => (c.name.chars, c.content) :=
    map_parts_blocks fun c _ => c.balanced_content
  rw [descriptionRecords, DescribedLocale.descriptions, List.flatMap_def, List.flatMap_def]
  refine congrArg List.flatten (map_namedBlocks hparts fun block c hblock => ?_)
  obtain ⟨hname, hcontent⟩ := Prod.mk.inj hblock
  rw [isEntry_category hcontent, if_neg Bool.false_ne_true, hcontent, hname]
  refine map_namedBlocks c.map_parts fun entry e hentry => ?_
  obtain ⟨hkey, hentry⟩ := Prod.mk.inj hentry
  rw [ofBlock_content hentry, hkey]

/-- Single values hold no block. -/
theorem passes_values (values : List (Word × LocaleText)) {rest : List Char}
    (hrest : afterSign? rest = none) :
    Passes blockParts? (commaSeparated (values.map fun v => v.1.field v.2.quoted)) rest := by
  induction values with
  | nil => exact passes_nil rest
  | cons v values ih =>
    cases values with
    | nil => exact passes_quotedField v.1 v.2.noSign hrest
    | cons next values =>
      have hcomma : ∀ rest, Passes blockParts? [',', ' '] rest := fun rest =>
        passes_of_forall fun c hc s => blockParts?_cons_eq_none (by
          simp only [List.mem_cons, List.not_mem_nil, or_false] at hc
          rcases hc with rfl | rfl <;> rfl) s
      exact (passes_quotedField v.1 v.2.noSign rfl).append ((hcomma _).append ih)

theorem emptyBlocks_content (g : DescribedGroup) : emptyBlocks g.content = g.content := by
  have hspace : ∀ rest, Passes blockParts? [' '] rest := fun rest =>
    passes_of_forall fun c hc s => blockParts?_cons_eq_none (by
      rw [List.mem_singleton.1 hc]
      rfl) s
  have hvalues : Passes blockParts? g.content [] :=
    ((hspace _).append (passes_values g.values rfl)).append (hspace [])
  refine replaceAll_eq_self fun t hne ht => ?_
  have hparts := map_parts_read? 0 (t ++ [])
  rw [hvalues t hne ht] at hparts
  rw [Option.map_eq_none_iff.1 hparts]
  rfl

theorem pair?_value (v : Word × LocaleText) (rest : List Char) :
    pair? (v.1.field v.2.quoted ++ rest) = some ((v.1.chars, v.2.chars), rest) := by
  have hquoted : quotedText? (dropBlank (v.2.quoted ++ rest)) = some (escape v.2.chars, rest) :=
    quotedText?_quote v.2.chars rest
  unfold pair?
  rw [Word.field_append, Word.takeWhile_field, Word.dropWhile_field, afterSign?_sign]
  split
  · next hnil => exact absurd hnil v.1.ne_nil
  · rw [Option.bind_eq_bind, Option.bind_some, hquoted]
    change some ((v.1.chars, unescape (escape v.2.chars)), rest) = _
    rw [unescape_escape]

theorem collect_pairs (g : DescribedGroup) :
    collect pair? g.content = g.values.map fun v => (v.1.chars, v.2.chars) := by
  have hseparator : ∀ c, c = ',' ∨ c = ' ' → ∀ s, pair? (c :: s) = none := by
    intro c hc s
    have hword : isWordChar c = false := by rcases hc with rfl | rfl <;> rfl
    unfold pair?
    rw [List.takeWhile_cons_of_neg (by simp [hword])]
  have hcollect : collect pair? (g.content ++ []) =
      g.values.map (fun v => (v.1.chars, v.2.chars)) ++ collect pair? [] :=
    collect_spaced (fun v _ => v.1.field_ne_nil _) (fun v _ rest => pair?_value v rest)
      hseparator []
  rw [List.append_nil] at hcollect
  rw [hcollect, collect, List.append_nil]

theorem miscRecords_groups (d : DescribedLocale) :
    miscRecords (spaced (d.groups.map DescribedGroup.text)) = d.values := by
  have hparts : (namedBlocks (spaced (d.groups.map DescribedGroup.text))).map
      NamedBlock.parts = d.groups.map fun g => (g.name.chars, g.content) :=
    map_parts_blocks fun g _ => g.balanced_content
  rw [miscRecords, DescribedLocale.values, List.flatMap_def, List.flatMap_def]
  refine congrArg List.flatten (map_namedBlocks hparts fun block g hblock => ?_)
  obtain ⟨hname, hcontent⟩ := Prod.mk.inj hblock
  rw [hcontent, hname, emptyBlocks_content, collect_pairs, List.map_map]
  rfl

/-- The sections of a written locale are its named blocks. -/
theorem map_parts_sections (d : DescribedLocale) :
    (namedBlocks d.text).map NamedBlock.parts = d.sections.map fun s => (s.1.chars, s.2) := by
  have hfront : Passes blockParts? "return \x7b".toList
      (spaced (d.sections.map fun s => s.1.block s.2) ++ ['}']) :=
    passes_blockParts (by decide) (fun c hc => by
      obtain rfl : '{' = c := Option.some.inj hc
      rfl) rfl
  have hbehind : collect blockParts? ['}'] = [] :=
    collect_eq_nil (passes_of_forall fun c hc s => blockParts?_cons_eq_none (by
      rw [List.mem_singleton.1 hc]
      rfl) s)
  have hsections := collect_blocks Prod.fst Prod.snd
    (fun s hs => DescribedLocale.balanced_section (d := d) hs) ['}']
  rw [hbehind, List.append_nil] at hsections
  exact (map_parts_namedBlocks _).trans ((collect_append hfront).trans hsections)

/-- Reading a described locale gives the map that it describes. -/
theorem parse_describedText (d : DescribedLocale) : Locale.parse d.text = d.locale := by
  have hsections : Locale.parse d.text =
      ((namedBlocks d.text).map NamedBlock.parts).foldl
        (fun l p => Locale.addSection l { name := p.1, content := p.2, start := 0, stop := 0 })
        [] := by
    rw [List.foldl_map]
    rfl
  have hdescriptions : ∀ l content, Locale.addSection l
      { name := descriptionsWord.chars, content, start := 0, stop := 0 } =
        (descriptionRecords content).foldl (fun l r => OrderedMap.insert r.1 r.2 l) l :=
    fun _ _ => if_pos rfl
  have hmisc : ∀ l content, Locale.addSection l
      { name := miscWord.chars, content, start := 0, stop := 0 } =
        (miscRecords content).foldl (fun l r => OrderedMap.insertNew r.1 r.2 l) l :=
    fun _ _ => (if_neg (show miscWord.chars ≠ "descriptions".toList by decide)).trans (if_pos rfl)
  rw [hsections, map_parts_sections, DescribedLocale.sections, List.map_cons, List.map_singleton,
    List.foldl_cons, List.foldl_cons, List.foldl_nil, hdescriptions, hmisc,
    descriptionRecords_categories, miscRecords_groups, locale_eq_foldl]

end ModAlmanac.Source
