import ModAlmanac.Proofs.Source.Locales
import ModAlmanac.Proofs.Source.NestedTables

/-!
# Entries directly under the descriptions

An entry may stand in the `descriptions` section itself, without a category around it. What tells it
from a category is to be the name that it declares. The reader looks at the tables inside as well:
if one of them is not called `text`, the entry is taken for a category and its tables for entries,
name or not (`parse_source_eq_ite`). So an entry is recorded as it was written exactly if it has no
table of another name (`parse_source_eq_iff`), as one with a table of unlock hints has
(`unlockEntry_not_recorded`).
-/

namespace ModAlmanac.Source

open Lua OrderedMap Text

/-! ## Written entries -/

/-- A table inside of an entry. -/
structure InnerTable where
  name : Word
  content : List Char
  balanced : Balanced '{' '}' content

/-- An entry with a name, lines of text and further tables. -/
structure DirectEntry where
  key : Word
  name : LocaleText
  lines : List LocaleText
  further : List InnerTable

def InnerTable.text (t : InnerTable) : List Char :=
  t.name.block t.content

/-- The table `text = { … }` of some lines. -/
def linesTable (lines : List LocaleText) : InnerTable where
  name := textWord
  content := spaced (lines.map LocaleText.quoted)
  balanced := balanced_spaced_map fun line _ => balanced_quote line.balanced

/-- All tables of an entry, that of its lines first. -/
def DirectEntry.tables (e : DirectEntry) : List InnerTable :=
  linesTable e.lines :: e.further

def DirectEntry.content (e : DirectEntry) : List Char :=
  spaced (nameWord.field e.name.quoted :: e.tables.map InnerTable.text)

def DirectEntry.text (e : DirectEntry) : List Char :=
  e.key.block e.content

/-- The locale file `descriptions = { key = { name = …, text = { … }, … } }`. -/
def DirectEntry.source (e : DirectEntry) : List Char :=
  descriptionsWord.block (spaced [e.text])

/-- What is written: the name and the lines, in the section as its category. -/
def DirectEntry.entry (e : DirectEntry) : LocaleEntry :=
  { displayName := String.ofList e.name.chars
    lines := e.lines.map fun line => String.ofList line.chars
    category := "descriptions" }

/-- What a table is read as when it is taken for an entry. -/
def InnerTable.entry (category : String) (t : InnerTable) : LocaleEntry :=
  LocaleEntry.ofBlock category { name := t.name.chars, content := t.content, start := 0, stop := 0 }

/-- The records of an entry that is taken for a category. -/
def DirectEntry.innerRecords (e : DirectEntry) : List (String × LocaleEntry) :=
  e.tables.map fun t => (String.ofList t.name.chars, t.entry (String.ofList e.key.chars))

/-! ## The tables of an entry -/

theorem DirectEntry.content_eq (e : DirectEntry) :
    e.content = ([' '] ++ (nameWord.field e.name.quoted ++ [','])) ++
      spaced (e.tables.map InnerTable.text) := by
  simp [content, tables, spaced, commaSeparated]

theorem DirectEntry.balanced_content (e : DirectEntry) : Balanced '{' '}' e.content := by
  refine balanced_spaced (List.forall_mem_cons.2 ⟨?_, fun part hpart => ?_⟩)
  · exact Word.balanced_field _ (balanced_quote e.name.balanced)
  · obtain ⟨t, -, rfl⟩ := List.mem_map.1 hpart
    exact Word.balanced_block _ t.balanced

/-- The blocks inside of an entry are its tables. -/
theorem DirectEntry.map_parts (e : DirectEntry) :
    (namedBlocks e.content).map NamedBlock.parts =
      e.tables.map fun t => (t.name.chars, t.content) := by
  have hmark : ∀ c, c = ' ' ∨ c = ',' → ∀ rest, Passes blockParts? [c] rest := by
    intro c hc rest
    refine passes_of_forall fun d hd s => blockParts?_cons_eq_none ?_ s
    rw [List.mem_singleton.1 hd]
    rcases hc with rfl | rfl <;> decide +kernel
  have hname : Passes blockParts? ([' '] ++ (nameWord.field e.name.quoted ++ [',']))
      (spaced (e.tables.map InnerTable.text)) :=
    (hmark _ (.inl rfl) _).append ((passes_quotedField nameWord e.name.noSign rfl).append
      (hmark _ (.inr rfl) _))
  rw [map_parts_namedBlocks, e.content_eq, collect_append hname, ← map_parts_namedBlocks]
  exact map_parts_blocks fun t _ => t.balanced

/-- A block with the content of an entry is taken for one exactly if all of its tables are called
`text`. -/
theorem isEntry_direct {block : NamedBlock} {e : DirectEntry} (h : block.content = e.content) :
    NamedBlock.isEntry block = e.further.all (·.name.chars = "text".toList) := by
  rw [isEntry_eq (h ▸ e.map_parts), DirectEntry.tables, List.all_cons, List.isEmpty_cons,
    Bool.not_false, Bool.true_or, Bool.and_true]
  exact Bool.true_and _

/-- The reader finds the name and the lines of an entry, whatever tables stand behind them. -/
theorem ofBlock_direct {category : String} {block : NamedBlock} {e : DirectEntry}
    (h : block.content = e.content) :
    LocaleEntry.ofBlock category block = { e.entry with category } := by
  let described : DescribedEntry :=
    { key := nameWord, key_ne := by decide, name := some e.name, lines := e.lines }
  obtain ⟨behind, hbehind⟩ : ∃ behind, e.content = [' '] ++ (nameWord.field e.name.quoted ++
      ([',', ' '] ++ (textWord.block (spaced (e.lines.map LocaleText.quoted)) ++ behind))) := by
    cases hfurther : e.further with
    | nil =>
      refine ⟨[' '], ?_⟩
      simp [DirectEntry.content, DirectEntry.tables, hfurther, spaced, commaSeparated,
        InnerTable.text, linesTable]
    | cons t further =>
      refine ⟨[',', ' '] ++ (commaSeparated ((t :: further).map InnerTable.text) ++ [' ']), ?_⟩
      simp [DirectEntry.content, DirectEntry.tables, hfurther, spaced, commaSeparated,
        InnerTable.text, linesTable]
  have hname : findQuoted? "name" e.content = some e.name.chars := by
    rw [hbehind]
    exact findQuoted?_named e.name _
  have hlines : textLines e.content = e.lines.map LocaleText.chars := by
    have hfound := textLines_append described behind
    rw [DescribedEntry.nameText, List.append_assoc (nameWord.field _)] at hfound
    rw [hbehind]
    exact hfound
  rw [LocaleEntry.ofBlock, h, hname, hlines, List.map_map]
  rfl

/-! ## Reading -/

/-- What a block with the key and the content of an entry is recorded as. -/
theorem records_direct {block : NamedBlock} {e : DirectEntry}
    (hblock : block.parts = (e.key.chars, e.content)) :
    (if NamedBlock.isEntry block then
      [(String.ofList block.name, LocaleEntry.ofBlock "descriptions" block)]
    else (namedBlocks block.content).map fun inner =>
      (String.ofList inner.name, LocaleEntry.ofBlock (String.ofList block.name) inner)) =
    if e.further.all (·.name.chars = "text".toList) then [(String.ofList e.key.chars, e.entry)]
    else e.innerRecords := by
  obtain ⟨hname, hcontent⟩ := Prod.mk.inj hblock
  have hinner : ((namedBlocks e.content).map fun inner =>
      (String.ofList inner.name, LocaleEntry.ofBlock (String.ofList e.key.chars) inner)) =
        e.innerRecords :=
    map_namedBlocks e.map_parts fun inner t hparts => by
      obtain ⟨hkey, hinner⟩ := Prod.mk.inj hparts
      rw [hkey, InnerTable.entry, LocaleEntry.ofBlock, hinner]
      rfl
  rw [isEntry_direct hcontent, ofBlock_direct hcontent, hcontent, hname, hinner]
  rfl

theorem descriptionRecords_direct (e : DirectEntry) :
    descriptionRecords (spaced [e.text]) =
      if e.further.all (·.name.chars = "text".toList) then [(String.ofList e.key.chars, e.entry)]
      else e.innerRecords := by
  have hparts : (namedBlocks (spaced [e.text])).map NamedBlock.parts =
      [e].map fun e => (e.key.chars, e.content) := by
    have hbalanced : ∀ item ∈ [e], Balanced '{' '}' item.content := fun item _ =>
      item.balanced_content
    exact map_parts_blocks hbalanced
  rw [descriptionRecords, List.flatMap_def, map_namedBlocks hparts fun _ _ => records_direct]
  exact List.flatten_singleton

/-- What is read is either the entry itself or its tables. -/
theorem parse_source_eq_ite (e : DirectEntry) :
    Locale.parse e.source =
      if e.further.all (·.name.chars = "text".toList) then [(String.ofList e.key.chars, e.entry)]
      else OrderedMap.ofList e.innerRecords := by
  have hbalanced : Balanced '{' '}' (spaced [e.text]) := balanced_spaced fun part hpart => by
    rw [List.mem_singleton.1 hpart]
    exact Word.balanced_block _ e.balanced_content
  have hblock := blockParts?_block descriptionsWord hbalanced []
  rw [List.append_nil] at hblock
  have hsection : Locale.parse e.source =
      OrderedMap.ofList (descriptionRecords (spaced [e.text])) := by
    have hadd : Locale.addParts [] (descriptionsWord.chars, spaced [e.text]) =
        OrderedMap.ofList (descriptionRecords (spaced [e.text])) := by
      unfold Locale.addParts
      exact if_pos rfl
    rw [parse_eq_foldl, DirectEntry.source,
      collect_of_read hblock (List.length_pos_iff.2 (Word.field_ne_nil _ _)), collect,
      List.foldl_cons, List.foldl_nil, hadd]
  rw [hsection, descriptionRecords_direct]
  split <;> rfl

/-- An entry under the descriptions is recorded as it was written exactly if all of its tables are
called `text`. If one is not, the tables are recorded in its place, each as an entry of its own that
has the entry's key for its category. -/
theorem parse_source_eq_iff (e : DirectEntry) :
    (Locale.parse e.source = [(String.ofList e.key.chars, e.entry)] ↔
      ∀ t ∈ e.further, t.name.chars = "text".toList) ∧
    ((∃ t ∈ e.further, t.name.chars ≠ "text".toList) →
      Locale.parse e.source = OrderedMap.ofList e.innerRecords) := by
  have hall : e.further.all (·.name.chars = "text".toList) = true ↔
      ∀ t ∈ e.further, t.name.chars = "text".toList := by
    simp only [List.all_eq_true, decide_eq_true_iff]
  have hother : (∃ t ∈ e.further, t.name.chars ≠ "text".toList) →
      Locale.parse e.source = OrderedMap.ofList e.innerRecords := fun ⟨t, ht, hname⟩ => by
    rw [parse_source_eq_ite, if_neg fun h => hname (hall.1 h t ht)]
  refine ⟨⟨fun hread => by_contra fun hnot => ?_, fun h => ?_⟩, hother⟩
  · -- the table of another name and that of the lines have two keys, the entry itself has one
    obtain ⟨t, ht, hname⟩ : ∃ t ∈ e.further, t.name.chars ≠ "text".toList := by
      simpa only [not_forall, exists_prop] using hnot
    rw [hother ⟨t, ht, hname⟩] at hread
    have hkey : ∀ inner ∈ e.tables, inner.name.chars = e.key.chars := fun inner hinner => by
      have hmem : String.ofList inner.name.chars ∈
          (OrderedMap.ofList e.innerRecords).map (·.1) := by
        rw [keys_ofList, List.mem_eraseDups, DirectEntry.innerRecords, List.map_map]
        exact List.mem_map_of_mem hinner
      rw [hread, List.map_singleton, List.mem_singleton] at hmem
      exact String.ofList_injective hmem
    exact hname ((hkey t (List.mem_cons_of_mem _ ht)).trans
      (hkey _ List.mem_cons_self).symm)
  · rw [parse_source_eq_ite, if_pos (hall.2 h)]

/-! ## A table of unlock hints -/

def unlockEntry : DirectEntry where
  key := { chars := ['j'], ne_nil := by decide, isWordChar := forall_isWordChar (by decide) }
  name := { chars := ['N'], noSign := by decide, balanced := balanced_of_forall_ne (by simp) }
  lines := [{ chars := ['a'], noSign := by decide, balanced := balanced_of_forall_ne (by simp) }]
  further :=
    [{ name :=
        { chars := "unlock".toList, ne_nil := by decide
          isWordChar := forall_isWordChar (by decide) }
       content := " \x22u\x22 ".toList
       balanced := balanced_of_forall_ne (by simp) }]

/-- An entry with a name, a line and a table of unlock hints: both tables are recorded as entries
without a name or a line, and the entry is not. -/
theorem unlockEntry_not_recorded :
    unlockEntry.source =
      ("descriptions = \x7b j = \x7b name = \x22N\x22, text = \x7b \x22a\x22 \x7d, " ++
        "unlock = \x7b \x22u\x22 \x7d \x7d \x7d").toList ∧
    Locale.parse unlockEntry.source = [("text", ⟨"", [], "j"⟩), ("unlock", ⟨"", [], "j"⟩)] ∧
    Locale.parse unlockEntry.source ≠ [("j", ⟨"N", ["a"], "descriptions"⟩)] := by
  decide +kernel

end ModAlmanac.Source
