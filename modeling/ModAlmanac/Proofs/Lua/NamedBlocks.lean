import ModAlmanac.Lua.NamedBlock
import ModAlmanac.Proofs.Lua.Blocks
import ModAlmanac.Proofs.Lua.Quoted
import ModAlmanac.Proofs.Number.Written
import ModAlmanac.Proofs.Text.Blank
import ModAlmanac.Proofs.Text.Skipping
import ModAlmanac.Value

/-!
# The named blocks of a written text

Names and contents of the blocks of a text do not depend on where the text stands, so they are what a
search collects (`map_parts_namedBlocks`). A search for blocks passes over a text without an equality
sign (`passes_blockParts`) and over quoted fields (`passes_quotedField`), and takes a block whose
braces balance as a whole (`blockParts?_block`).

Parts that are separated by commas are collected one by one (`collect_commaSeparated`).
-/

namespace ModAlmanac.Lua

open Number Text

/-! ## Blocks without their places -/

def NamedBlock.parts (block : NamedBlock) : List Char × List Char :=
  (block.name, block.content)

/-- The name and the content of a block at the front, and the text behind it. -/
def blockParts? (s : List Char) : Option ((List Char × List Char) × List Char) :=
  (openBlock? s).bind fun (name, body) =>
    (closeBrace body).map fun (content, after) => ((name, content), after)

theorem map_parts_read? (offset : Nat) (s : List Char) :
    (NamedBlock.read? offset s).map (fun (block, after) => (block.parts, after)) =
      blockParts? s := by
  unfold NamedBlock.read? blockParts?
  cases openBlock? s with
  | none => rfl
  | some opened =>
    obtain ⟨name, body⟩ := opened
    dsimp only [Option.bind_some]
    cases closeBrace body <;> rfl

theorem length_lt_of_blockParts? {s after : List Char} {parts : List Char × List Char}
    (h : blockParts? s = some (parts, after)) : after.length < s.length := by
  rw [← map_parts_read? 0] at h
  obtain ⟨⟨block, rest⟩, hread, heq⟩ := Option.map_eq_some_iff.1 h
  cases heq
  exact NamedBlock.length_lt_of_read? hread

theorem blockParts?_of_read? {offset : Nat} {s after : List Char} {block : NamedBlock}
    (h : NamedBlock.read? offset s = some (block, after)) :
    blockParts? s = some (block.parts, after) := by
  rw [← map_parts_read? offset, h]
  rfl

/-- The search for a block passes over the text in front of it, and reads it there. -/
theorem exists_read_of_next? {offset : Nat} {s before after : List Char} {block : NamedBlock}
    (h : NamedBlock.next? offset s = some (before, block, after)) :
    ∃ found, s = before ++ found ∧ Passes blockParts? before found ∧
      NamedBlock.read? (offset + before.length) found = some (block, after) := by
  induction s generalizing offset before with
  | nil => cases h
  | cons c s ih =>
    have hparts := map_parts_read? offset (c :: s)
    rw [NamedBlock.next?] at h
    split at h
    · next hread =>
      cases h
      exact ⟨c :: s, rfl, passes_nil _, hread⟩
    · next hread =>
      rw [hread] at hparts
      obtain ⟨⟨front, b, a⟩, hnext, heq⟩ := Option.map_eq_some_iff.1 h
      cases heq
      obtain ⟨found, rfl, hpasses, hfound⟩ := ih hnext
      have hplace : offset + (c :: front).length = offset + 1 + front.length := by
        rw [List.length_cons]
        omega
      exact ⟨found, rfl, .cons hparts.symm hpasses, hplace ▸ hfound⟩

/-- The search for a block that finds none passes over the whole text. -/
theorem passes_of_next?_eq_none {offset : Nat} {s : List Char}
    (h : NamedBlock.next? offset s = none) : Passes blockParts? s [] := by
  induction s generalizing offset with
  | nil => exact passes_nil []
  | cons c s ih =>
    have hparts := map_parts_read? offset (c :: s)
    rw [NamedBlock.next?] at h
    split at h
    · cases h
    · next hread =>
      rw [hread] at hparts
      refine .cons ?_ (ih (Option.map_eq_none_iff.1 h))
      rw [List.append_nil]
      exact hparts.symm

theorem collect_of_next? {offset : Nat} {s before after : List Char} {block : NamedBlock}
    (h : NamedBlock.next? offset s = some (before, block, after)) :
    collect blockParts? s = block.parts :: collect blockParts? after := by
  obtain ⟨found, rfl, hpasses, hread⟩ := exists_read_of_next? h
  have hparts := blockParts?_of_read? hread
  rw [collect_append hpasses]
  exact collect_of_read hparts (length_lt_of_blockParts? hparts)

theorem map_parts_siblings (offset : Nat) (s : List Char) :
    (NamedBlock.siblings offset s).map NamedBlock.parts = collect blockParts? s := by
  induction offset, s using NamedBlock.siblings.induct with
  | case1 offset s h => rw [NamedBlock.siblings, h, collect_eq_nil (passes_of_next?_eq_none h)]; rfl
  | case2 offset s before block after h ih =>
    rw [NamedBlock.siblings, h, collect_of_next? h, ← ih]
    rfl

theorem map_parts_namedBlocks (s : List Char) :
    (namedBlocks s).map NamedBlock.parts = collect blockParts? s :=
  map_parts_siblings 0 s

/-! ## Words and fields -/

/-- A name: word characters, at least one. -/
structure Word where
  chars : List Char
  ne_nil : chars ≠ []
  isWordChar : ∀ c ∈ chars, isWordChar c = true

/-- A field `name = value`. -/
def Word.field (w : Word) (value : List Char) : List Char :=
  w.chars ++ (' ' :: '=' :: ' ' :: value)

def Word.block (w : Word) (inner : List Char) : List Char :=
  w.field ('{' :: inner ++ ['}'])

section

variable (w : Word) {value : List Char}

theorem Word.field_ne_nil (value : List Char) : w.field value ≠ [] :=
  List.append_ne_nil_of_left_ne_nil w.ne_nil _

theorem Word.field_append (value rest : List Char) :
    w.field value ++ rest = w.field (value ++ rest) := by
  simp [Word.field]

theorem Word.takeWhile_field : (w.field value).takeWhile Text.isWordChar = w.chars :=
  takeWhile_append_of_stops w.isWordChar (stopsBefore_cons rfl _)

theorem Word.dropWhile_field :
    (w.field value).dropWhile Text.isWordChar = ' ' :: '=' :: ' ' :: value :=
  dropWhile_append_of_stops w.isWordChar (stopsBefore_cons rfl _)

theorem afterSign?_sign (value : List Char) :
    afterSign? (' ' :: '=' :: ' ' :: value) = some (dropBlank value) := rfl

theorem openBlock?_field :
    openBlock? (w.field value) =
      (afterBrace? (dropBlank value)).map fun body => (w.chars, body) := by
  unfold openBlock?
  rw [w.takeWhile_field, w.dropWhile_field, afterSign?_sign]
  split
  · next h => exact absurd h w.ne_nil
  · rfl

/-- A block whose braces balance is read as a whole. -/
theorem blockParts?_block {inner : List Char} (h : Balanced '{' '}' inner) (rest : List Char) :
    blockParts? (w.block inner ++ rest) = some ((w.chars, inner), rest) := by
  have hfield : w.block inner ++ rest = w.field ('{' :: (inner ++ '}' :: rest)) := by
    simp [Word.block, Word.field]
  rw [hfield, blockParts?, openBlock?_field]
  change ((closeBrace (inner ++ '}' :: rest)).map _) = _
  rw [closeBrace_balanced h]
  rfl

theorem blockParts?_field_eq_none (h : afterBrace? (dropBlank value) = none) :
    blockParts? (w.field value) = none := by
  rw [blockParts?, openBlock?_field, h]
  rfl

end

/-! ## What a search for blocks passes over -/

theorem afterSign?_append_eq_none {s rest : List Char} (hs : '=' ∉ s)
    (hrest : afterSign? rest = none) : afterSign? (s ++ rest) = none := by
  induction s with
  | nil => exact hrest
  | cons c s ih =>
    obtain ⟨hc, hs⟩ := not_or.1 (List.mem_cons.not.1 hs)
    cases hblank : isBlank c with
    | true =>
      have htail := ih hs
      unfold afterSign? dropBlank at htail ⊢
      rw [List.cons_append, List.dropWhile_cons_of_pos hblank]
      exact htail
    | false =>
      unfold afterSign? dropBlank
      rw [List.cons_append, List.dropWhile_cons_of_neg (by simp [hblank])]
      split
      · next heq => exact absurd (List.cons.inj heq).1.symm hc
      · rfl

theorem blockParts?_eq_none {s : List Char} (h : afterSign? (s.dropWhile isWordChar) = none) :
    blockParts? s = none := by
  have hopen : openBlock? s = none := by
    unfold openBlock?
    split
    · rfl
    · rw [h]
      rfl
  rw [blockParts?, hopen]
  rfl

theorem blockParts?_cons_eq_none {c : Char} (hc : isWordChar c = false) (s : List Char) :
    blockParts? (c :: s) = none := by
  have hopen : openBlock? (c :: s) = none := by
    unfold openBlock?
    rw [List.takeWhile_cons_of_neg (by simp [hc])]
  rw [blockParts?, hopen]
  rfl

/-- A text without an equality sign is passed over if it does not end in a word. -/
theorem passes_blockParts {front rest : List Char} (hsign : '=' ∉ front)
    (hlast : ∀ c, front.getLast? = some c → isWordChar c = false)
    (hrest : afterSign? rest = none) : Passes blockParts? front rest := by
  intro t hne ht
  have hdrop : t.dropWhile isWordChar ≠ [] := by
    intro hnil
    have hall := List.dropWhile_eq_nil_iff.1 hnil
    have hword := hall _ (List.getLast_mem hne)
    have hend := hlast (t.getLast hne) (by
      obtain ⟨u, rfl⟩ := ht
      rw [List.getLast?_append_of_ne_nil _ hne, List.getLast?_eq_some_getLast hne])
    rw [hend] at hword
    cases hword
  apply blockParts?_eq_none
  rw [List.dropWhile_append, if_neg (by simpa using hdrop)]
  exact afterSign?_append_eq_none
    (fun hmem => hsign (ht.subset ((List.dropWhile_sublist _).subset hmem))) hrest

/-- A word in front of something other than an opening brace is passed over. -/
theorem passes_field {w : Word} {value : List Char} (h : afterBrace? (dropBlank value) = none) :
    Passes blockParts? w.chars (' ' :: '=' :: ' ' :: value) := by
  intro t hne ht
  have hword : ∀ c ∈ t, isWordChar c = true := fun c hc => w.isWordChar c (ht.subset hc)
  exact blockParts?_field_eq_none ⟨t, hne, hword⟩ h

theorem passes_quotedField (w : Word) {s rest : List Char} (hs : '=' ∉ s)
    (hrest : afterSign? rest = none) : Passes blockParts? (w.field (quote s)) rest := by
  have hsign : Passes blockParts? [' ', '=', ' '] (quote s ++ rest) :=
    passes_of_forall fun c hc t => by
      simp only [List.mem_cons, List.not_mem_nil, or_false] at hc
      rcases hc with rfl | rfl | rfl <;> exact blockParts?_cons_eq_none rfl t
  have hquote : Passes blockParts? (quote s) rest := by
    refine passes_blockParts (sign_not_mem_quote hs) (fun c hc => ?_) hrest
    rw [quote, List.getLast?_append_of_ne_nil _ (List.cons_ne_nil _ _)] at hc
    cases hc
    rfl
  exact Passes.append (passes_field (w := w) rfl) (hsign.append hquote)

/-! ## Fields looked for by name -/

theorem fieldValue?_field {name : String} {w : Word} (h : w.chars = name.toList)
    (value : List Char) : fieldValue? name (w.field value) = some (dropBlank value) := by
  rw [fieldValue?, Word.field, h, isPrefixOf?_append, Option.bind_some, afterSign?_sign]

/-- A field's value is found behind its name, whatever white space stands around the sign. -/
theorem fieldValue?_spaced (name : String) {blank gap : List Char}
    (hblank : ∀ c ∈ blank, isBlank c = true) (hgap : ∀ c ∈ gap, isBlank c = true) {c : Char}
    (hc : isBlank c = false) (rest : List Char) :
    fieldValue? name (name.toList ++ (blank ++ '=' :: (gap ++ c :: rest))) = some (c :: rest) := by
  rw [fieldValue?, isPrefixOf?_append, Option.bind_some, afterSign?,
    dropBlank_append hblank (by decide)]
  exact congrArg some (dropBlank_append hgap hc rest)

theorem fieldValue?_eq_none {name : String} {s : List Char} (h : ¬ name.toList <+: s) :
    fieldValue? name s = none := by
  rw [fieldValue?, isPrefixOf?_eq_none_iff.2 h]
  rfl

theorem fieldValue?_cons_eq_none {name : String} {n c : Char} {more : List Char}
    (hname : name.toList = n :: more) (hc : c ≠ n) (s : List Char) :
    fieldValue? name (c :: s) = none := by
  apply fieldValue?_eq_none
  rw [hname]
  rintro ⟨rest, heq⟩
  exact hc (List.cons.inj heq).1.symm

section

variable {name : String} {front rest : List Char}

/-- A text that begins with another letter is passed over in the search for a field. -/
theorem passes_of_head {c : Char} {more : List Char} (hname : name.toList = c :: more)
    (hfront : c ∉ front) : Passes (fieldValue? name) front rest :=
  passes_of_forall fun _ hd s => fieldValue?_cons_eq_none hname (fun heq => hfront (heq ▸ hd)) s

/-- A text without an equality sign is passed over if the name does not end in its last
character. -/
theorem passes_fieldValue (hsign : '=' ∉ front) {c : Char} (hlast : front.getLast? = some c)
    (hname : c ∉ name.toList) (hrest : afterSign? rest = none) :
    Passes (fieldValue? name) front rest := by
  intro t htne ht
  have htlast : t.getLast htne = c := by
    obtain ⟨u, rfl⟩ := ht
    rw [List.getLast?_append_of_ne_nil _ htne, List.getLast?_eq_some_getLast htne] at hlast
    exact Option.some.inj hlast
  unfold fieldValue?
  cases hstart : name.toList.isPrefixOf? (t ++ rest) with
  | none => rfl
  | some behind =>
    have heq := eq_append_of_isPrefixOf? hstart
    -- the name ends inside of the text, where its last character does not
    rcases List.append_eq_append_iff.1 heq with ⟨u, hu, -⟩ | ⟨u, hu, hbehind⟩
    · exact absurd (hu ▸ List.mem_append_left _ (htlast ▸ List.getLast_mem htne)) hname
    · have hmem : '=' ∉ u := fun hmem => hsign (ht.subset (hu ▸ List.mem_append_right _ hmem))
      rw [Option.bind_some, hbehind]
      exact afterSign?_append_eq_none hmem hrest

end

/-! ## Separated parts -/

theorem commaSeparated_cons_cons (s t : List Char) (more : List (List Char)) :
    commaSeparated (s :: t :: more) = s ++ ',' :: ' ' :: commaSeparated (t :: more) := rfl

/-- Parts between two spaces, separated by commas. -/
def spaced (parts : List (List Char)) : List Char :=
  ' ' :: commaSeparated parts ++ [' ']

section

variable {α β : Type} {read : List Char → Option (α × List Char)} {render : β → List Char}
  {value : β → α} {items : List β}

theorem collect_commaSeparated (hne : ∀ item ∈ items, render item ≠ [])
    (hread : ∀ item ∈ items, ∀ rest, read (render item ++ rest) = some (value item, rest))
    (hseparator : ∀ c, c = ',' ∨ c = ' ' → ∀ s, read (c :: s) = none) (rest : List Char) :
    collect read (commaSeparated (items.map render) ++ rest) =
      items.map value ++ collect read rest := by
  have hstep : ∀ item ∈ items, ∀ rest,
      collect read (render item ++ rest) = value item :: collect read rest := by
    intro item hitem rest
    refine collect_of_read (hread item hitem rest) ?_
    have := List.length_pos_iff.2 (hne item hitem)
    rw [List.length_append]
    omega
  clear hread hne
  induction items with
  | nil => rfl
  | cons item items ih =>
    obtain ⟨hitem, hitems⟩ := List.forall_mem_cons.1 hstep
    cases items with
    | nil => exact hitem rest
    | cons next items =>
      have hpass : Passes read [',', ' '] (commaSeparated ((next :: items).map render) ++ rest) :=
        passes_of_forall fun c hc s => hseparator c (by simpa using hc) s
      rw [List.map_cons, List.map_cons, commaSeparated_cons_cons, List.append_assoc, hitem]
      exact congrArg (value item :: ·) ((collect_append hpass).trans (ih hitems))

/-- Parts that are read one by one are collected in order. -/
theorem collect_spaced (hne : ∀ item ∈ items, render item ≠ [])
    (hread : ∀ item ∈ items, ∀ rest, read (render item ++ rest) = some (value item, rest))
    (hseparator : ∀ c, c = ',' ∨ c = ' ' → ∀ s, read (c :: s) = none) (rest : List Char) :
    collect read (spaced (items.map render) ++ rest) = items.map value ++ collect read rest := by
  have hspace : ∀ rest, Passes read [' '] rest := fun rest =>
    passes_of_forall fun c hc s => hseparator c (.inr (List.mem_singleton.1 hc)) s
  have hfront := collect_append (hspace (commaSeparated (items.map render) ++ (' ' :: rest)))
  have hbehind := collect_append (hspace rest)
  have hparts := collect_commaSeparated hne hread hseparator (' ' :: rest)
  rw [spaced, List.append_assoc]
  exact hfront.trans (hparts.trans (congrArg _ hbehind))

end

end ModAlmanac.Lua
