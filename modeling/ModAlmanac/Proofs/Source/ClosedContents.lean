import ModAlmanac.Proofs.Lua.SiblingScan
import ModAlmanac.Proofs.Source.Declarations
import ModAlmanac.Source.Config
import ModAlmanac.Source.Locale

/-!
# Contents in which everything closes

A text can open blocks whose braces never close, and a search passes over these. What stands
between the braces of a block cannot: it is balanced, and a pair that opens in a balanced text is
closed within it (`isSome_closeBrace_of_balanced`). Every search comes to a place behind a brace
(`suffix_of_openBlock?`, `suffix_of_fieldTable?`, `suffix_of_configInside?`), so that in such a
content it passes over nothing (`allClosed_of_balanced`). Sections, groups and entries are contents
of this kind, and so is the body of a declaration, off which only white space is trimmed
(`contents_allClosed`).
-/

namespace ModAlmanac.Lua

open Text

/-! ## First places -/

/-- The first place at or behind another one where a reader finds something. -/
structure IsFirstFind {α : Type} (read : List Char → Option α) (text : List Char) (pos i : Nat) :
    Prop where
  le : pos ≤ i
  finds : (read (text.drop i)).isSome
  first : ∀ j, pos ≤ j → j < i → read (text.drop j) = none

/-- From any place the block is found that opens first among those that close. -/
theorem nextNamedBlock_cases (text : List Char) (pos : Int) :
    (nextNamedBlock text pos = (none, text.length) ∧
        ∀ i, pos.toNat ≤ i → blockParts? (text.drop i) = none) ∨
      ∃ block, nextNamedBlock text pos = (some block, block.stop + 1) ∧
        IsFirstFind blockParts? text pos.toNat block.start := by
  have hdrop : ∀ i, pos.toNat ≤ i →
      text.drop i = (text.drop pos.toNat).drop (i - pos.toNat) := fun i hi => by
    rw [List.drop_drop, Nat.add_sub_cancel' hi]
  rw [nextNamedBlock]
  cases hnext : NamedBlock.next? pos.toNat (text.drop pos.toNat) with
  | none =>
    refine .inl ⟨rfl, fun i hi => ?_⟩
    have hpasses := passes_of_next?_eq_none hnext
    rw [hdrop i hi]
    rcases Nat.lt_or_ge (i - pos.toNat) (text.drop pos.toNat).length with hlt | hge
    · have hnone := hpasses.read_drop hlt
      rwa [List.append_nil] at hnone
    · rw [List.drop_of_length_le hge]
      rfl
  | some found =>
    obtain ⟨before, block, after⟩ := found
    obtain ⟨o, hfound⟩ := exists_found hnext
    have hstart := hfound.start_eq
    refine .inr ⟨block, rfl, ⟨by omega, ?_, fun i hi hlt => ?_⟩⟩
    · rw [hdrop _ (by omega), hfound.text_eq, List.drop_left' (by omega), blockParts?_lead,
        hfound.closes]
      rfl
    · rw [hdrop i hi, hfound.text_eq]
      exact hfound.passes.read_drop (by omega)

/-! ## What stands behind a brace -/

theorem suffix_of_fieldTable? {name : String} {s inside : List Char}
    (h : fieldTable? name s = some inside) : '{' :: inside <:+ s := by
  obtain ⟨value, hvalue, hbrace⟩ := Option.bind_eq_some_iff.1 h
  obtain ⟨rest, hname, hsign⟩ := Option.bind_eq_some_iff.1 hvalue
  rw [← eq_of_afterBrace? hbrace, eq_append_of_isPrefixOf? hname]
  exact (suffix_of_afterSign? hsign).trans (List.suffix_append _ _)

theorem isSome_closeBrace_of_balanced {content inside : List Char} (h : Balanced '{' '}' content)
    (hinside : '{' :: inside <:+ content) : (closeBrace inside).isSome := by
  obtain ⟨inner, after, hclose⟩ := h.exists_closeNested (by decide) hinside
  exact Option.isSome_of_eq_some hclose

theorem openBlock?_eq_none_of_balanced {content t : List Char} (h : Balanced '{' '}' content)
    (ht : t <:+ content) (hnone : blockParts? t = none) : openBlock? t = none := by
  cases hopen : openBlock? t with
  | none => rfl
  | some opened =>
    have hclosed := isSome_closeBrace_of_balanced h ((suffix_of_openBlock? hopen).trans ht)
    rw [blockParts?_of_openBlock? hopen, Option.map_eq_none_iff] at hnone
    rw [hnone] at hclosed
    cases hclosed

end ModAlmanac.Lua

namespace ModAlmanac.Source

open Lua Text

theorem suffix_of_configInside? {inName : Bool} {s inside : List Char}
    (h : configInside? inName s = some inside) : '{' :: inside <:+ s := by
  induction s generalizing inName with
  | nil => cases h
  | cons c s ih =>
    rw [configInside?] at h
    split at h
    · next hhere =>
      cases h
      split at hhere
      · cases hhere
      · exact suffix_of_fieldTable? hhere
    · exact (ih h).trans (List.suffix_cons c s)

theorem balanced_trim {s : List Char} (h : Balanced '{' '}' s) : Balanced '{' '}' (trim s) := by
  obtain ⟨front, behind, hs, hfront, hbehind⟩ := exists_blanks_trim s
  have hblank : Balanced '{' '}' behind := balanced_of_forall_ne (ne_brace_of_isBlank hbehind)
  rw [hs, balanced_append_iff (ne_brace_of_isBlank hfront), ← List.append_nil behind] at h
  have htrim := h.exchange hblank balanced_nil
  rwa [List.append_nil, List.append_nil] at htrim

/-- The body of a declaration is what stands between two braces, trimmed. -/
theorem balanced_body {s : List Char} {d : Declaration} (h : d ∈ declarations s) :
    Balanced '{' '}' d.body.toList := by
  induction s using declarations.induct with
  | case1 s hkind =>
    simp only [declarations_unfold s, hkind] at h
    cases h
  | case2 s kind rest hkind hbrace =>
    simp only [declarations_unfold s, hkind, hbrace] at h
    cases h
  | case3 s kind rest hkind c inside hbrace hlt hclose ih =>
    simp only [declarations_unfold s, hkind, hbrace, hclose] at h
    exact ih h
  | case4 s kind rest hkind c inside hbrace hlt body after hclose hafter ih =>
    simp only [declarations_unfold s, hkind, hbrace, hclose] at h
    rcases List.mem_append.1 h with hd | hlater
    · obtain ⟨-, hbalanced⟩ := closeBrace_eq_some_iff.1 hclose
      obtain ⟨key, -, rfl⟩ := Option.map_eq_some_iff.1 (Option.mem_toList.1 hd)
      rw [String.toList_ofList]
      exact balanced_trim hbalanced
    · exact ih hlater

/-! ## Closed contents -/

/-- Everything that opens in a content is closed: a block can be extracted from each of its braces,
the search for a named block takes the first opening that it comes to and passes over none, and the
tables that the searches for lines and for a config come to first have their closing braces. -/
structure AllClosed (content : List Char) : Prop where
  braces : ∀ i : Nat, content[i]? = some '{' → (Block.extract? content i).isSome
  blocks : ∀ pos : Int,
    (nextNamedBlock content pos = (none, content.length) ∧
        ∀ i, pos.toNat ≤ i → openBlock? (content.drop i) = none) ∨
      ∃ block, nextNamedBlock content pos = (some block, block.stop + 1) ∧
        IsFirstFind openBlock? content pos.toNat block.start
  lines : ∀ inside, search (fieldTable? "text") content = some inside → (closeBrace inside).isSome
  config : ∀ inside, configInside? false content = some inside → (closeBrace inside).isSome

theorem allClosed_of_balanced {content : List Char} (h : Balanced '{' '}' content) :
    AllClosed content where
  braces i hbrace := by
    obtain ⟨hlt, hget⟩ := List.getElem?_eq_some_iff.1 hbrace
    have hdrop : content.drop i = '{' :: content.drop (i + 1) := by
      rw [List.drop_eq_getElem_cons hlt, hget]
    have hextract : Block.extract? (content.take i ++ ([] ++ '{' :: content.drop (i + 1)))
        (content.take i).length = _ := Block.extract?_append List.not_mem_nil _
    rw [List.nil_append, ← hdrop, List.take_append_drop, List.length_take, min_eq_left hlt.le]
      at hextract
    rw [hextract, Option.isSome_map]
    exact isSome_closeBrace_of_balanced h (hdrop ▸ List.drop_suffix i content)
  blocks pos := by
    -- what the search passes over opens nothing, since it would have found what opens there
    have hopen : ∀ i, blockParts? (content.drop i) = none → openBlock? (content.drop i) = none :=
      fun i => openBlock?_eq_none_of_balanced h (List.drop_suffix i content)
    rcases nextNamedBlock_cases content pos with ⟨hnone, hall⟩ | ⟨block, hfound, hfirst⟩
    · exact .inl ⟨hnone, fun i hi => hopen i (hall i hi)⟩
    · exact .inr ⟨block, hfound, hfirst.le, Option.isSome_of_isSome_bind hfirst.finds,
        fun j hj hlt => hopen j (hfirst.first j hj hlt)⟩
  lines inside hsearch := by
    obtain ⟨skipped, rest, rfl, hfield⟩ := exists_suffix_of_search hsearch
    exact isSome_closeBrace_of_balanced h
      ((suffix_of_fieldTable? hfield).trans (List.suffix_append skipped rest))
  config inside hconfig := isSome_closeBrace_of_balanced h (suffix_of_configInside? hconfig)

theorem allClosed_block {s : List Char} {block : NamedBlock} (h : block ∈ namedBlocks s) :
    AllClosed block.content := by
  obtain ⟨front, behind, hin⟩ := exists_standsIn h
  exact allClosed_of_balanced hin.balanced

/-- Everything that opens in a balanced text is closed. Whatever a text is like, it is so in all
that is taken out of it: in the content of each block that can be extracted, of each named block, of
the named blocks in that and of those in these, and in the body of each declaration. -/
theorem contents_allClosed (text : List Char) :
    (Balanced '{' '}' text → AllClosed text) ∧
      (∀ (start : Int) block, Block.extract? text start = some block → AllClosed block.content) ∧
        (∀ outer ∈ namedBlocks text, AllClosed outer.content ∧
          ∀ group ∈ namedBlocks outer.content, AllClosed group.content ∧
            ∀ entry ∈ namedBlocks group.content, AllClosed entry.content) ∧
          ∀ d ∈ declarations text, AllClosed d.body.toList := by
  refine ⟨allClosed_of_balanced, fun start block h => ?_, fun outer houter => ?_, fun d hd => ?_⟩
  · exact allClosed_of_balanced (Block.balanced_of_extract? h)
  · refine ⟨allClosed_block houter, fun group hgroup => ⟨allClosed_block hgroup, ?_⟩⟩
    exact fun entry hentry => allClosed_block hentry
  · exact allClosed_of_balanced (balanced_body hd)

/-- A text whose first brace is never closed. -/
def brokenText : List Char :=
  "x = \x7b SMODS.Joker \x7b key = \x27j\x27, config = \x7b a = \x7b 1 \x7d \x7d \x7d ".toList ++
    ("descriptions = \x7b Joker = \x7b j = \x7b text = ".toList ++
      "\x7b \x27\x7bC:red\x7da\x7b\x7d\x27 \x7d \x7d \x7d \x7d".toList)

/-- The search for a block passes over the first opening of that text, but nothing is passed over in
the declaration and in the entry behind it. -/
theorem brokenText_contents :
    let described : NamedBlock :=
      { name := "descriptions".toList
        content :=
          " Joker = \x7b j = \x7b text = \x7b \x27\x7bC:red\x7da\x7b\x7d\x27 \x7d \x7d \x7d ".toList
        start := 56, stop := 117 }
    let group : NamedBlock :=
      { name := "Joker".toList
        content := " j = \x7b text = \x7b \x27\x7bC:red\x7da\x7b\x7d\x27 \x7d \x7d ".toList
        start := 1, stop := 43 }
    let entry : NamedBlock :=
      { name := "j".toList, content := " text = \x7b \x27\x7bC:red\x7da\x7b\x7d\x27 \x7d ".toList
        start := 1, stop := 31 }
    let declared : Declaration :=
      { kind := "Joker", key := "j", atlasKey := none, position := none
        body := "key = \x27j\x27, config = \x7b a = \x7b 1 \x7d \x7d" }
    (IsFirstFind openBlock? brokenText 0 0 ∧ (nextNamedBlock brokenText 0).2 = 53) ∧
      (Balanced '{' '}' described.content ∧ AllClosed described.content) ∧
        (Block.extract? brokenText 0 = none ∧
          ∃ block, Block.extract? brokenText 5 = some block ∧ AllClosed block.content) ∧
          (described ∈ namedBlocks brokenText ∧ group ∈ namedBlocks described.content ∧
            entry ∈ namedBlocks group.content ∧ AllClosed entry.content) ∧
            declared ∈ declarations brokenText ∧ AllClosed declared.body.toList := by
  intro described group entry declared
  have hfirst : IsFirstFind openBlock? brokenText 0 0 :=
    ⟨Nat.le_refl 0, by decide +kernel, fun j _ hlt => absurd hlt (Nat.not_lt_zero j)⟩
  have hnext : (nextNamedBlock brokenText 0).2 = 53 := by decide +kernel
  have hclose : closeNested '{' '}' 0 (described.content ++ ['}']) =
      some (described.content, []) := by decide +kernel
  obtain ⟨-, hbalanced⟩ := (closeNested_eq_some_iff (by decide)).1 hclose
  have hnone : Block.extract? brokenText 0 = none := by decide +kernel
  obtain ⟨block, hblock⟩ := Option.isSome_iff_exists.1
    (show (Block.extract? brokenText 5).isSome by decide +kernel)
  have hdescribed : described ∈ namedBlocks brokenText := by decide +kernel
  have hgroup : group ∈ namedBlocks described.content := by decide +kernel
  have hentry : entry ∈ namedBlocks group.content := by decide +kernel
  have hmem : declared ∈ declarations brokenText := by decide +kernel
  obtain ⟨-, hextracted, hblocks, hdeclared⟩ := contents_allClosed brokenText
  have hclosed := ((hblocks described hdescribed).2 group hgroup).2 entry hentry
  exact ⟨⟨hfirst, hnext⟩, ⟨hbalanced, (contents_allClosed described.content).1 hbalanced⟩,
    ⟨hnone, block, hblock, hextracted 5 block hblock⟩,
    ⟨hdescribed, hgroup, hentry, hclosed⟩, hmem, hdeclared declared hmem⟩

end ModAlmanac.Source
