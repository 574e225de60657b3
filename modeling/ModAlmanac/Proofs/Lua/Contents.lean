import ModAlmanac.Proofs.Lua.NamedBlocks

/-!
# Blocks with another content

What stands between the braces of a block can be exchanged for any other text whose braces balance.
The search then finds the same blocks as before, and this one with the other content
(`exists_standsIn`).

Whatever opens in front of the block is either closed in front of it, where the exchange is not
seen, or stays open across it. In the second case it is closed behind the block or not at all, and
a balanced content has no part in that (`closesAlike_exchange`). So the search comes to the same
openings (`StandsFirst`), and by induction on the blocks in front of it the block is found where it
was.
-/

namespace ModAlmanac.Lua

open Text

/-! ## Openings -/

theorem afterSign?_of_sign {s more : List Char} (h : dropBlank s = '=' :: more) :
    afterSign? s = some (dropBlank more) := by
  rw [afterSign?, h]
  rfl

theorem afterSign?_of_ne {s more : List Char} {c : Char} (h : dropBlank s = c :: more)
    (hc : c ≠ '=') : afterSign? s = none := by
  unfold afterSign?
  split
  · next heq => exact absurd (List.cons.inj (h.symm.trans heq)).1 hc
  · rfl

theorem afterBrace?_append {value : List Char} (hne : value ≠ []) (rest : List Char) :
    afterBrace? (value ++ rest) = (afterBrace? value).map (· ++ rest) := by
  obtain ⟨c, more, rfl⟩ := List.exists_cons_of_ne_nil hne
  by_cases hbrace : c = '{'
  · subst hbrace
    rfl
  · unfold afterBrace?
    split
    · next heq => exact absurd (List.cons.inj heq).1 hbrace
    · split
      · next heq => exact absurd (List.cons.inj heq).1 hbrace
      · rfl

section

variable {front : List Char} (hbrace : '{' ∈ front) (rest : List Char)

include hbrace

theorem afterSign?_append :
    afterSign? (front ++ rest) = (afterSign? front).map (· ++ rest) ∧
      ∀ value ∈ afterSign? front, '{' ∈ value := by
  have hdrop : dropBlank (front ++ rest) = dropBlank front ++ rest :=
    dropWhile_append_of_mem hbrace (by decide) rest
  have hmem : '{' ∈ dropBlank front := mem_dropWhile hbrace (by decide)
  obtain ⟨c, more, hcons⟩ := List.exists_cons_of_ne_nil (List.ne_nil_of_mem hmem)
  rw [hcons] at hdrop hmem
  rw [List.cons_append] at hdrop
  by_cases hsign : c = '='
  · subst hsign
    have hmore : '{' ∈ more := (List.mem_cons.1 hmem).resolve_left (by decide)
    have hbehind : dropBlank (more ++ rest) = dropBlank more ++ rest :=
      dropWhile_append_of_mem hmore (by decide) rest
    rw [afterSign?_of_sign hdrop, afterSign?_of_sign hcons, hbehind]
    refine ⟨rfl, fun value hvalue => ?_⟩
    cases hvalue
    exact mem_dropWhile hmore (by decide)
  · rw [afterSign?_of_ne hdrop hsign, afterSign?_of_ne hcons hsign]
    exact ⟨rfl, fun value hvalue => by cases hvalue⟩

/-- Whether a block opens in front of a brace is told by the text up to that brace. -/
theorem openBlock?_append :
    openBlock? (front ++ rest) =
      (openBlock? front).map fun (name, body) => (name, body ++ rest) := by
  have hword : isWordChar '{' = false := rfl
  have hmem : '{' ∈ front.dropWhile isWordChar := mem_dropWhile hbrace hword
  obtain ⟨hsign, hvalue⟩ := afterSign?_append hmem rest
  unfold openBlock?
  rw [takeWhile_append_of_mem hbrace hword, dropWhile_append_of_mem hbrace hword, hsign]
  split
  · rfl
  · cases h : afterSign? (front.dropWhile isWordChar) with
    | none => rfl
    | some value =>
      rw [Option.map_some, Option.bind_some, Option.bind_some,
        afterBrace?_append (List.ne_nil_of_mem (hvalue value h)), Option.map_map, Option.map_map]
      rfl

end

theorem suffix_of_afterSign? {s value : List Char} (h : afterSign? s = some value) :
    value <:+ s := by
  unfold afterSign? at h
  split at h
  · next more hdrop =>
    cases h
    have hmore : '=' :: more <:+ s := hdrop ▸ List.dropWhile_suffix isBlank
    exact ((List.dropWhile_suffix isBlank).trans (List.suffix_cons '=' more)).trans hmore
  · cases h

theorem suffix_of_openBlock? {s name body : List Char} (h : openBlock? s = some (name, body)) :
    '{' :: body <:+ s := by
  unfold openBlock? at h
  split at h
  · cases h
  · obtain ⟨inside, hinside, heq⟩ := Option.map_eq_some_iff.1 h
    cases heq
    obtain ⟨value, hsign, hbrace⟩ := Option.bind_eq_some_iff.1 hinside
    unfold afterBrace? at hbrace
    split at hbrace
    · cases hbrace
      exact (suffix_of_afterSign? hsign).trans (List.dropWhile_suffix isWordChar)
    · cases hbrace

/-- The opening of a block ends in a brace, and opens the block in front of any text. -/
theorem exists_opening {s name body : List Char} (h : openBlock? s = some (name, body)) :
    ∃ opening, s = opening ++ body ∧ '{' ∈ opening ∧
      ∀ rest, openBlock? (opening ++ rest) = some (name, rest) := by
  have hsuffix := suffix_of_openBlock? h
  obtain ⟨lead, rfl⟩ := hsuffix
  have hbrace : '{' ∈ lead ++ ['{'] := by simp
  rw [List.append_cons] at h
  refine ⟨lead ++ ['{'], List.append_cons lead '{' body, hbrace, fun rest => ?_⟩
  rw [openBlock?_append hbrace] at h ⊢
  obtain ⟨⟨n, b⟩, hopen, heq⟩ := Option.map_eq_some_iff.1 h
  obtain ⟨rfl, hbody⟩ := Prod.mk.inj heq
  rw [List.append_left_eq_self.1 hbody] at hopen
  rw [hopen]
  rfl

/-! ## One block with another content -/

theorem blockParts?_of_openBlock? {s name body : List Char}
    (h : openBlock? s = some (name, body)) :
    blockParts? s = (closeBrace body).map fun (content, after) => ((name, content), after) := by
  rw [blockParts?, h]
  rfl

/-- A block at the front is an opening with a balanced content and a closing brace behind it. -/
theorem openBlock?_of_blockParts? {s name content after : List Char}
    (h : blockParts? s = some ((name, content), after)) :
    openBlock? s = some (name, content ++ '}' :: after) ∧ Balanced '{' '}' content := by
  obtain ⟨⟨opened, body⟩, hopen, hclose⟩ := Option.bind_eq_some_iff.1 h
  obtain ⟨⟨inside, rest⟩, hinside, heq⟩ := Option.map_eq_some_iff.1 hclose
  cases heq
  obtain ⟨rfl, hbalanced⟩ := closeBrace_eq_some_iff.1 hinside
  exact ⟨hopen, hbalanced⟩

theorem places_of_read? {offset : Nat} {s after : List Char} {block : NamedBlock}
    (h : NamedBlock.read? offset s = some (block, after)) :
    block.start = offset ∧ block.stop = offset + (s.length - after.length) - 1 := by
  obtain ⟨opened, -, hclose⟩ := Option.bind_eq_some_iff.1 h
  obtain ⟨closed, -, heq⟩ := Option.map_eq_some_iff.1 hclose
  cases heq
  exact ⟨rfl, rfl⟩

/-- An opening that is not closed stays so if what stands behind it closes alike. -/
theorem blockParts?_eq_none_of_closesAlike {front s t : List Char} (hbrace : '{' ∈ front)
    (h : ClosesAlike '{' '}' s t) (hs : blockParts? (front ++ s) = none) :
    blockParts? (front ++ t) = none := by
  cases hopen : openBlock? front with
  | none =>
    rw [blockParts?, openBlock?_append hbrace, hopen]
    rfl
  | some opened =>
    obtain ⟨name, body⟩ := opened
    have hopened : ∀ rest, openBlock? (front ++ rest) = some (name, body ++ rest) := fun rest => by
      rw [openBlock?_append hbrace, hopen]
      rfl
    rw [blockParts?_of_openBlock? (hopened s), Option.map_eq_none_iff] at hs
    have hclose : (closeBrace (body ++ s)).isSome = (closeBrace (body ++ t)).isSome :=
      h.append (by decide) body 0
    rw [hs, Option.isSome_none, eq_comm, Option.isSome_eq_false_iff, Option.isNone_iff_eq_none]
      at hclose
    rw [blockParts?_of_openBlock? (hopened t), hclose]
    rfl

/-- How the first block of a text stands in it: behind what the search passes over come the opening,
the content and the closing brace. The opening makes any balanced content a block, and the search
comes to it whatever text follows that closes alike. -/
structure StandsFirst (offset : Nat) (s before : List Char) (block : NamedBlock)
    (opening after : List Char) : Prop where
  text_eq : s = before ++ (opening ++ (block.content ++ '}' :: after))
  brace_mem : '{' ∈ opening
  balanced : Balanced '{' '}' block.content
  stop_eq : block.stop = offset + before.length + opening.length + block.content.length
  passes : ∀ {t : List Char}, ClosesAlike '{' '}' (block.content ++ '}' :: after) t →
    Passes blockParts? before (opening ++ t)
  read : ∀ {inner : List Char}, Balanced '{' '}' inner → ∀ rest,
    blockParts? (opening ++ (inner ++ '}' :: rest)) = some ((block.name, inner), rest)

theorem exists_standsFirst {offset : Nat} {s before after : List Char} {block : NamedBlock}
    (h : NamedBlock.next? offset s = some (before, block, after)) :
    ∃ opening, StandsFirst offset s before block opening after := by
  obtain ⟨found, rfl, hpasses, hread⟩ := exists_read_of_next? h
  obtain ⟨hopened, hbalanced⟩ := openBlock?_of_blockParts? (blockParts?_of_read? hread)
  obtain ⟨opening, rfl, hbrace, hopening⟩ := exists_opening hopened
  refine ⟨opening, rfl, hbrace, hbalanced, ?_, fun halike u hne hu => ?_, fun hinner rest => ?_⟩
  · rw [(places_of_read? hread).2]
    simp only [List.length_append, List.length_cons]
    omega
  · -- what is passed over in front of the block goes on with its opening
    have hnone := hpasses u hne hu
    rw [← List.append_assoc] at hnone ⊢
    exact blockParts?_eq_none_of_closesAlike (List.mem_append_right u hbrace) halike hnone
  · rw [blockParts?_of_openBlock? (hopening _), closeBrace_balanced hinner]
    rfl

/-- The text with something else, told by the name alone, in the place of each block. -/
def replaceBlocks (f : List Char → List Char) (s : List Char) : List Char :=
  replaceAll (fun t => (blockParts? t).map fun (parts, after) => (f parts.1, after)) s

section

variable {offset : Nat} {s before : List Char} {block : NamedBlock} {opening after : List Char}
  (h : StandsFirst offset s before block opening after) {inner rest : List Char}
  (hinner : Balanced '{' '}' inner)
  (halike : ClosesAlike '{' '}' (block.content ++ '}' :: after) (inner ++ '}' :: rest))

include h hinner halike

theorem StandsFirst.collect :
    collect blockParts? (before ++ (opening ++ (inner ++ '}' :: rest))) =
      (block.name, inner) :: collect blockParts? rest := by
  rw [collect_append (h.passes halike)]
  exact collect_of_read (h.read hinner rest) (length_lt_of_blockParts? (h.read hinner rest))

theorem StandsFirst.replaceBlocks (f : List Char → List Char) :
    replaceBlocks f (before ++ (opening ++ (inner ++ '}' :: rest))) =
      before ++ (f block.name ++ replaceBlocks f rest) := by
  have hread := h.read hinner rest
  unfold Lua.replaceBlocks
  rw [replaceAll_append fun t hne ht => Option.map_eq_none_iff.2 (h.passes halike t hne ht),
    replaceAll_of_read (congrArg _ hread) (length_lt_of_blockParts? hread)]

end

/-- How a block stands in a text, behind its opening and in front of its closing brace: the scan
takes any balanced text between the two for the content of the block, and finds the same blocks
beside it. -/
structure StandsIn (offset : Nat) (s : List Char) (block : NamedBlock) (front behind : List Char) :
    Prop where
  text_eq : s = front ++ (block.content ++ behind)
  stop_eq : block.stop = offset + front.length + block.content.length
  balanced : Balanced '{' '}' block.content
  blocks : ∃ before after, ∀ inner, Balanced '{' '}' inner →
    collect blockParts? (front ++ (inner ++ behind)) = before ++ (block.name, inner) :: after
  replaced : ∀ f inner, Balanced '{' '}' inner →
    replaceBlocks f (front ++ (inner ++ behind)) = replaceBlocks f s

/-- A balanced text stays balanced with another balanced content in one of its blocks. -/
theorem StandsIn.balanced_exchanged {offset : Nat} {s front behind inner : List Char}
    {block : NamedBlock} (h : StandsIn offset s block front behind) (hs : Balanced '{' '}' s)
    (hinner : Balanced '{' '}' inner) : Balanced '{' '}' (front ++ (inner ++ behind)) := by
  rw [h.text_eq] at hs
  exact hs.exchange h.balanced hinner

section

variable {offset : Nat} {s before : List Char} {first : NamedBlock} {opening after : List Char}
  (h : StandsFirst offset s before first opening after)

include h

theorem StandsFirst.standsIn : StandsIn offset s first (before ++ opening) ('}' :: after) := by
  have halike : ∀ inner, Balanced '{' '}' inner →
      ClosesAlike '{' '}' (first.content ++ '}' :: after) (inner ++ '}' :: after) :=
    fun inner hinner => closesAlike_exchange (by decide) h.balanced hinner [] _
  refine ⟨?_, ?_, h.balanced, ⟨[], Text.collect blockParts? after, fun inner hinner => ?_⟩,
    fun f inner hinner => ?_⟩
  · rw [List.append_assoc]
    exact h.text_eq
  · rw [h.stop_eq, List.length_append]
    omega
  · rw [List.append_assoc]
    exact h.collect hinner (halike inner hinner)
  · have hsame := h.replaceBlocks h.balanced (halike _ h.balanced) f
    rw [← h.text_eq] at hsame
    rw [List.append_assoc, hsame]
    exact h.replaceBlocks hinner (halike inner hinner) f

/-- A block that stands behind the first one stands in the whole text. -/
theorem StandsFirst.standsIn_behind {block : NamedBlock} {front behind : List Char}
    (hinside : StandsIn (first.stop + 1) after block front behind) :
    StandsIn offset s block (before ++ (opening ++ (first.content ++ '}' :: front))) behind := by
  obtain ⟨others, more, hblocks⟩ := hinside.blocks
  have hjoined : ∀ t, (before ++ (opening ++ (first.content ++ '}' :: front))) ++ t =
      before ++ (opening ++ (first.content ++ '}' :: (front ++ t))) := fun t => by simp
  have halike : ∀ inner, Balanced '{' '}' inner →
      ClosesAlike '{' '}' (first.content ++ '}' :: after)
        (first.content ++ '}' :: (front ++ (inner ++ behind))) := by
    intro inner hinner
    have hexchange := (closesAlike_exchange (by decide) hinside.balanced hinner front
      behind).append (by decide) (first.content ++ ['}'])
    rw [← hinside.text_eq] at hexchange
    simpa using hexchange
  refine ⟨?_, ?_, hinside.balanced,
    ⟨(first.name, first.content) :: others, more, fun inner hinner => ?_⟩,
    fun f inner hinner => ?_⟩
  · rw [hjoined, ← hinside.text_eq]
    exact h.text_eq
  · rw [hinside.stop_eq, h.stop_eq]
    simp only [List.length_append, List.length_cons]
    omega
  · rw [hjoined, h.collect h.balanced (halike inner hinner), hblocks inner hinner]
    rfl
  · have hsame := halike _ hinside.balanced
    rw [← hinside.text_eq] at hsame
    have htext := h.replaceBlocks h.balanced hsame f
    rw [← h.text_eq] at htext
    rw [hjoined, h.replaceBlocks h.balanced (halike inner hinner),
      hinside.replaced f inner hinner, htext]

end

/-- Every block of a text stands in it so that its content can be exchanged. -/
theorem exists_standsIn {offset : Nat} {s : List Char} {block : NamedBlock}
    (h : block ∈ NamedBlock.siblings offset s) :
    ∃ front behind, StandsIn offset s block front behind := by
  induction offset, s using NamedBlock.siblings.induct with
  | case1 offset s hnext =>
    rw [NamedBlock.siblings, hnext] at h
    cases h
  | case2 offset s before first after hnext ih =>
    rw [NamedBlock.siblings, hnext] at h
    obtain ⟨opening, hfirst⟩ := exists_standsFirst hnext
    rcases List.mem_cons.1 h with rfl | hlater
    · exact ⟨_, _, hfirst.standsIn⟩
    · obtain ⟨front, behind, hinside⟩ := ih hlater
      exact ⟨_, _, hfirst.standsIn_behind hinside⟩

end ModAlmanac.Lua
