import ModAlmanac.Lua.Block
import ModAlmanac.Proofs.Text.Balanced

/-!
# The block at a place

A block begins with the first opening brace at or behind a place (`IsFirstBrace`) and ends where for
the first time as many braces are closed as are open (`IsMatched`). Both are told by how the text is
put together around the brace: what is skipped in front of it has no opening brace
(`isFirstBrace_iff`), and what stands between it and its match is balanced (`isMatched_iff`). So
whatever stands behind the match does not count, and neither does what is skipped
(`Block.extract?_exact`).
-/

namespace ModAlmanac.Lua

open Text

/-! ## Places -/

/-! ## Braces -/

theorem closeBrace_eq_some_iff {s content after : List Char} :
    closeBrace s = some (content, after) ↔
      s = content ++ '}' :: after ∧ Balanced '{' '}' content :=
  closeNested_eq_some_iff (by decide)

theorem closeBrace_balanced {content : List Char} (h : Balanced '{' '}' content)
    (after : List Char) : closeBrace (content ++ '}' :: after) = some (content, after) :=
  closeBrace_eq_some_iff.2 ⟨rfl, h⟩

/-- The text from one place up to another one, with both of them. -/
def span (text : List Char) (b e : Nat) : List Char :=
  (text.drop b).take (e + 1 - b)

/-- The place of the first opening brace at or behind a place. -/
structure IsFirstBrace (text : List Char) (start b : Nat) : Prop where
  start_le : start ≤ b
  brace : text[b]? = some '{'
  first : ∀ i, start ≤ i → i < b → text[i]? ≠ some '{'

/-- The first place behind that of an opening brace up to which as many braces are closed as are
opened. -/
structure IsMatched (text : List Char) (b e : Nat) : Prop where
  lt : b < e
  lt_length : e < text.length
  settled : (span text b e).count '{' = (span text b e).count '}'
  first : ∀ i, b < i → i < e → (span text b i).count '{' ≠ (span text b i).count '}'

theorem isFirstBrace_append {front skipped : List Char} (hskipped : '{' ∉ skipped)
    (body : List Char) :
    IsFirstBrace (front ++ (skipped ++ '{' :: body)) front.length
      (front.length + skipped.length) where
  start_le := Nat.le_add_right _ _
  brace := by
    rw [← List.append_assoc, ← List.length_append, List.getElem?_append_right (Nat.le_refl _),
      Nat.sub_self]
    rfl
  first i hstart hlt hbrace := by
    rw [List.getElem?_append_right hstart, List.getElem?_append_left (by omega)] at hbrace
    exact hskipped (List.mem_of_getElem? hbrace)

theorem IsFirstBrace.unique {text : List Char} {start b b' : Nat} (h : IsFirstBrace text start b)
    (h' : IsFirstBrace text start b') : b = b' := by
  rcases Nat.lt_trichotomy b b' with hlt | heq | hlt
  · exact absurd h.brace (h'.first b h.start_le hlt)
  · exact heq
  · exact absurd h'.brace (h.first b' h'.start_le hlt)

theorem exists_skipped_of_mem {text : List Char} {start : Nat} (h : '{' ∈ text.drop start) :
    ∃ front skipped body, text = front ++ (skipped ++ '{' :: body) ∧ '{' ∉ skipped ∧
      front.length = start := by
  obtain ⟨skipped, body, htail, hskipped⟩ := List.eq_append_cons_of_mem h
  refine ⟨text.take start, skipped, body, ?_, hskipped, ?_⟩
  · rw [← htail, List.take_append_drop]
  · have hlength := congrArg List.length htail
    rw [List.length_drop, List.length_append, List.length_cons] at hlength
    rw [List.length_take]
    omega

/-- What is skipped in front of the first opening brace has none. -/
theorem IsFirstBrace.exists_skipped {text : List Char} {start b : Nat}
    (h : IsFirstBrace text start b) :
    ∃ front skipped body, text = front ++ (skipped ++ '{' :: body) ∧ '{' ∉ skipped ∧
      front.length = start ∧ front.length + skipped.length = b := by
  have hmem : '{' ∈ text.drop start := by
    refine List.mem_of_getElem? (i := b - start) ?_
    rw [List.getElem?_drop, Nat.add_sub_cancel' h.start_le, h.brace]
  obtain ⟨front, skipped, body, rfl, hskipped, rfl⟩ := exists_skipped_of_mem hmem
  exact ⟨front, skipped, body, rfl, hskipped, rfl, (isFirstBrace_append hskipped body).unique h⟩

section

variable {lead body : List Char}

theorem span_append {i : Nat} (hi : lead.length ≤ i) :
    span (lead ++ '{' :: body) lead.length i = '{' :: body.take (i - lead.length) := by
  rw [span, List.drop_left, Nat.succ_sub hi, List.take_succ_cons]

/-- Behind a brace that is closed the text settles first where it is. -/
theorem isMatched_of_closeBrace {content after : List Char}
    (h : closeBrace body = some (content, after)) (lead : List Char) :
    IsMatched (lead ++ '{' :: body) lead.length (lead.length + 1 + content.length) := by
  obtain ⟨rfl, hbalanced⟩ := closeBrace_eq_some_iff.1 h
  refine ⟨by omega, ?_, ?_, fun i hlt hi => ?_⟩
  · simp only [List.length_append, List.length_cons]
    omega
  · rw [span_append (by omega), List.append_cons, List.take_left' (by simp; omega)]
    simp [hbalanced.settled]
  · -- a part of the content closes no more than it opens
    have hle := hbalanced.count_le _ (List.take_prefix (i - lead.length) content)
    rw [span_append (by omega), List.take_append_of_le_length (by omega), List.count_cons_self,
      List.count_cons_of_ne (by decide)]
    omega

theorem IsMatched.unique {text : List Char} {b e e' : Nat} (h : IsMatched text b e)
    (h' : IsMatched text b e') : e = e' := by
  rcases Nat.lt_trichotomy e e' with hlt | heq | hlt
  · exact absurd h.settled (h'.first e h.lt hlt)
  · exact heq
  · exact absurd h'.settled (h.first e' h'.lt hlt)

/-- The brace is closed at the place where the text settles. -/
theorem isMatched_iff {e : Nat} : IsMatched (lead ++ '{' :: body) lead.length e ↔
    ∃ content after, closeBrace body = some (content, after) ∧
      e = lead.length + 1 + content.length := by
  constructor
  · intro h
    cases hclose : closeBrace body with
    | none =>
      have hopen := (closeNested_eq_none_iff (by decide)).1 hclose
      have hle := hopen _ (List.take_prefix (e - lead.length) body)
      have hsettled := h.settled
      rw [span_append h.lt.le, List.count_cons_self, List.count_cons_of_ne (by decide)] at hsettled
      omega
    | some found =>
      obtain ⟨content, after⟩ := found
      exact ⟨content, after, rfl, h.unique (isMatched_of_closeBrace hclose lead)⟩
  · rintro ⟨content, after, hclose, rfl⟩
    exact isMatched_of_closeBrace hclose lead

end

/-! ## Blocks -/

/-- The block that opens behind what is skipped. -/
theorem Block.extract?_append {front skipped : List Char} (hskipped : '{' ∉ skipped)
    (body : List Char) :
    Block.extract? (front ++ (skipped ++ '{' :: body)) front.length =
      (closeBrace body).map fun (content, _) =>
        { content, stop := front.length + skipped.length + 1 + content.length } := by
  have hplain : ∀ c ∈ skipped, decide (c ≠ '{') = true := fun c hc =>
    decide_eq_true fun heq => hskipped (heq ▸ hc)
  have hfront : (skipped ++ '{' :: body).takeWhile (· ≠ '{') = skipped := by
    rw [List.takeWhile_append_of_pos hplain, List.takeWhile_cons_of_neg (by decide),
      List.append_nil]
  have hbehind : (skipped ++ '{' :: body).dropWhile (· ≠ '{') = '{' :: body := by
    rw [List.dropWhile_append_of_pos hplain, List.dropWhile_cons_of_neg (by decide)]
  rw [Block.extract?, if_neg (by omega), Int.toNat_natCast, List.drop_left]
  dsimp only
  rw [hbehind, hfront]

theorem Block.extract?_eq_none_of_not_mem {text : List Char} {start : Nat}
    (h : '{' ∉ text.drop start) : Block.extract? text start = none := by
  have hskipped : (text.drop start).dropWhile (· ≠ '{') = [] :=
    List.dropWhile_eq_nil_iff.2 fun c hc => decide_eq_true fun heq => h (heq ▸ hc)
  rw [Block.extract?, if_neg (by omega), Int.toNat_natCast]
  dsimp only
  rw [hskipped]

/-- A block runs from the first opening brace to where that is matched. -/
theorem Block.extract?_eq_some_iff {text : List Char} {start : Nat} {block : Block} :
    Block.extract? text start = some block ↔
      ∃ front skipped after, text = front ++ (skipped ++ '{' :: (block.content ++ '}' :: after)) ∧
        '{' ∉ skipped ∧ front.length = start ∧ Balanced '{' '}' block.content ∧
        block.stop = start + skipped.length + 1 + block.content.length := by
  constructor
  · intro h
    by_cases hmem : '{' ∈ text.drop start
    · obtain ⟨front, skipped, body, rfl, hskipped, rfl⟩ := exists_skipped_of_mem hmem
      rw [Block.extract?_append hskipped, Option.map_eq_some_iff] at h
      obtain ⟨⟨content, after⟩, hclose, rfl⟩ := h
      obtain ⟨rfl, hbalanced⟩ := closeBrace_eq_some_iff.1 hclose
      exact ⟨front, skipped, after, rfl, hskipped, rfl, hbalanced, rfl⟩
    · rw [Block.extract?_eq_none_of_not_mem hmem] at h
      cases h
  · rintro ⟨front, skipped, after, rfl, hskipped, rfl, hbalanced, hstop⟩
    rw [Block.extract?_append hskipped, closeBrace_balanced hbalanced, Option.map_some]
    dsimp only
    rw [← hstop]

theorem Block.balanced_of_extract? {text : List Char} {start : Int} {block : Block}
    (h : Block.extract? text start = some block) : Balanced '{' '}' block.content := by
  rcases Int.lt_or_le start 0 with hneg | hpos
  · rw [Block.extract?, if_pos hneg] at h
    cases h
  · obtain ⟨n, rfl⟩ := Int.eq_ofNat_of_zero_le hpos
    obtain ⟨front, skipped, after, -, -, -, hbalanced, -⟩ := Block.extract?_eq_some_iff.1 h
    exact hbalanced

/-- The text between a brace and its match is what the braces enclose. -/
theorem take_drop_content (lead content after : List Char) :
    ((lead ++ '{' :: (content ++ '}' :: after)).drop (lead.length + 1)).take
      (lead.length + 1 + content.length - (lead.length + 1)) = content := by
  rw [List.append_cons, List.drop_left' (by simp), Nat.add_sub_cancel_left, List.take_left]

/-- A block runs from the first opening brace to the place where that is matched. -/
theorem Block.extract?_eq_some_iff_isMatched {text : List Char} {start : Nat} {block : Block} :
    Block.extract? text start = some block ↔
      ∃ b, IsFirstBrace text start b ∧ IsMatched text b block.stop ∧
        block.content = (text.drop (b + 1)).take (block.stop - (b + 1)) := by
  constructor
  · intro h
    obtain ⟨front, skipped, after, rfl, hskipped, rfl, hbalanced, hstop⟩ :=
      Block.extract?_eq_some_iff.1 h
    have hmatched := isMatched_of_closeBrace (closeBrace_balanced hbalanced after)
      (front ++ skipped)
    refine ⟨front.length + skipped.length, isFirstBrace_append hskipped _, ?_, ?_⟩
    · rwa [List.length_append, List.append_assoc, ← hstop] at hmatched
    · rw [hstop, ← List.append_assoc, ← List.length_append, take_drop_content]
  · rintro ⟨b, hb, hmatched, hcontent⟩
    obtain ⟨front, skipped, body, rfl, hskipped, rfl, rfl⟩ := hb.exists_skipped
    rw [← List.append_assoc, ← List.length_append] at hmatched hcontent
    obtain ⟨content, after, hclose, hstop⟩ := isMatched_iff.1 hmatched
    rw [eq_append_of_closeNested hclose, hstop, take_drop_content] at hcontent
    rw [Block.extract?_append hskipped, hclose, Option.map_some]
    dsimp only
    rw [← List.length_append, ← hstop, ← hcontent]

/-- There is no block if the first opening brace is never matched. -/
theorem Block.extract?_eq_none_iff {text : List Char} {start : Nat} :
    Block.extract? text start = none ↔
      ∀ b e, IsFirstBrace text start b → ¬IsMatched text b e := by
  constructor
  · intro hnone b e hb hmatched
    have hblock : Block.extract? text start =
        some { content := (text.drop (b + 1)).take (e - (b + 1)), stop := e } :=
      Block.extract?_eq_some_iff_isMatched.2 ⟨b, hb, hmatched, rfl⟩
    rw [hnone] at hblock
    cases hblock
  · intro hunmatched
    refine Option.eq_none_iff_forall_ne_some.2 fun block hblock => ?_
    obtain ⟨b, hb, hmatched, -⟩ := Block.extract?_eq_some_iff_isMatched.1 hblock
    exact hunmatched b _ hb hmatched

section

variable {text : List Char} {start : Nat} {block : Block}
  (h : Block.extract? text start = some block)

include h

/-- Whatever stands behind the closing brace of a block does not count. -/
theorem Block.extract?_take_append (other : List Char) :
    Block.extract? (text.take (block.stop + 1) ++ other) start = some block := by
  obtain ⟨front, skipped, after, rfl, hskipped, rfl, hbalanced, hstop⟩ :=
    Block.extract?_eq_some_iff.1 h
  have htext : front ++ (skipped ++ '{' :: (block.content ++ '}' :: after)) =
      (front ++ (skipped ++ '{' :: (block.content ++ ['}']))) ++ after := by simp
  have hlength : (front ++ (skipped ++ '{' :: (block.content ++ ['}']))).length =
      block.stop + 1 := by
    rw [hstop]
    simp only [List.length_append, List.length_cons, List.length_nil]
    omega
  refine Block.extract?_eq_some_iff.2
    ⟨front, skipped, other, ?_, hskipped, rfl, hbalanced, hstop⟩
  rw [htext, List.take_left' hlength]
  simp

/-- A text without an opening brace in front of that of a block moves its closing brace. -/
theorem Block.extract?_insert {b i : Nat} (hb : IsFirstBrace text start b) (hstart : start ≤ i)
    (hi : i ≤ b) {inserted : List Char} (hinserted : '{' ∉ inserted) :
    Block.extract? (text.take i ++ (inserted ++ text.drop i)) start =
      some { block with stop := block.stop + inserted.length } := by
  obtain ⟨front, skipped, after, rfl, hskipped, rfl, hbalanced, hstop⟩ :=
    Block.extract?_eq_some_iff.1 h
  have hplace := (isFirstBrace_append hskipped _).unique hb
  have hsplit : (skipped.take (i - front.length)).length + (skipped.drop (i - front.length)).length =
      skipped.length := by
    rw [← List.length_append, List.take_append_drop]
  have hmoved : '{' ∉ skipped.take (i - front.length) ++ (inserted ++
      skipped.drop (i - front.length)) :=
    List.not_mem_append (fun hmem => hskipped (List.mem_of_mem_take hmem))
      (List.not_mem_append hinserted fun hmem => hskipped (List.mem_of_mem_drop hmem))
  refine Block.extract?_eq_some_iff.2 ⟨front, _, after, ?_, hmoved, rfl, hbalanced, ?_⟩
  · rw [List.take_append, List.drop_append, List.take_of_length_le hstart,
      List.drop_of_length_le hstart, List.take_append_of_le_length (by omega),
      List.drop_append_of_le_length (by omega)]
    simp
  · dsimp only
    rw [List.length_append, List.length_append, hstop]
    omega

end

/-- From a place at or behind the front of a text the block is found that the first opening brace
begins, if this brace is ever matched: it ends at the match, and its content is what stands between
the two. There is no block otherwise, and none in front of the text. The content is balanced, nothing
behind the match counts, and a text without an opening brace that is put in before the brace moves
the match by its length. -/
theorem Block.extract?_exact (text : List Char) (start : Int) :
    (Block.extract? text start = none ↔
        start < 0 ∨ ∀ b e, IsFirstBrace text start.toNat b → ¬IsMatched text b e) ∧
      (∀ block, Block.extract? text start = some block ↔
        0 ≤ start ∧ ∃ b, IsFirstBrace text start.toNat b ∧ IsMatched text b block.stop ∧
          block.content = (text.drop (b + 1)).take (block.stop - (b + 1))) ∧
      ∀ block b, Block.extract? text start = some block → IsFirstBrace text start.toNat b →
        Balanced '{' '}' block.content ∧
          (∀ other, Block.extract? (text.take (block.stop + 1) ++ other) start = some block) ∧
          ∀ i inserted, start.toNat ≤ i → i ≤ b → '{' ∉ inserted →
            Block.extract? (text.take i ++ (inserted ++ text.drop i)) start =
              some { block with stop := block.stop + inserted.length } := by
  rcases Int.lt_or_le start 0 with hneg | hpos
  · have hnone : Block.extract? text start = none := by rw [Block.extract?, if_pos hneg]
    rw [hnone]
    refine ⟨iff_of_true rfl (.inl hneg), fun block => ?_, fun block b h => by cases h⟩
    exact iff_of_false (by simp) fun h => absurd h.1 (by omega)
  · obtain ⟨n, rfl⟩ := Int.eq_ofNat_of_zero_le hpos
    rw [Int.toNat_natCast]
    refine ⟨?_, fun block => ?_, fun block b h hb => ⟨Block.balanced_of_extract? h,
      Block.extract?_take_append h,
      fun i inserted hstart hi => Block.extract?_insert h hb hstart hi⟩⟩
    · rw [or_iff_right (by omega), Block.extract?_eq_none_iff]
    · rw [Block.extract?_eq_some_iff_isMatched, and_iff_right hpos]

/-- The closing brace in front does not count, the inner pair does, and a text that is put in moves
the end of the block. -/
theorem nestedBraces_extracted :
    IsFirstBrace "\x7d x \x7ba\x7b\x7db\x7d c".toList 1 4 ∧
      Block.extract? "\x7d x \x7ba\x7b\x7db\x7d c".toList 1 =
        some { content := "a\x7b\x7db".toList, stop := 9 } ∧
      Block.extract? "\x7d x \x7ba\x7b\x7db\x7d\x7b".toList 1 =
        some { content := "a\x7b\x7db".toList, stop := 9 } ∧
      Block.extract? "\x7d xyz\x7d \x7ba\x7b\x7db\x7d c".toList 1 =
        some { content := "a\x7b\x7db".toList, stop := 12 } := by
  have hfirst : IsFirstBrace "\x7d x \x7ba\x7b\x7db\x7d c".toList 1 4 :=
    ⟨by decide, by decide, by decide⟩
  have hblock : Block.extract? "\x7d x \x7ba\x7b\x7db\x7d c".toList 1 =
      some { content := "a\x7b\x7db".toList, stop := 9 } := by decide
  obtain ⟨-, hafter, hinserted⟩ := (Block.extract?_exact _ 1).2.2 _ 4 hblock hfirst
  refine ⟨hfirst, hblock, hafter "\x7b".toList, ?_⟩
  exact hinserted 3 "yz\x7d".toList (by decide) (by decide) (by decide)

end ModAlmanac.Lua
