import ModAlmanac.Text.Word
import ModAlmanac.Lua.Block
import ModAlmanac.Lua.Field

/-!
Named blocks `name = { … }`. The named blocks of a text are its siblings: after one of them the
search goes on behind its closing brace, so blocks inside it are passed over. An opening whose brace
is never closed is no block, and the search goes on inside it.
-/

namespace ModAlmanac.Lua

open Text

/-- A named block and the places of its name's first letter and its closing brace. -/
structure NamedBlock where
  name : List Char
  content : List Char
  start : Nat
  stop : Nat
  deriving Repr, DecidableEq

/-- The name of a block that opens at the front, and the text behind its opening brace. -/
def openBlock? (s : List Char) : Option (List Char × List Char) :=
  match s.takeWhile isWordChar with
  | [] => none
  | name =>
    ((afterSign? (s.dropWhile isWordChar)).bind afterBrace?).map fun body => (name, body)

/-- A named block at the front, where `offset` is the place of the front, and the text behind it. -/
def NamedBlock.read? (offset : Nat) (s : List Char) : Option (NamedBlock × List Char) :=
  (openBlock? s).bind fun (name, body) =>
    (closeBrace body).map fun (content, after) =>
      ({ name, content, start := offset, stop := offset + (s.length - after.length) - 1 }, after)

/-- The text in front of the first named block, the block, and the text behind it. -/
def NamedBlock.next? (offset : Nat) : List Char → Option (List Char × NamedBlock × List Char)
  | [] => none
  | c :: rest =>
    match NamedBlock.read? offset (c :: rest) with
    | some (block, after) => some ([], block, after)
    | none =>
      (NamedBlock.next? (offset + 1) rest).map fun (before, block, after) =>
        (c :: before, block, after)

theorem length_le_of_afterSign? {s body : List Char} (h : afterSign? s = some body) :
    body.length < s.length := by
  have hdrop : ∀ t : List Char, (dropBlank t).length ≤ t.length := fun t =>
    (List.dropWhile_sublist _).length_le
  have hs := hdrop s
  unfold afterSign? at h
  split at h
  · next rest heq =>
    cases h
    have hr := hdrop rest
    rw [heq, List.length_cons] at hs
    omega
  · cases h

theorem length_lt_of_openBlock? {s name body : List Char}
    (h : openBlock? s = some (name, body)) : body.length < s.length := by
  unfold openBlock? at h
  split at h
  · cases h
  · obtain ⟨b, hb, heq⟩ := Option.map_eq_some_iff.1 h
    cases heq
    obtain ⟨v, hv, hbrace⟩ := Option.bind_eq_some_iff.1 hb
    have h1 := length_le_of_afterSign? hv
    have h2 : (s.dropWhile isWordChar).length ≤ s.length :=
      (List.dropWhile_sublist _).length_le
    unfold afterBrace? at hbrace
    split at hbrace
    · cases hbrace
      simp only [List.length_cons] at h1
      omega
    · cases hbrace

theorem NamedBlock.length_lt_of_read? {offset : Nat} {s after : List Char} {block : NamedBlock}
    (h : NamedBlock.read? offset s = some (block, after)) : after.length < s.length := by
  obtain ⟨⟨name, body⟩, hopen, hclose⟩ := Option.bind_eq_some_iff.1 h
  obtain ⟨⟨content, rest⟩, hc, heq⟩ := Option.map_eq_some_iff.1 hclose
  cases heq
  exact Nat.lt_trans (length_lt_of_closeBrace hc) (length_lt_of_openBlock? hopen)

theorem NamedBlock.length_lt_of_next? {offset : Nat} {s before after : List Char}
    {block : NamedBlock} (h : NamedBlock.next? offset s = some (before, block, after)) :
    after.length < s.length := by
  induction s generalizing offset before with
  | nil => simp [NamedBlock.next?] at h
  | cons c s ih =>
    rw [NamedBlock.next?] at h
    split at h
    · next hread =>
      cases h
      exact NamedBlock.length_lt_of_read? hread
    · obtain ⟨⟨b, k, a⟩, hn, heq⟩ := Option.map_eq_some_iff.1 h
      cases heq
      exact Nat.lt_succ_of_lt (ih hn)

/-- The named blocks of a text in order, where `offset` is the place of the text's front. -/
def NamedBlock.siblings (offset : Nat) (s : List Char) : List NamedBlock :=
  match _h : NamedBlock.next? offset s with
  | none => []
  | some (_, block, after) => block :: NamedBlock.siblings (block.stop + 1) after
termination_by s.length
decreasing_by exact NamedBlock.length_lt_of_next? _h

/-- All named blocks of a text that lie in no other. -/
def namedBlocks (s : List Char) : List NamedBlock :=
  NamedBlock.siblings 0 s

/-- The next named block at or after a position, and the position to go on from: behind the block,
or the end of the text when there is none. A position before the text counts as its front. -/
def nextNamedBlock (text : List Char) (pos : Int) : Option NamedBlock × Nat :=
  match NamedBlock.next? pos.toNat (text.drop pos.toNat) with
  | some (_, block, _) => (some block, block.stop + 1)
  | none => (none, text.length)

end ModAlmanac.Lua
