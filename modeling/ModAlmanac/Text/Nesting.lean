/-!
Nested pairs of characters, such as braces or parentheses: the text inside a pair, up to the
character that closes it. Characters are counted wherever they stand.
-/

namespace ModAlmanac.Text

/-- The text up to the character that closes `depth + 1` open pairs, and the text behind that
character; nothing when they never close. -/
def closeNested (left right : Char) (depth : Nat) : List Char → Option (List Char × List Char)
  | [] => none
  | c :: rest =>
    if c = left then
      (closeNested left right (depth + 1) rest).map fun (inner, after) => (c :: inner, after)
    else if c = right then
      if depth = 0 then some ([], rest)
      else (closeNested left right (depth - 1) rest).map fun (inner, after) => (c :: inner, after)
    else
      (closeNested left right depth rest).map fun (inner, after) => (c :: inner, after)

/-- What closing a pair gives back is the text itself, cut at one closing character. -/
theorem eq_append_of_closeNested {left right : Char} {depth : Nat} {s inner after : List Char}
    (h : closeNested left right depth s = some (inner, after)) :
    s = inner ++ right :: after := by
  induction s generalizing depth inner after with
  | nil => simp [closeNested] at h
  | cons c s ih =>
    rw [closeNested] at h
    split at h
    · obtain ⟨⟨i, a⟩, hs, heq⟩ := Option.map_eq_some_iff.1 h
      cases heq
      rw [ih hs]; rfl
    · split at h
      · next hc =>
        split at h
        · cases h; rw [hc]; rfl
        · obtain ⟨⟨i, a⟩, hs, heq⟩ := Option.map_eq_some_iff.1 h
          cases heq
          rw [ih hs]; rfl
      · obtain ⟨⟨i, a⟩, hs, heq⟩ := Option.map_eq_some_iff.1 h
        cases heq
        rw [ih hs]; rfl

theorem length_lt_of_closeNested {left right : Char} {depth : Nat} {s inner after : List Char}
    (h : closeNested left right depth s = some (inner, after)) : after.length < s.length := by
  rw [eq_append_of_closeNested h, List.length_append, List.length_cons]
  omega

end ModAlmanac.Text
