import ModAlmanac.Proofs.Lua.PlainSource

/-!
# Which sources are literal

A source is literal if each of its tokens is one on its own and every equality sign stands right
behind a name or a closing bracket, gaps aside (`isOk_literalSource_iff`). Nothing else is asked of
two tokens next to each other. The tokenizer adds to it that an equality sign stands right behind
every name (`isChain_bare_tokens`).
-/

namespace ModAlmanac.Lua

open Number Text

/-! ## Tokens -/

def Token.isGap : Token → Bool
  | .comment => true
  | .space _ => true
  | _ => false

/-- The tokens without white space and comments. -/
def bare (ts : List Token) : List Token :=
  ts.filter fun t => !t.isGap

/-- Whether a token is a literal, or a part of a table that is none of its values. -/
def Token.isLiteral : Token → Bool
  | .word text => isLiteralWord text
  | .other _ => false
  | .number negative digits => (plainNumeral negative digits).isOk
  | _ => true

def Token.isName : Token → Bool
  | .name _ => true
  | _ => false

def Token.isSign : Token → Bool
  | .mark c => c = '='
  | _ => false

/-- Whether an equality sign can stand behind a token. -/
def Token.allowsSign : Token → Bool
  | .name _ => true
  | .mark c => c = ']'
  | _ => false

theorem bare_cons_of_isGap {t : Token} (h : t.isGap = true) (ts : List Token) :
    bare (t :: ts) = bare ts :=
  List.filter_cons_of_neg (by simp [h])

theorem bare_cons {t : Token} (h : t.isGap = false) (ts : List Token) :
    bare (t :: ts) = t :: bare ts :=
  List.filter_cons_of_pos (by simp [h])

/-! ## What the filter lets through -/

@[simp] theorem isOk_ok {ε α : Type} (a : α) : (.ok a : Except ε α).isOk = true := rfl

@[simp] theorem isOk_error {ε α : Type} (e : ε) : (.error e : Except ε α).isOk = false := rfl

@[simp] theorem isOk_map {ε α β : Type} (x : Except ε α) (f : α → β) :
    (x.map f).isOk = x.isOk := by
  cases x <;> rfl

theorem isOk_plainSource_of_isGap {t : Token} (h : t.isGap = true) (flag : Bool)
    (ts : List Token) : (plainSource flag (t :: ts)).isOk = (plainSource flag ts).isOk := by
  cases t with
  | comment => rw [plainSource]
  | space text => rw [plainSource, isOk_map]
  | _ => cases h

/-- A token that is no gap is let through on its own, unless it is an equality sign; of the next one
it is only remembered whether it may be one. -/
theorem isOk_plainSource_cons {t : Token} (h : t.isGap = false) (flag : Bool) (ts : List Token) :
    (plainSource flag (t :: ts)).isOk = true ↔
      t.isLiteral = true ∧ (t.isSign = true → flag = true) ∧
        (plainSource t.allowsSign ts).isOk = true := by
  cases t with
  | comment => cases h
  | space text => cases h
  | string text => simp [plainSource, Token.isLiteral, Token.isSign, Token.allowsSign]
  | name text => simp [plainSource, Token.isLiteral, Token.isSign, Token.allowsSign]
  | other c => simp [plainSource, Token.isLiteral]
  | word text =>
    rw [plainSource]
    split
    · next hword =>
      simp [Token.isLiteral, Token.isSign, Token.allowsSign, hword]
    · next hword => simp [Token.isLiteral, hword]
  | number negative digits =>
    rw [plainSource]
    split
    · next e he => simp [Token.isLiteral, he]
    · next text htext =>
      simp [Token.isLiteral, Token.isSign, Token.allowsSign, htext]
  | mark c =>
    rw [plainSource]
    split
    · next hsign =>
      simp only [Bool.and_eq_true, decide_eq_true_eq, Bool.not_eq_true'] at hsign
      simp [Token.isSign, hsign]
    · next hsign =>
      simp only [Bool.and_eq_true, decide_eq_true_eq, Bool.not_eq_true', not_and,
        Bool.not_eq_false] at hsign
      simpa [Token.isLiteral, Token.isSign, Token.allowsSign] using fun _ => hsign

/-- What a list of tokens must be like for an equality sign not to stand out of place. -/
def SignsPlaced (ts : List Token) : Prop :=
  ts.IsChain fun a b => b.isSign = true → a.allowsSign = true

/-- The flag is what is left to ask of the first token. -/
theorem isOk_plainSource_iff (flag : Bool) (ts : List Token) :
    (plainSource flag ts).isOk = true ↔
      (∀ t ∈ ts, t.isLiteral = true) ∧
        (∀ t ∈ (bare ts).head?, t.isSign = true → flag = true) ∧ SignsPlaced (bare ts) := by
  induction ts generalizing flag with
  | nil => simp [plainSource, bare, SignsPlaced]
  | cons t ts ih =>
    rw [List.forall_mem_cons]
    cases hgap : t.isGap with
    | true =>
      have hliteral : t.isLiteral = true := by
        cases t <;> first | rfl | cases hgap
      rw [isOk_plainSource_of_isGap hgap, ih, bare_cons_of_isGap hgap]
      simp [hliteral]
    | false =>
      rw [isOk_plainSource_cons hgap, ih, bare_cons hgap]
      simp only [SignsPlaced, List.isChain_cons, List.head?_cons, Option.mem_some_iff,
        forall_eq']
      tauto

/-- A source is literal exactly if its tokens are and its equality signs stand behind names and
closing brackets. -/
theorem isOk_literalSource_iff (source : List Char) :
    (literalSource source).isOk = true ↔
      (∀ t ∈ tokens source, t.isLiteral = true) ∧
        (∀ t ∈ (bare (tokens source)).head?, t.isSign = false) ∧
          SignsPlaced (bare (tokens source)) := by
  rw [literalSource, isOk_map, isOk_plainSource_iff]
  simp

/-! ## What the tokenizer adds -/

/-- Whether a token is a string, a comment or a numeral. -/
def Token.isScanned : Token → Bool
  | .string _ => true
  | .comment => true
  | .number _ _ => true
  | _ => false

/-- What is no string, no comment and no numeral is a word, a mark, white space or nothing. -/
theorem Token.of_read? {c : Char} {rest after : List Char} {t : Token}
    (h : Token.read? (c :: rest) = some (t, after)) (ht : t.isScanned = false) :
    (if isNameStart c then
        some (if isSingleSign (dropBlank (rest.dropWhile isWordChar)) then
            .name (c :: rest.takeWhile isWordChar) else .word (c :: rest.takeWhile isWordChar),
          rest.dropWhile isWordChar)
      else if "\x7b\x7d[],;".toList.contains c || isSingleSign (c :: rest) then
        some (.mark c, rest)
      else if isBlank c then
        some (.space (c :: rest.takeWhile isBlank), rest.dropWhile isBlank)
      else some (.other c, rest)) = some (t, after) := by
  unfold Token.read? at h
  dsimp only at h
  split at h
  · next found hliteral =>
    split at hliteral
    · obtain ⟨⟨inner, behind⟩, -, hfound⟩ := Option.map_eq_some_iff.1 hliteral
      cases hfound
      cases h
      cases ht
    · cases hliteral
  · next found hcomment =>
    split at hcomment
    · cases hcomment
      cases h
      cases ht
    · cases hcomment
  · next found hnumber =>
    split at hnumber
    · obtain ⟨⟨digits, behind⟩, -, hfound⟩ := Option.map_eq_some_iff.1 hnumber
      cases hfound
      cases h
      cases ht
    · obtain ⟨⟨digits, behind⟩, -, hfound⟩ := Option.map_eq_some_iff.1 hnumber
      cases hfound
      cases h
      cases ht
  · exact h

/-- A name is a word with an equality sign behind it. -/
theorem Token.of_read?_name {c : Char} {rest after text : List Char}
    (h : Token.read? (c :: rest) = some (.name text, after)) :
    after = rest.dropWhile isWordChar ∧ isSingleSign (dropBlank after) = true := by
  have hplain := Token.of_read? h rfl
  split at hplain
  · obtain ⟨htoken, hafter⟩ := Prod.mk.inj (Option.some.inj hplain)
    rw [hafter] at htoken
    split at htoken
    · next hsign => exact ⟨hafter.symm, hsign⟩
    · cases htoken
  · split at hplain
    · cases hplain
    · split at hplain
      · cases hplain
      · cases hplain

theorem eq_of_isSingleSign {c : Char} {rest : List Char} (h : isSingleSign (c :: rest) = true) :
    c = '=' ∧ rest.head? ≠ some '=' := by
  unfold isSingleSign at h
  split at h
  · cases h
  · next hne heq =>
    obtain ⟨rfl, rfl⟩ := List.cons.inj heq
    refine ⟨rfl, fun hhead => ?_⟩
    obtain ⟨more, rfl⟩ := List.head?_eq_some_iff.1 hhead
    exact hne more rfl
  · cases h

/-- Marks are those of tables. -/
theorem Token.of_read?_mark {c d : Char} {rest after : List Char}
    (h : Token.read? (c :: rest) = some (.mark d, after)) :
    d ∈ ['{', '}', '[', ']', ',', ';', '='] := by
  have hplain := Token.of_read? h rfl
  split at hplain
  · obtain ⟨htoken, -⟩ := Prod.mk.inj (Option.some.inj hplain)
    split at htoken <;> cases htoken
  · split at hplain
    · next hmark =>
      cases hplain
      rcases Bool.or_eq_true_iff.1 hmark with hmark | hsign
      · have hmem : c ∈ ['{', '}', '[', ']', ',', ';'] := List.contains_iff_mem.1 hmark
        exact List.mem_append_left ['='] hmem
      · rw [(eq_of_isSingleSign hsign).1]
        decide
    · split at hplain
      · cases hplain
      · cases hplain

/-- Every token of a source is read at some place of it. -/
theorem Token.exists_read?_of_mem {s : List Char} {t : Token} (ht : t ∈ tokens s) :
    ∃ c rest after, Token.read? (c :: rest) = some (t, after) := by
  unfold tokens at ht
  fun_induction collect Token.read? s with
  | case1 => exact absurd ht List.not_mem_nil
  | case2 c tail found rest hread ihRest ihTail =>
    rcases List.mem_cons.1 ht with rfl | ht
    · exact ⟨c, tail, rest, hread⟩
    · split at ht
      · next hle => exact ihRest hle ht
      · exact ihTail ht
  | case3 c tail hread ih => exact ih ht

theorem mark_of_mem_tokens {s : List Char} {c : Char} (h : .mark c ∈ tokens s) :
    c ∈ ['{', '}', '[', ']', ',', ';', '='] := by
  obtain ⟨_, _, _, hread⟩ := Token.exists_read?_of_mem h
  exact Token.of_read?_mark hread

theorem bare_tokens_dropBlank (s : List Char) : bare (tokens (dropBlank s)) = bare (tokens s) := by
  cases s with
  | nil => rfl
  | cons c rest =>
    cases hc : isBlank c with
    | true =>
      rw [tokens_of_read (Token.read?_blank hc rest)
        (Nat.lt_succ_of_le (List.length_dropWhile_le _ _)), bare_cons_of_isGap rfl, dropBlank,
        List.dropWhile_cons_of_pos hc]
    | false => rw [dropBlank, List.dropWhile_cons_of_neg (by simp [hc])]

theorem head?_bare_tokens_of_isSingleSign {s : List Char}
    (h : isSingleSign (dropBlank s) = true) : (bare (tokens s)).head? = some (.mark '=') := by
  rw [← bare_tokens_dropBlank]
  obtain ⟨c, rest, hs⟩ : ∃ c rest, dropBlank s = c :: rest := by
    cases hs : dropBlank s with
    | nil =>
      rw [hs] at h
      cases h
    | cons c rest => exact ⟨c, rest, rfl⟩
  rw [hs] at h ⊢
  obtain ⟨rfl, hrest⟩ := eq_of_isSingleSign h
  rw [tokens_of_read (Token.read?_sign hrest) (Nat.lt_succ_self _), bare_cons rfl]
  rfl

/-- Behind a name stands an equality sign, whatever the source. -/
theorem isChain_bare_tokens (s : List Char) :
    (bare (tokens s)).IsChain fun a b => a.isName = true → b.isSign = true := by
  unfold tokens
  fun_induction collect Token.read? s with
  | case1 => exact .nil
  | case2 c tail t rest hread ihRest ihTail =>
    have htail : (bare (if rest.length ≤ tail.length then collect Token.read? rest
        else collect Token.read? tail)).IsChain fun a b => a.isName = true → b.isSign = true := by
      split
      · next hle => exact ihRest hle
      · exact ihTail
    cases hgap : t.isGap with
    | true => rwa [bare_cons_of_isGap hgap]
    | false =>
      rw [bare_cons hgap, List.isChain_cons]
      refine ⟨fun next hnext hname => ?_, htail⟩
      obtain ⟨text, rfl⟩ : ∃ text, t = .name text := by
        cases t with
        | name text => exact ⟨text, rfl⟩
        | _ => cases hname
      obtain ⟨hrest, hsign⟩ := Token.of_read?_name hread
      rw [if_pos (hrest ▸ List.length_dropWhile_le _ _)] at hnext
      have hhead : (bare (collect Token.read? rest)).head? = some (.mark '=') :=
        head?_bare_tokens_of_isSingleSign hsign
      rw [hhead] at hnext
      cases hnext
      rfl
  | case3 c tail hread ih => exact ih

end ModAlmanac.Lua
