import ModAlmanac.Proofs.Lua.LiteralTokens

/-!
# Literal tables, token by token

The grammar of literal tables (`IsTable`), over the tokens of a source that are no gaps. A table is
told by what is open at each place (`closes`) and by which tokens stand next to each other
(`Token.Joins`). The tokenizer and the filter see to the equality signs, `Token.fits` is what they
leave. So a source that is decoded is a literal table exactly if its tokens fit and close what they
open (`isTable_iff_orderly`). They need not: nothing is asked of what stands behind a value, and the
reader goes on with another field there (`difference_decoded`).
-/

namespace ModAlmanac.Lua

/-! ## The grammar -/

mutual

/-- A string, a numeral with or without a minus sign, a literal word or a table. -/
inductive IsValue : List Token → Prop
  | string (text : List Char) : IsValue [.string text]
  | number (negative : Bool) (digits : List Char) : IsValue [.number negative digits]
  | word {text : List Char} (h : isLiteralWord text = true) : IsValue [.word text]
  | table {row : List Token} (h : IsRow row) : IsValue (.mark '{' :: row ++ [.mark '}'])

/-- A value, alone or behind its key. A name is any word with an equality sign behind it. -/
inductive IsField : List Token → Prop
  | item {s : List Token} (h : IsValue s) : IsField s
  | named (name : List Char) {s : List Token} (h : IsValue s) :
      IsField (.name name :: .mark '=' :: s)
  | keyed {key s : List Token} (hkey : IsValue key) (h : IsValue s) :
      IsField (.mark '[' :: key ++ .mark ']' :: .mark '=' :: s)

/-- Fields with a separator behind each, which the last may lack. -/
inductive IsRow : List Token → Prop
  | nil : IsRow []
  | last {s : List Token} (h : IsField s) : IsRow s
  | more {s row : List Token} {c : Char} (h : IsField s) (hc : c = ',' ∨ c = ';')
      (hrow : IsRow row) : IsRow (s ++ .mark c :: row)

end

/-- The tokens of a literal table. -/
def IsTable (ts : List Token) : Prop :=
  ∃ row, ts = .mark '{' :: row ++ [.mark '}'] ∧ IsRow row

/-! ## Neighbours and brackets -/

def Token.startsValue : Token → Bool
  | .string _ => true
  | .number _ _ => true
  | .word _ => true
  | .mark c => c = '{'
  | _ => false

def Token.endsValue : Token → Bool
  | .string _ => true
  | .number _ _ => true
  | .word _ => true
  | .mark c => c = '}'
  | _ => false

def Token.isSeparator : Token → Bool
  | .mark c => c = ',' || c = ';'
  | _ => false

/-- Whether a field can begin behind a token. -/
def Token.opensField : Token → Bool
  | .mark c => c = '{' || c = ',' || c = ';'
  | _ => false

/-- Whether a field, or the key of one, can end in front of a token. -/
def Token.endsField : Token → Bool
  | .mark c => c = ',' || c = ';' || c = '}' || c = ']'
  | _ => false

/-- Whether a token can stand in front of another one, as far as the filter does not ask it: a value
is followed by a separator or a closing mark, a separator by a field or the end, an equality sign
and an opening bracket by a value, a closing bracket by an equality sign. -/
def Token.fits : Token → Token → Bool
  | .name _, _ => true
  | .mark c, b =>
    if c = '=' || c = '[' then b.startsValue
    else if c = ']' then b.isSign
    else if c = '}' then b.endsField
    else !b.isSeparator
  | _, b => b.endsField

/-- Whether tokens close all that is open, and nothing stands behind that. The stack holds the
opening marks, the last one first; fields are separated between braces only. -/
def closes : List Char → List Token → Bool
  | [], ts => ts.isEmpty
  | _ :: _, [] => false
  | top :: stack, .mark c :: ts =>
    if c = '{' || c = '[' then closes (c :: top :: stack) ts
    else if c = '}' then top = '{' && closes stack ts
    else if c = ']' then top = '[' && closes stack ts
    else if c = ',' || c = ';' then top = '{' && closes (top :: stack) ts
    else closes (top :: stack) ts
  | top :: stack, _ :: ts => closes (top :: stack) ts

/-- Every token can stand in front of the next one. -/
abbrev FitsChain (ts : List Token) : Prop :=
  ts.IsChain fun a b => a.fits b = true

/-- What tells a literal table among the sources that are decoded. -/
structure Orderly (ts : List Token) : Prop where
  opens : ts.head? = some (.mark '{')
  closes : closes ['{'] ts.tail = true
  fits : FitsChain ts

theorem Token.eq_sign {t : Token} (h : t.isSign = true) : t = .mark '=' := by
  cases t with
  | mark c => rw [of_decide_eq_true h]
  | _ => cases h

theorem Token.fits_of_opensField {a : Token} (ha : a.opensField = true) (b : Token) :
    a.fits b = !b.isSeparator := by
  cases a with
  | mark c =>
    simp only [opensField, Bool.or_eq_true, decide_eq_true_eq] at ha
    rcases ha with (rfl | rfl) | rfl <;> rfl
  | _ => cases ha

theorem Token.fits_of_endsValue {a : Token} (ha : a.endsValue = true) (b : Token) :
    a.fits b = b.endsField := by
  cases a with
  | mark c =>
    have hc : c = '}' := of_decide_eq_true ha
    rw [hc]
    rfl
  | string => rfl
  | number => rfl
  | word => rfl
  | _ => cases ha

theorem Token.isSeparator_of_startsValue {t : Token} (h : t.startsValue = true) :
    t.isSeparator = false := by
  cases t with
  | mark c =>
    have hc : c = '{' := of_decide_eq_true h
    rw [hc]
    rfl
  | _ => rfl

/-! ## Tables are orderly -/

mutual

theorem IsValue.closes_append : ∀ {s : List Token}, IsValue s → ∀ top stack ts,
    closes (top :: stack) (s ++ ts) = closes (top :: stack) ts
  | _, .string _, _, _, _ => rfl
  | _, .number _ _, _, _, _ => rfl
  | _, .word _, _, _, _ => rfl
  | _, .table h, top, stack, ts => by
    have hrow := h.closes_append (top :: stack) (.mark '}' :: ts)
    rw [List.append_assoc]
    exact hrow

theorem IsField.closes_append : ∀ {s : List Token}, IsField s → ∀ stack ts,
    closes ('{' :: stack) (s ++ ts) = closes ('{' :: stack) ts
  | _, .item h, stack, ts => h.closes_append '{' stack ts
  | _, .named _ h, stack, ts => h.closes_append '{' stack ts
  | _, @IsField.keyed _ s hkey h, stack, ts => by
    have hkey := hkey.closes_append '[' ('{' :: stack) (.mark ']' :: .mark '=' :: (s ++ ts))
    rw [List.append_assoc]
    exact hkey.trans (h.closes_append '{' stack ts)

theorem IsRow.closes_append : ∀ {s : List Token}, IsRow s → ∀ stack ts,
    closes ('{' :: stack) (s ++ ts) = closes ('{' :: stack) ts
  | _, .nil, _, _ => rfl
  | _, .last h, stack, ts => h.closes_append stack ts
  | _, .more h hc hrow, stack, ts => by
    rw [List.append_assoc, h.closes_append]
    rcases hc with rfl | rfl
    · exact hrow.closes_append stack ts
    · exact hrow.closes_append stack ts

end

/-- A token that is a value of its own, in its place. -/
theorem fitsChain_single {t : Token} (hstart : t.startsValue = true) (hend : t.endsValue = true)
    {a b : Token} {ts : List Token} (ha : ∀ t, t.startsValue = true → a.fits t = true)
    (hb : b.endsField = true) (hts : FitsChain (b :: ts)) : FitsChain (a :: t :: b :: ts) :=
  .cons_cons (ha t hstart) (.cons_cons ((Token.fits_of_endsValue hend b).trans hb) hts)

theorem fits_of_opensField_of_startsValue {a : Token} (ha : a.opensField = true) :
    ∀ t : Token, t.startsValue = true → a.fits t = true := by
  intro t ht
  rw [Token.fits_of_opensField ha, Token.isSeparator_of_startsValue ht]
  rfl

mutual

theorem IsValue.fitsChain : ∀ {s : List Token}, IsValue s → ∀ {a b : Token} {ts : List Token},
    (∀ t, t.startsValue = true → a.fits t = true) → b.endsField = true →
      FitsChain (b :: ts) → FitsChain (a :: (s ++ b :: ts))
  | _, .string _, _, _, _, ha, hb, hts => fitsChain_single rfl rfl ha hb hts
  | _, .number _ _, _, _, _, ha, hb, hts => fitsChain_single rfl rfl ha hb hts
  | _, .word _, _, _, _, ha, hb, hts => fitsChain_single rfl rfl ha hb hts
  | _, .table h, a, b, ts, ha, hb, hts => by
    have hclose : FitsChain (.mark '}' :: b :: ts) := .cons_cons hb hts
    have hrow := h.fitsChain (a := .mark '{') rfl hclose
    rw [List.append_assoc]
    exact .cons_cons (ha (.mark '{') rfl) hrow

theorem IsField.fitsChain : ∀ {s : List Token}, IsField s → ∀ {a b : Token} {ts : List Token},
    a.opensField = true → b.endsField = true →
      FitsChain (b :: ts) → FitsChain (a :: (s ++ b :: ts))
  | _, .item h, _, _, _, ha, hb, hts =>
    h.fitsChain (fits_of_opensField_of_startsValue ha) hb hts
  | _, .named name h, a, b, ts, ha, hb, hts => by
    have hvalue := h.fitsChain (a := .mark '=') (fun _ ht => ht) hb hts
    exact .cons_cons (Token.fits_of_opensField ha (.name name)) (.cons_cons rfl hvalue)
  | _, @IsField.keyed _ s hkey h, a, b, ts, ha, hb, hts => by
    have hvalue := h.fitsChain (a := .mark '=') (fun _ ht => ht) hb hts
    have hclose : FitsChain (.mark ']' :: .mark '=' :: (s ++ b :: ts)) := .cons_cons rfl hvalue
    have hbracket := hkey.fitsChain (a := .mark '[') (fun _ ht => ht) rfl hclose
    rw [List.append_assoc]
    exact .cons_cons (Token.fits_of_opensField ha (.mark '[')) hbracket

theorem IsRow.fitsChain : ∀ {s : List Token}, IsRow s → ∀ {a : Token} {ts : List Token},
    a.opensField = true → FitsChain (.mark '}' :: ts) → FitsChain (a :: (s ++ .mark '}' :: ts))
  | _, .nil, _, _, ha, hts => .cons_cons (Token.fits_of_opensField ha (.mark '}')) hts
  | _, .last h, _, _, ha, hts => h.fitsChain ha rfl hts
  | _, .more h hc hrow, a, ts, ha, hts => by
    rw [List.append_assoc]
    rcases hc with rfl | rfl
    · exact h.fitsChain ha rfl (hrow.fitsChain rfl hts)
    · exact h.fitsChain ha rfl (hrow.fitsChain rfl hts)

end

theorem IsTable.orderly {ts : List Token} (h : IsTable ts) : Orderly ts := by
  obtain ⟨row, rfl, hrow⟩ := h
  exact {
    opens := rfl
    closes := hrow.closes_append [] [.mark '}']
    fits := hrow.fitsChain rfl (.singleton _) }

/-! ## What is orderly is a table -/

/-- Whether a token can be a part of a table. -/
def Token.isPart : Token → Bool
  | .comment => false
  | .space _ => false
  | .other _ => false
  | .word text => isLiteralWord text
  | .mark c => ['{', '}', '[', ']', ',', ';', '='].contains c
  | _ => true

/-- What the filter, the tokenizer and `Token.fits` ask of two neighbours. -/
structure Token.Joins (a b : Token) : Prop where
  allowsSign : b.isSign = true → a.allowsSign = true
  isSign : a.isName = true → b.isSign = true
  fits : a.fits b = true

structure Joined (ts : List Token) : Prop where
  isPart : ∀ t ∈ ts, t.isPart = true
  joins : ts.IsChain Token.Joins

theorem Joined.suffix {ts : List Token} {front : List Token} (h : Joined (front ++ ts)) :
    Joined ts where
  isPart t ht := h.isPart t (List.mem_append_right front ht)
  joins := (List.isChain_append.1 h.joins).2.1

theorem Joined.tail {t : Token} {ts : List Token} (h : Joined (t :: ts)) : Joined ts :=
  @Joined.suffix ts [t] h

theorem Joined.head {a b : Token} {ts : List Token} (h : Joined (a :: b :: ts)) : a.Joins b :=
  (List.isChain_cons_cons.1 h.joins).1

theorem exists_cons_of_closes {top : Char} {stack : List Char} {ts : List Token}
    (h : closes (top :: stack) ts = true) : ∃ t rest, ts = t :: rest := by
  cases ts with
  | nil => cases h
  | cons t rest => exact ⟨t, rest, rfl⟩

section

variable {ts : List Token} {top : Char} {stack : List Char}

/-- What can begin where a field can: besides fields only the closing marks. -/
theorem cases_of_opensField {a t : Token} (ha : a.opensField = true) (h : a.Joins t)
    (ht : t.isPart = true) :
    t.startsValue = true ∨ (∃ name, t = .name name) ∨ t = .mark '[' ∨ t = .mark ']' ∨
      t = .mark '}' := by
  have hseparator : t.isSeparator = false := by
    have hfits := h.fits
    rwa [Token.fits_of_opensField ha, Bool.not_eq_true'] at hfits
  cases t with
  | string text => exact .inl rfl
  | number negative digits => exact .inl rfl
  | word text => exact .inl rfl
  | name text => exact .inr (.inl ⟨text, rfl⟩)
  | mark c =>
    have hmem := List.contains_iff_mem.1 ht
    simp only [List.mem_cons, List.not_mem_nil, or_false] at hmem
    rcases hmem with rfl | rfl | rfl | rfl | rfl | rfl | rfl
    · exact .inl rfl
    · exact .inr (.inr (.inr (.inr rfl)))
    · exact .inr (.inr (.inl rfl))
    · exact .inr (.inr (.inr (.inl rfl)))
    · cases hseparator
    · cases hseparator
    · -- no field begins behind what allows an equality sign
      have hsign := h.allowsSign rfl
      cases a with
      | name text => cases ha
      | mark c =>
        obtain rfl : c = ']' := of_decide_eq_true hsign
        cases ha
      | _ => cases hsign
  | _ => cases ht

/-- Behind a value stands a separator or a closing mark. -/
theorem Joined.exists_mark {e : Token} (he : e.endsValue = true) (h : Joined (e :: ts))
    (hcloses : closes (top :: stack) ts = true) :
    ∃ c rest, ts = .mark c :: rest ∧ (c = ',' ∨ c = ';' ∨ c = '}' ∨ c = ']') := by
  obtain ⟨t, rest, rfl⟩ := exists_cons_of_closes hcloses
  have ht : t.endsField = true := (Token.fits_of_endsValue he t).symm.trans h.head.fits
  cases t with
  | mark c =>
    simp only [Token.endsField, Bool.or_eq_true, decide_eq_true_eq, or_assoc] at ht
    exact ⟨c, rest, rfl, ht⟩
  | _ => cases ht

/-- Behind the value in brackets stand the closing one and an equality sign. -/
theorem Joined.exists_sign {e : Token} (he : e.endsValue = true) (h : Joined (e :: ts))
    (hcloses : closes ('[' :: top :: stack) ts = true) :
    ∃ rest, ts = .mark ']' :: .mark '=' :: rest ∧ closes (top :: stack) rest = true := by
  obtain ⟨c, rest, rfl, hc⟩ := h.exists_mark he hcloses
  rcases hc with rfl | rfl | rfl | rfl
  · cases hcloses
  · cases hcloses
  · cases hcloses
  · have hrest : closes (top :: stack) rest = true := hcloses
    obtain ⟨t, rest, rfl⟩ := exists_cons_of_closes hrest
    have hsign : t.isSign = true := h.tail.head.fits
    obtain rfl := Token.eq_sign hsign
    exact ⟨rest, rfl, hrest⟩

end

/-- Whether a part stands at the front that ends as a value does and leaves open what is open. -/
def Begins (part : List Token → Prop) (stack : List Char) (ts : List Token) : Prop :=
  ∃ front e after, ts = front ++ e :: after ∧ part (front ++ [e]) ∧ e.endsValue = true ∧
    closes stack after = true

/-- Whether a row and its closing brace stand wherever a field can begin. -/
def HasRow (ts : List Token) : Prop :=
  ∀ a stack, Joined (a :: ts) → a.opensField = true → closes ('{' :: stack) ts = true →
    ∃ row after, ts = row ++ .mark '}' :: after ∧ IsRow row ∧ closes stack after = true

theorem begins_value {t : Token} {ts : List Token} {top : Char} {stack : List Char}
    (hrow : HasRow ts) (hjoined : Joined (t :: ts)) (ht : t.startsValue = true)
    (hcloses : closes (top :: stack) (t :: ts) = true) :
    Begins IsValue (top :: stack) (t :: ts) := by
  cases t with
  | string text => exact ⟨[], _, ts, rfl, .string text, rfl, hcloses⟩
  | number negative digits => exact ⟨[], _, ts, rfl, .number negative digits, rfl, hcloses⟩
  | word text =>
    exact ⟨[], _, ts, rfl, .word (hjoined.isPart _ List.mem_cons_self), rfl, hcloses⟩
  | mark c =>
    obtain rfl : c = '{' := of_decide_eq_true ht
    obtain ⟨row, after, rfl, hrow, hafter⟩ := hrow _ _ hjoined rfl hcloses
    exact ⟨.mark '{' :: row, .mark '}', after, rfl, .table hrow, rfl, hafter⟩
  | _ => cases ht

/-- Behind an equality sign and behind an opening bracket a value begins. -/
theorem Joined.begins_value {c : Char} {ts : List Token} {top : Char} {stack : List Char}
    (hc : c = '=' ∨ c = '[') (hrow : ∀ rest, rest.length < ts.length → HasRow rest)
    (h : Joined (.mark c :: ts)) (hcloses : closes (top :: stack) ts = true) :
    Begins IsValue (top :: stack) ts := by
  obtain ⟨t, rest, rfl⟩ := exists_cons_of_closes hcloses
  have ht : t.startsValue = true := by
    have hfits := h.head.fits
    rcases hc with rfl | rfl
    · exact hfits
    · exact hfits
  exact Lua.begins_value (hrow rest (Nat.lt_succ_self _)) h.tail ht hcloses

theorem begins_field {a t : Token} {ts : List Token} {stack : List Char}
    (hrow : ∀ rest, rest.length ≤ ts.length → HasRow rest) (hjoined : Joined (a :: t :: ts))
    (ha : a.opensField = true) (ht : t ≠ .mark '}')
    (hcloses : closes ('{' :: stack) (t :: ts) = true) :
    Begins IsField ('{' :: stack) (t :: ts) := by
  rcases cases_of_opensField ha hjoined.head (hjoined.isPart t (by simp)) with
    hstart | ⟨name, rfl⟩ | rfl | rfl | rfl
  · obtain ⟨front, e, after, heq, hvalue, hend⟩ :=
      begins_value (hrow ts le_rfl) hjoined.tail hstart hcloses
    exact ⟨front, e, after, heq, .item hvalue, hend⟩
  · have hinner : closes ('{' :: stack) ts = true := hcloses
    obtain ⟨sign, rest, rfl⟩ := exists_cons_of_closes hinner
    obtain rfl := Token.eq_sign (hjoined.tail.head.isSign rfl)
    obtain ⟨front, e, after, rfl, hvalue, hend⟩ :=
      hjoined.tail.tail.begins_value (.inl rfl)
        (fun _ hlt => hrow _ (hlt.le.trans (Nat.le_succ _))) hinner
    exact ⟨.name name :: .mark '=' :: front, e, after, rfl, .named name hvalue, hend⟩
  · have hinner : closes ('[' :: '{' :: stack) ts = true := hcloses
    obtain ⟨key, e, behind, rfl, hkey, he, hbehind⟩ :=
      hjoined.tail.begins_value (.inr rfl) (fun _ hlt => hrow _ hlt.le) hinner
    have hkeyEnd := hjoined.tail.tail.suffix
    obtain ⟨rest, rfl, hrest⟩ := hkeyEnd.exists_sign he hbehind
    have hshorter : ∀ more : List Token, more.length < rest.length → HasRow more := by
      intro more hlt
      refine hrow more ?_
      simp only [List.length_append, List.length_cons]
      omega
    obtain ⟨front, e', after, rfl, hvalue, hend⟩ :=
      hkeyEnd.tail.tail.begins_value (.inl rfl) hshorter hrest
    have hfield := IsField.keyed hkey hvalue
    refine ⟨.mark '[' :: (key ++ [e]) ++ .mark ']' :: .mark '=' :: front, e', after, by simp, ?_,
      hend⟩
    rw [List.append_assoc]
    exact hfield
  · cases hcloses
  · exact absurd rfl ht

/-- The induction is on the length: a row goes on behind its first field, and the rows of the tables
inside of a field are shorter. -/
theorem hasRow (ts : List Token) : HasRow ts := by
  induction hn : ts.length using Nat.strong_induction_on generalizing ts with
  | _ n ih =>
    intro a stack hjoined ha hcloses
    have hshorter : ∀ rest : List Token, rest.length < ts.length → HasRow rest :=
      fun rest hlt => ih rest.length (hn ▸ hlt) rest rfl
    obtain ⟨t, rest, rfl⟩ := exists_cons_of_closes hcloses
    by_cases ht : t = .mark '}'
    · subst ht
      exact ⟨[], rest, rfl, .nil, hcloses⟩
    · obtain ⟨front, e, behind, heq, hfield, he, hbehind⟩ :=
        begins_field (fun _ hle => hshorter _ (Nat.lt_succ_of_le hle)) hjoined ha ht hcloses
      have hfieldJoined := hjoined.tail
      rw [heq] at hfieldJoined hshorter ⊢
      have hend := hfieldJoined.suffix
      obtain ⟨c, more, rfl, hc⟩ := hend.exists_mark he hbehind
      have hgoesOn : (c = ',' ∨ c = ';') → closes ('{' :: stack) more = true →
          ∃ row after, front ++ e :: .mark c :: more = row ++ .mark '}' :: after ∧ IsRow row ∧
            closes stack after = true := by
        intro hc hmore
        have hopens : (Token.mark c).opensField = true := by
          rcases hc with rfl | rfl <;> rfl
        obtain ⟨row, after, rfl, hrow, hafter⟩ :=
          hshorter more (by simp; omega) _ _ hend.tail hopens hmore
        exact ⟨front ++ [e] ++ .mark c :: row, after, by simp, .more hfield hc hrow, hafter⟩
      rcases hc with rfl | rfl | rfl | rfl
      · exact hgoesOn (.inl rfl) hbehind
      · exact hgoesOn (.inr rfl) hbehind
      · exact ⟨front ++ [e], more, by simp, .last hfield, hbehind⟩
      · cases hbehind

theorem eq_nil_of_closes {ts : List Token} (h : closes [] ts = true) : ts = [] := by
  cases ts with
  | nil => rfl
  | cons t ts => cases h

theorem Orderly.isTable {ts : List Token} (h : Orderly ts) (hjoined : Joined ts) : IsTable ts := by
  obtain ⟨rest, rfl⟩ := List.head?_eq_some_iff.1 h.opens
  obtain ⟨row, after, heq, hrow, hafter⟩ := hasRow rest _ [] hjoined rfl h.closes
  obtain rfl := eq_nil_of_closes hafter
  exact ⟨row, by rw [heq]; rfl, hrow⟩

/-! ## Sources that are read -/

theorem isOk_literalSource_of_decodeTable {source : List Char} {v : Value}
    (h : decodeTable source = .ok v) : (literalSource source).isOk = true := by
  unfold decodeTable at h
  cases hsource : literalSource source with
  | error e =>
    rw [hsource] at h
    cases h
  | ok literal => rfl

theorem isPart_of_mem_bare {source : List Char} (h : ∀ t ∈ tokens source, t.isLiteral = true) :
    ∀ t ∈ bare (tokens source), t.isPart = true := by
  intro t ht
  obtain ⟨hmem, hgap⟩ := List.mem_filter.1 ht
  have hliteral := h t hmem
  cases t with
  | mark c => exact List.contains_iff_mem.2 (mark_of_mem_tokens hmem)
  | word text => exact hliteral
  | other c => cases hliteral
  | comment => cases hgap
  | space text => cases hgap
  | _ => rfl

theorem Orderly.joined {source : List Char} (hliteral : (literalSource source).isOk = true)
    (h : Orderly (bare (tokens source))) : Joined (bare (tokens source)) := by
  obtain ⟨htokens, -, hsigns⟩ := (isOk_literalSource_iff source).1 hliteral
  have hjoins : ∀ i (hi : i + 1 < (bare (tokens source)).length),
      Token.Joins (bare (tokens source))[i] (bare (tokens source))[i + 1] := fun i hi =>
    { allowsSign := hsigns.getElem i hi
      isSign := (isChain_bare_tokens source).getElem i hi
      fits := h.fits.getElem i hi }
  exact { isPart := isPart_of_mem_bare htokens, joins := List.isChain_iff_getElem.2 hjoins }

theorem plain_one : Key.plain (.int 1) = "1" := by
  decide +kernel

/-- What is decoded is made of literals, with equality signs behind names and closing brackets only:
no parenthesis, no operator besides the sign of a numeral, and no word without an equality sign that
is no literal. It is a literal table exactly if its tokens are orderly. -/
theorem isTable_iff_orderly {source : List Char} {v : Value} (h : decodeTable source = .ok v) :
    (∀ t ∈ tokens source, t.isLiteral = true) ∧ SignsPlaced (bare (tokens source)) ∧
      (IsTable (bare (tokens source)) ↔ Orderly (bare (tokens source))) := by
  have hliteral := isOk_literalSource_of_decodeTable h
  obtain ⟨htokens, -, hsigns⟩ := (isOk_literalSource_iff source).1 hliteral
  exact ⟨htokens, hsigns, IsTable.orderly, fun horderly =>
    horderly.isTable (horderly.joined hliteral)⟩

set_option maxRecDepth 2048 in
theorem readLiteral?_bracketed : readLiteral? "\x7b[1] = \x7b2\x7d, x = true\x7d".toList =
    some (.table [(.int 1, .list [.int 2]), (.text "x", .bool true)]) := by
  cbv

/-- A table with a key in brackets and a table in it. -/
theorem isTable_bracketed :
    decodeTable "\x7b[1] = \x7b2\x7d; x = true\x7d".toList =
        .ok (.table [(.text "1", .list [.int 2]), (.text "x", .bool true)]) ∧
      IsTable (bare (tokens "\x7b[1] = \x7b2\x7d; x = true\x7d".toList)) := by
  have hliteral : literalSource "\x7b[1] = \x7b2\x7d; x = true\x7d".toList =
      .ok "\x7b[1] = \x7b2\x7d, x = true\x7d".toList := by
    decide +kernel
  have hbrace : "\x7b[1] = \x7b2\x7d, x = true\x7d".toList =
      '{' :: "[1] = \x7b2\x7d, x = true\x7d".toList := by
    decide
  have hkeys : textKeyed (.table [(.int 1, .list [.int 2]), (.text "x", .bool true)]) =
      .table [(.text "1", .list [.int 2]), (.text "x", .bool true)] := by
    simp only [textKeyed, textKeyedFields, textKeyedItems, plain_one]
    rfl
  have hdecode := decodeTable_of_read hliteral hbrace readLiteral?_bracketed
  obtain ⟨-, -, htable⟩ := isTable_iff_orderly hdecode
  refine ⟨by rw [hdecode, hkeys], htable.2 ?_⟩
  exact { opens := by decide +kernel, closes := by decide +kernel, fits := by decide +kernel }

set_option maxRecDepth 2048 in
theorem readLiteral?_difference : readLiteral? "\x7bx = 3-1\x7d".toList =
    some (.table [(.text "x", .int 3), (.int 1, .int (-1))]) := by
  cbv

/-- A difference is decoded, as two fields; its source is no literal table. -/
theorem difference_decoded :
    decodeTable "\x7bx = 3-1\x7d".toList =
        .ok (.table [(.text "x", .int 3), (.text "1", .int (-1))]) ∧
      ¬ IsTable (bare (tokens "\x7bx = 3-1\x7d".toList)) := by
  have hliteral : literalSource "\x7bx = 3-1\x7d".toList = .ok "\x7bx = 3-1\x7d".toList := by
    decide +kernel
  have hbrace : "\x7bx = 3-1\x7d".toList = '{' :: "x = 3-1\x7d".toList := by
    decide
  have hkeys : textKeyed (.table [(.text "x", .int 3), (.int 1, .int (-1))]) =
      .table [(.text "x", .int 3), (.text "1", .int (-1))] := by
    simp only [textKeyed, textKeyedFields, plain_one]
    rfl
  refine ⟨?_, fun htable => ?_⟩
  · rw [decodeTable_of_read hliteral hbrace readLiteral?_difference, hkeys]
  · -- the tokenizer reads two numerals side by side
    have hfits : ¬ FitsChain (bare (tokens "\x7bx = 3-1\x7d".toList)) := by decide +kernel
    exact hfits htable.orderly.fits

end ModAlmanac.Lua
