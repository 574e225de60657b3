import ModAlmanac.Proofs.Expr.Commas
import ModAlmanac.Proofs.Snapshot.Compiled
import ModAlmanac.Proofs.Text.Skipping

/-!
# Which item a substitution value belongs to

The texts of a card refer to its substitution values by their numbers, so that an item which
contributes too many or too few of them shifts all others. The kind of an item (`HasKind`) is told
by its text alone, and what an item contributes by its kind (`ItemKind.values`); every item has one
kind (`existsUnique_hasKind`), and a kind always contributes the same number of values
(`ItemKind.length_values`). The values of a list are the contributions of its items one after the
other (`Entity.substitutions_eq`), and each stands where the kinds in front of it end
(`kindsValues_at`).
-/

namespace ModAlmanac

open Text Lua

/-! ## Localized texts -/

/-- What stands behind the key of a call of `localize`, up to the parenthesis at its end: nothing,
or a comma and anything. -/
def IsArgumentTail (tail : List Char) : Prop :=
  tail = [] ∨ ∃ blanks rest, tail = blanks ++ ',' :: rest ∧ ∀ c ∈ blanks, isBlank c = true

/-- A call of `localize` with a key between quotes. -/
def IsLocalizeCall (item key : List Char) : Prop :=
  ∃ gap inner opening closing tail,
    item = "localize".toList ++
      (gap ++ '(' :: (inner ++ opening :: (key ++ closing :: (tail ++ [')'])))) ∧
    ((∀ c ∈ gap, isBlank c = true) ∧ ∀ c ∈ inner, isBlank c = true) ∧
    (Source.isQuote opening = true ∧ Source.isQuote closing = true) ∧
    (key ≠ [] ∧ ∀ c ∈ key, Source.isQuote c = false) ∧ IsArgumentTail tail

theorem not_isBlank_of_isQuote {c : Char} (h : Source.isQuote c = true) : isBlank c = false := by
  simp only [Source.isQuote, Bool.or_eq_true, decide_eq_true_eq] at h
  rcases h with rfl | rfl <;> decide

/-- Whether a call of `localize` can go on in this way behind its key. -/
def closesCall (behind : List Char) : Bool :=
  behind = [')'] ||
    match dropBlank behind with
    | ',' :: arguments => arguments.getLast? = some ')'
    | _ => false

theorem closesCall_iff {behind : List Char} :
    closesCall behind = true ↔ ∃ tail, behind = tail ++ [')'] ∧ IsArgumentTail tail := by
  rw [closesCall, Bool.or_eq_true, decide_eq_true_eq]
  constructor
  · rintro (rfl | h)
    · exact ⟨[], rfl, .inl rfl⟩
    · split at h
      · next arguments hcomma =>
        obtain ⟨blanks, hbehind, hblanks⟩ := exists_blanks_dropBlank behind
        obtain ⟨rest, rfl⟩ := List.getLast?_eq_some_iff.1 (of_decide_eq_true h)
        rw [hcomma] at hbehind
        exact ⟨blanks ++ ',' :: rest, by simp [hbehind], .inr ⟨blanks, rest, rfl, hblanks⟩⟩
      · cases h
  · rintro ⟨tail, rfl, rfl | ⟨blanks, rest, rfl, hblanks⟩⟩
    · exact .inl rfl
    · rw [List.append_assoc, List.cons_append, dropBlank_append hblanks (by decide)]
      exact .inr (by simp)

theorem isLocalizeCall_of_localizedKey? {item key : List Char} (h : localizedKey? item = some key) :
    IsLocalizeCall item key := by
  obtain ⟨rest, hrest, h⟩ := Option.bind_eq_some_iff.1 h
  dsimp only at h
  split at h
  · next inside hopen =>
    obtain ⟨_, ⟨⟩, h⟩ := Option.bind_eq_some_iff.1 h
    obtain ⟨opening, hopening, h⟩ := Option.bind_eq_some_iff.1 h
    obtain ⟨text, htext⟩ := List.head?_eq_some_iff.1 hopening
    rw [htext, List.tail_cons] at h
    split at h
    · cases h
    · next hquote =>
      split at h
      · cases h
      · next closing behind hclosing =>
        change (if (!(text.takeWhile (!Source.isQuote ·)).isEmpty && closesCall behind) = true
          then some (text.takeWhile (!Source.isQuote ·)) else none) = some key at h
        split at h
        · next hcall =>
          rw [Bool.and_eq_true] at hcall
          obtain ⟨gap, hgap, hgapBlank⟩ := exists_blanks_dropBlank rest
          obtain ⟨inner, hinner, hinnerBlank⟩ := exists_blanks_dropBlank inside
          obtain ⟨tail, rfl, htail⟩ := closesCall_iff.1 hcall.2
          have hsplit :
              text.takeWhile (!Source.isQuote ·) ++ closing :: (tail ++ [')']) = text := by
            rw [← hclosing, List.takeWhile_append_dropWhile]
          have hend : Source.isQuote closing = true := by
            have hhead := List.head?_dropWhile_not (!Source.isQuote ·) text
            rw [hclosing] at hhead
            simpa using hhead
          cases h
          refine ⟨gap, inner, opening, closing, tail, ?_, ⟨hgapBlank, hinnerBlank⟩,
            ⟨by simpa using hquote, hend⟩, ⟨by simpa using hcall.1, fun c hc => ?_⟩, htail⟩
          · rw [hsplit, ← htext, ← hinner, ← hopen, ← hgap, eq_append_of_isPrefixOf? hrest]
          · simpa using List.mem_takeWhile_imp hc
        · cases h
  · cases h

theorem localizedKey?_of_isLocalizeCall {item key : List Char} (h : IsLocalizeCall item key) :
    localizedKey? item = some key := by
  obtain ⟨gap, inner, opening, closing, tail, rfl, ⟨hgap, hinner⟩, ⟨hopening, hclosing⟩,
    ⟨hne, hkey⟩, htail⟩ := h
  have hpos : ∀ c ∈ key, (!Source.isQuote c) = true := by simpa using hkey
  have htake : (key ++ closing :: (tail ++ [')'])).takeWhile (!Source.isQuote ·) = key := by
    rw [List.takeWhile_append_of_pos hpos, List.takeWhile_cons_of_neg (by simp [hclosing]),
      List.append_nil]
  have hdrop : (key ++ closing :: (tail ++ [')'])).dropWhile (!Source.isQuote ·) =
      closing :: (tail ++ [')']) := by
    rw [List.dropWhile_append_of_pos hpos, List.dropWhile_cons_of_neg (by simp [hclosing])]
  have hcall : closesCall (tail ++ [')']) = true := closesCall_iff.2 ⟨tail, rfl, htail⟩
  rw [localizedKey?, isPrefixOf?_append]
  simp only [Option.bind_eq_bind, Option.bind_some,
    dropBlank_append hgap (by decide : isBlank '(' = false),
    dropBlank_append hinner (not_isBlank_of_isQuote hopening), List.head?_cons, hopening,
    List.tail_cons, htake, hdrop]
  change (if (!key.isEmpty && closesCall (tail ++ [')'])) = true then pure key else none) = some key
  rw [hcall, if_pos (by simp [hne])]
  rfl

theorem localizedKey?_eq_some_iff {item key : List Char} :
    localizedKey? item = some key ↔ IsLocalizeCall item key :=
  ⟨isLocalizeCall_of_localizedKey?, localizedKey?_of_isLocalizeCall⟩

/-! ## Kinds of items -/

/-- What an item of a list stands for. -/
inductive ItemKind where
  | nothing
  | localized (key : List Char)
  | chance (numerator denominator : List Char)
  | expression (text : List Char)

/-- How many values an item contributes. -/
def ItemKind.width : ItemKind → Nat
  | .nothing => 0
  | .localized _ => 1
  | .chance _ _ => 2
  | .expression _ => 1

def ItemKind.values (entries : EntryMap) (e : Entity) (context : Context) :
    ItemKind → Except EvalError (List Value)
  | .nothing => .ok []
  | .localized key => .ok [ModAlmanac.localized entries key]
  | .chance numerator denominator => do
    let a ← evaluate numerator e context
    let b ← evaluate denominator e context
    pure [a.numberOr 0, b.numberOr 1]
  | .expression text => do
    let v ← evaluate text e context
    pure [v]

/-- The values that items of some kinds contribute, one after the other. -/
def kindsValues (entries : EntryMap) (e : Entity) (context : Context) :
    List ItemKind → Except EvalError (List Value)
  | [] => .ok []
  | kind :: rest => do
    let values ← kind.values entries e context
    let more ← kindsValues entries e context rest
    pure (values ++ more)

/-- The kind of an item depends on its text and on the name that chances are called by. -/
inductive HasKind (chanceCall item : List Char) : ItemKind → Prop
  | blank : (∀ c ∈ item, isBlank c = true) → HasKind chanceCall item .nothing
  | localized (key : List Char) : IsLocalizeCall (trim item) key →
      HasKind chanceCall item (.localized key)
  | chance (callee numerator denominator more : List Char) (rest : List (List Char)) :
      (¬ ∀ c ∈ item, isBlank c = true) → (∀ key, ¬ IsLocalizeCall (trim item) key) →
        chanceCall <+: trim item →
          Expr.HasArguments (trim item) (callee :: numerator :: denominator :: more :: rest) →
            HasKind chanceCall item (.chance numerator denominator)
  | shortChance :
      (¬ ∀ c ∈ item, isBlank c = true) → (∀ key, ¬ IsLocalizeCall (trim item) key) →
        chanceCall <+: trim item →
          (∀ arguments, Expr.HasArguments (trim item) arguments → arguments.length < 4) →
            HasKind chanceCall item .nothing
  | expression :
      (¬ ∀ c ∈ item, isBlank c = true) → (∀ key, ¬ IsLocalizeCall (trim item) key) →
        ¬ chanceCall <+: trim item → HasKind chanceCall item (.expression (trim item))

/-- The kind that an item is read as. -/
def itemKind (chanceCall item : List Char) : ItemKind :=
  if (trim item).isEmpty then .nothing
  else
    match localizedKey? (trim item) with
    | some key => .localized key
    | none =>
      if chanceCall.isPrefixOf (trim item) then
        match Expr.callArguments? (trim item) with
        | some (_ :: numerator :: denominator :: _ :: _) => .chance numerator denominator
        | _ => .nothing
      else .expression (trim item)

theorem hasKind_itemKind (chanceCall item : List Char) :
    HasKind chanceCall item (itemKind chanceCall item) := by
  unfold itemKind
  split
  · next hblank => exact .blank (trim_eq_nil_iff.1 (List.isEmpty_iff.1 hblank))
  · next hblank =>
    have hne : ¬ ∀ c ∈ item, isBlank c = true :=
      fun h => hblank (List.isEmpty_iff.2 (trim_eq_nil_iff.2 h))
    split
    · next key hkey => exact .localized key (localizedKey?_eq_some_iff.1 hkey)
    · next hkey =>
      have hlocal : ∀ key, ¬ IsLocalizeCall (trim item) key := fun key h => by
        rw [localizedKey?_eq_some_iff.2 h] at hkey
        cases hkey
      split
      · next hcall =>
        have hprefix := List.isPrefixOf_iff_prefix.1 hcall
        split
        · next callee numerator denominator more rest harguments =>
          exact .chance callee numerator denominator more rest hne hlocal hprefix
            (Expr.callArguments?_eq_some_iff.1 harguments)
        · next hshort =>
          refine .shortChance hne hlocal hprefix fun arguments h => ?_
          have harguments := Expr.callArguments?_eq_some_iff.2 h
          match arguments with
          | [] | [_] | [_, _] | [_, _, _] => simp
          | a :: b :: c :: d :: rest => exact absurd harguments (hshort a b c d rest)
      · next hcall =>
        exact .expression hne hlocal fun h => hcall (List.isPrefixOf_iff_prefix.2 h)

/-- An item has one kind alone. -/
theorem itemKind_eq_of_hasKind {chanceCall item : List Char} {kind : ItemKind}
    (h : HasKind chanceCall item kind) : itemKind chanceCall item = kind := by
  have hempty : (¬ ∀ c ∈ item, isBlank c = true) → ¬ (trim item).isEmpty = true :=
    fun hne h => hne (trim_eq_nil_iff.1 (List.isEmpty_iff.1 h))
  have hkey : (∀ key, ¬ IsLocalizeCall (trim item) key) → localizedKey? (trim item) = none :=
    fun h => Option.eq_none_iff_forall_ne_some.2 fun key hkey =>
      h key (localizedKey?_eq_some_iff.1 hkey)
  cases h with
  | blank h => rw [itemKind, if_pos (List.isEmpty_iff.2 (trim_eq_nil_iff.2 h))]
  | localized key h =>
    have hne : ¬ (trim item).isEmpty = true := by
      obtain ⟨gap, inner, opening, closing, tail, hitem, -⟩ := h
      rw [hitem]
      simp
    rw [itemKind, if_neg hne, localizedKey?_eq_some_iff.2 h]
  | chance callee numerator denominator more rest hne hlocal hcall harguments =>
    rw [itemKind, if_neg (hempty hne), hkey hlocal]
    dsimp only
    rw [if_pos (List.isPrefixOf_iff_prefix.2 hcall), Expr.callArguments?_eq_some_iff.2 harguments]
  | shortChance hne hlocal hcall hshort =>
    rw [itemKind, if_neg (hempty hne), hkey hlocal]
    dsimp only
    rw [if_pos (List.isPrefixOf_iff_prefix.2 hcall)]
    split
    · next harguments =>
      have hlength := hshort _ (Expr.callArguments?_eq_some_iff.1 harguments)
      simp only [List.length_cons] at hlength
      omega
    · rfl
  | expression hne hlocal hcall =>
    rw [itemKind, if_neg (hempty hne), hkey hlocal]
    dsimp only
    rw [if_neg fun h => hcall (List.isPrefixOf_iff_prefix.1 h)]

theorem existsUnique_hasKind (chanceCall item : List Char) :
    ∃! kind, HasKind chanceCall item kind :=
  ⟨itemKind chanceCall item, hasKind_itemKind chanceCall item,
    fun _ h => (itemKind_eq_of_hasKind h).symm⟩

/-! ## Values of a list -/

section

variable {entries : EntryMap} {e : Entity} {context : Context}

/-- An item contributes the values of its kind. -/
theorem itemValues_eq (item : List Char) :
    itemValues entries (trim item) e context =
      (itemKind context.chanceCall.toList item).values entries e context := by
  unfold itemValues itemKind
  cases (trim item).isEmpty with
  | true => rfl
  | false =>
    cases localizedKey? (trim item) with
    | some key => rfl
    | none =>
      cases context.chanceCall.toList.isPrefixOf (trim item) with
      | true =>
        unfold chanceValues
        rcases Expr.callArguments? (trim item) with
          _ | _ | ⟨_, _ | ⟨numerator, _ | ⟨denominator, _ | _⟩⟩⟩ <;> rfl
      | false =>
        change (evaluate (trim item) e context).map ([·]) =
          (ItemKind.expression (trim item)).values entries e context
        rw [ItemKind.values]
        cases evaluate (trim item) e context <;> rfl

theorem listValues_eq {items : List (List Char)} {kinds : List ItemKind}
    (h : List.Forall₂ (HasKind context.chanceCall.toList) items kinds) :
    listValues entries e context items = kindsValues entries e context kinds := by
  induction h with
  | nil => rfl
  | cons hkind _ ih =>
    rw [listValues, kindsValues, itemValues_eq, itemKind_eq_of_hasKind hkind, ih]

/-- An item contributes as many values as its kind says, whatever these are. -/
theorem ItemKind.length_values {kind : ItemKind} {values : List Value}
    (h : kind.values entries e context = .ok values) : values.length = kind.width := by
  cases kind with
  | nothing => cases h; rfl
  | localized key => cases h; rfl
  | chance numerator denominator =>
    obtain ⟨a, -, h⟩ := bind_eq_ok_iff.1 h
    obtain ⟨b, -, h⟩ := bind_eq_ok_iff.1 h
    cases h
    rfl
  | expression text =>
    obtain ⟨v, -, h⟩ := bind_eq_ok_iff.1 h
    cases h
    rfl

theorem kindsValues_append {front behind : List ItemKind} {values : List Value}
    (h : kindsValues entries e context (front ++ behind) = .ok values) :
    ∃ left right, values = left ++ right ∧ left.length = (front.map ItemKind.width).sum ∧
      kindsValues entries e context behind = .ok right := by
  induction front generalizing values with
  | nil => exact ⟨[], values, rfl, rfl, h⟩
  | cons kind front ih =>
    obtain ⟨own, hown, h⟩ := bind_eq_ok_iff.1 h
    obtain ⟨more, hmore, h⟩ := bind_eq_ok_iff.1 h
    cases h
    obtain ⟨left, right, rfl, hlength, hright⟩ := ih hmore
    refine ⟨own ++ left, right, (List.append_assoc own left right).symm, ?_, hright⟩
    rw [List.length_append, ItemKind.length_values hown, hlength, List.map_cons, List.sum_cons]

theorem length_kindsValues {kinds : List ItemKind} {values : List Value}
    (h : kindsValues entries e context kinds = .ok values) :
    values.length = (kinds.map ItemKind.width).sum := by
  rw [← List.append_nil kinds] at h
  obtain ⟨left, right, rfl, hlength, hnil⟩ := kindsValues_append h
  cases hnil
  rw [List.append_nil, hlength]

/-- The values of an item stand behind as many others as the items in front of it contribute. -/
theorem kindsValues_at {front behind : List ItemKind} {kind : ItemKind} {values : List Value}
    (h : kindsValues entries e context (front ++ kind :: behind) = .ok values) :
    ∃ left own right, values = left ++ (own ++ right) ∧
      left.length = (front.map ItemKind.width).sum ∧ own.length = kind.width ∧
        kind.values entries e context = .ok own := by
  obtain ⟨left, more, rfl, hleft, hmore⟩ := kindsValues_append h
  obtain ⟨own, hown, hmore⟩ := bind_eq_ok_iff.1 hmore
  obtain ⟨right, -, hmore⟩ := bind_eq_ok_iff.1 hmore
  cases hmore
  exact ⟨left, own, right, rfl, hleft, ItemKind.length_values hown, hown⟩

end

/-! ## Declared lists -/

/-- An item of a list as it is written: it does not close the table and holds no comma outside of
its own parentheses. -/
structure ListItem where
  text : List Char
  brace_not_mem : '}' ∉ text
  balanced : Balanced '(' ')' text
  comma_not_outside : ¬ Expr.Outside [','] text

/-- A declaration that returns a list of substitution values. -/
def returning (pre : List Char) (items : List ListItem) (post : List Char) : List Char :=
  pre ++ ("return \x7b vars = \x7b".toList ++ ([','].intercalate (items.map ListItem.text) ++
    ("\x7d \x7d".toList ++ post)))

theorem passes_return {pre : List Char} (hpre : ¬ "return".toList <:+: pre) (rest : List Char) :
    Passes returnTable? pre ("return".toList ++ rest) := by
  intro t hne ht
  have hnone : ¬ "return".toList <+: t ++ ("return".toList ++ rest) :=
    not_prefix_append (by decide) hne (fun h => hpre (h.isInfix.trans ht.isInfix)) rest
  rw [returnTable?, isPrefixOf?_eq_none_iff.2 hnone]
  rfl

theorem varsTable?_append {inside : List Char} (h : '}' ∉ inside) (rest : List Char) :
    varsTable? ("vars = \x7b".toList ++ (inside ++ '}' :: rest)) = some inside := by
  have hpos : ∀ c ∈ inside, decide (c ≠ '}') = true := by
    simpa using fun c hc => ne_of_mem_of_not_mem hc h
  have hfield : fieldTable? "vars" ("vars = \x7b".toList ++ (inside ++ '}' :: rest)) =
      some (inside ++ '}' :: rest) := rfl
  rw [varsTable?, hfield, Option.bind_eq_bind, Option.bind_some, if_pos (by simp),
    List.takeWhile_append_of_pos hpos, List.takeWhile_cons_of_neg (by simp), List.append_nil]
  rfl

theorem varsList?_returning {pre : List Char} (hpre : ¬ "return".toList <:+: pre)
    (items : List ListItem) (post : List Char) :
    varsList? (returning pre items post) =
      some ([','].intercalate (items.map ListItem.text)) := by
  have hinside : '}' ∉ [','].intercalate (items.map ListItem.text) := fun h => by
    obtain ⟨part, hpart, hmem⟩ := Expr.mem_of_mem_intercalate (by decide) h
    obtain ⟨item, -, rfl⟩ := List.mem_map.1 hpart
    exact item.brace_not_mem hmem
  have hsplit : "return \x7b vars = \x7b".toList =
      "return".toList ++ " \x7b vars = \x7b".toList := rfl
  have hreturn : search returnTable? (returning pre items post) =
      some (' ' :: ("vars = \x7b".toList ++ ([','].intercalate (items.map ListItem.text) ++
        '}' :: (" \x7d".toList ++ post)))) := by
    rw [returning, hsplit, List.append_assoc, search_append (passes_return hpre _)]
    exact search_of_read rfl
  have hvars : search varsTable? (' ' :: ("vars = \x7b".toList ++
      ([','].intercalate (items.map ListItem.text) ++ '}' :: (" \x7d".toList ++ post)))) =
        some ([','].intercalate (items.map ListItem.text)) := by
    rw [search, show varsTable? (' ' :: _) = none from rfl]
    exact search_of_read (varsTable?_append hinside _)
  rw [varsList?, hreturn, Option.bind_some, hvars]

theorem commaParts_items {items : List ListItem} (h : items ≠ []) :
    Expr.CommaParts ([','].intercalate (items.map ListItem.text)) (items.map ListItem.text) where
  ne_nil := by simpa using h
  joined := rfl
  comma_not_outside part hpart := by
    obtain ⟨item, -, rfl⟩ := List.mem_map.1 hpart
    exact item.comma_not_outside
  settled part hpart := by
    obtain ⟨item, -, rfl⟩ := List.mem_map.1 (List.mem_of_mem_dropLast hpart)
    exact item.balanced.settled

/-- What a declaration with a returned list contributes is what the kinds of its items do. -/
theorem Entity.substitutions_eq {e : Entity} (entries : EntryMap) {context : Context}
    {pre post : List Char} {items : List ListItem} {kinds : List ItemKind}
    (hpre : ¬ "return".toList <:+: pre)
    (hbody : e.body = .text (String.ofList (returning pre items post)))
    (hkinds : List.Forall₂ (fun item => HasKind context.chanceCall.toList item.text) items kinds) :
    e.substitutions entries context = kindsValues entries e context kinds := by
  rw [Entity.substitutions, hbody]
  dsimp only
  rw [String.toList_ofList, varsList?_returning hpre]
  dsimp only
  by_cases hne : items = []
  · subst hne
    cases hkinds
    rfl
  · rw [(commaParts_items hne).splitCommas_eq]
    exact listValues_eq (List.forall₂_map_left_iff.2 hkinds)

/-- The substitution values of a declaration that returns a list are the contributions of its items,
one after the other. Every item has one kind, which tells how many values it contributes, and so
where those of the others stand. -/
theorem substitutions_returning :
    (∀ chanceCall item : List Char, ∃! kind, HasKind chanceCall item kind) ∧
    (∀ (e : Entity) (entries : EntryMap) (context : Context) (pre post : List Char)
      (items : List ListItem) (kinds : List ItemKind), ¬ "return".toList <:+: pre →
        e.body = .text (String.ofList (returning pre items post)) →
        List.Forall₂ (fun item => HasKind context.chanceCall.toList item.text) items kinds →
          e.substitutions entries context = kindsValues entries e context kinds) ∧
    (∀ (e : Entity) (entries : EntryMap) (context : Context) (kinds : List ItemKind)
      (values : List Value), kindsValues entries e context kinds = .ok values →
        values.length = (kinds.map ItemKind.width).sum ∧
        ∀ front kind behind, kinds = front ++ kind :: behind →
          ∃ left own right, values = left ++ (own ++ right) ∧
            left.length = (front.map ItemKind.width).sum ∧ own.length = kind.width ∧
              kind.values entries e context = .ok own) ∧
    ∀ entries : EntryMap, (∀ entry ∈ entries, entry.2.isTyped = true) →
      ∀ key, (localized entries key).isText = true := by
  refine ⟨existsUnique_hasKind, fun _ entries _ _ _ _ _ => Entity.substitutions_eq entries, ?_,
    fun _ => isText_localized⟩
  intro e entries context kinds values h
  refine ⟨length_kindsValues h, ?_⟩
  rintro front kind behind rfl
  exact kindsValues_at h

/-- An item of which the conditions have been checked. -/
def ListItem.ofText (text : List Char) (hbrace : '}' ∉ text)
    (hclose : closeNested '(' ')' 0 (text ++ [')']) = some (text, []))
    (hcomma : Expr.splitTopLevel? [','] text = none) : ListItem where
  text := text
  brace_not_mem := hbrace
  balanced := ((closeNested_eq_some_iff (by decide)).1 hclose).2
  comma_not_outside := (Expr.splitTopLevel?_eq_none_iff (by decide)).1 hcomma

/-- A list with an item of each kind. -/
def mixedItems : List ListItem :=
  [.ofText " localize('b')".toList (by decide) rfl rfl, .ofText " ".toList (by decide) rfl rfl,
   .ofText "p(c, 3, x, 'd')".toList (by decide) rfl rfl, .ofText "p(1)".toList (by decide) rfl rfl,
   .ofText "7".toList (by decide) rfl rfl]

def mixedKinds : List ItemKind :=
  [.localized ['b'], .nothing, .chance ['3'] ['x'], .nothing, .expression ['7']]

def mixedContext : Context where
  constants := []
  chanceCall := "p"

def mixedEntity : Entity :=
  { (default : Entity) with
    body := .text (String.ofList (returning "x = 1 ".toList mixedItems "end".toList)) }

/-- The chance stands behind one value and takes two. -/
theorem substitutions_mixed :
    mixedEntity.substitutions [] mixedContext = .ok [.text "b", .int 3, .int 1, .int 7] ∧
      (∃! kind, HasKind ['p'] "p(1)".toList kind) ∧
      (∃ left own right, [.text "b", .int 3, .int 1, .int 7] = left ++ (own ++ right) ∧
        left.length = 1 ∧ own.length = 2 ∧
          (ItemKind.chance ['3'] ['x']).values [] mixedEntity mixedContext = .ok own) ∧
      (localized [] ['b']).isText = true := by
  obtain ⟨hunique, hvalues, hplaces, htext⟩ := substitutions_returning
  have hkind : ∀ {item kind}, itemKind ['p'] item = kind → HasKind ['p'] item kind :=
    fun h => h ▸ hasKind_itemKind ['p'] _
  have hkinds : List.Forall₂ (fun item => HasKind ['p'] item.text) mixedItems mixedKinds :=
    .cons (hkind rfl) (.cons (hkind rfl) (.cons (hkind rfl) (.cons (hkind rfl)
      (.cons (hkind rfl) .nil))))
  have h3 : evaluate ['3'] mixedEntity mixedContext = .ok (.int 3) :=
    Expr.evaluate_of_head (by decide) _ _
  have hx : evaluate ['x'] mixedEntity mixedContext = .ok .nil :=
    Expr.evaluate_of_head (by decide) _ _
  have h7 : evaluate ['7'] mixedEntity mixedContext = .ok (.int 7) :=
    Expr.evaluate_of_head (by decide) _ _
  have hall : kindsValues [] mixedEntity mixedContext mixedKinds =
      .ok [.text "b", .int 3, .int 1, .int 7] := by
    simp only [mixedKinds, kindsValues, ItemKind.values, h3, hx, h7]
    rfl
  refine ⟨?_, hunique _ _, ?_, htext [] (fun _ h => absurd h List.not_mem_nil) _⟩
  · have hpre : ¬ "return".toList <:+: "x = 1 ".toList := by decide
    exact (hvalues mixedEntity [] mixedContext _ _ mixedItems mixedKinds hpre rfl hkinds).trans hall
  · exact (hplaces _ _ _ _ _ hall).2 [_, _] _ [_, _] rfl

end ModAlmanac
