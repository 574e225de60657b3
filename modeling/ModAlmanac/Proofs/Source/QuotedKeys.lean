import ModAlmanac.Proofs.Source.Declarations
import ModAlmanac.Proofs.Source.LoneFields

/-!
# Quoted keys are read back

A declaration whose key and atlas are written between quotes, with escapes, declares exactly that key
and that atlas (`ofSource_keyed`), whatever quotes, backslashes and line feeds they hold and in
whichever order, also at their ends.

The escapes lead the reader to the true closing quote (`quotedText?_quoteWith`). A key without an
equality sign holds no field, so that neither field is searched for in vain or found inside of the
other one, and its braces balance, so that the body ends where it ends.
-/

namespace ModAlmanac.Source

open Lua Number Text

/-- The body of a declaration with a key and an atlas, both between quotes of one kind. -/
def keyedBody (q : Char) (key atlas : List Char) : List Char :=
  " key = ".toList ++ (quoteWith q key ++ (", atlas = ".toList ++ (quoteWith q atlas ++ [' '])))

/-- The declaration of an object of some kind with a key and an atlas. -/
def keyedText (kind : List Char) (q : Char) (key atlas : List Char) : List Char :=
  namespaceDot ++ (kind ++ (" \x7b".toList ++ (keyedBody q key atlas ++ ['}'])))

/-- One space in each place but behind the value. -/
def tightLayout : Layout :=
  { Layout.spaced with trail := [], isBlank_trail := forall_isBlank_nil }

/-- The text between the quotes at the front, its escapes resolved. -/
def quotedValue? (value : List Char) : Option (List Char) :=
  (quotedText? value).map fun found => unescape found.1

theorem quotedAt?_eq (name : String) : quotedAt? name = fieldAt? quotedValue? name := by
  funext s
  rw [quotedAt?, fieldAt?]
  cases fieldValue? name s with
  | none => rfl
  | some value => rfl

/-- The position in the table at the front. -/
def tablePosition? (value : List Char) : Option (Nat × Nat) :=
  (afterBrace? value).bind positionIn?

theorem positionAt?_eq : positionAt? = fieldAt? tablePosition? "pos" := by
  funext s
  rw [positionAt?, fieldTable?, fieldAt?]
  cases fieldValue? "pos" s with
  | none => rfl
  | some value => rfl

theorem isPlainName_key : IsPlainName "key".toList :=
  isPlainName_of_all (by decide) (by decide)

theorem isPlainName_atlas : IsPlainName "atlas".toList :=
  isPlainName_of_all (by decide) (by decide)

theorem isPlainName_pos : IsPlainName "pos".toList :=
  isPlainName_of_all (by decide) (by decide)

section

variable {q : Char} (hq : q = '\x22' ∨ q = '\x27')

include hq

theorem isLoneValue_quoteWith {s : List Char} (hs : '=' ∉ s) : IsLoneValue (quoteWith q s) where
  head := ⟨q, escapeFor q s ++ [q], rfl, by rcases hq with rfl | rfl <;> decide⟩
  sign_not_mem := sign_not_mem_quoteWith hq hs

theorem quotedValue?_append (s rest : List Char) :
    quotedValue? (quoteWith q s ++ rest) = some s := by
  rw [quotedValue?, quotedText?_quoteWith hq, Option.map_some, unescape_escapeFor hq]

theorem quotedValue?_quoteWith (s : List Char) : quotedValue? (quoteWith q s) = some s :=
  read_of_append fun rest _ => quotedValue?_append hq s rest

theorem readsAlone_quotedValue? (s : List Char) : ReadsAlone quotedValue? (quoteWith q s) :=
  readsAlone_of_append fun rest _ => quotedValue?_append hq s rest

/-- A quoted text is no table. -/
theorem tablePosition?_append (s rest : List Char) :
    tablePosition? (quoteWith q s ++ rest) = none := by
  rcases hq with rfl | rfl <;> rfl

theorem readsAlone_tablePosition? (s : List Char) : ReadsAlone tablePosition? (quoteWith q s) :=
  readsAlone_of_append fun rest _ => tablePosition?_append hq s rest

section

variable {key atlas : List Char} (hkey : '=' ∉ key) (hatlas : '=' ∉ atlas)

/-- The two fields of the body. -/
def keyedFields : List LoneField :=
  [{ layout := tightLayout, name := "key".toList, value := quoteWith q key
     isPlainName := isPlainName_key, isLoneValue := isLoneValue_quoteWith hq hkey },
   { layout := Layout.spaced, name := "atlas".toList, value := quoteWith q atlas
     isPlainName := isPlainName_atlas, isLoneValue := isLoneValue_quoteWith hq hatlas }]

include hkey hatlas

/-- What is found in the body is what the field of that name holds. -/
theorem search_keyedBody {α : Type} {read : List Char → Option α} {name : String}
    (hname : IsPlainName name.toList)
    (hendsKey : name.toList <:+ "key".toList → "key".toList = name.toList)
    (hendsAtlas : name.toList <:+ "atlas".toList → "atlas".toList = name.toList)
    (hread : ∀ s, ReadsAlone read (quoteWith q s)) :
    search (fieldAt? read name) (keyedBody q key atlas) =
      ((keyedFields hq hkey hatlas).filter (·.name = name.toList)).findSome? fun f =>
        read f.value := by
  have hbody : keyedBody q key atlas = joined
      ((keyedFields hq hkey hatlas).map LoneField.text ++ (none : Option (List Char)).toList) := by
    unfold keyedBody
    simp [keyedFields, joined, LoneField.text, Layout.field, tightLayout, Layout.spaced]
  rw [hbody]
  refine search_fields hname ?_ ?_ (by simp)
  · exact List.forall_mem_cons.2 ⟨hread key, List.forall_mem_singleton.2 (hread atlas)⟩
  · exact List.forall_mem_cons.2 ⟨hendsKey, List.forall_mem_singleton.2 hendsAtlas⟩

theorem findQuoted?_key : findQuoted? "key" (keyedBody q key atlas) = some key := by
  rw [findQuoted?_eq, quotedAt?_eq,
    search_keyedBody hq hkey hatlas isPlainName_key (by decide) (by decide)
      (readsAlone_quotedValue? hq)]
  simp [keyedFields, quotedValue?_quoteWith hq]

theorem findQuoted?_atlas : findQuoted? "atlas" (keyedBody q key atlas) = some atlas := by
  rw [findQuoted?_eq, quotedAt?_eq,
    search_keyedBody hq hkey hatlas isPlainName_atlas (by decide) (by decide)
      (readsAlone_quotedValue? hq)]
  simp [keyedFields, quotedValue?_quoteWith hq]

theorem findPosition?_keyedBody : findPosition? (keyedBody q key atlas) = none := by
  have hsearch : findPosition? = search positionAt? := rfl
  rw [hsearch, positionAt?_eq,
    search_keyedBody hq hkey hatlas isPlainName_pos (by decide) (by decide)
      (readsAlone_tablePosition? hq)]
  simp [keyedFields]

end

theorem balanced_keyedBody {key atlas : List Char} (hkey : Balanced '{' '}' key)
    (hatlas : Balanced '{' '}' atlas) : Balanced '{' '}' (keyedBody q key atlas) := by
  have hplain : ∀ s ∈ [" key = ".toList, ", atlas = ".toList, [' ']], Balanced '{' '}' s := by
    intro s hs
    simp only [List.mem_cons, List.not_mem_nil, or_false] at hs
    rcases hs with rfl | rfl | rfl <;> exact balanced_of_forall_ne (by simp)
  exact (hplain _ (by simp)).append ((balanced_quoteWith hq hkey).append
    ((hplain _ (by simp)).append ((balanced_quoteWith hq hatlas).append (hplain _ (by simp)))))

/-- A declaration with a quoted key and a quoted atlas declares one object, with exactly that key and
that atlas. -/
theorem ofSource_keyed {initial : Char} {more : List Char} (hinitial : initial.isUpper = true)
    (hmore : ∀ c ∈ more, isKindChar c = true) {key atlas : List Char} (hkey : '=' ∉ key)
    (hatlas : '=' ∉ atlas) (hkeyBraces : Balanced '{' '}' key)
    (hatlasBraces : Balanced '{' '}' atlas) :
    Entity.ofSource (keyedText (initial :: more) q key atlas) =
      [{ kind := .text (String.ofList (initial :: more))
         key := .text (String.ofList key)
         atlasKey := .text (String.ofList atlas)
         position := none
         body := .text (String.ofList (trim (keyedBody q key atlas)))
         config := []
         vars := []
         infoQueue := [] }] := by
  let d : WrittenDeclaration :=
    { initial, more, gap := [' '], parenthesis := none, body := keyedBody q key atlas
      isUpper_initial := hinitial
      isKindChar_more := hmore
      isBlank_gap := forall_isBlank_space
      isBlank_parenthesis := by simp
      balanced_body := balanced_keyedBody hq hkeyBraces hatlasBraces }
  have htext : keyedText (initial :: more) q key atlas =
      writtenSource [(⟨[], by decide⟩, d)] ⟨[], by decide⟩ := by
    simp [keyedText, writtenSource, WrittenDeclaration.text, WrittenDeclaration.kind,
      WrittenDeclaration.opening, WrittenDeclaration.closing, d]
  have hbody : Declaration.ofBody? (initial :: more) (keyedBody q key atlas) =
      some { kind := String.ofList (initial :: more), key := String.ofList key
             atlasKey := some (String.ofList atlas), position := none
             body := String.ofList (trim (keyedBody q key atlas)) } := by
    rw [Declaration.ofBody?, findQuoted?_key hq hkey hatlas, findQuoted?_atlas hq hkey hatlas,
      findPosition?_keyedBody hq hkey hatlas]
    rfl
  rw [Entity.ofSource, htext, declarations_written]
  simp only [List.filterMap_cons, List.filterMap_nil, d, WrittenDeclaration.kind, hbody,
    List.map_singleton, Entity.ofDeclaration, Option.map_none]

end

/-- A key of quotes and backslashes, one of them at its end, and an atlas with a line feed, braces and
the name of the other field. -/
theorem ofSource_keyed_backslashes :
    let key := "a\x27\\\\\x27n\\".toList
    let atlas := "\x7bC:\x22red\x22\x7d key\n".toList
    '=' ∉ key ∧ '=' ∉ atlas ∧ Balanced '{' '}' key ∧ Balanced '{' '}' atlas ∧
      Entity.ofSource (keyedText "Joker".toList '\x27' key atlas) =
        [{ kind := .text "Joker"
           key := .text "a\x27\\\\\x27n\\"
           atlasKey := .text "\x7bC:\x22red\x22\x7d key\n"
           position := none
           body := .text (String.ofList (trim (keyedBody '\x27' key atlas)))
           config := []
           vars := []
           infoQueue := [] }] := by
  intro key atlas
  have hkey : '=' ∉ key := by decide
  have hatlas : '=' ∉ atlas := by decide
  have hkeyBraces : Balanced '{' '}' key := balanced_of_forall_ne (by simp [key])
  have hatlasBraces : Balanced '{' '}' atlas := by
    have hinner : Balanced '{' '}' "C:\x22red\x22".toList := balanced_of_forall_ne (by simp)
    have hbehind : Balanced '{' '}' " key\n".toList := balanced_of_forall_ne (by simp)
    exact (hinner.nest (by decide)).append hbehind
  exact ⟨hkey, hatlas, hkeyBraces, hatlasBraces, ofSource_keyed (.inr rfl) (by decide)
    (List.all_eq_true.1 (by decide)) hkey hatlas hkeyBraces hatlasBraces⟩

end ModAlmanac.Source
