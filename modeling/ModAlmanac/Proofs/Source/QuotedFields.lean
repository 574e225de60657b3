import ModAlmanac.Proofs.Lua.Insertions
import ModAlmanac.Proofs.Source.Configs

/-!
# Quoted fields of a config

A text between double quotes is a value like any other, whatever it is made of: signs of comments,
equality signs, separators, digits and words are data in it (`decodeConfig_quoted`). Its field is found
as it is written, and the other fields are read as they are without it.

The name must not begin with a literal word, since the reader of a name stops behind one
(`decodeConfig_word`).
-/

namespace ModAlmanac.Source

open Lua Text OrderedMap

/-- A text that can stand between double quotes as it is, and that holds no brace. -/
def IsPlainQuoted (s : List Char) : Prop :=
  ∀ c ∈ s, c ≠ '\x22' ∧ c ≠ '\\' ∧ c ≠ '\n' ∧ c ≠ '{' ∧ c ≠ '}'

/-- A field with a quoted text. -/
def quotedField (name blank gap s : List Char) : List Char :=
  name ++ blank ++ '=' :: (gap ++ ('\x22' :: s ++ ['\x22']))

theorem IsPlainQuoted.literal {s : List Char} (hs : IsPlainQuoted s) :
    Literal (.text (String.ofList s)) ('\x22' :: s ++ ['\x22']) := by
  have htext : IsPlainText s := fun c hc => ⟨(hs c hc).1, (hs c hc).2.1, (hs c hc).2.2.1⟩
  have hstring := Scalar.string (q := '\x22') (by decide) htext.fits
  rw [flatMap_value_plain, flatMap_source_plain] at hstring
  exact .scalar hstring

/-! ## Braces -/

theorem ne_brace_of_isFieldName {name : List Char} (hname : IsFieldName name) :
    ∀ c ∈ name, c ≠ '{' ∧ c ≠ '}' := by
  intro c hc
  have hchar := hname.isNameChar c hc
  constructor
  · rintro rfl
    exact absurd hchar (by decide)
  · rintro rfl
    exact absurd hchar (by decide)

/-- A field without braces leaves a row as balanced as it is. -/
theorem balanced_put {f : Frame} {front back : List Slot} (hf : f.Holds front back)
    {field : List Char} (hfield : ∀ c ∈ field, c ≠ '{' ∧ c ≠ '}') :
    Balanced '{' '}' (f.put field) ↔ Balanced '{' '}' f.without := by
  have hnone : ∀ {s : List Char}, (∀ c ∈ s, c ≠ '{' ∧ c ≠ '}') →
      s.filter (fun c => c = '{' || c = '}') = [] :=
    fun hs => List.filter_eq_nil_iff.2 fun c hc => by simpa using hs c hc
  have hseparator : ∀ c ∈ f.separator, c ≠ '{' ∧ c ≠ '}' := by
    rcases hf.behind with ⟨hnil, -⟩ | ⟨hc | hc, -⟩
    · simp [hnil]
    · simp [hc]
    · simp [hc]
  have hsame : (f.put field).filter (fun c => c = '{' || c = '}') =
      f.without.filter fun c => c = '{' || c = '}' := by
    simp only [Frame.put, Frame.without, List.filter_append, hnone hfield, hnone hseparator,
      List.nil_append]
  rw [← balanced_filter_iff (p := fun c => c = '{' || c = '}') (by decide) (by decide), hsame,
    balanced_filter_iff (by decide) (by decide)]

/-! ## Configs -/

/-- A name that no other field's key is written as is a new key. -/
theorem newKey_name {front back : List Slot} {name : List Char} (hname : IsFieldName name)
    (hother : ∀ slot ∈ front ++ back, ∀ key, slot.1 = some key → key.plain ≠ String.ofList name) :
    NewKey (.text (String.ofList name)) (entriesFrom 0 front)
      (entriesFrom (front.length + 1) back) := by
  have hplain : ∀ {index : Nat} {row : List Slot}, (∀ slot ∈ row, slot ∈ front ++ back) →
      ∀ e ∈ entriesFrom index row, e.1.plain ≠ String.ofList name := by
    intro index row hrow e he
    obtain ⟨i, ⟨key, v⟩, hslot, rfl⟩ := mem_entriesFrom.1 he
    cases key with
    | none => exact plain_natural_ne hname _
    | some key => exact hother _ (hrow _ (List.mem_of_getElem? hslot)) key rfl
  have hfront := @hplain 0 front fun slot hslot => List.mem_append_left _ hslot
  have hback := @hplain (front.length + 1) back fun slot hslot => List.mem_append_right _ hslot
  have hsharp := Key.sharp_text (String.ofList name)
  exact {
    front := fun e he => ⟨hfront e he, Bool.eq_false_iff.2 fun hsame =>
      hfront e he (by rw [(hsharp.left e.1).1 hsame]; rfl)⟩
    back := fun e he => ⟨hback e he, Bool.eq_false_iff.2 fun hsame =>
      hback e he (by rw [← (hsharp.right e.1).1 hsame]; rfl)⟩ }

section

variable {s name blank gap : List Char} (hs : IsPlainQuoted s) (hname : IsFieldName name)
  (hblank : ∀ c ∈ blank, isBlank c = true) (hgap : ∀ c ∈ gap, isBlank c = true)

include hs hname hblank hgap

theorem ne_brace_quotedField : ∀ c ∈ quotedField name blank gap s, c ≠ '{' ∧ c ≠ '}' := by
  intro c hc
  simp only [quotedField, List.mem_append, List.mem_cons, List.not_mem_nil, or_false] at hc
  rcases hc with (hc | hc) | rfl | hc | (rfl | hc) | rfl
  · exact ne_brace_of_isFieldName hname c hc
  · exact ne_brace_of_isBlank hblank c hc
  · decide
  · exact ne_brace_of_isBlank hgap c hc
  · decide
  · exact ⟨(hs c hc).2.2.2.1, (hs c hc).2.2.2.2⟩
  · decide

theorem literalField_quoted :
    LiteralField (some (.text (String.ofList name))) (.text (String.ofList s))
      (quotedField name blank gap s) :=
  .named hname hblank (commented_of_blanks hgap) hs.literal

end

theorem decodeConfig_of_table {code signBlank tableBlank inner : List Char} (hcode : IsConfigFree code)
    (hsign : ∀ c ∈ signBlank, isBlank c = true) (htable : ∀ c ∈ tableBlank, isBlank c = true)
    (hinner : Balanced '{' '}' inner) (behind : List Char) {row : List Slot}
    {fields : List (Key × Value)} (hrow : LiteralRow row inner)
    (hfields : tableOf? row = some (.table fields)) :
    decodeConfig (withConfig code signBlank tableBlank inner behind) =
      textTable (entriesFrom 0 row) := by
  rw [decodeConfig, configSource?_surrounded hcode hsign htable hinner behind]
  dsimp only
  rw [decodeTable_literal hrow hfields]
  exact eq_textTable hfields rfl

/-- A quoted field is found as it is written, and the other fields are as they would be around an empty
place: the same as in the config without the field if nothing behind it is numbered. -/
theorem decodeConfig_quoted {s name blank gap : List Char} (hs : IsPlainQuoted s)
    (hname : IsFieldName name) (hblank : ∀ c ∈ blank, isBlank c = true)
    (hgap : ∀ c ∈ gap, isBlank c = true) {f : Frame} {front back : List Slot}
    (hf : f.Holds front back)
    (hother : ∀ slot ∈ front ++ back, ∀ key, slot.1 = some key → key.plain ≠ String.ofList name)
    (hbalanced : Balanced '{' '}' f.without) {code signBlank tableBlank : List Char}
    (hcode : IsConfigFree code) (hsign : ∀ c ∈ signBlank, isBlank c = true)
    (htable : ∀ c ∈ tableBlank, isBlank c = true) (behind : List Char) :
    Amid front back (.text (String.ofList name)) (.text (String.ofList s))
        (decodeConfig
          (withConfig code signBlank tableBlank (f.put (quotedField name blank gap s)) behind)) ∧
      ((∃ others, tableOf? (front ++ back) = some (.table others)) →
        (∀ slot ∈ back, slot.1 ≠ none) →
        (decodeConfig
          (withConfig code signBlank tableBlank (f.put (quotedField name blank gap s)) behind)).filter
            (fun e => !(e.1 == .text (String.ofList name))) =
          decodeConfig (withConfig code signBlank tableBlank f.without behind)) := by
  have hput := (balanced_put hf (ne_brace_quotedField hs hname hblank hgap)).2 hbalanced
  have hrow := hf.put (literalField_quoted hs hname hblank hgap) fun h => nomatch h
  have hslot : (some (Key.text (String.ofList name)), Value.text (String.ofList s)) ∈
      front ++ (some (.text (String.ofList name)), .text (String.ofList s)) :: back :=
    List.mem_append_right front List.mem_cons_self
  have hdecoded := decodeConfig_of_table hcode hsign htable hput behind hrow
    (tableOf?_of_text hslot)
  have hamid := @amid_textTable front back (some _) (newKey_name hname hother)
    (.text (String.ofList s))
  rw [hdecoded]
  refine ⟨hamid, ?_⟩
  rintro ⟨others, hothers⟩ hback
  rw [decodeConfig_of_table hcode hsign htable hbalanced behind hf.without hothers]
  exact hamid.others_of_keyed hback

/-- Signs of comments, separators, numerals and words between quotes. -/
theorem decodeConfig_comment_quoted :
    lookup? "k" (decodeConfig "config=\x7bk=\x22-- nil = 7;\x22,y=2\x7d".toList) =
        some (.text "-- nil = 7;") ∧
      (decodeConfig "config=\x7bk=\x22-- nil = 7;\x22,y=2\x7d".toList).filter
          (fun e => !(e.1 == .text "k")) =
        decodeConfig "config=\x7by=2\x7d".toList := by
  have hs : IsPlainQuoted "-- nil = 7;".toList := by simp [IsPlainQuoted]
  have hname : IsFieldName ['k'] := isFieldName_of_forall (by decide) (by decide) (by decide)
  have hnone : ∀ c ∈ ([] : List Char), isBlank c = true := List.forall_mem_nil _
  have hcode : IsConfigFree [] := isConfigFree_of_forall (by simp) (by simp)
  have hquoted := decodeConfig_quoted hs hname hnone hnone (Frame.holds_first literalRow_two)
    (by simp [Key.plain]; decide) (balanced_of_forall_ne (by simp [Frame.first, Frame.without]))
    hcode hnone hnone []
  exact ⟨hquoted.1.found, hquoted.2 ⟨_, rfl⟩ (by simp)⟩

set_option maxRecDepth 2048 in
theorem readLiteral?_word : readLiteral? "\x7bnilly=\x22s\x22\x7d".toList =
    some (.table [(.text "ly", .text "s")]) := by
  cbv

/-- Of a name that begins with a literal word the rest is taken for the name. -/
theorem decodeConfig_word :
    decodeConfig "config=\x7bnilly=\x22s\x22\x7d".toList = [(.text "ly", .text "s")] := by
  have hsource : configSource? "config=\x7bnilly=\x22s\x22\x7d".toList =
      some "\x7bnilly=\x22s\x22\x7d".toList := by
    decide +kernel
  have hliteral : literalSource "\x7bnilly=\x22s\x22\x7d".toList =
      .ok "\x7bnilly=\x22s\x22\x7d".toList := by
    decide +kernel
  rw [decodeConfig, hsource]
  dsimp only
  rw [decodeTable_of_read hliteral rfl readLiteral?_word]
  rfl

end ModAlmanac.Source
