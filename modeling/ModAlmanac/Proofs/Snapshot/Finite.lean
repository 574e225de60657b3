import ModAlmanac.Proofs.Expr.Finite
import ModAlmanac.Proofs.Json.Words
import ModAlmanac.Proofs.Lua.Numerals
import ModAlmanac.Proofs.Snapshot.Compiled
import ModAlmanac.Proofs.Snapshot.Faults
import ModAlmanac.Site.Respond

/-!
# Snapshots that are written as JSON

A snapshot is written as JSON, to its file and to whoever asks for it, exactly if the config and the
substitution values of all its objects are finite (`Snapshot.isFinite_encode_iff`). A config is
unless its literal source holds a numeral out of range; with a finite config the substitution values
are exactly if no expression of theirs takes its value from an overflow
(`Entity.isFinite_evaluated_iff`).
-/

namespace ModAlmanac

open Text

/-! ## Substitution values -/

/-- Whether an expression takes its value from no overflow, for the object that it is evaluated
for. -/
def OverflowFree (context : Context) (expression : Entity × List Char) : Prop :=
  ∀ sub, Expr.Takes (Scope.of expression.1 context) sub (Expr.parse expression.2) →
    ¬sub.Overflows (Scope.of expression.1 context)

theorem isFinite_numberOr_iff {v : Value} (n : Int) : (v.numberOr n).IsFinite ↔ v.IsFinite := by
  cases v with
  | nil => exact iff_of_true (isFinite_int n) isFinite_nil
  | _ => exact Iff.rfl

section Items

variable {entries : EntryMap} {e : Entity} {context : Context}
  (hscope : (Scope.of e context).IsFinite)

include hscope

theorem isFinite_evaluate_iff {text : List Char} {v : Value}
    (h : evaluate text e context = .ok v) : v.IsFinite ↔ OverflowFree context (e, text) :=
  Expr.isFinite_eval_iff hscope h

theorem isFinite_chanceValues_iff {item : List Char} {values : List Value}
    (h : chanceValues item e context = .ok values) :
    (∀ v ∈ values, v.IsFinite) ↔
      ∀ text ∈ chanceExpressions item, OverflowFree context (e, text) := by
  have hnone : ∀ {values : List Value}, (.ok [] : Except EvalError (List Value)) = .ok values →
      ((∀ v ∈ values, v.IsFinite) ↔
        ∀ text ∈ ([] : List (List Char)), OverflowFree context (e, text)) := by
    intro values h
    cases h
    simp
  unfold chanceValues at h
  unfold chanceExpressions
  generalize Expr.callArguments? item = arguments at h
  rcases arguments with _ | _ | ⟨_, _ | ⟨numerator, _ | ⟨denominator, _ | _⟩⟩⟩
  · exact hnone h
  · exact hnone h
  · exact hnone h
  · exact hnone h
  · exact hnone h
  · obtain ⟨a, ha, h⟩ := bind_eq_ok_iff.1 h
    obtain ⟨b, hb, h⟩ := bind_eq_ok_iff.1 h
    cases h
    simp [isFinite_numberOr_iff, isFinite_evaluate_iff hscope ha, isFinite_evaluate_iff hscope hb]

theorem isFinite_itemValues_iff (hentries : ∀ key, (localized entries key).IsFinite)
    {item : List Char} {values : List Value} (h : itemValues entries item e context = .ok values) :
    (∀ v ∈ values, v.IsFinite) ↔
      ∀ text ∈ itemExpressions context item, OverflowFree context (e, text) := by
  unfold itemValues at h
  unfold itemExpressions
  split at h
  · next hempty =>
    cases h
    rw [if_pos hempty]
    simp
  · next hempty =>
    rw [if_neg hempty]
    cases hkey : localizedKey? item with
    | some key =>
      rw [hkey] at h
      cases h
      simp [hentries key]
    | none =>
      rw [hkey] at h
      dsimp only at h ⊢
      by_cases hchance : context.chanceCall.toList.isPrefixOf item = true
      · rw [if_pos hchance] at h ⊢
        exact isFinite_chanceValues_iff hscope h
      · rw [if_neg hchance] at h ⊢
        cases hvalue : evaluate item e context with
        | error err =>
          rw [hvalue] at h
          cases h
        | ok v =>
          rw [hvalue] at h
          cases h
          simp [isFinite_evaluate_iff hscope hvalue]

theorem isFinite_listValues_iff (hentries : ∀ key, (localized entries key).IsFinite)
    {items : List (List Char)} {values : List Value}
    (h : listValues entries e context items = .ok values) :
    (∀ v ∈ values, v.IsFinite) ↔
      ∀ text ∈ listExpressions context items, OverflowFree context (e, text) := by
  induction items generalizing values with
  | nil =>
    cases h
    simp [listExpressions]
  | cons item items ih =>
    obtain ⟨first, hfirst, h⟩ := bind_eq_ok_iff.1 h
    obtain ⟨more, hmore, h⟩ := bind_eq_ok_iff.1 h
    cases h
    have hlist : listExpressions context (item :: items) =
        itemExpressions context (trim item) ++ listExpressions context items :=
      List.flatMap_cons
    rw [hlist, List.forall_mem_append, List.forall_mem_append,
      isFinite_itemValues_iff hscope hentries hfirst, ih hmore]

end Items

/-! ## Objects -/

theorem Value.isFinite_of_isText {v : Value} (h : v.isText = true) : v.IsFinite := by
  obtain ⟨s, rfl⟩ := Value.exists_of_isText h
  exact isFinite_text s

theorem Value.isFinite_of_isTextOrNil {v : Value} (h : v.isTextOrNil = true) : v.IsFinite := by
  rcases Value.eq_of_isTextOrNil h with rfl | ⟨s, rfl⟩
  · exact isFinite_nil
  · exact isFinite_text s

/-- Whether the config and the substitution values of an object are finite. -/
structure Entity.IsFinite (e : Entity) : Prop where
  config : (Value.table e.config).IsFinite
  vars : (Value.list e.vars).IsFinite

theorem Entity.isFinite_cardView {e : Entity} (hdeclared : e.isDeclared = true)
    (h : e.IsFinite) : (Value.table e.cardView).IsFinite := by
  simp only [Entity.isDeclared, Bool.and_eq_true] at hdeclared
  obtain ⟨⟨⟨hkind, hkey⟩, hatlas⟩, hbody⟩ := hdeclared
  refine isFinite_table.2 ?_
  simp only [Entity.cardView, List.forall_mem_cons]
  refine ⟨Value.isFinite_of_isText hkind, Value.isFinite_of_isText hkey,
    Value.isFinite_of_isTextOrNil hatlas, ?_, h.config, h.config, h.vars,
    Value.isFinite_of_isText hbody, fun _ he => absurd he List.not_mem_nil⟩
  cases e.position with
  | none => exact isFinite_nil
  | some p => exact isFinite_table.2 (by simp)

theorem Scope.isFinite_of {e : Entity} {context : Context} (hdeclared : e.isDeclared = true)
    (h : e.IsFinite) (hcontext : (Value.table context.constants).IsFinite) :
    (Scope.of e context).IsFinite where
  config := h.config
  card := Entity.isFinite_cardView hdeclared h
  globals := by
    rcases within_lookupD "G" context.constants with hglobals | hglobals
    · rw [Scope.of, hglobals]
      exact isFinite_nil
    · exact hcontext.of_within hglobals

theorem Entity.isFinite_substitutions_iff {e : Entity} {entries : EntryMap} {context : Context}
    {body : String} {vars : List Value} (hscope : (Scope.of e context).IsFinite)
    (hentries : ∀ key, (localized entries key).IsFinite) (hbody : e.body = .text body)
    (h : e.substitutions entries context = .ok vars) :
    (Value.list vars).IsFinite ↔
      ∀ text ∈ bodyExpressions context body.toList, OverflowFree context (e, text) := by
  rw [isFinite_list]
  rw [Entity.substitutions, hbody] at h
  dsimp only at h
  unfold bodyExpressions
  cases hinside : varsList? body.toList with
  | none =>
    rw [hinside] at h
    cases h
    simp
  | some inside =>
    rw [hinside] at h
    exact isFinite_listValues_iff hscope hentries h

/-- With finite constants, an evaluated object is finite exactly if its config is and no expression
of its substitution values takes its value from an overflow. -/
theorem Entity.isFinite_evaluated_iff {e x : Entity} {entries : EntryMap} {context : Context}
    (hcontext : (Value.table context.constants).IsFinite) (hdeclared : e.isDeclared = true)
    (hvars : e.vars = []) (hentries : ∀ e ∈ entries, e.2.isTyped = true)
    (h : e.evaluated entries context = .ok x) :
    x.IsFinite ↔ (Value.table x.config).IsFinite ∧
      ∀ expression ∈ e.expressions context, OverflowFree context expression := by
  obtain ⟨body, vars, hbody, rfl, hvalues⟩ := Entity.evaluated_eq_ok h
  have hexpressions : e.expressions context =
      (bodyExpressions context body.toList).map (e.configured body.toList, ·) := by
    rw [Entity.expressions, hbody]
  have hiff : (Value.table (Source.decodeConfig body.toList)).IsFinite →
      ((Value.list vars).IsFinite ↔
        ∀ expression ∈ e.expressions context, OverflowFree context expression) := by
    intro hconfig
    have hfinite : (e.configured body.toList).IsFinite :=
      ⟨hconfig, by rw [Entity.configured, hvars]; exact isFinite_list.2 (by simp)⟩
    rw [hexpressions, List.forall_mem_map]
    exact Entity.isFinite_substitutions_iff (Scope.isFinite_of hdeclared hfinite hcontext)
      (fun key => Value.isFinite_of_isText (isText_localized hentries key)) hbody hvalues
  constructor
  · intro hx
    exact ⟨hx.config, (hiff hx.config).1 hx.vars⟩
  · rintro ⟨hconfig, hfree⟩
    exact ⟨hconfig, (hiff hconfig).2 hfree⟩

/-! ## Snapshots -/

theorem Entry.isFinite_encode {e : Entry} (h : e.isTyped = true) : e.encode.IsFinite := by
  unfold Entry.isTyped at h
  rw [Bool.and_eq_true, Bool.and_eq_true, List.all_eq_true] at h
  obtain ⟨⟨hname, hlines⟩, hcategory⟩ := h
  have hlist : (Value.list e.textLines).IsFinite :=
    isFinite_list.2 fun v hv => Value.isFinite_of_isText (hlines v hv)
  refine isFinite_table.2 ?_
  simp [Value.isFinite_of_isText hname, hlist, Value.isFinite_of_isText hcategory]

theorem Atlas.isFinite_encode {key : String} {a : Atlas} (h : a.isTyped key = true) :
    a.encode.IsFinite := by
  unfold Atlas.isTyped at h
  simp only [Bool.and_eq_true] at h
  obtain ⟨⟨⟨⟨hkey, -⟩, hpath⟩, hremote⟩, hserved⟩ := h
  refine isFinite_table.2 ?_
  simp [Value.isFinite_of_isText hkey, Value.isFinite_of_isText hpath,
    Value.isFinite_of_isTextOrNil hremote, Value.isFinite_of_isTextOrNil hserved]

theorem isFinite_encodePosition (position : Option (Int × Int)) :
    (encodePosition position).IsFinite := by
  cases position with
  | none => exact isFinite_nil
  | some p => exact isFinite_table.2 (by simp)

theorem Entity.isFinite_encode_iff {e : Entity} (hdeclared : e.isDeclared = true)
    (hqueue : e.infoQueue = []) : e.encode.IsFinite ↔ e.IsFinite := by
  simp only [Entity.isDeclared, Bool.and_eq_true] at hdeclared
  obtain ⟨⟨⟨hkind, hkey⟩, hatlas⟩, hbody⟩ := hdeclared
  have hempty : (Value.list []).IsFinite := isFinite_list.2 (by simp)
  rw [Entity.encode, isFinite_table, hqueue]
  simp only [List.forall_mem_cons, Value.isFinite_of_isText hkind, Value.isFinite_of_isText hkey,
    Value.isFinite_of_isTextOrNil hatlas, isFinite_encodePosition, Value.isFinite_of_isText hbody,
    hempty, true_and]
  exact ⟨fun h => ⟨h.1, h.2.1⟩, fun h => ⟨h.config, h.vars, by simp⟩⟩

theorem isFinite_mapRecord {α : Type} {f : α → Value} {records : List (String × α)}
    (h : ∀ r ∈ records, (f r.2).IsFinite) : (Value.mapRecord f records).IsFinite := by
  refine isFinite_table.2 fun e he => ?_
  obtain ⟨r, hr, rfl⟩ := List.mem_map.1 he
  exact h r hr

/-- The document of a compiled snapshot is finite exactly if all objects are. -/
theorem Snapshot.isFinite_encode_iff {context : Context} {version : String} {material : Material}
    {s : Snapshot} (h : Snapshot.compile context version material = .ok s) :
    s.encode.IsFinite ↔ ∀ x ∈ s.entities, x.IsFinite := by
  obtain ⟨hentries, hatlases, hevaluated, -⟩ := Snapshot.compile_eq_ok h
  have hentriesFinite : (Value.mapRecord Entry.encode s.entries).IsFinite := by
    refine isFinite_mapRecord fun r hr => Entry.isFinite_encode ?_
    rw [hentries] at hr
    exact EntryMap.isTyped_ofLocale _ r hr
  have hatlasesFinite : (Value.mapRecord Atlas.encode s.atlases).IsFinite := by
    refine isFinite_mapRecord fun r hr => ?_
    rw [hatlases] at hr
    exact Atlas.isFinite_encode
      (AtlasMap.isTyped_linked (Source.sheetsByKey_sheetsOfAll material.texts) r hr)
  have hentity : ∀ x ∈ s.entities, x.encode.IsFinite ↔ x.IsFinite := by
    intro x hx
    obtain ⟨e, he, hx⟩ := exists_of_mem_evaluateAll hevaluated x hx
    have hdeclared := Entity.isDeclared_of_mem_entitiesOfAll he
    obtain ⟨body, vars, -, rfl, -⟩ := Entity.evaluated_eq_ok hx
    exact Entity.isFinite_encode_iff hdeclared rfl
  have hlist : (Value.list (s.entities.map Entity.encode)).IsFinite ↔
      ∀ x ∈ s.entities, x.IsFinite := by
    rw [isFinite_list, List.forall_mem_map]
    exact forall₂_congr hentity
  rw [Snapshot.encode, isFinite_table]
  simp [hentriesFinite, hatlasesFinite, hlist]

/-- A document of a compiled snapshot holds a word that is no JSON exactly if an object is not
finite. -/
theorem Snapshot.holdsForeignWord_iff {context : Context} {version : String} {material : Material}
    {s : Snapshot} (h : Snapshot.compile context version material = .ok s)
    (layout : Json.Layout) :
    Json.HoldsForeignWord (Json.valueText layout 0 s.encode) ↔
      ∃ x ∈ s.entities, ¬x.IsFinite := by
  rw [Json.holdsForeignWord_iff, Snapshot.isFinite_encode_iff h]
  simp

theorem isFinite_standardConstants : (Value.table Context.standard.constants).IsFinite := by
  simp [Context.standard, Value.record, isFinite_table]

/-- The values of an evaluated object are finite exactly if its config is, which it is unless its
literal source holds a numeral out of range, and no expression of its substitution values takes its
value from an overflow; a numeral is one exactly if it is out of range. The file of a compiled
snapshot and what is answered with it hold a word that is no JSON exactly if an object is not
finite. -/
theorem finite_iff_overflowFree {text : List Char} {locale : Source.Locale} {e x : Entity}
    (he : e ∈ Entity.ofSource text)
    (h : e.evaluated (EntryMap.ofLocale locale) .standard = .ok x) :
    (x.IsFinite ↔ (Value.table x.config).IsFinite ∧
      ∀ expression ∈ e.expressions .standard, OverflowFree .standard expression) ∧
    ((Value.table x.config).IsFinite ∨
      ∃ body source literal numeral, e.body = .text body ∧
        Source.configSource? body.toList = some source ∧
          Lua.literalSource source = .ok literal ∧ numeral <:+: literal ∧
            Number.WritesOutOfRange numeral) ∧
    (∀ numeral v, Expr.numeral? numeral = some v →
      (v.IsFinite ↔ ¬Number.WritesOutOfRange (dropLineEnd numeral))) ∧
    ∀ version material s, Snapshot.compile .standard version material = .ok s →
      (Json.HoldsForeignWord s.fileText.toList ↔ ∃ x ∈ s.entities, ¬x.IsFinite) ∧
        ∃ body, Site.Response.ofLookup (.ok s) = .document 200 body ∧
          (Json.HoldsForeignWord body.toList ↔ ∃ x ∈ s.entities, ¬x.IsFinite) := by
  refine ⟨?_, ?_, fun numeral v h => Expr.isFinite_numeral?_iff h, ?_⟩
  · obtain ⟨d, -, rfl⟩ := List.mem_map.1 he
    exact Entity.isFinite_evaluated_iff isFinite_standardConstants
      (Entity.isDeclared_ofDeclaration d) rfl (EntryMap.isTyped_ofLocale locale) h
  · obtain ⟨body, vars, hbody, rfl, -⟩ := Entity.evaluated_eq_ok h
    by_cases hfinite : (Value.table (Source.decodeConfig body.toList)).IsFinite
    · exact .inl hfinite
    · obtain ⟨source, literal, numeral, hnumeral⟩ := Source.exists_numeral_of_decodeConfig hfinite
      exact .inr ⟨body, source, literal, numeral, hbody, hnumeral⟩
  · intro version material s h
    refine ⟨?_, Json.line s.encode, rfl, ?_⟩
    · rw [Snapshot.fileText, Json.document, String.toList_ofList]
      exact Snapshot.holdsForeignWord_iff h _
    · rw [Json.line, String.toList_ofList]
      exact Snapshot.holdsForeignWord_iff h _

/-- A declaration with a numeral out of range among its substitution values. -/
def infiniteText : String :=
  "SMODS.Joker \x7b key = 'j', loc_vars = function() " ++
    "return \x7b vars = \x7b 1e400 \x7d \x7d end \x7d"

/-- Material without display texts, of one source file. -/
def Material.ofText (text : String) : Material :=
  { locale := "", texts := [text], images := [], files := ["main.lua"] }

/-- Whether a value is a double that is not finite. -/
def Value.isUnboundedDouble : Value → Bool
  | .float x => !x.isFinite
  | _ => false

theorem not_isFinite_of_isUnboundedDouble {v : Value} (h : v.isUnboundedDouble = true) :
    ¬v.IsFinite := by
  cases v with
  | float x => simpa [Value.isUnboundedDouble, isFinite_float] using h
  | _ => cases h

/-- The text is compiled, and an object of the snapshot has a value that is not finite. -/
theorem exists_compiled_infiniteText :
    ∃ s, Snapshot.compile .standard "v1" (.ofText infiniteText) = .ok s ∧
      ∃ x ∈ s.entities, ¬x.IsFinite := by
  have hany : (Snapshot.compile .standard "v1" (.ofText infiniteText)).toOption.any
      (fun s => s.entities.any fun x => x.vars.any Value.isUnboundedDouble) = true := by
    decide +kernel
  cases hs : Snapshot.compile .standard "v1" (.ofText infiniteText) with
  | error err =>
    rw [hs] at hany
    cases hany
  | ok s =>
    rw [hs] at hany
    obtain ⟨x, hx, hvars⟩ := List.any_eq_true.1 hany
    obtain ⟨v, hv, hdouble⟩ := List.any_eq_true.1 hvars
    exact ⟨s, rfl, x, hx, fun hfinite =>
      not_isFinite_of_isUnboundedDouble hdouble (isFinite_list.1 hfinite.vars v hv)⟩

/-- Every object of the snapshot is evaluated from one that the text declares. -/
theorem exists_evaluated_of_compile_ofText {context : Context} {version text : String}
    {s : Snapshot} (h : Snapshot.compile context version (.ofText text) = .ok s) {x : Entity}
    (hx : x ∈ s.entities) :
    ∃ e ∈ Entity.ofSource text.toList, e.evaluated s.entries context = .ok x := by
  obtain ⟨-, -, hevaluated, -⟩ := Snapshot.compile_eq_ok h
  obtain ⟨e, he, hx⟩ := exists_of_mem_evaluateAll hevaluated x hx
  obtain ⟨source, hsource, he⟩ := List.mem_flatMap.1 he
  rw [List.mem_singleton.1 hsource] at he
  exact ⟨e, he, hx⟩

/-- An object is not finite, and the file of its snapshot is no JSON. -/
theorem infiniteText_compiled :
    ∃ s, Snapshot.compile .standard "v1" (.ofText infiniteText) = .ok s ∧
      Json.HoldsForeignWord s.fileText.toList ∧
        ∃ e ∈ Entity.ofSource infiniteText.toList, ∃ x ∈ s.entities,
          e.evaluated s.entries .standard = .ok x ∧ ¬x.IsFinite := by
  obtain ⟨s, hs, x, hx, hinfinite⟩ := exists_compiled_infiniteText
  obtain ⟨e, he, hevaluated⟩ := exists_evaluated_of_compile_ofText hs hx
  refine ⟨s, hs, ?_, e, he, x, hx, hevaluated, hinfinite⟩
  rw [Snapshot.fileText, Json.document, String.toList_ofList]
  exact (Snapshot.holdsForeignWord_iff hs _).2 ⟨x, hx, hinfinite⟩

/-- The conditions are met by an object, the numeral and the snapshot of that text. -/
theorem finite_iff_overflowFree_infiniteText :
    ∃ s, Snapshot.compile .standard "v1" (.ofText infiniteText) = .ok s ∧
      (Json.HoldsForeignWord s.fileText.toList ↔ ∃ x ∈ s.entities, ¬x.IsFinite) ∧
        (∃ e ∈ Entity.ofSource infiniteText.toList, ∃ x,
          e.evaluated (EntryMap.ofLocale (Source.Locale.parse [])) .standard = .ok x ∧
            (x.IsFinite ↔ (Value.table x.config).IsFinite ∧
              ∀ expression ∈ e.expressions .standard, OverflowFree .standard expression)) ∧
          ∃ v, Expr.numeral? "1e400".toList = some v ∧
            (v.IsFinite ↔ ¬Number.WritesOutOfRange (dropLineEnd "1e400".toList)) := by
  obtain ⟨s, hs, x, hx, -⟩ := exists_compiled_infiniteText
  obtain ⟨e, he, hevaluated⟩ := exists_evaluated_of_compile_ofText hs hx
  rw [(Snapshot.compile_eq_ok hs).1] at hevaluated
  obtain ⟨v, hv⟩ : ∃ v, Expr.numeral? "1e400".toList = some v :=
    Option.isSome_iff_exists.1 (by decide +kernel)
  obtain ⟨hobject, -, hnumerals, hsnapshots⟩ := finite_iff_overflowFree he hevaluated
  exact ⟨s, hs, (hsnapshots "v1" _ s hs).1, ⟨e, he, x, hevaluated, hobject⟩, v, hv,
    hnumerals _ v hv⟩

end ModAlmanac
