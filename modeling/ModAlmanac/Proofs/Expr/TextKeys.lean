import ModAlmanac.Expr.Substitution
import ModAlmanac.Proofs.Expr.Paths
import ModAlmanac.Proofs.TextKeys

/-!
# Expressions lead to tables with text keys

The tables that an expression can reach are those of a card's config, of the card itself and of the
constants. Where these have text keys (`Scope.HasTextKeys`), so have the value of every expression
(`Expr.hasTextKeys_of_eval`) and the substitution values of the card
(`Entity.hasTextKeys_of_substitutions`). The config always has, for its decoder makes every key a
text (`Source.hasTextKeys_decodeConfig`); of the constants it has to be asked.
-/

namespace ModAlmanac

open OrderedMap Text

/-! ## Values within values -/

/-- What stands within a value with text keys has text keys. -/
theorem Value.Within.hasTextKeys {v w : Value} (h : w.Within v) (hv : v.hasTextKeys = true) :
    w.hasTextKeys = true := by
  induction h with
  | self => exact hv
  | item hmem _ ih => exact ih (hasTextKeys_list.1 hv _ hmem)
  | field hmem _ ih => exact ih ((hasTextKeys_table.1 hv).2 _ hmem).2

theorem hasTextKeys_lookupD {fields : List (Key × Value)}
    (hfields : (Value.table fields).hasTextKeys = true) (name : String) :
    (lookupD name fields).hasTextKeys = true := by
  rcases within_lookupD name fields with h | h
  · rw [h]
    rfl
  · exact h.hasTextKeys hfields

/-! ## Configs -/

mutual

/-- The decoder names keys by their texts. -/
theorem Lua.textKeyed_eq_named : ∀ v : Value, Lua.textKeyed v = v.named Key.plain
  | .nil => rfl
  | .bool _ => rfl
  | .int _ => rfl
  | .float _ => rfl
  | .text _ => rfl
  | .list items => by
    rw [Lua.textKeyed, Value.named_list, Lua.textKeyedItems_eq_named items]
  | .table fields => by
    rw [Lua.textKeyed, Value.named_table, Lua.textKeyedFields_eq_named fields]

theorem Lua.textKeyedItems_eq_named : ∀ items : List Value,
    Lua.textKeyedItems items = namedItems Key.plain items
  | [] => rfl
  | v :: rest => by
    rw [Lua.textKeyedItems, namedItems, Lua.textKeyed_eq_named v,
      Lua.textKeyedItems_eq_named rest]

theorem Lua.textKeyedFields_eq_named : ∀ fields : List (Key × Value),
    Lua.textKeyedFields fields = namedFields Key.plain fields
  | [] => rfl
  | (k, v) :: rest => by
    rw [Lua.textKeyedFields, namedFields, Lua.textKeyed_eq_named v,
      Lua.textKeyedFields_eq_named rest]

end

theorem Lua.hasTextKeys_of_decodeTable {source : List Char} {v : Value}
    (h : Lua.decodeTable source = .ok v) : v.hasTextKeys = true := by
  unfold Lua.decodeTable at h
  cases hsource : Lua.literalSource source with
  | error e =>
    rw [hsource] at h
    cases h
  | ok literal =>
    rw [hsource] at h
    simp only [bind, Except.bind] at h
    split at h
    · split at h
      · next value hread =>
        cases h
        rw [Lua.textKeyed_eq_named]
        exact value.hasTextKeys_named
      · cases h
    · cases h

/-- The config of every declaration has text keys. -/
theorem Source.hasTextKeys_decodeConfig (body : List Char) :
    (Value.table (Source.decodeConfig body)).hasTextKeys = true := by
  unfold Source.decodeConfig
  split
  · rfl
  · split
    · next h => exact Lua.hasTextKeys_of_decodeTable h
    · rfl

/-! ## Numbers -/

theorem Expr.hasTextKeys_wholeOrFloat (x : Float) : (Expr.wholeOrFloat x).hasTextKeys = true := by
  unfold Expr.wholeOrFloat
  split
  · rfl
  · rfl

theorem Operator.hasTextKeys_onDoubles (operator : Operator) (x y : Float) :
    (operator.onDoubles x y).hasTextKeys = true := by
  unfold Operator.onDoubles
  split
  · rfl
  · exact Expr.hasTextKeys_wholeOrFloat _

theorem Operator.hasTextKeys_of_onInts {operator : Operator} {m n : Int} {v : Value}
    (h : operator.onInts m n = .ok v) : v.hasTextKeys = true := by
  unfold Operator.onInts at h
  split at h
  · cases h; rfl
  · cases h; rfl
  · cases h; rfl
  · split at h
    · cases h; rfl
    · split at h
      · cases h
        exact Expr.hasTextKeys_wholeOrFloat _
      · cases h

/-- Arithmetic gives a number or nil. -/
theorem Operator.hasTextKeys_of_apply {operator : Operator} {left right v : Value}
    (h : operator.apply left right = .ok v) : v.hasTextKeys = true := by
  have hmap : ∀ {r : Except EvalError Float} {f : Float → Value},
      (∀ x, (f x).hasTextKeys = true) → r.map f = .ok v → v.hasTextKeys = true := by
    intro r f hf hr
    cases r with
    | error e => cases hr
    | ok x =>
      cases hr
      exact hf x
  unfold Operator.apply at h
  split at h
  · exact Operator.hasTextKeys_of_onInts h
  · cases h
    exact Operator.hasTextKeys_onDoubles _ _ _
  · split at h
    · cases h; rfl
    · exact hmap (fun x => Operator.hasTextKeys_onDoubles _ x _) h
  · split at h
    · cases h; rfl
    · exact hmap (fun y => Operator.hasTextKeys_onDoubles _ _ y) h
  · cases h; rfl

theorem Expr.hasTextKeys_of_numeral? {s : List Char} {v : Value} (h : Expr.numeral? s = some v) :
    v.hasTextKeys = true := by
  unfold Expr.numeral? at h
  dsimp only at h
  split at h
  · cases h; rfl
  · obtain ⟨x, -, rfl⟩ := Option.map_eq_some_iff.1 h
    exact Expr.hasTextKeys_wholeOrFloat x

/-! ## Names -/

/-- Whether all tables that the names of an expression stand for have text keys. -/
structure Scope.HasTextKeys (scope : Scope) : Prop where
  config : (Value.table scope.config).hasTextKeys = true
  card : (Value.table scope.card).hasTextKeys = true
  globals : scope.globals.hasTextKeys = true

theorem Scope.hasTextKeys_of_resolve {scope : Scope} (hscope : scope.HasTextKeys)
    {root : List Char} {segments : List (List Char)} {v : Value}
    (h : scope.resolve root segments = .ok v) : v.hasTextKeys = true := by
  rcases Scope.resolve_cases h with rfl | h | h | h
  · rfl
  · exact h.hasTextKeys hscope.config
  · exact h.hasTextKeys hscope.card
  · exact h.hasTextKeys hscope.globals

/-! ## Expressions -/

/-- Whether the numbers in an expression have text keys, which is to say that they are no tables. -/
def Expr.HasTextKeys : Expr → Prop
  | .blank => True
  | .either left right => left.HasTextKeys ∧ right.HasTextKeys
  | .choice condition yes no => condition.HasTextKeys ∧ yes.HasTextKeys ∧ no.HasTextKeys
  | .both condition last => condition.HasTextKeys ∧ last.HasTextKeys
  | .arith _ left right => left.HasTextKeys ∧ right.HasTextKeys
  | .number value => value.hasTextKeys = true
  | .path _ _ => True

/-- Every expression that is read from a text holds plain numbers. -/
theorem Expr.hasTextKeys_parse (s : List Char) : (Expr.parse s).HasTextKeys := by
  fun_induction Expr.parse s with
  | case1 s hblank => trivial
  | case2 s hblank left right hor ihleft ihright => exact ⟨ihleft, ihright⟩
  | case3 s hblank hor condition rest hand yes no hbranch ihcondition ihyes ihno =>
    exact ⟨ihcondition, ihyes, ihno⟩
  | case4 s hblank hor condition rest hand hbranch ihcondition ihrest =>
    exact ⟨ihcondition, ihrest⟩
  | case5 s hblank hor hand operator left right harith ihleft ihright => exact ⟨ihleft, ihright⟩
  | case6 s hblank hor hand harith value hnumber => exact Expr.hasTextKeys_of_numeral? hnumber
  | case7 s hblank hor hand harith hnumber =>
    unfold Expr.pathOf
    split
    · trivial
    · trivial

/-- The value of an expression has text keys. -/
theorem Expr.hasTextKeys_of_eval {scope : Scope} (hscope : scope.HasTextKeys) {e : Expr} {v : Value}
    (he : e.HasTextKeys) (h : e.eval scope = .ok v) : v.hasTextKeys = true := by
  induction e generalizing v with
  | blank => cases h; rfl
  | either left right ihleft ihright =>
    obtain ⟨a, ha, h⟩ := bind_eq_ok_iff.1 h
    split at h
    · cases h
      exact ihleft he.1 ha
    · exact ihright he.2 h
  | choice condition yes no ihcondition ihyes ihno =>
    obtain ⟨a, -, h⟩ := bind_eq_ok_iff.1 h
    split at h
    · exact ihyes he.2.1 h
    · exact ihno he.2.2 h
  | both condition last ihcondition ihlast => exact ihlast he.2 h
  | arith operator left right ihleft ihright =>
    obtain ⟨a, -, h⟩ := bind_eq_ok_iff.1 h
    obtain ⟨b, -, h⟩ := bind_eq_ok_iff.1 h
    exact Operator.hasTextKeys_of_apply h
  | number value =>
    cases h
    exact he
  | path root segments => exact Scope.hasTextKeys_of_resolve hscope h

/-! ## Cards -/

/-- Whether the constants of evaluation have text keys throughout. -/
def Context.HasTextKeys (context : Context) : Prop :=
  (Value.table context.constants).hasTextKeys = true

/-- A card whose config has text keys and whose other fields are no tables. -/
structure Entity.HasTextKeys (e : Entity) : Prop where
  kind : e.kind.hasTextKeys = true
  key : e.key.hasTextKeys = true
  atlasKey : e.atlasKey.hasTextKeys = true
  body : e.body.hasTextKeys = true
  config : (Value.table e.config).hasTextKeys = true
  vars : (Value.list e.vars).hasTextKeys = true

theorem Entity.hasTextKeys_cardView {e : Entity} (h : e.HasTextKeys) :
    (Value.table e.cardView).hasTextKeys = true := by
  refine hasTextKeys_table.2 ⟨by simp [Entity.cardView, Distinct], ?_⟩
  simp only [Entity.cardView, List.forall_mem_cons, Key.isText_text, true_and]
  refine ⟨h.kind, h.key, h.atlasKey, ?_, h.config, h.config, h.vars, h.body,
    fun _ hv => absurd hv List.not_mem_nil⟩
  cases e.position with
  | none => rfl
  | some p => exact hasTextKeys_table.2 ⟨by simp [Distinct], by simp⟩

theorem Scope.hasTextKeys_of {e : Entity} {context : Context} (he : e.HasTextKeys)
    (hcontext : context.HasTextKeys) : (Scope.of e context).HasTextKeys where
  config := he.config
  card := Entity.hasTextKeys_cardView he
  globals := hasTextKeys_lookupD hcontext "G"

section

variable {e : Entity} {context : Context} (he : e.HasTextKeys) (hcontext : context.HasTextKeys)

include he hcontext

theorem hasTextKeys_of_evaluate {text : List Char} {v : Value}
    (h : evaluate text e context = .ok v) : v.hasTextKeys = true :=
  Expr.hasTextKeys_of_eval (Scope.hasTextKeys_of he hcontext) (Expr.hasTextKeys_parse text) h

theorem hasTextKeys_of_chanceValues {item : List Char} {values : List Value}
    (h : chanceValues item e context = .ok values) : ∀ v ∈ values, v.hasTextKeys = true := by
  have hnumber : ∀ (v : Value) (n : Int), v.hasTextKeys = true →
      (v.numberOr n).hasTextKeys = true := by
    intro v n hv
    cases v with
    | nil => rfl
    | _ => exact hv
  unfold chanceValues at h
  split at h
  · obtain ⟨a, ha, h⟩ := bind_eq_ok_iff.1 h
    obtain ⟨b, hb, h⟩ := bind_eq_ok_iff.1 h
    cases h
    have ha := hnumber a 0 (hasTextKeys_of_evaluate he hcontext ha)
    have hb := hnumber b 1 (hasTextKeys_of_evaluate he hcontext hb)
    exact List.forall_mem_cons.2 ⟨ha, List.forall_mem_singleton.2 hb⟩
  · cases h
    exact fun _ hv => absurd hv List.not_mem_nil

theorem hasTextKeys_of_itemValues {entries : EntryMap}
    (hentries : ∀ key, (localized entries key).hasTextKeys = true) {item : List Char}
    {values : List Value} (h : itemValues entries item e context = .ok values) :
    ∀ v ∈ values, v.hasTextKeys = true := by
  unfold itemValues at h
  split at h
  · cases h
    exact fun _ hv => absurd hv List.not_mem_nil
  · split at h
    · next key _ =>
      cases h
      exact List.forall_mem_singleton.2 (hentries key)
    · split at h
      · exact hasTextKeys_of_chanceValues he hcontext h
      · cases hvalue : evaluate item e context with
        | error _ =>
          rw [hvalue] at h
          cases h
        | ok v =>
          rw [hvalue] at h
          cases h
          exact List.forall_mem_singleton.2 (hasTextKeys_of_evaluate he hcontext hvalue)

theorem hasTextKeys_of_listValues {entries : EntryMap}
    (hentries : ∀ key, (localized entries key).hasTextKeys = true) {items : List (List Char)}
    {values : List Value} (h : listValues entries e context items = .ok values) :
    ∀ v ∈ values, v.hasTextKeys = true := by
  induction items generalizing values with
  | nil =>
    cases h
    exact fun _ hv => absurd hv List.not_mem_nil
  | cons item items ih =>
    obtain ⟨first, hfirst, h⟩ := bind_eq_ok_iff.1 h
    obtain ⟨more, hmore, h⟩ := bind_eq_ok_iff.1 h
    cases h
    intro v hv
    rcases List.mem_append.1 hv with hv | hv
    · exact hasTextKeys_of_itemValues he hcontext hentries hfirst v hv
    · exact ih hmore v hv

theorem Entity.hasTextKeys_of_substitutions {entries : EntryMap}
    (hentries : ∀ key, (localized entries key).hasTextKeys = true) {values : List Value}
    (h : e.substitutions entries context = .ok values) :
    (Value.list values).hasTextKeys = true := by
  refine hasTextKeys_list.2 ?_
  unfold Entity.substitutions at h
  split at h
  · split at h
    · cases h
      exact fun _ hv => absurd hv List.not_mem_nil
    · exact hasTextKeys_of_listValues he hcontext hentries h
  · cases h

end

end ModAlmanac
