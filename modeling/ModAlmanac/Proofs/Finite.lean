import ModAlmanac.Value

/-!
# Finite values

A value is finite if every double that stands anywhere within it is (`Value.IsFinite`). Of a list
and of a table this asks for that of its items and of its fields alone, the keys being no values
(`isFinite_list`, `isFinite_table`); of all other values but doubles it asks for nothing.
-/

namespace ModAlmanac

/-! ## Values within values -/

/-- A value stands within itself and within every list or table that has an item or a field it
stands within. -/
inductive Value.Within (w : Value) : Value → Prop
  | self : Within w w
  | item {v : Value} {items : List Value} (hv : v ∈ items) (h : Within w v) :
      Within w (.list items)
  | field {key : Key} {v : Value} {fields : List (Key × Value)} (hv : (key, v) ∈ fields)
      (h : Within w v) : Within w (.table fields)

theorem Value.Within.trans {u v w : Value} (huv : u.Within v) (hvw : v.Within w) : u.Within w := by
  induction hvw with
  | self => exact huv
  | item hv _ ih => exact .item hv ih
  | field hv _ ih => exact .field hv ih

/-! ## Finite values -/

/-- Whether all doubles within a value are finite. -/
def Value.IsFinite (v : Value) : Prop :=
  ∀ x : Float, (Value.float x).Within v → x.isFinite = true

theorem Value.IsFinite.of_within {v w : Value} (h : v.IsFinite) (hw : w.Within v) : w.IsFinite :=
  fun x hx => h x (hx.trans hw)

@[simp] theorem isFinite_nil : Value.nil.IsFinite :=
  fun _ h => nomatch h

@[simp] theorem isFinite_bool (b : Bool) : (Value.bool b).IsFinite :=
  fun _ h => nomatch h

@[simp] theorem isFinite_int (n : Int) : (Value.int n).IsFinite :=
  fun _ h => nomatch h

@[simp] theorem isFinite_text (s : String) : (Value.text s).IsFinite :=
  fun _ h => nomatch h

@[simp] theorem isFinite_float {x : Float} : (Value.float x).IsFinite ↔ x.isFinite = true := by
  constructor
  · intro h
    exact h x .self
  · intro hx y hy
    cases hy
    exact hx

theorem isFinite_list {items : List Value} :
    (Value.list items).IsFinite ↔ ∀ v ∈ items, v.IsFinite := by
  constructor
  · intro h v hv
    exact h.of_within (.item hv .self)
  · intro h x hx
    cases hx with
    | item hv hx => exact h _ hv x hx

theorem isFinite_table {fields : List (Key × Value)} :
    (Value.table fields).IsFinite ↔ ∀ e ∈ fields, e.2.IsFinite := by
  constructor
  · intro h e he
    exact h.of_within (.field he .self)
  · intro h x hx
    cases hx with
    | field hv hx => exact h _ hv x hx

/-- A value that is not finite is found out by one of its doubles. -/
theorem not_isFinite_iff {v : Value} :
    ¬v.IsFinite ↔ ∃ x : Float, (Value.float x).Within v ∧ x.isFinite = false := by
  simp [Value.IsFinite]

end ModAlmanac
