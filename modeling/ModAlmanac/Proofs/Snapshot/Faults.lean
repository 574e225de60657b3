import ModAlmanac.Snapshot.Compile
import ModAlmanac.Proofs.Expr.Faults

/-!
# Snapshots that cannot be compiled

Compiling works off the expressions that the substitution values of all declared objects consist of
(`Material.expressions`) and fails with the first one that fails
(`Snapshot.failsWithFirst_compile`); nothing else makes it fail. An expression fails where
evaluation reaches a number out of range or an index of signs (`evaluation_fails_iff`).
-/

namespace ModAlmanac

/-! ## Substitution values -/

/-- The expressions of the two numbers of a chance. -/
def chanceExpressions (item : List Char) : List (List Char) :=
  match Expr.callArguments? item with
  | some (_ :: numerator :: denominator :: _ :: _) => [numerator, denominator]
  | _ => []

/-- The expressions that an item of a `vars` list consists of: none for a localized text, two for a
chance, itself otherwise. -/
def itemExpressions (context : Context) (item : List Char) : List (List Char) :=
  if item.isEmpty then []
  else
    match localizedKey? item with
    | some _ => []
    | none =>
      if context.chanceCall.toList.isPrefixOf item then chanceExpressions item else [item]

/-- The expressions of some items, one item after the other. -/
def listExpressions (context : Context) (items : List (List Char)) : List (List Char) :=
  items.flatMap fun item => itemExpressions context (Text.trim item)

/-- The expressions of a declaration with a body. -/
def bodyExpressions (context : Context) (body : List Char) : List (List Char) :=
  match varsList? body with
  | none => []
  | some inside => listExpressions context (Expr.splitCommas inside)

section Items

variable {entries : EntryMap} {e : Entity} {context : Context}

theorem failsWithFirst_chanceValues (item : List Char) :
    FailsWithFirst (chanceValues item e context) (evaluate · e context)
      (chanceExpressions item) := by
  have hvalue := FailsWithFirst.single (evaluate · e context)
  unfold chanceValues chanceExpressions
  rcases Expr.callArguments? item with _ | _ | ⟨_, _ | ⟨numerator, _ | ⟨denominator, _ | _⟩⟩⟩
  · exact .ok []
  · exact .ok []
  · exact .ok []
  · exact .ok []
  · exact .ok []
  · exact (hvalue numerator).bind fun a _ =>
      (hvalue denominator).map fun b => [a.numberOr 0, b.numberOr 1]

theorem failsWithFirst_itemValues (item : List Char) :
    FailsWithFirst (itemValues entries item e context) (evaluate · e context)
      (itemExpressions context item) := by
  unfold itemValues itemExpressions
  cases item.isEmpty with
  | true => exact .ok []
  | false =>
    cases localizedKey? item with
    | some key => exact .ok [localized entries key]
    | none =>
      cases context.chanceCall.toList.isPrefixOf item with
      | true => exact failsWithFirst_chanceValues item
      | false => exact (FailsWithFirst.single (evaluate · e context) item).map ([·])

theorem failsWithFirst_listValues (items : List (List Char)) :
    FailsWithFirst (listValues entries e context items) (evaluate · e context)
      (listExpressions context items) := by
  induction items with
  | nil => exact .ok []
  | cons item items ih =>
    exact (failsWithFirst_itemValues (Text.trim item)).bind fun values _ => ih.map (values ++ ·)

/-- The substitution values of an object fail with the first of its expressions that does. -/
theorem Entity.failsWithFirst_substitutions {body : String} (hbody : e.body = .text body) :
    FailsWithFirst (e.substitutions entries context) (evaluate · e context)
      (bodyExpressions context body.toList) := by
  rw [Entity.substitutions, hbody]
  dsimp only
  unfold bodyExpressions
  cases varsList? body.toList with
  | none => exact .ok []
  | some inside => exact failsWithFirst_listValues (Expr.splitCommas inside)

end Items

/-! ## Objects -/

/-- The object that the expressions of a declared one are evaluated for, its config decoded. -/
def Entity.configured (e : Entity) (body : List Char) : Entity :=
  { e with config := Source.decodeConfig body }

/-- The expressions of an object, each with the object that it is evaluated for. -/
def Entity.expressions (context : Context) (e : Entity) : List (Entity × List Char) :=
  match e.body with
  | .text body => (bodyExpressions context body.toList).map (e.configured body.toList, ·)
  | _ => []

/-- The value of an expression of an object. -/
def evaluateFor (context : Context) (expression : Entity × List Char) : Except EvalError Value :=
  evaluate expression.2 expression.1 context

theorem Entity.evaluated_eq_map {e : Entity} {entries : EntryMap} {context : Context}
    {body : String} (hbody : e.body = .text body) :
    e.evaluated entries context =
      ((e.configured body.toList).substitutions entries context).map fun vars =>
        { e.configured body.toList with vars, infoQueue := [] } := by
  unfold Entity.evaluated
  split
  · next body' h =>
    cases hbody.symm.trans h
    rfl
  · next h => exact absurd hbody (h body)

theorem Entity.failsWithFirst_evaluated {e : Entity} {entries : EntryMap} {context : Context}
    {body : String} (hbody : e.body = .text body) :
    FailsWithFirst (e.evaluated entries context) (evaluateFor context)
      (e.expressions context) := by
  have hvars : FailsWithFirst ((e.configured body.toList).substitutions entries context)
      (evaluate · (e.configured body.toList) context) (bodyExpressions context body.toList) :=
    Entity.failsWithFirst_substitutions hbody
  rw [Entity.evaluated_eq_map hbody, Entity.expressions, hbody]
  intro err
  unfold FirstFailure
  rw [firstFault_map_iff]
  exact hvars.map _ err

theorem Entity.body_of_mem_entitiesOfAll {texts : List String} {e : Entity}
    (h : e ∈ entitiesOfAll texts) : ∃ body, e.body = .text body := by
  obtain ⟨text, -, he⟩ := List.mem_flatMap.1 h
  obtain ⟨d, -, rfl⟩ := List.mem_map.1 he
  exact ⟨d.body, rfl⟩

theorem failsWithFirst_evaluateAll {entries : EntryMap} {context : Context}
    {entities : List Entity} (h : ∀ e ∈ entities, ∃ body, e.body = .text body) :
    FailsWithFirst (evaluateAll entries context entities) (evaluateFor context)
      (entities.flatMap (Entity.expressions context)) := by
  induction entities with
  | nil => exact .ok []
  | cons e entities ih =>
    obtain ⟨⟨body, hbody⟩, hrest⟩ := List.forall_mem_cons.1 h
    exact (Entity.failsWithFirst_evaluated hbody).bind fun evaluated _ =>
      (ih hrest).map (evaluated :: ·)

/-! ## Snapshots -/

/-- The expressions of all objects that some material declares, in order. -/
def Material.expressions (context : Context) (material : Material) : List (Entity × List Char) :=
  (entitiesOfAll material.texts).flatMap (Entity.expressions context)

/-- Compiling fails with the first expression of the material that fails. -/
theorem Snapshot.failsWithFirst_compile (context : Context) (version : String)
    (material : Material) :
    FailsWithFirst (Snapshot.compile context version material) (evaluateFor context)
      (material.expressions context) :=
  (failsWithFirst_evaluateAll fun _ he => Entity.body_of_mem_entitiesOfAll he).map _

/-- An expression has no value exactly if evaluation reaches a subexpression that fails by itself,
and a snapshot cannot be compiled exactly if an expression of its material has no value; the first
one gives the error. -/
theorem evaluation_fails_iff (context : Context) (err : EvalError) :
    (∀ text e, evaluate text e context = .error err ↔
      ∃ sub, (Expr.parse text).Reaches (Scope.of e context) sub ∧
        sub.Faulty (Scope.of e context) err) ∧
    ∀ version material, Snapshot.compile context version material = .error err ↔
      FirstFailure (evaluateFor context) err (material.expressions context) :=
  ⟨fun _ _ => Expr.eval_eq_error_iff,
    fun version material => Snapshot.failsWithFirst_compile context version material err⟩

/-- A declaration with a value that is too large to be divided. -/
def overflowingMaterial : Material :=
  { locale := ""
    texts := ["SMODS.Joker \x7b key = 'j', " ++
      "loc_vars = function() return \x7b vars = \x7b (1e308*10)/3 \x7d \x7d end \x7d"]
    images := []
    files := ["main.lua"] }

/-- One expression that cannot be determined fails instead of being nil, and with it fails the
snapshot. -/
theorem overflow_not_compiled :
    evaluate "(1e308*10)/3".toList default .standard = .error .outOfRange ∧
      Snapshot.compile .standard "v1" overflowingMaterial = .error .outOfRange := by
  decide +kernel

end ModAlmanac
