import ModAlmanac.Proofs.Expr.Segments

/-!
# Looking up a config

Seen as trees, values are entered by names and by places counted from one, step by step
(`Value.child?`, `Value.reach?`). A path below `card.ability` leads to what its segments reach in the
config of a card, and a path below `stg` to what they reach in the `extra` table of the config where
the first segment leads into it, and in the config otherwise (`evaluate_lookup`). What is not reached
is nil.

This holds for the spellings that leave no white space in a segment. White space between a word
without quotes and its closing bracket becomes a part of the segment, so that another name is looked
up (`evaluate_index`).
-/

namespace ModAlmanac

open ModAlmanac.Expr Number OrderedMap Text

/-! ## Trees -/

/-- A segment of a path into a tree: a name, or the place of an item with the number of items in
front of it. -/
inductive Segment where
  | name (word : Word) (notDigit : word.text.head?.any isAnyDigit = false)
  | place (before : Nat)

/-- The word that writes a segment. Places are counted from one. -/
def Segment.word : Segment → Word
  | .name word _ => word
  | .place before =>
    { text := Nat.toDigits 10 (before + 1)
      ne_nil := Nat.toDigits_ne_nil
      isWordChar := fun _ hc => isWordChar_of_isAlphanum (by
        simp [Char.isAlphanum, isDigit_of_mem_toDigits hc]) }

def Segment.key (segment : Segment) : String :=
  String.ofList segment.word.text

/-- What a segment leads to from a value: under its text in a table, at its place in a list. -/
def Value.child? : Value → Segment → Option Value
  | .table fields, segment => lookup? segment.key fields
  | .list items, .place before => items[before]?
  | _, _ => none

def Value.reach? (v : Value) (segments : List Segment) : Option Value :=
  segments.foldlM Value.child? v

/-- Where a path into the settings begins: in the `extra` table if there is one and the path is empty
or goes on with one of its keys, and in the config otherwise. -/
def settingsOf (config : List (Key × Value)) (segments : List Segment) : Value :=
  match lookup? "extra" config, segments.head? with
  | some (.table extra), none => .table extra
  | some (.table extra), some segment =>
    if (lookup? segment.key extra).isSome then .table extra else .table config
  | _, _ => .table config

/-! ## Following segments -/

theorem Value.follow_nil (segments : List (List Char)) : Value.nil.follow segments = .ok .nil := by
  cases segments <;> rfl

theorem itemAt_place (items : List Value) (before : Nat) :
    itemAt items (Segment.place before).word.text = .ok (items[before]?.getD .nil) := by
  have hdigits : (Nat.toDigits 10 (before + 1)).all isDecimalDigit = true :=
    List.all_eq_true.2 fun c hc => isDecimalDigit_of_isDigit (isDigit_of_mem_toDigits hc)
  rw [itemAt, Segment.word, if_pos hdigits, digitsValue_toDigits]

/-- One step leads to the child of a value, or to nil. -/
theorem Value.follow_child (v : Value) (segment : Segment) (rest : List (List Char)) :
    v.follow (segment.word.text :: rest) = ((v.child? segment).getD .nil).follow rest := by
  cases v with
  | table fields =>
    rw [Value.follow, Value.child?, Segment.key]
    cases lookup? (String.ofList segment.word.text) fields with
    | none => exact (Value.follow_nil rest).symm
    | some inner => rfl
  | list items =>
    cases segment with
    | name word notDigit =>
      obtain ⟨c, more, hword⟩ := List.exists_cons_of_ne_nil word.ne_nil
      have hc : isAnyDigit c = false := by simpa [hword] using notDigit
      have hall : word.text.all isAnyDigit = false := by simp [hword, hc]
      rw [Value.follow, Segment.word, hall, Bool.and_false]
      exact (Value.follow_nil rest).symm
    | place before =>
      have hall : (Nat.toDigits 10 (before + 1)).all isAnyDigit = true :=
        List.all_eq_true.2 fun c hc => by
          rw [isAnyDigit, isDecimalDigit_of_isDigit (isDigit_of_mem_toDigits hc), Bool.true_or]
      have hne : (Nat.toDigits 10 (before + 1)).isEmpty = false := by
        simp [Nat.toDigits_ne_nil]
      rw [Value.follow, itemAt_place, Segment.word, hall, hne]
      rfl
  | nil | bool | int | float | text => exact (Value.follow_nil rest).symm

theorem Value.follow_segments (v : Value) (segments : List Segment) :
    v.follow (segments.map (·.word.text)) = .ok ((v.reach? segments).getD .nil) := by
  induction segments generalizing v with
  | nil => rfl
  | cons segment segments ih =>
    rw [List.map_cons, Value.follow_child, ih, Value.reach?, Value.reach?, List.foldlM_cons]
    cases v.child? segment with
    | some inner => rfl
    | none =>
      have hnil : Value.nil.follow (segments.map (·.word.text)) = .ok .nil := Value.follow_nil _
      rw [ih] at hnil
      exact hnil

theorem extraFor?_segments (config : List (Key × Value)) (segments : List Segment) :
    (extraFor? config (segments.map (·.word.text))).getD (.table config) =
      settingsOf config segments := by
  unfold extraFor? settingsOf
  cases lookup? "extra" config with
  | none => rfl
  | some extra =>
    cases extra with
    | table fields =>
      cases segments with
      | nil => rfl
      | cons segment segments =>
        have hkey : String.ofList segment.word.text = segment.key := rfl
        simp only [List.map_cons, List.head?_cons, hkey]
        by_cases hfound : (lookup? segment.key fields).isSome = true
        · rw [if_pos hfound, if_pos hfound]
          rfl
        · rw [if_neg hfound, if_neg hfound]
          rfl
    | _ => rfl

theorem Scope.resolve_settings (scope : Scope) (segments : List Segment) :
    scope.resolve Root.settings.name (segments.map (·.word.text)) =
      .ok (((settingsOf scope.config segments).reach? segments).getD .nil) := by
  rw [Scope.resolve, if_pos (by rfl), ← Value.follow_segments, ← extraFor?_segments]
  cases extraFor? scope.config (segments.map (·.word.text)) <;> rfl

theorem Scope.resolve_ability (e : Entity) (context : Context) (segments : List Segment) :
    (Scope.of e context).resolve Root.card.name
      ("ability".toList :: segments.map (·.word.text)) =
      .ok (((Value.table e.config).reach? segments).getD .nil) := by
  rw [Scope.resolve, if_neg (by decide), if_pos (by rfl), ← Value.follow_segments]
  rfl

/-! ## Spelled paths -/

theorem segmentsOf_tight {steps : List (Word × Spelling)}
    (h : ∀ step ∈ steps, step.2.trailing = []) :
    segmentsOf steps = steps.map fun step => step.1.text := by
  refine List.map_congr_left fun step hstep => ?_
  rw [Spelling.segment, h step hstep, List.append_nil]

/-- Segments with the way in which each is spelled. -/
abbrev Spelled := List (Segment × Spelling)

def Spelled.text (path : Spelled) : List Char :=
  stepsText (path.map fun step => (step.1.word, step.2))

def Spelled.segments (path : Spelled) : List Segment :=
  path.map Prod.fst

def abilityWord : Word where
  text := "ability".toList
  ne_nil := by decide
  isWordChar := forall_isWordChar (by decide)

@[simp] theorem abilityWord_text : abilityWord.text = "ability".toList := rfl

theorem Spelled.segmentsOf_eq {path : Spelled} (h : ∀ step ∈ path, step.2.trailing = []) :
    segmentsOf (path.map fun step => (step.1.word, step.2)) =
      path.segments.map (·.word.text) := by
  rw [segmentsOf_tight]
  · simp [segments]
  · intro step hstep
    obtain ⟨step, hmem, rfl⟩ := List.mem_map.1 hstep
    exact h step hmem

/-- A path below the ability of a card leads to what its segments reach in the config, and a path
below the settings to what they reach from where the settings begin. -/
theorem evaluate_lookup {path : Spelled} (h : ∀ step ∈ path, step.2.trailing = []) (e : Entity)
    (context : Context) :
    evaluate ("card.ability".toList ++ path.text) e context =
        .ok (((Value.table e.config).reach? path.segments).getD .nil) ∧
      evaluate ("stg".toList ++ path.text) e context =
        .ok (((settingsOf e.config path.segments).reach? path.segments).getD .nil) := by
  have hsegments := Spelled.segmentsOf_eq h
  constructor
  · have hpath := evaluate_pathText .card
      ((abilityWord, .dotted) :: path.map fun step => (step.1.word, step.2)) e context
    rw [← Scope.resolve_ability e context, ← hsegments]
    exact hpath
  · have hpath := evaluate_pathText .settings
      (path.map fun step => (step.1.word, step.2)) e context
    rw [hsegments, Scope.resolve_settings] at hpath
    exact hpath

def oddsPath : Spelled :=
  [(.name { text := "odds".toList, ne_nil := by decide, isWordChar := forall_isWordChar (by decide) }
      (by decide), .dotted),
    (.place 1, .plain .empty .empty),
    (.name { text := ['x'], ne_nil := by decide, isWordChar := forall_isWordChar (by decide) }
      (by decide), .quoted .single .empty .empty)]

/-- A card whose config and its `extra` table both have odds. -/
def oddsCard : Entity :=
  { (default : Entity) with
    config :=
      [(.text "odds", .list [.nil, .record [("x", .int 4)]]),
        (.text "extra", .record [("odds", .list [.nil, .record [("x", .int 7)]])])] }

theorem evaluate_lookup_odds :
    (∀ step ∈ oddsPath, step.2.trailing = []) ∧
      evaluate "card.ability.odds[2][\x27x\x27]".toList oddsCard .standard = .ok (.int 4) ∧
      evaluate "stg.odds[2][\x27x\x27]".toList oddsCard .standard = .ok (.int 7) := by
  have h : ∀ step ∈ oddsPath, step.2.trailing = [] := by
    simp [oddsPath, Spelling.trailing, Blanks.empty]
  exact ⟨h, evaluate_lookup h oddsCard .standard⟩

/-! ## White space in brackets -/

/-- A path of names behind points, with one more segment in some spelling. -/
def indexedText (root : Root) (names : List Word) (last : Word) (spelling : Spelling) :
    List Char :=
  pathText root (names.map fun name => (name, .dotted)) ++ spelling.text last

/-- White space in the brackets around the last segment of a path does not matter, unless it stands
between a word without quotes and the closing bracket. There it is taken for a part of the
segment. -/
theorem evaluate_index (root : Root) (names : List Word) (last : Word) (spelling : Spelling)
    (e : Entity) (context : Context) :
    evaluate (indexedText root names last spelling) e context =
      if spelling.trailing = [] then evaluate (indexedText root names last .dotted) e context
      else
        (Scope.of e context).resolve root.name
          (names.map Word.text ++ [last.text ++ spelling.trailing]) := by
  have hread : ∀ spelling, evaluate (indexedText root names last spelling) e context =
      (Scope.of e context).resolve root.name
        (names.map Word.text ++ [last.text ++ spelling.trailing]) := by
    intro spelling
    have htext : indexedText root names last spelling =
        pathText root (names.map (fun name => (name, .dotted)) ++ [(last, spelling)]) := by
      simp [indexedText, pathText, stepsText]
    rw [htext, evaluate_pathText]
    simp [segmentsOf, Spelling.segment, Spelling.trailing, Function.comp_def]
  rw [hread, hread]
  split
  · next h => rw [h]; rfl
  · rfl

/-- A blank behind a name in brackets makes another name of it. -/
theorem spacedIndex_not_found :
    evaluate "card.ability[x ]".toList { (default : Entity) with config := [(.text "x", .int 1)] }
        .standard = .ok .nil ∧
      evaluate "card.ability.x".toList { (default : Entity) with config := [(.text "x", .int 1)] }
        .standard = .ok (.int 1) := by
  let x : Word :=
    { text := ['x'], ne_nil := by decide, isWordChar := forall_isWordChar (by decide) }
  exact ⟨evaluate_pathText .card [(abilityWord, .dotted), (x, .plain .empty .space)]
      _ _,
    evaluate_pathText .card [(abilityWord, .dotted), (x, .dotted)] _ _⟩

end ModAlmanac
