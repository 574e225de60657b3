import ModAlmanac.Proofs.Lua.Insertions
import ModAlmanac.Proofs.Lua.NamedBlocks
import ModAlmanac.Source.Config

/-!
# Configs among other code

A declaration's config is the table of its first `config` field, whatever code stands around that
field (`decodeConfig_surrounded`). In front of it the word may stand only as the end of a longer name
or of a reference (`IsConfigFree`), so that the search passes over all of that code. The table is
balanced, so that the code behind its closing brace is never looked at.
-/

namespace ModAlmanac.Source

open Lua Text

/-- Whether a word behind a character belongs to a longer name or a reference. -/
def continuesName (c : Char) : Bool :=
  isWordChar c || c = '.'

/-- Code without a `config` of its own: each one in it belongs to a longer name or a reference, and
what stands behind the code does not. -/
structure IsConfigFree (code : List Char) : Prop where
  refers : ∀ front behind, front ++ ("config".toList ++ behind) = code →
    front.getLast?.any continuesName = true
  ends : code.getLast?.any continuesName = false

theorem isConfigFree_of_forall {code : List Char}
    (hrefers : ∀ front ∈ code.inits, "config".toList <+: code.drop front.length →
      front.getLast?.any continuesName = true)
    (hends : code.getLast?.any continuesName = false) : IsConfigFree code where
  refers front behind hcode := by
    refine hrefers front ((List.mem_inits _ _).2 ⟨_, hcode⟩) ⟨behind, ?_⟩
    rw [← hcode, List.drop_left]
  ends := hends

/-! ## The search -/

theorem fieldTable?_eq_none {name : String} {s : List Char} (h : ¬ name.toList <+: s) :
    fieldTable? name s = none := by
  rw [fieldTable?, fieldValue?_eq_none h]
  rfl

/-- No field begins in code without a `config` where the code in front does not go on to a name. -/
theorem IsConfigFree.not_prefix {front code : List Char} (h : IsConfigFree (front ++ code))
    (hne : code ≠ []) (hfront : front.getLast?.any continuesName = false) (rest : List Char) :
    ¬ "config".toList <+: code ++ rest := by
  intro hstart
  rcases prefix_append_iff.1 hstart with ⟨behind, hword⟩ | ⟨tail, hshort, -⟩
  · have hrefers := h.refers front behind (by rw [hword])
    rw [hfront] at hrefers
    cases hrefers
  · -- the code would end inside of the word
    have hends := h.ends
    have hletter : continuesName (code.getLast hne) = true := by
      have hword := @forall_isWordChar "config".toList (by decide) _
        (hshort ▸ List.mem_append_left tail (List.getLast_mem hne))
      rw [continuesName, hword, Bool.true_or]
    rw [List.getLast?_append_of_ne_nil _ hne, List.getLast?_eq_some_getLast hne, Option.any_some,
      hletter] at hends
    cases hends

/-- The search passes over code without a `config`. -/
theorem configInside?_append {front code : List Char} (h : IsConfigFree (front ++ code))
    (rest : List Char) :
    configInside? (front.getLast?.any continuesName) (code ++ rest) = configInside? false rest := by
  induction code generalizing front with
  | nil =>
    have hends := h.ends
    rw [List.append_nil] at hends
    rw [hends, List.nil_append]
  | cons c code ih =>
    have hmore : IsConfigFree ((front ++ [c]) ++ code) := by rwa [List.append_assoc]
    have hnone : (if front.getLast?.any continuesName = true then none
        else fieldTable? "config" (c :: (code ++ rest))) = none := by
      split
      · rfl
      · next hfront =>
        exact fieldTable?_eq_none
          (h.not_prefix (List.cons_ne_nil c code) (Bool.eq_false_iff.2 hfront) rest)
    have htail := ih hmore
    rw [List.getLast?_concat, Option.any_some] at htail
    rw [List.cons_append, configInside?, hnone]
    exact htail

theorem configInside?_of_field {s inside : List Char} (h : fieldTable? "config" s = some inside) :
    configInside? false s = some inside := by
  cases s with
  | nil => cases h
  | cons c rest =>
    rw [configInside?, if_neg Bool.false_ne_true, h]

/-! ## The field -/

/-- A body with a `config` field: the code in front of the field, the white space around its equality
sign, the inside of its table, and the code behind that. -/
def withConfig (front blank gap inner behind : List Char) : List Char :=
  front ++ ("config".toList ++ (blank ++ '=' :: (gap ++ '{' :: (inner ++ '}' :: behind))))

section

variable {front blank gap inner : List Char} (hfront : IsConfigFree front)
  (hblank : ∀ c ∈ blank, isBlank c = true) (hgap : ∀ c ∈ gap, isBlank c = true)
  (hinner : Balanced '{' '}' inner) (behind : List Char)

include hfront hblank hgap hinner

theorem configSource?_surrounded :
    configSource? (withConfig front blank gap inner behind) = some ('{' :: inner ++ ['}']) := by
  have hvalue := @fieldValue?_spaced "config" _ _ hblank hgap '{' (by decide)
    (inner ++ '}' :: behind)
  have hfield : fieldTable? "config" ("config".toList ++
      (blank ++ '=' :: (gap ++ '{' :: (inner ++ '}' :: behind)))) =
        some (inner ++ '}' :: behind) := by
    rw [fieldTable?, hvalue]
    rfl
  have hinside : configInside? false (withConfig front blank gap inner behind) =
      some (inner ++ '}' :: behind) := by
    have hskip := @configInside?_append [] front hfront ("config".toList ++
      (blank ++ '=' :: (gap ++ '{' :: (inner ++ '}' :: behind))))
    exact hskip.trans (configInside?_of_field hfield)
  rw [configSource?, hinside, Option.bind_eq_bind, Option.bind_some, closeBrace_balanced hinner]
  rfl

/-- The config is what the table of the field denotes, and empty if that is no keyed literal. The
code around the field has no part in it. -/
theorem decodeConfig_surrounded :
    decodeConfig (withConfig front blank gap inner behind) =
      match decodeTable ('{' :: inner ++ ['}']) with
      | .ok (.table fields) => fields
      | _ => [] := by
  have hsource := configSource?_surrounded hfront hblank hgap hinner behind
  unfold decodeConfig
  generalize configSource? _ = source at hsource ⊢
  subst hsource
  rfl

end

theorem decodeTable_extra : decodeTable "\x7b extra = 3 \x7d".toList =
    .ok (.table [(.text "extra", .int 3)]) := by
  have hname : IsFieldName "extra".toList := isFieldName_of_forall (by decide) (by decide) (by decide)
  have hfield := @literalField_whole "extra".toList [' '] [' '] ['3'] hname forall_isBlank_space
    forall_isBlank_space (by decide) (List.forall_mem_singleton.2 (by decide))
  have hspace : Commented [' '] := commented_of_blanks forall_isBlank_space
  have hrow : LiteralRow [(some (.text "extra"), .int 3)] " extra = 3 ".toList :=
    .last hspace hfield (fun h => nomatch h) hspace
  exact decodeTable_literal hrow rfl

/-- A reference, a comment and a longer name in front of the field, and a second table behind it. -/
theorem decodeConfig_behind_reference :
    decodeConfig (withConfig "pos = card.config.pos, -- myconfig = \x7b\n  ".toList [' '] [' ']
      " extra = 3 ".toList ", config = \x7b x = 1 \x7d\x7d".toList) =
        [(.text "extra", .int 3)] := by
  have hfront : IsConfigFree "pos = card.config.pos, -- myconfig = \x7b\n  ".toList :=
    isConfigFree_of_forall (by decide +kernel) (by decide +kernel)
  have hinner : Balanced '{' '}' " extra = 3 ".toList := balanced_of_forall_ne (by simp)
  have hconfig := decodeConfig_surrounded hfront forall_isBlank_space forall_isBlank_space hinner
    ", config = \x7b x = 1 \x7d\x7d".toList
  rw [show '{' :: " extra = 3 ".toList ++ ['}'] = "\x7b extra = 3 \x7d".toList by decide,
    decodeTable_extra] at hconfig
  exact hconfig

end ModAlmanac.Source
