import ModAlmanac.Proofs.Lua.NamedBlocks
import ModAlmanac.Proofs.Lua.Strings
import ModAlmanac.Proofs.Number.Numerals
import ModAlmanac.Proofs.Text.Parts
import ModAlmanac.Source.Declaration

/-!
# The order of a declaration's fields

The fields of a body are separated by commas, and each attribute of the declaration is searched for in
the body as a whole. Where what reads like a value is closed in its field (`Closed`), nothing is found
across a comma (`search_joined`), so that the first field in which something is found decides.

A field shows an attribute if it has the name somewhere, with a value behind it: in a longer name, a
nested table or a quoted text as well. The order does not matter exactly if all fields that show an
attribute agree on it (`ofBody?_order_iff`), which those do in which none of the names occurs
(`agrees_of_absent`).
-/

namespace ModAlmanac.Source

open Lua Number Text

/-! ## Readers of fields -/

theorem dropBlank_comma (s rest : List Char) :
    dropBlank (s ++ ',' :: rest) = dropBlank s ++ ',' :: rest := by
  induction s with
  | nil => rfl
  | cons c s ih =>
    unfold dropBlank at ih ⊢
    rw [List.cons_append, List.dropWhile_cons, List.dropWhile_cons]
    split
    · exact ih
    · rfl

theorem afterSign?_comma (s rest : List Char) :
    afterSign? (s ++ ',' :: rest) = (afterSign? s).map (· ++ ',' :: rest) := by
  unfold afterSign?
  rw [dropBlank_comma]
  cases dropBlank s with
  | nil => rfl
  | cons c s =>
    rw [List.cons_append]
    by_cases hc : c = '='
    · subst hc
      exact congrArg some (dropBlank_comma s rest)
    · split
      · next heq => exact absurd (List.cons.inj heq).1 hc
      · split
        · next heq => exact absurd (List.cons.inj heq).1 hc
        · rfl

/-- A field does not go on behind a comma. -/
theorem fieldValue?_comma {name : String} (hname : ',' ∉ name.toList) (s rest : List Char) :
    fieldValue? name (s ++ ',' :: rest) = (fieldValue? name s).map (· ++ ',' :: rest) := by
  rw [fieldValue?, fieldValue?, isPrefixOf?_append_cons hname]
  cases name.toList.isPrefixOf? s with
  | none => rfl
  | some behind => exact afterSign?_comma behind rest

/-! ## Quoted values -/

/-- Whether a value that begins with a quote is closed on its line. -/
def closesQuote (value : List Char) : Bool :=
  match value with
  | [] => true
  | q :: rest => !Lua.isQuote q || (stringBody? q rest).any fun found => !found.1.contains '\n'

/-- The quoted value of a field at the front, its escapes resolved. -/
def quotedAt? (name : String) (s : List Char) : Option (List Char) :=
  ((fieldValue? name s).bind quotedText?).map fun found => unescape found.1

theorem findQuoted?_eq (name : String) (s : List Char) :
    findQuoted? name s = search (quotedAt? name) s :=
  search_map _ _ s

/-- The quoted value of a field does not depend on what stands behind the field. -/
theorem quotedText?_append {value : List Char} (h : closesQuote value = true) {rest : List Char}
    (hrest : quotedText? rest = none) :
    (quotedText? (value ++ rest)).map Prod.fst = (quotedText? value).map Prod.fst := by
  cases value with
  | nil => rw [List.nil_append, hrest]; rfl
  | cons q value =>
    rw [List.cons_append, quotedText?, quotedText?]
    cases hq : Lua.isQuote q with
    | false =>
      rw [Lua.isQuote] at hq
      rw [hq]
      rfl
    | true =>
      rw [closesQuote, hq, Bool.not_true, Bool.false_or, Option.any_eq_true] at h
      obtain ⟨⟨inner, after⟩, hbody, hline⟩ := h
      have hline : '\n' ∉ inner := by simpa using hline
      have hclose := closeQuote_of_stringBody? hbody hline []
      rw [List.append_nil] at hclose
      rw [Lua.isQuote] at hq
      rw [hq, if_pos rfl, if_pos rfl, closeQuote_of_stringBody? hbody hline rest, hclose]
      rfl

/-- A part in which whatever reads like the value of one of the three fields is closed: a quote on its
line, and a table in the part. -/
structure Closed (part : List Char) : Prop where
  quotes : ∀ name ∈ ["key", "atlas"], ∀ t ∈ part.tails, ∀ value ∈ fieldValue? name t,
    closesQuote value = true
  tables : ∀ t ∈ part.tails, ∀ behind ∈ fieldTable? "pos" t, '}' ∈ behind

instance (part : List Char) : Decidable (Closed part) :=
  decidable_of_iff
    ((∀ name ∈ ["key", "atlas"], ∀ t ∈ part.tails, ∀ value ∈ fieldValue? name t,
        closesQuote value = true) ∧
      ∀ t ∈ part.tails, ∀ behind ∈ fieldTable? "pos" t, '}' ∈ behind)
    ⟨fun h => ⟨h.1, h.2⟩, fun h => ⟨h.quotes, h.tables⟩⟩

theorem Closed.settled_quoted {part : List Char} (h : Closed part) {name : String}
    (hname : name ∈ ["key", "atlas"]) : Settled (quotedAt? name) part := by
  have hcomma : ',' ∉ name.toList := by
    simp only [List.mem_cons, List.not_mem_nil, or_false] at hname
    rcases hname with rfl | rfl <;> decide
  intro t ht rest
  have hclosed := h.quotes name hname t ((List.mem_tails _ _).2 ht)
  unfold quotedAt?
  rw [fieldValue?_comma hcomma]
  cases hvalue : fieldValue? name t with
  | none => rfl
  | some value =>
    have hsame := @quotedText?_append value (hclosed value hvalue) (',' :: rest) rfl
    have hmap := congrArg (Option.map unescape) hsame
    rw [Option.map_map, Option.map_map] at hmap
    exact hmap

/-! ## Positions -/

/-- The position of a `pos` field at the front. -/
def positionAt? (s : List Char) : Option (Nat × Nat) :=
  (fieldTable? "pos" s).bind positionIn?

theorem Closed.settled_position {part : List Char} (h : Closed part) :
    Settled positionAt? part := by
  intro t ht rest
  have hvalue := @fieldValue?_comma "pos" (by decide) t rest
  unfold positionAt? fieldTable?
  rw [hvalue]
  cases hfound : fieldValue? "pos" t with
  | none => rfl
  | some value =>
    cases value with
    | nil => rfl
    | cons c value =>
      by_cases hc : c = '{'
      · subst hc
        have htable : fieldTable? "pos" t = some value := by rw [fieldTable?, hfound]; rfl
        have hclose := h.tables t ((List.mem_tails _ _).2 ht) value htable
        change positionIn? (value ++ ',' :: rest) = positionIn? value
        rw [positionIn?, positionIn?,
          takeWhile_append_of_mem (p := (· ≠ '}')) hclose (by decide)]
      · have hnone : ∀ s : List Char, afterBrace? (c :: s) = none := by
          intro s
          unfold afterBrace?
          split
          · next heq => exact absurd (List.cons.inj heq).1 hc
          · rfl
        change (afterBrace? (c :: (value ++ ',' :: rest))).bind positionIn? =
          (afterBrace? (c :: value)).bind positionIn?
        rw [hnone, hnone]

/-! ## Declarations -/

/-- White space in front of a field and behind it, and around its equality sign. -/
structure Layout where
  lead : List Char
  blank : List Char
  gap : List Char
  trail : List Char
  isBlank_lead : ∀ c ∈ lead, isBlank c = true
  isBlank_blank : ∀ c ∈ blank, isBlank c = true
  isBlank_gap : ∀ c ∈ gap, isBlank c = true
  isBlank_trail : ∀ c ∈ trail, isBlank c = true

/-- One space in each place. -/
def Layout.spaced : Layout where
  lead := [' ']
  blank := [' ']
  gap := [' ']
  trail := [' ']
  isBlank_lead := forall_isBlank_space
  isBlank_blank := forall_isBlank_space
  isBlank_gap := forall_isBlank_space
  isBlank_trail := forall_isBlank_space

def Layout.field (l : Layout) (name value : List Char) : List Char :=
  l.lead ++ (name ++ (l.blank ++ '=' :: (l.gap ++ (value ++ l.trail))))

/-- A quoted text that is closed on its line. -/
structure QuotedText where
  mark : Char
  inner : List Char
  isQuote_mark : Lua.isQuote mark = true
  closed : stringBody? mark (inner ++ [mark]) = some (inner, [])
  line_not_mem : '\n' ∉ inner

def QuotedText.text (q : QuotedText) : List Char :=
  q.mark :: (q.inner ++ [q.mark])

def QuotedText.value (q : QuotedText) : List Char :=
  unescape q.inner

/-- A table of two coordinates. -/
structure Coordinates where
  xLayout : Layout
  yLayout : Layout
  x : List Char
  y : List Char
  x_ne_nil : x ≠ []
  y_ne_nil : y ≠ []
  isDigit_x : ∀ c ∈ x, isDecimalDigit c = true
  isDigit_y : ∀ c ∈ y, isDecimalDigit c = true

def Coordinates.inner (p : Coordinates) : List Char :=
  p.xLayout.field ['x'] p.x ++ ',' :: p.yLayout.field ['y'] p.y

def Coordinates.value (p : Coordinates) : Nat × Nat :=
  (digitsValue p.x, digitsValue p.y)

/-- The fields of a declaration: a key, perhaps an atlas and a position, and others, however they are
written. -/
structure DeclaredFields where
  key : Layout × QuotedText
  atlas : Option (Layout × QuotedText)
  position : Option (Layout × Coordinates)
  others : List (List Char)

namespace DeclaredFields

def keyText (d : DeclaredFields) : List Char :=
  d.key.1.field "key".toList d.key.2.text

def atlasText (atlas : Layout × QuotedText) : List Char :=
  atlas.1.field "atlas".toList atlas.2.text

def positionText (position : Layout × Coordinates) : List Char :=
  position.1.field "pos".toList ('{' :: (position.2.inner ++ ['}']))

def texts (d : DeclaredFields) : List (List Char) :=
  d.keyText :: (d.atlas.map atlasText).toList ++ (d.position.map positionText).toList ++ d.others

/-- What the fields declare in some order. -/
def declaration (d : DeclaredFields) (kind : List Char) (order : List (List Char)) : Declaration where
  kind := String.ofList kind
  key := String.ofList d.key.2.value
  atlasKey := d.atlas.map fun atlas => String.ofList atlas.2.value
  position := d.position.map fun position => position.2.value
  body := String.ofList (trim (joined order))

/-- Whether what a part shows on its own, looked at as a whole body, is what the fields declare. -/
structure Agrees (d : DeclaredFields) (part : List Char) : Prop where
  key : ∀ key ∈ findQuoted? "key" part, key = d.key.2.value
  atlas : ∀ atlas ∈ findQuoted? "atlas" part, atlas ∈ d.atlas.map (·.2.value)
  position : ∀ position ∈ findPosition? part, position ∈ d.position.map (·.2.value)

instance (d : DeclaredFields) (part : List Char) : Decidable (d.Agrees part) :=
  decidable_of_iff
    ((∀ key ∈ findQuoted? "key" part, key = d.key.2.value) ∧
      (∀ atlas ∈ findQuoted? "atlas" part, atlas ∈ d.atlas.map (·.2.value)) ∧
      ∀ position ∈ findPosition? part, position ∈ d.position.map (·.2.value))
    ⟨fun h => ⟨h.1, h.2.1, h.2.2⟩, fun h => ⟨h.key, h.atlas, h.position⟩⟩

end DeclaredFields

/-! ## What the fields show on their own -/

section

variable (l : Layout)

/-- White space in front of a field is passed over. -/
theorem Layout.search_field {α : Type} {read : List Char → Option α} {name value : List Char}
    (hread : ∀ c s, isBlank c = true → read (c :: s) = none) {found : α}
    (h : read (name ++ (l.blank ++ '=' :: (l.gap ++ (value ++ l.trail)))) = some found) :
    search read (l.field name value) = some found := by
  rw [Layout.field, search_append (passes_of_forall fun c hc s => hread c s (l.isBlank_lead c hc))]
  exact search_of_read h

theorem Layout.findQuoted?_field {name : String} {n : Char} {more : List Char}
    (hname : name.toList = n :: more) (hn : isBlank n = false) (q : QuotedText) :
    findQuoted? name (l.field name.toList q.text) = some q.value := by
  have hquote : isBlank q.mark = false := by
    have hmark := q.isQuote_mark
    unfold Lua.isQuote at hmark
    simp only [Bool.or_eq_true, decide_eq_true_eq] at hmark
    rcases hmark with h | h <;> rw [h] <;> decide
  have hmark : (q.mark = '\x22' || q.mark = '\x27') = true := q.isQuote_mark
  rw [findQuoted?_eq]
  refine l.search_field (fun c s hc => ?_) ?_
  · have hne : c ≠ n := ne_of_isBlank hc hn
    rw [quotedAt?, fieldValue?_cons_eq_none hname hne]
    rfl
  · rw [quotedAt?, QuotedText.text, List.cons_append,
      fieldValue?_spaced name l.isBlank_blank l.isBlank_gap hquote, Option.bind_some, quotedText?,
      if_pos hmark, closeQuote_of_stringBody? q.closed q.line_not_mem]
    rfl

/-- A number is read behind its name. -/
theorem Layout.numberField?_field (name : String) {digits rest : List Char} (hne : digits ≠ [])
    (hdigits : ∀ c ∈ digits, isDecimalDigit c = true) (hrest : StopsBefore isDecimalDigit rest) :
    numberField? name (name.toList ++ (l.blank ++ '=' :: (l.gap ++ (digits ++ rest)))) =
      some (digitsValue digits, rest) := by
  have htake := takeWhile_append_of_stops hdigits hrest
  have hdrop := dropWhile_append_of_stops hdigits hrest
  obtain ⟨d, more, rfl⟩ := List.exists_cons_of_ne_nil hne
  have hd : isBlank d = false := not_isBlank_of_isDecimalDigit (hdigits d List.mem_cons_self)
  rw [List.cons_append] at htake hdrop ⊢
  rw [numberField?, fieldValue?_spaced name l.isBlank_blank l.isBlank_gap hd, Option.bind_some,
    natural?, htake, hdrop]

end

/-! ## Positions in a table -/

/-- A first coordinate at the front, and the last second coordinate behind it. -/
def coordinates? (s : List Char) : Option (Nat × Nat) :=
  (numberField? "x" s).bind fun x =>
    (searchLast (numberField? "y") x.2).map fun y => (x.1, y.1)

theorem positionIn?_eq (table : List Char) :
    positionIn? table = searchLast coordinates? (table.takeWhile (· ≠ '}')) := by
  rw [positionIn?]
  congr 1
  funext s
  rw [coordinates?]
  cases numberField? "x" s with
  | none => rfl
  | some x =>
    change (searchLast (numberField? "y") x.2).bind _ = (searchLast (numberField? "y") x.2).map _
    cases searchLast (numberField? "y") x.2 with
    | none => rfl
    | some y => rfl

/-- A letter that is neither the name of a number field nor a part of it does not occur in it. -/
theorem Layout.not_mem_field (l : Layout) {name digits : List Char} {n : Char}
    (hdigits : ∀ c ∈ digits, isDecimalDigit c = true) (hname : n ∉ name) (hblank : isBlank n = false)
    (hdigit : isDecimalDigit n = false) (hsign : n ≠ '=') : n ∉ l.field name digits := by
  simp only [Layout.field, List.mem_append, List.mem_cons, not_or]
  exact ⟨not_mem_of_forall l.isBlank_lead hblank, hname, not_mem_of_forall l.isBlank_blank hblank,
    hsign, not_mem_of_forall l.isBlank_gap hblank, not_mem_of_forall hdigits hdigit,
    not_mem_of_forall l.isBlank_trail hblank⟩

theorem stopsDigits_blanks {blank rest : List Char} (hblank : ∀ c ∈ blank, isBlank c = true)
    (hrest : StopsBefore isDecimalDigit rest) : StopsBefore isDecimalDigit (blank ++ rest) := by
  cases blank with
  | nil => exact hrest
  | cons c blank =>
    exact stopsBefore_cons (not_isDecimalDigit_of_isBlank (hblank c List.mem_cons_self)) _

theorem numberField?_cons_eq_none {name : String} {n c : Char} {more : List Char}
    (hname : name.toList = n :: more) (hc : c ≠ n) (s : List Char) :
    numberField? name (c :: s) = none := by
  rw [numberField?, fieldValue?_cons_eq_none hname hc]
  rfl

section

variable (p : Coordinates)

/-- Behind the first coordinate the second one is found. -/
theorem Coordinates.searchLast_y :
    searchLast (numberField? "y")
        (p.xLayout.trail ++ ',' :: p.yLayout.field ['y'] p.y) =
      some (digitsValue p.y, p.yLayout.trail) := by
  have hfront : 'y' ∉ p.xLayout.trail ++ ',' :: p.yLayout.lead := by
    simp only [List.mem_append, List.mem_cons, not_or]
    exact ⟨not_mem_of_forall p.xLayout.isBlank_trail (by decide), by decide,
      not_mem_of_forall p.yLayout.isBlank_lead (by decide)⟩
  have hbehind : 'y' ∉ p.yLayout.blank ++ '=' :: (p.yLayout.gap ++ (p.y ++ p.yLayout.trail)) := by
    simp only [List.mem_append, List.mem_cons, not_or]
    exact ⟨not_mem_of_forall p.yLayout.isBlank_blank (by decide), by decide,
      not_mem_of_forall p.yLayout.isBlank_gap (by decide), not_mem_of_forall p.isDigit_y (by decide),
      not_mem_of_forall p.yLayout.isBlank_trail (by decide)⟩
  have hstop := stopsDigits_blanks p.yLayout.isBlank_trail (stopsBefore_nil isDecimalDigit)
  rw [List.append_nil] at hstop
  have hother : ∀ c s, c ≠ 'y' → numberField? "y" (c :: s) = none := fun c s hc =>
    numberField?_cons_eq_none rfl hc s
  have hsearch := searchLast_letter hother rfl hfront hbehind
  rw [List.append_assoc, List.cons_append] at hsearch
  exact hsearch.trans (p.yLayout.numberField?_field "y" p.y_ne_nil p.isDigit_y hstop)

/-- The position in a table of two coordinates is made of both. -/
theorem Coordinates.positionIn?_inner (rest : List Char) :
    positionIn? (p.inner ++ '}' :: rest) = some p.value := by
  have hbrace : '}' ∉ p.inner := by
    simp only [Coordinates.inner, List.mem_append, List.mem_cons, not_or]
    exact ⟨p.xLayout.not_mem_field p.isDigit_x (by decide) (by decide) (by decide) (by decide),
      by decide,
      p.yLayout.not_mem_field p.isDigit_y (by decide) (by decide) (by decide) (by decide)⟩
  have htable : (p.inner ++ '}' :: rest).takeWhile (· ≠ '}') = p.inner :=
    takeWhile_append_of_stops (fun c hc => decide_eq_true fun heq => hbrace (heq ▸ hc))
      (stopsBefore_cons (by decide) rest)
  have hbehind : 'x' ∉ p.xLayout.blank ++ '=' :: (p.xLayout.gap ++ (p.x ++ (p.xLayout.trail ++
      ',' :: p.yLayout.field ['y'] p.y))) := by
    simp only [List.mem_append, List.mem_cons, not_or]
    exact ⟨not_mem_of_forall p.xLayout.isBlank_blank (by decide), by decide,
      not_mem_of_forall p.xLayout.isBlank_gap (by decide), not_mem_of_forall p.isDigit_x (by decide),
      not_mem_of_forall p.xLayout.isBlank_trail (by decide), by decide,
      p.yLayout.not_mem_field p.isDigit_y (by decide) (by decide) (by decide) (by decide)⟩
  have hstop := stopsDigits_blanks p.xLayout.isBlank_trail
    (stopsBefore_cons (p := isDecimalDigit) (c := ',') (by decide) (p.yLayout.field ['y'] p.y))
  have hx := p.xLayout.numberField?_field "x" p.x_ne_nil p.isDigit_x hstop
  have hinner : p.inner = p.xLayout.lead ++ 'x' :: (p.xLayout.blank ++ '=' :: (p.xLayout.gap ++
      (p.x ++ (p.xLayout.trail ++ ',' :: p.yLayout.field ['y'] p.y)))) := by
    simp [Coordinates.inner, Layout.field]
  have hother : ∀ c s, c ≠ 'x' → coordinates? (c :: s) = none := by
    intro c s hc
    rw [coordinates?, @numberField?_cons_eq_none "x" 'x' c _ rfl hc s]
    rfl
  have hname : coordinates? ('x' :: (p.xLayout.blank ++ '=' :: (p.xLayout.gap ++ (p.x ++
      (p.xLayout.trail ++ ',' :: p.yLayout.field ['y'] p.y))))) = some p.value :=
    (congrArg (Option.bind · _) hx).trans (congrArg (Option.map _) p.searchLast_y)
  rw [positionIn?_eq, htable, hinner, searchLast_letter hother rfl
    (not_mem_of_forall p.xLayout.isBlank_lead (by decide)) hbehind, hname]

end

theorem findPosition?_positionText (position : Layout × Coordinates) :
    findPosition? (DeclaredFields.positionText position) = some position.2.value := by
  have hother : ∀ c s, isBlank c = true → positionAt? (c :: s) = none := by
    intro c s hc
    have hne : c ≠ 'p' := ne_of_isBlank hc (by decide)
    rw [positionAt?, fieldTable?, @fieldValue?_cons_eq_none "pos" 'p' c _ rfl hne s]
    rfl
  have hvalue := @fieldValue?_spaced "pos" _ _ position.1.isBlank_blank position.1.isBlank_gap '{'
    (by decide) (position.2.inner ++ '}' :: position.1.trail)
  refine position.1.search_field hother ?_
  rw [List.cons_append, List.append_assoc, List.singleton_append, positionAt?, fieldTable?, hvalue]
  exact position.2.positionIn?_inner position.1.trail

/-! ## Orders -/

theorem findQuoted?_joined {name : String} (hname : name ∈ ["key", "atlas"])
    {order : List (List Char)} (h : ∀ part ∈ order, Closed part) :
    findQuoted? name (joined order) = order.findSome? (findQuoted? name) := by
  have hread : findQuoted? name = search (quotedAt? name) := funext (findQuoted?_eq name)
  have hnil : quotedAt? name [] = none := by
    simp only [List.mem_cons, List.not_mem_nil, or_false] at hname
    rcases hname with rfl | rfl <;> rfl
  rw [hread]
  exact search_joined (fun part hpart => (h part hpart).settled_quoted hname) hnil

theorem findPosition?_joined {order : List (List Char)} (h : ∀ part ∈ order, Closed part) :
    findPosition? (joined order) = order.findSome? findPosition? :=
  search_joined (fun part hpart => (h part hpart).settled_position) rfl

namespace DeclaredFields

variable (d : DeclaredFields)

/-- A field in which none of the names occurs shows nothing. -/
theorem agrees_of_absent {part : List Char}
    (h : ∀ name ∈ ["key", "atlas", "pos"], ¬ name.toList <:+: part) : d.Agrees part := by
  have hvalue : ∀ name ∈ ["key", "atlas", "pos"], ∀ t, t <:+ part → fieldValue? name t = none :=
    fun name hname t ht => fieldValue?_eq_none fun hstart =>
      h name hname (hstart.isInfix.trans ht.isInfix)
  have hquoted : ∀ name ∈ ["key", "atlas", "pos"], findQuoted? name part = none := by
    intro name hname
    have hread : ∀ t, t <:+ part → quotedAt? name t = none := by
      intro t ht
      rw [quotedAt?, hvalue name hname t ht]
      rfl
    rw [findQuoted?_eq]
    exact search_eq_none (fun t _ ht => by rw [List.append_nil, hread t ht])
      (hread [] List.nil_suffix)
  have hread : ∀ t, t <:+ part → positionAt? t = none := by
    intro t ht
    rw [positionAt?, fieldTable?, hvalue "pos" (by simp) t ht]
    rfl
  have hposition : findPosition? part = none :=
    search_eq_none (fun t _ ht => by rw [List.append_nil]; exact hread t ht)
      (hread [] List.nil_suffix)
  exact {
    key := by simp [hquoted]
    atlas := by simp [hquoted]
    position := by simp [hposition] }

theorem ofBody?_eq_some_iff (kind : List Char) (order : List (List Char)) :
    Declaration.ofBody? kind (joined order) = some (d.declaration kind order) ↔
      findQuoted? "key" (joined order) = some d.key.2.value ∧
        findQuoted? "atlas" (joined order) = d.atlas.map (·.2.value) ∧
        findPosition? (joined order) = d.position.map (·.2.value) := by
  unfold Declaration.ofBody?
  cases findQuoted? "key" (joined order) with
  | none => simp
  | some key =>
    have hatlas : (findQuoted? "atlas" (joined order)).map String.ofList =
        (d.atlas.map (·.2.value)).map String.ofList ↔
          findQuoted? "atlas" (joined order) = d.atlas.map (·.2.value) :=
      (Option.map_injective fun _ _ => String.ofList_inj.1).eq_iff
    rw [Option.map_map] at hatlas
    simp only [Option.map_some, Option.some_inj, declaration, Declaration.mk.injEq, true_and,
      and_true, String.ofList_inj]
    exact and_congr_right fun _ => and_congr_left fun _ => hatlas

/-- The key is shown by the key's own field. -/
theorem exists_key : ∀ key ∈ some d.key.2.value, ∃ part ∈ d.texts, key ∈ findQuoted? "key" part := by
  rintro key ⟨⟩
  exact ⟨d.keyText, by simp [texts], d.key.1.findQuoted?_field rfl (by decide) d.key.2⟩

theorem exists_atlas : ∀ atlas ∈ d.atlas.map (·.2.value),
    ∃ part ∈ d.texts, atlas ∈ findQuoted? "atlas" part := by
  intro value hvalue
  obtain ⟨atlas, hatlas, rfl⟩ := Option.map_eq_some_iff.1 hvalue
  exact ⟨atlasText atlas, by simp [texts, hatlas],
    atlas.1.findQuoted?_field rfl (by decide) atlas.2⟩

theorem exists_position : ∀ value ∈ d.position.map (·.2.value),
    ∃ part ∈ d.texts, value ∈ findPosition? part := by
  intro value hvalue
  obtain ⟨position, hposition, rfl⟩ := Option.map_eq_some_iff.1 hvalue
  exact ⟨positionText position, by simp [texts, hposition], findPosition?_positionText position⟩

variable {d}

/-- The order of the fields does not matter exactly if no field, on its own, shows anything else than
what the fields named `key`, `atlas` and `pos` declare. -/
theorem ofBody?_order_iff (hclosed : ∀ part ∈ d.texts, Closed part) (kind : List Char) :
    (∀ order : List (List Char), order.Perm d.texts →
        Declaration.ofBody? kind (joined order) = some (d.declaration kind order)) ↔
      ∀ part ∈ d.texts, d.Agrees part := by
  have hkeys := forall_perm_findSome?_iff d.exists_key
  have hatlases := forall_perm_findSome?_iff d.exists_atlas
  have hpositions := forall_perm_findSome?_iff d.exists_position
  have hparts : ∀ {order : List (List Char)}, order.Perm d.texts → ∀ part ∈ order, Closed part :=
    fun hperm part hpart => hclosed part (hperm.mem_iff.1 hpart)
  constructor
  · intro horder
    have hfound : ∀ order : List (List Char), order.Perm d.texts → _ := fun order hperm =>
      (d.ofBody?_eq_some_iff kind order).1 (horder order hperm)
    intro part hpart
    refine ⟨fun key hkey => ?_, hatlases.1 (fun order hperm => ?_) part hpart,
      hpositions.1 (fun order hperm => ?_) part hpart⟩
    · have hsame := hkeys.1 (fun order hperm => ?_) part hpart key hkey
      · exact (Option.some_inj.1 hsame).symm
      · rw [← findQuoted?_joined (by simp) (hparts hperm)]
        exact (hfound order hperm).1
    · rw [← findQuoted?_joined (by simp) (hparts hperm)]
      exact (hfound order hperm).2.1
    · rw [← findPosition?_joined (hparts hperm)]
      exact (hfound order hperm).2.2
  · intro hagree order hperm
    refine (d.ofBody?_eq_some_iff kind order).2 ⟨?_, ?_, ?_⟩
    · rw [findQuoted?_joined (by simp) (hparts hperm)]
      exact hkeys.2 (fun part hpart key hkey => congrArg some ((hagree part hpart).key key hkey).symm)
        order hperm
    · rw [findQuoted?_joined (by simp) (hparts hperm)]
      exact hatlases.2 (fun part hpart => (hagree part hpart).atlas) order hperm
    · rw [findPosition?_joined (hparts hperm)]
      exact hpositions.2 (fun part hpart => (hagree part hpart).position) order hperm

/-- A key, an atlas, a position and a table in which nothing reads like one of them, in any order. -/
theorem ofBody?_order_table :
    let d : DeclaredFields :=
      { key := (Layout.spaced, ⟨'\x27', ['j'], rfl, by decide, by decide⟩)
        atlas := some (Layout.spaced, ⟨'\x22', ['a'], rfl, by decide, by decide⟩)
        position := some (Layout.spaced, ⟨Layout.spaced, Layout.spaced, ['1'], ['2'],
          by decide, by decide, List.forall_mem_singleton.2 (by decide),
          List.forall_mem_singleton.2 (by decide)⟩)
        others := [" config = { extra = 1 }".toList] }
    (∀ part ∈ d.texts, Closed part) ∧
      ∀ order : List (List Char), order.Perm d.texts →
        Declaration.ofBody? "Joker".toList (joined order) =
          some (d.declaration "Joker".toList order) := by
  intro d
  have hclosed : ∀ part ∈ d.texts, Closed part := by decide +kernel
  exact ⟨hclosed, (ofBody?_order_iff hclosed "Joker".toList).2 (by decide +kernel)⟩

/-- A name that ends in `key` is taken for the key where it comes first. -/
theorem ofBody?_order_decoy :
    (Declaration.ofBody? "Joker".toList
        (joined ["loc_key = \x27x\x27".toList, "key = \x27j\x27".toList])).map (·.key) = some "x" ∧
      (Declaration.ofBody? "Joker".toList
        (joined ["key = \x27j\x27".toList, "loc_key = \x27x\x27".toList])).map (·.key) = some "j" := by
  decide +kernel

end DeclaredFields

end ModAlmanac.Source
