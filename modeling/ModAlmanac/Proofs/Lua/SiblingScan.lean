import ModAlmanac.Proofs.Lua.Blocks
import ModAlmanac.Proofs.Lua.Contents
import ModAlmanac.Proofs.Lua.PlainSource

/-!
# The scan for sibling blocks

A block is written as an opening, a content and a closing brace. An opening has a whole name in
front, and so it neither runs into another opening (`Opening.exists_behind`) nor across a closing
brace (`Opening.inside_or_behind`). The scan goes on either one character further or behind a closing
brace, and an opening that is passed over in the first way has a brace that is never matched. So
every opening is that of a block, stands in a block or is never matched (`siblings_complete`), and
all blocks stand in the text one behind the other (`exists_standsAt_of_mem_siblings`,
`pairwise_siblings`).
-/

namespace ModAlmanac.Lua

open Number Text

/-! ## Whole words -/

/-- Whether a word behind a text is a word of its own. -/
def EndsOutsideWord (front : List Char) : Prop :=
  ∀ c, front.getLast? = some c → isWordChar c = false

theorem EndsOutsideWord.append {front more : List Char} (h : EndsOutsideWord front)
    (hmore : EndsOutsideWord more) : EndsOutsideWord (front ++ more) := by
  intro c hc
  rw [List.getLast?_append, Option.or_eq_some_iff] at hc
  rcases hc with hc | ⟨-, hc⟩
  · exact hmore c hc
  · exact h c hc

theorem EndsOutsideWord.of_append {front more : List Char} (h : EndsOutsideWord (front ++ more)) :
    EndsOutsideWord more := by
  intro c hc
  refine h c ?_
  rw [List.getLast?_append, hc]
  rfl

theorem endsOutsideWord_concat {c : Char} (hc : isWordChar c = false) (front : List Char) :
    EndsOutsideWord (front ++ [c]) := by
  intro d hd
  rw [List.getLast?_concat] at hd
  cases hd
  exact hc

/-! ## Openings -/

/-- What stands in front of the brace of a block: a name and a sign, with white space in front of the
sign and of the brace. -/
structure Opening where
  name : Word
  gap : List Char
  room : List Char
  isBlank_gap : ∀ c ∈ gap, isBlank c = true
  isBlank_room : ∀ c ∈ room, isBlank c = true

namespace Opening

def sign (o : Opening) : List Char :=
  o.gap ++ '=' :: o.room

def lead (o : Opening) : List Char :=
  o.name.chars ++ o.sign

/-- The opening stands at a place with its whole name: the text in front ends outside of words, and
behind the name there is white space or a sign. -/
def StandsAt (o : Opening) (text : List Char) (i : Nat) : Prop :=
  ∃ front behind, text = front ++ (o.lead ++ '{' :: behind) ∧ front.length = i ∧
    EndsOutsideWord front

theorem openBlock?_lead (o : Opening) (body : List Char) :
    openBlock? (o.lead ++ '{' :: body) = some (o.name.chars, body) := by
  have htext : o.lead ++ '{' :: body = o.name.chars ++ (o.gap ++ '=' :: (o.room ++ '{' :: body)) := by
    simp [lead, sign]
  have hstops : StopsBefore isWordChar (o.gap ++ '=' :: (o.room ++ '{' :: body)) :=
    stopsWord_blanks o.isBlank_gap
  have hsign : afterSign? (o.gap ++ '=' :: (o.room ++ '{' :: body)) = some ('{' :: body) := by
    rw [afterSign?_of_sign (dropBlank_append o.isBlank_gap (by decide) _),
      dropBlank_append o.isBlank_room (by decide)]
  unfold openBlock?
  rw [htext, takeWhile_append_of_stops o.name.isWordChar hstops,
    dropWhile_append_of_stops o.name.isWordChar hstops, hsign]
  split
  · next hnil => exact absurd hnil o.name.ne_nil
  · rfl

end Opening

theorem eq_of_afterBrace? {s body : List Char} (h : afterBrace? s = some body) :
    s = '{' :: body := by
  unfold afterBrace? at h
  split at h
  · cases h
    rfl
  · cases h

theorem exists_sign_of_afterSign? {s value : List Char} (h : afterSign? s = some value) :
    ∃ gap room, s = gap ++ '=' :: (room ++ value) ∧ (∀ c ∈ gap, isBlank c = true) ∧
      ∀ c ∈ room, isBlank c = true := by
  unfold afterSign? at h
  split at h
  · next rest hrest =>
    cases h
    obtain ⟨gap, hs, hgap⟩ := exists_blanks_dropBlank s
    obtain ⟨room, hroom, hblank⟩ := exists_blanks_dropBlank rest
    rw [hrest, hroom] at hs
    exact ⟨gap, room, by rw [hs, ← hroom], hgap, hblank⟩
  · cases h

/-- Wherever a block opens an opening stands. -/
theorem exists_opening_of_openBlock? {s name body : List Char}
    (h : openBlock? s = some (name, body)) :
    ∃ o : Opening, o.name.chars = name ∧ s = o.lead ++ '{' :: body := by
  unfold openBlock? at h
  split at h
  · cases h
  · next hne =>
    obtain ⟨body', hbody, heq⟩ := Option.map_eq_some_iff.1 h
    obtain ⟨rfl, rfl⟩ := Prod.mk.inj heq
    obtain ⟨value, hvalue, hbrace⟩ := Option.bind_eq_some_iff.1 hbody
    obtain ⟨gap, room, hsign, hgap, hroom⟩ := exists_sign_of_afterSign? hvalue
    refine ⟨⟨⟨s.takeWhile isWordChar, hne, fun c hc => List.mem_takeWhile_imp hc⟩, gap, room, hgap,
      hroom⟩, rfl, ?_⟩
    have hs : s = s.takeWhile isWordChar ++ s.dropWhile isWordChar :=
      List.takeWhile_append_dropWhile.symm
    rw [hsign, eq_of_afterBrace? hbrace] at hs
    simpa [Opening.lead, Opening.sign] using hs

namespace Opening

variable {o p : Opening}

theorem not_isWordChar_of_mem_sign {c : Char} (h : c ∈ o.sign) : isWordChar c = false := by
  rcases List.mem_append.1 h with hgap | hroom
  · exact not_isWordChar_of_isBlank (o.isBlank_gap c hgap)
  · rcases List.mem_cons.1 hroom with rfl | hroom
    · rfl
    · exact not_isWordChar_of_isBlank (o.isBlank_room c hroom)

theorem exists_lead_eq_cons (o : Opening) :
    ∃ c more, o.lead = c :: more ∧ isWordChar c = true := by
  obtain ⟨c, more, hname⟩ := List.exists_cons_of_ne_nil o.name.ne_nil
  refine ⟨c, more ++ o.sign, by rw [lead, hname]; rfl, o.name.isWordChar c ?_⟩
  rw [hname]
  exact List.mem_cons_self

theorem close_not_mem_lead (o : Opening) : '}' ∉ o.lead := by
  have hblank : isBlank '}' = false := by decide
  refine List.not_mem_append (fun h => ?_) (List.not_mem_append (fun h => ?_) fun h => ?_)
  · exact absurd (o.name.isWordChar _ h) (by decide)
  · exact ne_of_isBlank (o.isBlank_gap _ h) hblank rfl
  · rcases List.mem_cons.1 h with h | h
    · revert h
      decide
    · exact ne_of_isBlank (o.isBlank_room _ h) hblank rfl

/-- No text in front of an opening begins with a character that belongs to no word. -/
theorem lead_append_ne_cons {c : Char} (hc : isWordChar c = false) (behind rest : List Char) :
    o.lead ++ behind ≠ c :: rest := by
  obtain ⟨d, more, hlead, hd⟩ := o.exists_lead_eq_cons
  rw [hlead, List.cons_append]
  intro heq
  rw [(List.cons.inj heq).1, hc] at hd
  cases hd

/-- Inside of an opening no other word begins than the one in front. -/
theorem not_isWordChar_of_lead_eq {more inner : List Char} {c : Char}
    (h : o.lead = more ++ c :: inner) (hne : more ≠ []) (hmore : EndsOutsideWord more) :
    isWordChar c = false := by
  rcases List.append_eq_append_iff.1 h with ⟨word, -, hsign⟩ | ⟨word, hname, -⟩
  · refine not_isWordChar_of_mem_sign (o := o) ?_
    rw [hsign]
    exact List.mem_append_right _ List.mem_cons_self
  · -- all that is in front belongs to the name
    have hlast := hmore _ (List.getLast?_eq_some_getLast hne)
    have hword := o.name.isWordChar (more.getLast hne) (by
      rw [hname]
      exact List.mem_append_left _ (List.getLast_mem hne))
    rw [hlast] at hword
    cases hword

/-- An opening with its whole name behind the front of another one stands behind the brace of it. -/
theorem exists_behind {front behind before rest : List Char} (hfront : EndsOutsideWord front)
    (h : front ++ (o.lead ++ '{' :: behind) = before ++ (p.lead ++ '{' :: rest))
    (hlt : before.length < front.length) :
    ∃ mid, front = before ++ (p.lead ++ '{' :: mid) ∧ rest = mid ++ (o.lead ++ '{' :: behind) := by
  obtain ⟨more, rfl, hmore⟩ : ∃ more, front = before ++ more ∧
      more ++ (o.lead ++ '{' :: behind) = p.lead ++ '{' :: rest := by
    rcases List.append_eq_append_iff.1 h with ⟨more, hbefore, -⟩ | ⟨more, hfront', hmore⟩
    · rw [hbefore, List.length_append] at hlt
      omega
    · exact ⟨more, hfront', hmore.symm⟩
  rcases List.append_eq_append_iff.1 hmore with ⟨inner, hlead, hinner⟩ | ⟨mid, rfl, hmid⟩
  · -- the opening would begin inside of the other one
    cases inner with
    | nil => exact absurd hinner (lead_append_ne_cons rfl _ _)
    | cons c inner =>
      have hne : more ≠ [] := by
        rintro rfl
        simp at hlt
      have hc := not_isWordChar_of_lead_eq hlead hne hfront.of_append
      exact absurd hinner (lead_append_ne_cons hc _ _)
  · cases mid with
    | nil => exact absurd hmid.symm (lead_append_ne_cons rfl _ _)
    | cons d mid =>
      obtain ⟨rfl, hrest⟩ := List.cons.inj hmid
      exact ⟨mid, rfl, hrest⟩

/-- An opening in a text with a closing brace stands as a whole in front of the brace or behind
it. -/
theorem inside_or_behind {mid behind content after : List Char}
    (h : mid ++ (o.lead ++ '{' :: behind) = content ++ '}' :: after) :
    (∃ more, content = mid ++ (o.lead ++ '{' :: more)) ∨
      ∃ more, mid = content ++ '}' :: more ∧ after = more ++ (o.lead ++ '{' :: behind) := by
  rcases List.append_eq_append_iff.1 h with ⟨inner, rfl, hinner⟩ | ⟨more, rfl, hmore⟩
  · rcases List.append_eq_append_iff.1 hinner with ⟨more, rfl, hmore⟩ | ⟨more, hlead, hmore⟩
    · cases more with
      | nil => exact absurd (List.cons.inj hmore).1 (by decide)
      | cons c more =>
        obtain ⟨rfl, -⟩ := List.cons.inj hmore
        exact .inl ⟨more, by simp⟩
    · cases more with
      | nil => exact absurd (List.cons.inj hmore).1 (by decide)
      | cons c more =>
        obtain ⟨rfl, -⟩ := List.cons.inj hmore
        exact absurd (hlead ▸ by simp) o.close_not_mem_lead
  · cases more with
    | nil => exact absurd hmore.symm (lead_append_ne_cons rfl _ _)
    | cons c more =>
      obtain ⟨rfl, hafter⟩ := List.cons.inj hmore
      exact .inr ⟨more, rfl, hafter⟩

end Opening

/-! ## One step of the scan -/

theorem start_of_next? {offset : Nat} {s before after : List Char} {block : NamedBlock}
    (h : NamedBlock.next? offset s = some (before, block, after)) :
    block.start = offset + before.length := by
  obtain ⟨found, -, -, hread⟩ := exists_read_of_next? h
  exact (places_of_read? hread).1

/-- What a step of the scan finds: the text that is passed over, and behind it a block with its
opening. -/
structure Found (offset : Nat) (s before : List Char) (o : Opening) (block : NamedBlock)
    (after : List Char) : Prop where
  text_eq : s = before ++ (o.lead ++ '{' :: (block.content ++ '}' :: after))
  name_eq : o.name.chars = block.name
  start_eq : block.start = offset + before.length
  stop_eq : block.stop = block.start + o.lead.length + 1 + block.content.length
  closes : closeBrace (block.content ++ '}' :: after) = some (block.content, after)
  passes : Passes blockParts? before (o.lead ++ '{' :: (block.content ++ '}' :: after))

theorem exists_found {offset : Nat} {s before after : List Char} {block : NamedBlock}
    (h : NamedBlock.next? offset s = some (before, block, after)) :
    ∃ o, Found offset s before o block after := by
  obtain ⟨opening, hfirst⟩ := exists_standsFirst h
  obtain ⟨hopen, -⟩ := openBlock?_of_blockParts? (hfirst.read hfirst.balanced after)
  obtain ⟨o, hname, htext⟩ := exists_opening_of_openBlock? hopen
  have hopening : opening = o.lead ++ ['{'] :=
    List.append_cancel_right (htext.trans (List.append_cons o.lead '{' _))
  have hpasses := hfirst.passes (fun depth => rfl)
  rw [htext] at hpasses
  refine ⟨o, ?_, hname, start_of_next? h, ?_, closeBrace_balanced hfirst.balanced after, hpasses⟩
  · rw [hfirst.text_eq, htext]
  · rw [hfirst.stop_eq, start_of_next? h, hopening, List.length_append, List.length_singleton]
    omega

theorem blockParts?_lead (o : Opening) (behind : List Char) :
    blockParts? (o.lead ++ '{' :: behind) =
      (closeBrace behind).map fun (content, after) => ((o.name.chars, content), after) :=
  blockParts?_of_openBlock? (o.openBlock?_lead behind)

/-- An opening that is passed over has a brace that is never closed. -/
theorem closeBrace_eq_none_of_passes {front rest skipped behind : List Char} {o : Opening}
    (h : Passes blockParts? front rest) (htext : front ++ rest = skipped ++ (o.lead ++ '{' :: behind))
    (hlt : skipped.length < front.length) : closeBrace behind = none := by
  rcases List.append_eq_append_iff.1 htext with ⟨more, hskipped, -⟩ | ⟨more, rfl, hmore⟩
  · rw [hskipped, List.length_append] at hlt
    omega
  · have hne : more ≠ [] := by
      rintro rfl
      simp at hlt
    have hnone := h more hne (List.suffix_append skipped more)
    rw [← hmore, blockParts?_lead] at hnone
    exact Option.map_eq_none_iff.1 hnone

/-- The opening with one more character in its name. -/
def Opening.extended (o : Opening) (c : Char) (hc : isWordChar c = true) : Opening :=
  { o with name := ⟨c :: o.name.chars, List.cons_ne_nil _ _,
      List.forall_mem_cons.2 ⟨hc, o.name.isWordChar⟩⟩ }

section

variable {offset : Nat} {s before after : List Char} {o : Opening} {block : NamedBlock}
  (h : Found offset s before o block after)

include h

/-- The scan finds whole names, for a block whose name is longer is found before. -/
theorem Found.endsOutsideWord : EndsOutsideWord before := by
  refine fun c hc => Bool.eq_false_iff.2 fun hword => ?_
  obtain ⟨front, rfl⟩ := List.getLast?_eq_some_iff.1 hc
  have hnone := h.passes [c] (List.cons_ne_nil _ _) (List.suffix_append front [c])
  change blockParts? ((o.extended c hword).lead ++ '{' :: (block.content ++ '}' :: after)) = none
    at hnone
  rw [blockParts?_lead, h.closes] at hnone
  cases hnone

theorem Found.stop_lt : block.stop < offset + s.length := by
  rw [h.stop_eq, h.start_eq, h.text_eq]
  simp only [List.length_append, List.length_cons]
  omega

/-- What stands behind the block begins where the scan goes on. -/
theorem Found.drop_eq : s.drop (block.stop + 1 - offset) = after := by
  have htext : s = (before ++ (o.lead ++ '{' :: (block.content ++ ['}']))) ++ after := by
    rw [h.text_eq]
    simp
  rw [htext]
  refine List.drop_left' ?_
  rw [h.stop_eq, h.start_eq]
  simp only [List.length_append, List.length_cons, List.length_nil]
  omega

end

/-! ## All steps -/

/-- The place of the opening brace of a block. -/
def NamedBlock.brace (block : NamedBlock) : Nat :=
  block.stop - (block.content.length + 1)

theorem Found.brace_eq {offset : Nat} {s before after : List Char} {o : Opening}
    {block : NamedBlock} (h : Found offset s before o block after) :
    block.brace = block.start + o.lead.length := by
  rw [NamedBlock.brace, h.stop_eq]
  omega

/-- No opening is missed: it is that of a block, or it stands between the braces of a block, or its
brace is never closed. -/
theorem siblings_complete (offset : Nat) {s skipped behind : List Char} {o : Opening}
    (hs : s = skipped ++ (o.lead ++ '{' :: behind))
    (hwhole : EndsOutsideWord skipped) :
    (∃ block ∈ NamedBlock.siblings offset s, block.start = offset + skipped.length ∧
        block.name = o.name.chars ∧ block.brace = offset + skipped.length + o.lead.length) ∨
      (∃ block ∈ NamedBlock.siblings offset s, block.brace < offset + skipped.length ∧
        offset + skipped.length + o.lead.length < block.stop) ∨
      closeBrace behind = none := by
  induction offset, s using NamedBlock.siblings.induct generalizing skipped with
  | case1 offset s hnext =>
    have hpasses := passes_of_next?_eq_none hnext
    refine .inr (.inr (closeBrace_eq_none_of_passes hpasses ((List.append_nil s).trans hs) ?_))
    rw [hs, List.length_append, List.length_append, List.length_cons]
    omega
  | case2 offset s before block after hnext ih =>
    obtain ⟨p, hfound⟩ := exists_found hnext
    have htext := hs.symm.trans hfound.text_eq
    have hstart := hfound.start_eq
    have hstop := hfound.stop_eq
    have hbrace := hfound.brace_eq
    rw [NamedBlock.siblings, hnext]
    rcases Nat.lt_trichotomy skipped.length before.length with hlt | heq | hlt
    · exact .inr (.inr (closeBrace_eq_none_of_passes hfound.passes htext.symm hlt))
    · -- what opens at one place has one name and one brace
      obtain ⟨-, hopens⟩ := List.append_inj htext heq
      have hopened := congrArg openBlock? hopens
      rw [o.openBlock?_lead, p.openBlock?_lead] at hopened
      obtain ⟨hname, rfl⟩ := Prod.mk.inj (Option.some.inj hopened)
      have hlead := congrArg List.length (List.append_cancel_right hopens)
      refine .inl ⟨block, List.mem_cons_self, ?_, hfound.name_eq.symm.trans hname.symm, ?_⟩
      · omega
      · omega
    · obtain ⟨mid, rfl, hmid⟩ := Opening.exists_behind hwhole htext hlt
      simp only [List.length_append, List.length_cons] at hlt ⊢
      rcases Opening.inside_or_behind hmid.symm with ⟨more, hinside⟩ | ⟨more, rfl, hafter⟩
      · have hlength := congrArg List.length hinside
        simp only [List.length_append, List.length_cons] at hlength
        refine .inr (.inl ⟨block, List.mem_cons_self, ?_, ?_⟩)
        · omega
        · omega
      · have hmore : EndsOutsideWord more := by
          have htext : before ++ (p.lead ++ '{' :: (block.content ++ '}' :: more)) =
              (before ++ (p.lead ++ '{' :: (block.content ++ ['}']))) ++ more := by simp
          rw [htext] at hwhole
          exact hwhole.of_append
        have hplace : offset + (before.length + (p.lead.length +
            ((block.content ++ '}' :: more).length + 1))) = block.stop + 1 + more.length := by
          rw [List.length_append, List.length_cons]
          omega
        rw [hplace]
        rcases ih hafter hmore with ⟨found, hmem, hplaced⟩ | ⟨found, hmem, hinside⟩ | hnone
        · exact .inl ⟨found, List.mem_cons_of_mem _ hmem, hplaced⟩
        · exact .inr (.inl ⟨found, List.mem_cons_of_mem _ hmem, hinside⟩)
        · exact .inr (.inr hnone)

/-- How a block stands in a text: its span is an opening with its whole name, a brace, the content
and the brace that matches. -/
structure NamedBlock.StandsAt (block : NamedBlock) (text : List Char) (o : Opening) : Prop where
  name_eq : o.name.chars = block.name
  opens : o.StandsAt text block.start
  span_eq : span text block.start block.stop = o.lead ++ '{' :: (block.content ++ ['}'])
  brace_eq : block.brace = block.start + o.lead.length
  matched : IsMatched text block.brace block.stop

theorem Found.standsAt {offset : Nat} {s before after : List Char} {o : Opening}
    {block : NamedBlock} (h : Found offset s before o block after) {front : List Char}
    (hfront : front.length = offset) (hends : EndsOutsideWord front) :
    block.StandsAt (front ++ s) o := by
  have hstart := h.start_eq
  have hstop := h.stop_eq
  have hlength : (front ++ before).length = block.start := by
    rw [List.length_append, hfront, hstart]
  have htext : front ++ s =
      (front ++ before) ++ (o.lead ++ '{' :: (block.content ++ '}' :: after)) := by
    rw [h.text_eq, List.append_assoc]
  refine ⟨h.name_eq, ⟨_, _, htext, hlength, hends.append h.endsOutsideWord⟩, ?_, h.brace_eq, ?_⟩
  · have hparts : o.lead ++ '{' :: (block.content ++ '}' :: after) =
        (o.lead ++ '{' :: (block.content ++ ['}'])) ++ after := by simp
    rw [span, htext, List.drop_left' hlength, hparts]
    refine List.take_left' ?_
    simp only [List.length_append, List.length_cons, List.length_nil]
    omega
  · have hmatched := isMatched_of_closeBrace h.closes (front ++ before ++ o.lead)
    rw [List.append_assoc (front ++ before), ← htext, List.length_append, hlength, ← h.brace_eq]
      at hmatched
    rwa [hstop, ← h.brace_eq]

/-- The text up to the end of a block ends outside of words, and the scan goes on behind it. -/
theorem Found.exists_front {offset : Nat} {s before after : List Char} {o : Opening}
    {block : NamedBlock} (h : Found offset s before o block after) {front : List Char}
    (hfront : front.length = offset) :
    ∃ front', front ++ s = front' ++ after ∧ front'.length = block.stop + 1 ∧
      EndsOutsideWord front' := by
  refine ⟨front ++ (before ++ (o.lead ++ '{' :: block.content)) ++ ['}'], ?_, ?_,
    endsOutsideWord_concat rfl _⟩
  · rw [h.text_eq]
    simp
  · rw [h.stop_eq, h.start_eq]
    simp only [List.length_append, List.length_cons, List.length_nil]
    omega

theorem le_start_of_mem_siblings {offset : Nat} {s : List Char} {block : NamedBlock}
    (h : block ∈ NamedBlock.siblings offset s) : offset ≤ block.start := by
  induction offset, s using NamedBlock.siblings.induct with
  | case1 offset s hnext =>
    rw [NamedBlock.siblings, hnext] at h
    cases h
  | case2 offset s before first after hnext ih =>
    obtain ⟨o, hfound⟩ := exists_found hnext
    have hstart := hfound.start_eq
    have hstop := hfound.stop_eq
    rw [NamedBlock.siblings, hnext] at h
    rcases List.mem_cons.1 h with rfl | hlater
    · omega
    · have := ih hlater
      omega

/-- Every block ends in front of the next one. -/
theorem pairwise_siblings (offset : Nat) (s : List Char) :
    (NamedBlock.siblings offset s).Pairwise fun block later => block.stop < later.start := by
  induction offset, s using NamedBlock.siblings.induct with
  | case1 offset s hnext =>
    rw [NamedBlock.siblings, hnext]
    exact .nil
  | case2 offset s before first after hnext ih =>
    rw [NamedBlock.siblings, hnext]
    exact .cons (fun later hlater => le_start_of_mem_siblings hlater) ih

/-- Every block that is found stands in the text. -/
theorem exists_standsAt_of_mem_siblings {offset : Nat} {s front : List Char} {block : NamedBlock}
    (hfront : front.length = offset) (hends : EndsOutsideWord front)
    (h : block ∈ NamedBlock.siblings offset s) : ∃ o, block.StandsAt (front ++ s) o := by
  induction offset, s using NamedBlock.siblings.induct generalizing front with
  | case1 offset s hnext =>
    rw [NamedBlock.siblings, hnext] at h
    cases h
  | case2 offset s before first after hnext ih =>
    obtain ⟨o, hfound⟩ := exists_found hnext
    rw [NamedBlock.siblings, hnext] at h
    rcases List.mem_cons.1 h with rfl | hlater
    · exact ⟨o, hfound.standsAt hfront hends⟩
    · obtain ⟨front', htext, hlength, hends'⟩ := hfound.exists_front hfront
      rw [htext]
      exact ih hlength hends' hlater

/-! ## The scan -/

/-- Going on from a place behind one block after the other comes to an end, and these are the blocks.
Every step ends further back in the text, so that there are at most as many as places. -/
inductive Scan (text : List Char) : Nat → List NamedBlock → Prop
  | done {pos : Nat} (none : nextNamedBlock text pos = (none, text.length)) : Scan text pos []
  | step {pos next : Nat} {block : NamedBlock} {blocks : List NamedBlock}
    (found : nextNamedBlock text pos = (some block, next)) (lt : pos < next)
    (le : next ≤ text.length) (more : Scan text next blocks) : Scan text pos (block :: blocks)

theorem Scan.unique {text : List Char} {pos : Nat} {blocks blocks' : List NamedBlock}
    (h : Scan text pos blocks) (h' : Scan text pos blocks') : blocks = blocks' := by
  induction h generalizing blocks' with
  | done none =>
    cases h' with
    | done _ => rfl
    | step found _ _ _ => cases none.symm.trans found
  | step found _ _ _ ih =>
    cases h' with
    | done none => cases none.symm.trans found
    | step found' _ _ more' =>
      cases found.symm.trans found'
      rw [ih more']

theorem scan_siblings {text : List Char} (pos : Nat) (s : List Char) (hs : s = text.drop pos) :
    Scan text pos (NamedBlock.siblings pos s) := by
  induction pos, s using NamedBlock.siblings.induct with
  | case1 pos s hnext =>
    rw [NamedBlock.siblings, hnext]
    refine .done ?_
    rw [nextNamedBlock, Int.toNat_natCast, ← hs, hnext]
  | case2 pos s before block after hnext ih =>
    obtain ⟨o, hfound⟩ := exists_found hnext
    have hstart := hfound.start_eq
    have hstop := hfound.stop_eq
    have hlt := hfound.stop_lt
    have hlength := congrArg List.length hs
    rw [List.length_drop] at hlength
    have hafter : after = text.drop (block.stop + 1) := by
      rw [← hfound.drop_eq, hs, List.drop_drop]
      congr 1
      omega
    rw [NamedBlock.siblings, hnext]
    have hstep : nextNamedBlock text pos = (some block, block.stop + 1) := by
      rw [nextNamedBlock, Int.toNat_natCast, ← hs, hnext]
    exact .step hstep (by omega) (by omega) (ih hafter)

/-- Scanning a text from its front comes to an end, with the named blocks of the text. All of them
stand in the text, each one ends in front of the next one, and no opening is missed: one with its
whole name that stands anywhere in the text is that of a block, or it stands between the braces of a
block, or its brace is never matched. -/
theorem namedBlocks_scan (text : List Char) :
    (∀ blocks, Scan text 0 blocks ↔ blocks = namedBlocks text) ∧
      (∀ block ∈ namedBlocks text, ∃ o, block.StandsAt text o) ∧
      (namedBlocks text).Pairwise (fun block later => block.stop < later.start) ∧
      ∀ (o : Opening) i, o.StandsAt text i →
        (∃ block ∈ namedBlocks text, block.start = i ∧ block.name = o.name.chars ∧
            block.brace = i + o.lead.length) ∨
          (∃ block ∈ namedBlocks text, block.brace < i ∧ i + o.lead.length < block.stop) ∨
          ∀ e, ¬IsMatched text (i + o.lead.length) e := by
  have hscan : Scan text 0 (namedBlocks text) := scan_siblings 0 text rfl
  refine ⟨fun blocks => ⟨fun h => h.unique hscan, ?_⟩, fun block hblock => ?_,
    pairwise_siblings 0 text, ?_⟩
  · rintro rfl
    exact hscan
  · have hfront : EndsOutsideWord [] := fun c hc => by cases hc
    exact exists_standsAt_of_mem_siblings rfl hfront hblock
  · rintro o i ⟨front, behind, htext, rfl, hends⟩
    have hcomplete := siblings_complete 0 htext hends
    rw [Nat.zero_add] at hcomplete
    refine hcomplete.imp_right fun h => h.imp_right fun hnone e hmatched => ?_
    rw [htext, ← List.append_assoc, ← List.length_append] at hmatched
    obtain ⟨content, after, hclose, -⟩ := isMatched_iff.1 hmatched
    rw [hnone] at hclose
    cases hclose

/-- A text with an opening that is never matched, and two blocks behind it, one of which has another
one inside. -/
def siblingsText : List Char :=
  "x = \x7b y=\x7bz=\x7b\x7d\x7d q=\x7b\x7d".toList

/-- The opening of the inner block. -/
def innerOpening : Opening where
  name := ⟨['z'], List.cons_ne_nil _ _, forall_isWordChar (by decide)⟩
  gap := []
  room := []
  isBlank_gap := forall_isBlank_nil
  isBlank_room := forall_isBlank_nil

/-- The inner block is not found, for it stands between the braces of another one. -/
theorem innerOpening_inside :
    namedBlocks siblingsText =
        [{ name := ['y'], content := "z=\x7b\x7d".toList, start := 6, stop := 13 },
          { name := ['q'], content := [], start := 15, stop := 18 }] ∧
      innerOpening.StandsAt siblingsText 9 ∧
      ∃ block ∈ namedBlocks siblingsText, block.brace < 9 ∧
        9 + innerOpening.lead.length < block.stop := by
  obtain ⟨hscan, -, -, hcomplete⟩ := namedBlocks_scan siblingsText
  have hfirst : nextNamedBlock siblingsText 0 =
      (some { name := ['y'], content := "z=\x7b\x7d".toList, start := 6, stop := 13 }, 14) := by
    decide +kernel
  have hsecond : nextNamedBlock siblingsText 14 =
      (some { name := ['q'], content := [], start := 15, stop := 18 }, 19) := by
    decide +kernel
  have hlast : nextNamedBlock siblingsText 19 = (none, 19) := by decide +kernel
  have hblocks : Scan siblingsText 0
      [{ name := ['y'], content := "z=\x7b\x7d".toList, start := 6, stop := 13 },
        { name := ['q'], content := [], start := 15, stop := 18 }] :=
    .step hfirst (by decide) (by decide) (.step hsecond (by decide) (by decide) (.done hlast))
  have hstands : innerOpening.StandsAt siblingsText 9 :=
    ⟨siblingsText.take 9, siblingsText.drop 12, by decide, by decide, by
      intro c hc
      cases hc
      decide +kernel⟩
  have heq := (hscan _).1 hblocks
  refine ⟨heq.symm, hstands, ?_⟩
  rcases hcomplete innerOpening 9 hstands with ⟨block, hblock, hstart, -⟩ | hinside | hnone
  · rw [← heq] at hblock
    simp only [List.mem_cons, List.not_mem_nil, or_false] at hblock
    rcases hblock with rfl | rfl
    · cases hstart
    · cases hstart
  · exact hinside
  · refine absurd ⟨by decide, by decide, by decide, fun i hlt hi => ?_⟩ (hnone 12)
    change 11 < i at hlt
    omega

end ModAlmanac.Lua
