import ModAlmanac.Proofs.Almanac.Confined

/-!
# The modes of the command

Checking keys reads the cache and writing them fills it, and both take the keys in order up to the
first one that fails. After a run of uses every check comes to a line for each key that names a mod
(`Command.exists_named_checkKeys`), and whatever a write has printed a line for is stored when it
ends (`Command.exists_given_writeKeys`). Hence the two modes agree (`Command.modes_agree`): what has
been written is checked as cached, and a key that is checked as cached is written without a question
besides that for the tag.
-/

namespace ModAlmanac

/-! ## Arguments -/

namespace Command

theorem giveValues_keys (keys : List String) :
    giveValues (.rest :: keys.map .key) = .ok (.rest :: keys.map .key) := by
  have hkeys : giveValues (keys.map .key) = .ok (keys.map .key) := by
    induction keys with
    | nil => rfl
    | cons key keys ih =>
      rw [List.map_cons, giveValues, ih]
      rfl
      · exact fun _ _ _ h => by cases h
  rw [giveValues, hkeys]
  rfl
  · exact fun _ _ _ h => by cases h

/-- The words of a switch and of keys behind `--`. -/
def wordsBehind (switch : Switch) (keys : List String) : List Word :=
  .switch switch false none :: .rest :: keys.map .key

section

variable {switch : Switch} (hswitch : switch = .check ∨ switch = .write) (keys : List String)

include hswitch

theorem readWords_behind :
    readWords (switch.name :: "--" :: keys) = .ok (wordsBehind switch keys) := by
  rcases hswitch with rfl | rfl
  · rfl
  · rfl

theorem giveValues_behind :
    giveValues (wordsBehind switch keys) = .ok (wordsBehind switch keys) := by
  have hfirst : giveValues (wordsBehind switch keys) =
      (giveValues (.rest :: keys.map .key)).map (.switch switch false none :: ·) := by
    rcases hswitch with rfl | rfl
    · rfl
    · rfl
  rw [hfirst, giveValues_keys]
  rfl

theorem ofWords_behind (hkeys : keys ≠ []) :
    Arguments.ofWords (wordsBehind switch keys) =
      .ok { keys, check := switch = .check, write := switch = .write } := by
  have hbefore : (wordsBehind switch keys).takeWhile (!·.isAmongKeys) =
      [.switch switch false none] := rfl
  have hbehind : (wordsBehind switch keys).dropWhile (!·.isAmongKeys) =
      .rest :: keys.map .key := rfl
  have hamong : ∀ word ∈ Word.rest :: keys.map .key, word.isAmongKeys = true := by
    simp [Word.isAmongKeys]
  have hgiven : (Word.rest :: keys.map .key).filterMap Word.key? = keys := by
    change (keys.map Word.key).filterMap Word.key? = keys
    rw [List.filterMap_map]
    exact List.filterMap_some
  have hother : ∀ other, (wordsBehind switch keys).any (·.isSwitch other) =
      decide (switch = other) := by
    intro other
    have hnone : (keys.map Word.key).any (·.isSwitch other) = false :=
      List.any_eq_false.2 fun word hword => by
        obtain ⟨key, -, rfl⟩ := List.mem_map.1 hword
        exact Bool.false_ne_true
    rw [wordsBehind, List.any_cons, List.any_cons, hnone]
    exact Bool.or_false _
  unfold Arguments.ofWords
  dsimp only
  rw [hbefore, hbehind, List.takeWhile_eq_self_iff.2 hamong, List.dropWhile_eq_nil_iff.2 hamong,
    hgiven, if_neg (mt List.isEmpty_iff.1 hkeys)]
  simp only [hother]
  rcases hswitch with rfl | rfl
  · rfl
  · rfl

end

/-- Behind `--` every text is a key, whatever it looks like. -/
theorem Arguments.parse_behind {keys : List String} (hkeys : keys ≠ []) {switch : Switch}
    (hswitch : switch = .check ∨ switch = .write) :
    Arguments.parse (switch.name :: "--" :: keys) =
      .ok { keys, check := switch = .check, write := switch = .write } := by
  rw [Arguments.parse, readWords_behind hswitch]
  change giveValues _ >>= _ = _
  rw [giveValues_behind hswitch]
  exact ofWords_behind hswitch keys hkeys

/-! ## Checking -/

/-- The report with a line in front of the others. -/
def Report.withLine (report : Report) (text : String) : Report :=
  { report with lines := text :: report.lines }

/-- The line about a key whose snapshot is stored. -/
def cachedLine (key tag : String) : String :=
  "[CHECK] mod=" ++ key ++ " version=" ++ tag ++ " status=cached"

theorem checkLine_eq_cachedLine_iff {key tag : String} {stored : Option Snapshot} :
    checkLine key (tag, stored) = cachedLine key tag ↔ stored.isSome = true := by
  have hline : checkLine key (tag, stored) = "[CHECK] mod=" ++ key ++ " version=" ++ tag ++
      (" status=" ++ if stored.isSome then "cached" else "missing") := String.append_assoc
  unfold cachedLine
  rw [hline, String.append_right_inj]
  cases stored with
  | none => decide
  | some s => exact iff_of_true rfl rfl

/-- What a check of some keys comes to over a cache in which something or nothing is `stored` for
each mod: a line for each of the keys that name mods, up to the first one that does not, a question
for the tag of each of these mods, and the cache as it was. -/
structure ChecksTo (almanac : Almanac) (cache : Cache) (keys : List String)
    (named : List (String × ModKey)) (stored : ModKey → Option Snapshot) (run : Run Report) :
    Prop where
  parsed : ∀ entry ∈ named, ModKey.parse (.text entry.1) = .ok entry.2
  ended : (keys = named.map Prod.fst ∧ run.value.error = none) ∨
    ∃ bad behind e, keys = named.map Prod.fst ++ bad :: behind ∧
      ModKey.parse (.text bad) = .error e ∧
        run.value.error = some (.lookup bad (.invalidKey e))
  read : ∀ entry ∈ named,
    cache.snapshot? entry.2 (almanac.resolveTag entry.2) = .ok (stored entry.2)
  lines : run.value.lines = named.map fun (key, mod) =>
    checkLine key (almanac.resolveTag mod, stored mod)
  events : run.events = named.map fun (_, mod) => askTag mod
  cache : run.cache = cache

section

variable {almanac : Almanac} {cache : Cache}

theorem checkKeys_cons_of_invalid {key : String} {e : InvalidModKey}
    (h : ModKey.parse (.text key) = .error e) (keys : List String) :
    checkKeys almanac cache (key :: keys) =
      { value := { lines := [], error := some (.lookup key (.invalidKey e)) }
        cache
        events := [] } := by
  rw [checkKeys, forKeys, Almanac.peek_of_invalid h]
  rfl

theorem checkKeys_cons_of_snapshot? {key : String} {mod : ModKey} {stored : Option Snapshot}
    (hkey : ModKey.parse (.text key) = .ok mod)
    (h : cache.snapshot? mod (almanac.resolveTag mod) = .ok stored) (keys : List String) :
    checkKeys almanac cache (key :: keys) =
      ((checkKeys almanac cache keys).map
        (·.withLine (checkLine key (almanac.resolveTag mod, stored)))).after [askTag mod] := by
  rw [checkKeys, forKeys, Almanac.peek_of_snapshot? hkey h]
  rfl

/-- Where whatever is stored can be read, every check comes to such an end. -/
theorem exists_named_checkKeys {stored : ModKey → Option Snapshot}
    (h : ∀ mod, cache.snapshot? mod (almanac.resolveTag mod) = .ok (stored mod))
    (keys : List String) :
    ∃ named, ChecksTo almanac cache keys named stored (checkKeys almanac cache keys) := by
  induction keys with
  | nil =>
    exact ⟨[], (fun _ h => absurd h List.not_mem_nil), .inl ⟨rfl, rfl⟩,
      (fun _ h => absurd h List.not_mem_nil), rfl, rfl, rfl⟩
  | cons key keys ih =>
    cases hkey : ModKey.parse (.text key) with
    | error e =>
      rw [checkKeys_cons_of_invalid hkey]
      exact ⟨[], (fun _ h => absurd h List.not_mem_nil), .inr ⟨key, keys, e, rfl, hkey, rfl⟩,
        (fun _ h => absurd h List.not_mem_nil), rfl, rfl, rfl⟩
    | ok mod =>
      obtain ⟨named, hnamed, hended, hread, hlines, hevents, hcache⟩ := ih
      rw [checkKeys_cons_of_snapshot? hkey (h mod)]
      refine ⟨(key, mod) :: named, List.forall_mem_cons.2 ⟨hkey, hnamed⟩, ?_,
        fun entry _ => h entry.2, congrArg (_ :: ·) hlines, congrArg (_ :: ·) hevents, hcache⟩
      rcases hended with ⟨hkeys, herror⟩ | ⟨bad, behind, e, hkeys, hbad, herror⟩
      · exact .inl ⟨congrArg (key :: ·) hkeys, herror⟩
      · exact .inr ⟨bad, behind, e, congrArg (key :: ·) hkeys, hbad, herror⟩

/-- A check of keys whose snapshots are all stored finds each of them cached. -/
theorem checkKeys_of_cached {named : List (String × ModKey)}
    (h : ∀ entry ∈ named, ModKey.parse (.text entry.1) = .ok entry.2 ∧
      ∃ s, cache.snapshot? entry.2 (almanac.resolveTag entry.2) = .ok (some s)) :
    (checkKeys almanac cache (named.map Prod.fst)).value =
      { lines := named.map fun (key, mod) => cachedLine key (almanac.resolveTag mod)
        error := none } := by
  induction named with
  | nil => rfl
  | cons entry named ih =>
    obtain ⟨key, mod⟩ := entry
    obtain ⟨⟨hkey, s, hstored⟩, hnamed⟩ := List.forall_mem_cons.1 h
    have hline : checkLine key (almanac.resolveTag mod, some s) =
        cachedLine key (almanac.resolveTag mod) := checkLine_eq_cachedLine_iff.2 rfl
    rw [List.map_cons, checkKeys_cons_of_snapshot? hkey hstored, hline]
    exact congrArg (Report.withLine · (cachedLine key (almanac.resolveTag mod))) (ih hnamed)

end

/-! ## Writing -/

/-- Reading a snapshot back does not change the line about it. -/
theorem writeLine_reread (key : String) (s : Snapshot) :
    writeLine key s.reread = writeLine key s := by
  have hentities : count s.reread.entities = count s.entities := by
    rw [count, Snapshot.reread, List.length_map, count]
  unfold writeLine
  rw [hentities]
  rfl

section

variable {almanac : Almanac} {cache : Cache} {key : String}

theorem writeKeys_cons_of_error {failure : Failure}
    (h : (almanac.get cache (.text key)).value = .error failure) (keys : List String) :
    writeKeys almanac cache (key :: keys) =
      { value := { lines := [], error := some (.lookup key failure) }
        cache := (almanac.get cache (.text key)).cache
        events := (almanac.get cache (.text key)).events } := by
  rw [writeKeys, forKeys]
  simp only [Run.map, h, Except.map]

theorem writeKeys_cons_of_ok {s : Snapshot} (h : (almanac.get cache (.text key)).value = .ok s)
    (keys : List String) :
    writeKeys almanac cache (key :: keys) =
      ((writeKeys almanac (almanac.get cache (.text key)).cache keys).map
        (·.withLine (writeLine key s))).after (almanac.get cache (.text key)).events := by
  rw [writeKeys, forKeys]
  simp only [Run.map, h, Except.map]
  rfl

end

/-- What a write of some keys comes to: a line for each of them, up to the first one that fails,
and each snapshot that a line is about is stored when it ends. If a key fails, what stands behind it
makes no difference. -/
structure WritesTo (almanac : Almanac) (cache : Cache) (keys : List String)
    (given : List (String × Snapshot)) (run : Run Report) : Prop where
  lines : run.value.lines = given.map fun (key, s) => writeLine key s
  stored : ∀ entry ∈ given, ∃ mod, ModKey.parse (.text entry.1) = .ok mod ∧
    run.cache.snapshot? mod (almanac.resolveTag mod) = .ok (some entry.2)
  ended : (keys = given.map Prod.fst ∧ run.value.error = none) ∨
    ∃ bad behind failure, keys = given.map Prod.fst ++ bad :: behind ∧
      run.value.error = some (.lookup bad failure) ∧
        ∀ other, writeKeys almanac cache (given.map Prod.fst ++ bad :: other) = run

/-- Over a consistent cache every write comes to such an end. -/
theorem exists_given_writeKeys (almanac : Almanac) {past : List Lookup} {cache : Cache}
    (h : Consistent past cache) (keys : List String) :
    ∃ given, WritesTo almanac cache keys given (writeKeys almanac cache keys) := by
  induction keys generalizing past cache with
  | nil => exact ⟨[], rfl, (fun _ h => absurd h List.not_mem_nil), .inl ⟨rfl, rfl⟩⟩
  | cons key keys ih =>
    cases hvalue : (almanac.get cache (.text key)).value with
    | error failure =>
      have hrun := writeKeys_cons_of_error hvalue
      rw [hrun]
      exact ⟨[], rfl, (fun _ h => absurd h List.not_mem_nil),
        .inr ⟨key, keys, failure, rfl, rfl, hrun⟩⟩
    | ok s =>
      have hrun := writeKeys_cons_of_ok hvalue
      let lookup : Lookup := { almanac, cache, given := .text key }
      have hthen : Consistent (past ++ [lookup]) (almanac.get cache (.text key)).cache :=
        @Consistent.lookup past lookup h
      obtain ⟨given, hlines, hstored, hended⟩ := ih hthen
      -- the snapshot stays stored while the other keys are written
      have hend := hthen.chained (Command.writeKeys_eq almanac _ keys).1
      obtain ⟨mod, hmod, hgives⟩ := @Lookup.exists_gives lookup s hvalue
      have hkept := (hend.snapshot?_of_gives
        (List.mem_append_left _ (List.mem_append_right _ List.mem_cons_self)) hgives).2
      rw [hrun]
      refine ⟨(key, s.reread) :: given, ?_, List.forall_mem_cons.2 ⟨⟨mod, hmod, hkept⟩, hstored⟩,
        ?_⟩
      · change writeLine key s :: _ = writeLine key s.reread :: _
        rw [writeLine_reread, hlines]
      · rcases hended with ⟨hkeys, herror⟩ | ⟨bad, behind, failure, hkeys, herror, hother⟩
        · exact .inl ⟨congrArg (key :: ·) hkeys, herror⟩
        · refine .inr ⟨bad, behind, failure, congrArg (key :: ·) hkeys, herror, fun other => ?_⟩
          rw [List.map_cons, List.cons_append, hrun, hother]

theorem writeKeys_events (almanac : Almanac) (cache : Cache) (key : String) :
    (writeKeys almanac cache [key]).events = (almanac.get cache (.text key)).events := by
  cases hvalue : (almanac.get cache (.text key)).value with
  | error failure => rw [writeKeys_cons_of_error hvalue]
  | ok s =>
    rw [writeKeys_cons_of_ok hvalue]
    exact List.append_nil _

end Command

/-- A build asks for the branch before it does anything else. -/
theorem Almanac.exists_events_build (almanac : Almanac) (cache : Cache) (key : ModKey)
    (tag : String) : ∃ behind, (almanac.build cache key tag).events =
      .call (.defaultBranch key.owner key.repo) :: behind := by
  unfold Almanac.build
  dsimp only
  split
  · exact ⟨[], rfl⟩
  · split
    · exact ⟨_, rfl⟩
    · exact ⟨_, rfl⟩

namespace Command

/-- Writing a key takes no question besides that for its tag exactly if its snapshot is stored. -/
theorem calls_writeKeys_iff {almanac : Almanac} {cache : Cache} {key : String} {mod : ModKey}
    {stored : Option Snapshot} (hkey : ModKey.parse (.text key) = .ok mod)
    (h : cache.snapshot? mod (almanac.resolveTag mod) = .ok stored) :
    (writeKeys almanac cache [key]).events.filterMap Event.call? =
        [.latestTag mod.owner mod.repo] ↔ stored.isSome = true := by
  rw [writeKeys_events, Almanac.get_of_parse hkey, Almanac.getVersion, h]
  cases stored with
  | some s => exact iff_of_true rfl rfl
  | none =>
    obtain ⟨behind, hevents⟩ := almanac.exists_events_build cache mod (almanac.resolveTag mod)
    refine iff_of_false (fun hcalls => ?_) Bool.false_ne_true
    change (askTag mod :: (almanac.build cache mod _).events).filterMap Event.call? = _ at hcalls
    rw [hevents] at hcalls
    cases hcalls

/-! ## Agreement -/

theorem run_of_check {texts keys : List String}
    (h : Arguments.parse texts = .ok { keys, check := true, write := false }) (almanac : Almanac)
    (cache : Cache) : run almanac cache texts = checkKeys almanac cache keys := by
  rw [run, h]

theorem run_of_write {texts keys : List String}
    (h : Arguments.parse texts = .ok { keys, check := false, write := true }) (almanac : Almanac)
    (cache : Cache) : run almanac cache texts = writeKeys almanac cache keys := by
  rw [run, h]

/-- A check of keys that all name mods comes to its end. -/
theorem ChecksTo.keys_eq_of_parsed {almanac : Almanac} {cache : Cache} {keys : List String}
    {named : List (String × ModKey)} {stored : ModKey → Option Snapshot} {run : Run Report}
    (h : ChecksTo almanac cache keys named stored run)
    (hall : ∀ key ∈ keys, ∃ mod, ModKey.parse (.text key) = .ok mod) :
    keys = named.map Prod.fst ∧ run.value.error = none := by
  rcases h.ended with hended | ⟨bad, behind, e, hkeys, hbad, -⟩
  · exact hended
  · obtain ⟨mod, hmod⟩ := hall bad (by rw [hkeys]; simp)
    cases hmod.symm.trans hbad

/-- After a write without an error something is stored for every key. -/
theorem WritesTo.exists_stored {almanac : Almanac} {cache : Cache} {keys : List String}
    {given : List (String × Snapshot)} {run : Run Report}
    (h : WritesTo almanac cache keys given run) (hnone : run.value.error = none) :
    ∀ key ∈ keys, ∃ mod s, ModKey.parse (.text key) = .ok mod ∧
      run.cache.snapshot? mod (almanac.resolveTag mod) = .ok (some s) := by
  rcases h.ended with ⟨hkeys, -⟩ | ⟨bad, behind, failure, -, herror, -⟩
  · intro key hkey
    rw [hkeys] at hkey
    obtain ⟨entry, hentry, rfl⟩ := List.mem_map.1 hkey
    obtain ⟨mod, hmod, hstored⟩ := h.stored entry hentry
    exact ⟨mod, entry.2, hmod, hstored⟩
  · cases herror.symm.trans hnone

/-- After every run of uses from an empty cache, and whatever the host tells, the two modes of the
command agree. A check leaves the cache as it is, asks for one tag for each key and prints one line
for each, up to the first key that is none. A write prints one line for each key and stores the
snapshot that the line is about, up to the first key that fails, and nothing behind that one makes
a difference. If all keys are written without an error, a check with the same tags right after it
finds each of them cached. And a key is checked as cached exactly if writing it right after would
ask for nothing but its tag. -/
theorem modes_agree {keys checked written : List String}
    (hcheck : Arguments.parse checked = .ok { keys, check := true, write := false })
    (hwrite : Arguments.parse written = .ok { keys, check := false, write := true })
    (steps : List Step) (almanac : Almanac) :
    ∃ named stored given,
      ChecksTo almanac (cacheAfter Cache.empty steps) keys named stored
        (run almanac (cacheAfter Cache.empty steps) checked) ∧
      WritesTo almanac (cacheAfter Cache.empty steps) keys given
        (run almanac (cacheAfter Cache.empty steps) written) ∧
      ((run almanac (cacheAfter Cache.empty steps) written).value.error = none →
        keys = named.map Prod.fst ∧ ∀ later : Almanac,
          (∀ entry ∈ named, later.resolveTag entry.2 = almanac.resolveTag entry.2) →
            (run later (run almanac (cacheAfter Cache.empty steps) written).cache checked).value =
              { lines := named.map fun (key, mod) => cachedLine key (almanac.resolveTag mod)
                error := none }) ∧
      ∀ entry ∈ named, ∀ single,
        Arguments.parse single = .ok { keys := [entry.1], check := false, write := true } →
          (checkLine entry.1 (almanac.resolveTag entry.2, stored entry.2) =
              cachedLine entry.1 (almanac.resolveTag entry.2) ↔
            (run almanac (run almanac (cacheAfter Cache.empty steps) checked).cache
              single).events.filterMap Event.call? =
                [.latestTag entry.2.owner entry.2.repo]) := by
  have hconsistent := consistent_after steps
  generalize lookups Cache.empty steps = past at hconsistent
  generalize cacheAfter Cache.empty steps = cache at hconsistent ⊢
  choose stored hstored using fun mod => hconsistent.exists_snapshot? mod (almanac.resolveTag mod)
  obtain ⟨named, hchecks⟩ := exists_named_checkKeys hstored keys
  obtain ⟨given, hwrites⟩ := exists_given_writeKeys almanac hconsistent keys
  rw [run_of_check hcheck, run_of_write hwrite]
  refine ⟨named, stored, given, hchecks, hwrites, fun hnone => ?_,
    fun entry hentry single hsingle => ?_⟩
  · have hstores := hwrites.exists_stored hnone
    obtain ⟨hkeys, -⟩ := hchecks.keys_eq_of_parsed fun key hkey =>
      let ⟨mod, _, hmod, _⟩ := hstores key hkey
      ⟨mod, hmod⟩
    refine ⟨hkeys, fun later htags => ?_⟩
    have hlines : named.map (fun (key, mod) => cachedLine key (almanac.resolveTag mod)) =
        named.map fun (key, mod) => cachedLine key (later.resolveTag mod) :=
      List.map_congr_left fun entry hentry =>
        congrArg (cachedLine entry.1) (htags entry hentry).symm
    rw [run_of_check hcheck, hlines, ← checkKeys_of_cached, ← hkeys]
    intro entry hentry
    have hparsed := hchecks.parsed entry hentry
    obtain ⟨mod, s, hmod, hs⟩ := hstores entry.1 (hkeys ▸ List.mem_map_of_mem hentry)
    cases hparsed.symm.trans hmod
    exact ⟨hparsed, s, by rw [htags entry hentry]; exact hs⟩
  · rw [hchecks.cache, run_of_write hsingle, checkLine_eq_cachedLine_iff,
      calls_writeKeys_iff (hchecks.parsed entry hentry) (hstored entry.2)]

/-- The snapshot of a repository without source files is written, and then it is found cached. -/
theorem readme_modes_agree :
    Arguments.parse ["--check", "--", "demo@studio"] =
        .ok { keys := ["demo@studio"], check := true, write := false } ∧
      Arguments.parse ["--write", "--", "demo@studio"] =
        .ok { keys := ["demo@studio"], check := false, write := true } ∧
      (run (readmeAlmanac "v1/0") Cache.empty ["--write", "--", "demo@studio"]).value.error =
        none ∧
      (run (readmeAlmanac "v1/0")
        (run (readmeAlmanac "v1/0") Cache.empty ["--write", "--", "demo@studio"]).cache
        ["--check", "--", "demo@studio"]).value.lines =
          ["[CHECK] mod=demo@studio version=v1/0 status=cached"] := by
  have hcheck : Arguments.parse ["--check", "--", "demo@studio"] =
      .ok { keys := ["demo@studio"], check := true, write := false } :=
    Arguments.parse_behind (List.cons_ne_nil _ _) (.inl rfl)
  have hwrite : Arguments.parse ["--write", "--", "demo@studio"] =
      .ok { keys := ["demo@studio"], check := false, write := true } :=
    Arguments.parse_behind (List.cons_ne_nil _ _) (.inr rfl)
  have hgives : ((readmeAlmanac "v1/0").get Cache.empty (.text "demo@studio")).value =
      .ok (bareSnapshot "v1/0") := gives_readmeLookup_empty.2
  have hnone : (run (readmeAlmanac "v1/0") Cache.empty
      ["--write", "--", "demo@studio"]).value.error = none := by
    rw [run_of_write hwrite, writeKeys_cons_of_ok hgives]
    rfl
  obtain ⟨named, stored, given, hchecks, -, hcached, -⟩ :=
    modes_agree hcheck hwrite [] (readmeAlmanac "v1/0")
  obtain ⟨hkeys, hlater⟩ := hcached hnone
  have hparsed := hchecks.parsed
  have hlines := congrArg Report.lines (hlater (readmeAlmanac "v1/0") fun _ _ => rfl)
  refine ⟨hcheck, hwrite, hnone, hlines.trans ?_⟩
  obtain ⟨⟨key, mod⟩, rfl⟩ : ∃ entry, named = [entry] :=
    List.length_eq_one_iff.1 (by simpa using (congrArg List.length hkeys).symm)
  cases hkeys
  have hmod := hparsed _ List.mem_cons_self
  cases hmod.symm.trans (show ModKey.parse (.text "demo@studio") = .ok sampleKey from rfl)
  rfl

end Command

end ModAlmanac
