import ModAlmanac.Almanac.Lookup
import ModAlmanac.Proofs.Almanac.Kept
import ModAlmanac.Proofs.Snapshot.Compiled

/-!
# What is written to the cache

Looking a mod up writes to the stored snapshots in one way only: where none is stored for the mod in
its version, a build that succeeds stores the one that it compiled, and no other is touched
(`Almanac.effect_build`). The files that a build fetches lie in the same folder, but none of them is
called `metadata.json` (`Cache.sameSnapshots_putFiles`). Where a snapshot is stored, the lookup
gives what is read back of it and does nothing (`Almanac.getVersion_of_stored`).
-/

namespace ModAlmanac

open OrderedMap Repository

/-! ## Paths of snapshots -/

theorem isSegment_iff {s : List Char} :
    isSegment s = true ↔ s ≠ [] ∧ s ≠ ['.'] ∧ s ≠ ['.', '.'] ∧ '/' ∉ s ∧ '\\' ∉ s := by
  simp [isSegment, and_assoc]

theorem snapshotPath_eq (key : ModKey) (tag : String) :
    snapshotPath key tag = [key.text, versionFolder tag, "metadata.json"] := rfl

theorem ModKey.text_inj {key other : ModKey} (h : key.text = other.text) : key = other := by
  have hread := ModKey.ofText?_text key
  rw [h, ModKey.ofText?_text] at hread
  exact (Option.some.inj hread).symm

/-- Two snapshots share a file if they are of one mod and their tags share a folder. -/
theorem snapshotPath_eq_iff {key other : ModKey} {tag tag' : String} :
    snapshotPath key tag = snapshotPath other tag' ↔
      key = other ∧ versionFolder tag = versionFolder tag' := by
  rw [snapshotPath_eq, snapshotPath_eq]
  constructor
  · intro h
    obtain ⟨hkey, hrest⟩ := List.cons.inj h
    exact ⟨ModKey.text_inj hkey, (List.cons.inj hrest).1⟩
  · rintro ⟨rfl, htag⟩
    rw [htag]

/-! ## Writing beside the snapshots -/

/-- The stored snapshots of two caches are the same files. -/
def Cache.SameSnapshots (cache other : Cache) : Prop :=
  ∀ (key : ModKey) (tag : String),
    other.read? (snapshotPath key tag) = cache.read? (snapshotPath key tag)

theorem Cache.SameSnapshots.refl (cache : Cache) : cache.SameSnapshots cache :=
  fun _ _ => rfl

theorem Cache.SameSnapshots.trans {first second third : Cache} (h : first.SameSnapshots second)
    (h' : second.SameSnapshots third) : first.SameSnapshots third :=
  fun key tag => (h' key tag).trans (h key tag)

theorem Cache.sameSnapshots_makeFolder (cache : Cache) (path : CachePath) :
    cache.SameSnapshots (cache.makeFolder path).1 :=
  fun _ _ => cache.read?_makeFolder path _

theorem Cache.sameSnapshots_putFiles (cache : Cache) (folder : CachePath)
    {files : List (String × ByteArray)} (h : ∀ file ∈ files, IsBesideName file.1) :
    cache.SameSnapshots (cache.putFiles folder files) :=
  fun _ _ => Cache.read?_putFiles_metadata h rfl cache

/-! ## Building -/

/-- The file of a snapshot is stored for a mod under a tag. -/
def Cache.Stores (cache : Cache) (key : ModKey) (tag : String) (s : Snapshot) : Prop :=
  cache.read? (snapshotPath key tag) = some s.fileText.toUTF8

/-- What building the snapshot of a mod in a version does to the stored snapshots: nothing if it
fails, and otherwise it stores the snapshot that it compiled. -/
inductive BuildEffect (context : Context) (cache : Cache) (key : ModKey) (tag : String)
    (run : Outcome Snapshot) : Prop
  | failed (e : Failure) (value : run.value = .error e) (same : cache.SameSnapshots run.cache)
  | stored (material : Material) (s : Snapshot)
    (compiled : Snapshot.compile context tag material = .ok s) (value : run.value = .ok s)
    (stores : run.cache.Stores key tag s)
    (others : ∀ (other : ModKey) (tag' : String), snapshotPath other tag' ≠ snapshotPath key tag →
      run.cache.read? (snapshotPath other tag') = cache.read? (snapshotPath other tag'))

/-- Building stores the compiled snapshot or leaves the stored snapshots as they are. -/
theorem Almanac.effect_build (almanac : Almanac) (cache : Cache) (key : ModKey) (tag : String) :
    BuildEffect almanac.context cache key tag (almanac.build cache key tag) := by
  have hmade := cache.sameSnapshots_makeFolder (versionPath key tag)
  cases almanac.end_build cache key tag with
  | refused e keyed value cache_eq quiet =>
    refine .failed e value ?_
    rw [cache_eq]
    exact Cache.SameSnapshots.refl cache
  | broken e late value beside names cache_eq quiet =>
    refine .failed e value ?_
    rw [cache_eq]
    exact hmade.trans (Cache.sameSnapshots_putFiles _ _ names)
  | published branch listing files made s answered listed texts folder compiled value stored others
      calls =>
    have hfetched := almanac.isBesideName_of_mem_fetched made key tag branch files
    have hpart := isBesideName_partName almanac.worker
    rw [folder] at hmade
    refine .stored _ s compiled value ?_ fun other tag' hne => ?_
    · rw [Cache.Stores, Cache.read?, stored]
      rfl
    · rw [Cache.read?, others _ hne (hpart.ne_of_getLast? rfl _)]
      exact hmade.trans (Cache.sameSnapshots_putFiles _ _ hfetched) other tag'

/-! ## Looking up -/

/-- Where a snapshot is stored, what is read back of it is given and nothing is done. -/
theorem Almanac.getVersion_of_stored {cache : Cache} {key : ModKey} {tag : String} {s : Snapshot}
    (hs : s.reread.isTyped = true) (h : cache.Stores key tag s) (almanac : Almanac) :
    almanac.getVersion cache key tag = { value := .ok s.reread, cache, events := [] } := by
  have hstored : cache.snapshot? key tag = .ok (some s.reread) := by
    rw [Cache.snapshot?, h]
    exact Snapshot.load_fileText_reread hs
  rw [Almanac.getVersion, hstored]

theorem Almanac.getVersion_of_read?_eq_none {cache : Cache} {key : ModKey} {tag : String}
    (h : cache.read? (snapshotPath key tag) = none) (almanac : Almanac) :
    almanac.getVersion cache key tag = almanac.build cache key tag := by
  have hmissing : cache.snapshot? key tag = .ok none := by rw [Cache.snapshot?, h]
  rw [Almanac.getVersion, hmissing]

/-- A look at the cache tells what is stored for the tag, and asks for the tag only. -/
theorem Almanac.peek_of_snapshot? {almanac : Almanac} {cache : Cache} {given : Value} {key : ModKey}
    {stored : Option Snapshot} (hkey : ModKey.parse given = .ok key)
    (h : cache.snapshot? key (almanac.resolveTag key) = .ok stored) :
    almanac.peek cache given =
      { value := .ok (almanac.resolveTag key, stored), cache, events := [askTag key] } := by
  rw [Almanac.peek, hkey]
  dsimp only
  rw [h]

theorem Almanac.peek_of_invalid {given : Value} {e : InvalidModKey}
    (h : ModKey.parse given = .error e) (almanac : Almanac) (cache : Cache) :
    almanac.peek cache given = { value := .error (.invalidKey e), cache, events := [] } := by
  rw [Almanac.peek, h]

end ModAlmanac
