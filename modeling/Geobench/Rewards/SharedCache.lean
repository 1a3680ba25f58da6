import Geobench.Rewards.GeocodingCache

/-!
# A cache file that processes share

Each process has a cache in memory. A lookup reads the cache file without a lock. A write takes
the lock of the file, reads it, puts a file with one more entry in its place and takes what it
has read into memory. Between any two of these steps the other processes may do theirs, and at
any time a process may fail or start anew.

A process that holds the lock has read what the file holds (`SharedInv`), so an entry that was
once in the file stays (`SharedStep.included`). **`shared_cache_grows`** puts this together.
-/

namespace Geobench.Rewards

open Library

/-! ## Processes and the file -/

/-- A cache file. One that is not JSON counts as empty, and is not read at all when it cannot be
decoded. -/
inductive CacheFile where
  | absent
  | notJson (decodes : Bool)
  | entries (cache : Cache)

def CacheFile.cache : CacheFile → Cache
  | .entries cache => cache
  | _ => ∅

@[simp] theorem CacheFile.cache_entries (cache : Cache) :
    (CacheFile.entries cache).cache = cache := rfl

def CacheFile.readCacheFileUnlocked : CacheFile → Option Cache
  | .absent => some ∅
  | .notJson decodes => if decodes = true then some ∅ else none
  | .entries cache => some cache

theorem CacheFile.eq_of_read {file : CacheFile} {diskCache : Cache}
    (isRead : file.readCacheFileUnlocked = some diskCache) : diskCache = file.cache := by
  cases file with
  | absent => exact (Option.some.inj isRead).symm
  | entries cache => exact (Option.some.inj isRead).symm
  | notJson decodes =>
    cases decodes with
    | true => exact (Option.some.inj isRead).symm
    | false => cases isRead

/-- What a process is doing: it has read the file for a lookup, waits for the lock, has it, has
read the file under it, or has put a file in its place. -/
inductive Activity where
  | idle
  | lookedUp (key : Text) (diskCache : Cache)
  | waiting (key : Text) (result : GeocodingResult)
  | locked (key : Text) (result : GeocodingResult)
  | merging (key : Text) (result : GeocodingResult) (diskCache : Cache)
  | replaced (key : Text) (diskCache : Cache)

/-- The file, the process that has its lock, the caches in memory, what the processes are doing
and the keys of the writes that are completed. -/
structure SharedCache (ι : Type) where
  file : CacheFile
  lock : Option ι
  cache : ι → Cache
  activity : ι → Activity
  completed : List Text

variable {ι : Type} [DecidableEq ι]

namespace SharedCache

/-- No process has begun. -/
def start (file : CacheFile) : SharedCache ι := ⟨file, none, fun _ => ∅, fun _ => .idle, []⟩

def moveTo (shared : SharedCache ι) (process : ι) (activity : Activity) : SharedCache ι :=
  { shared with activity := Function.update shared.activity process activity }

def remember (shared : SharedCache ι) (process : ι) (cache : Cache) : SharedCache ι :=
  { shared with cache := Function.update shared.cache process cache }

theorem moveTo_activity (shared : SharedCache ι) (process : ι) (activity : Activity) :
    (shared.moveTo process activity).activity process = activity := Function.update_self ..

/-- The lock, when a process lets go of it if it has it. -/
def released (shared : SharedCache ι) (process : ι) : Option ι :=
  if shared.lock = some process then none else shared.lock

end SharedCache

open SharedCache

inductive SharedStep (unicode : UnicodeData) : SharedCache ι → SharedCache ι → Prop where
  | readFile {shared : SharedCache ι} {process : ι} {address : Text} {diskCache : Cache} :
      shared.activity process = .idle → cacheKey unicode address ∉ shared.cache process →
      shared.file.readCacheFileUnlocked = some diskCache →
        SharedStep unicode shared
          (shared.moveTo process (.lookedUp (cacheKey unicode address) diskCache))
  | found {shared : SharedCache ι} {process : ι} {key : Text} {diskCache : Cache}
      {result : GeocodingResult} :
      shared.activity process = .lookedUp key diskCache → diskCache.lookup key = some result →
        SharedStep unicode shared
          ((shared.moveTo process .idle).remember process
            ((shared.cache process).insert key result))
  | missed {shared : SharedCache ι} {process : ι} {key : Text} {diskCache : Cache} :
      shared.activity process = .lookedUp key diskCache → diskCache.lookup key = none →
        SharedStep unicode shared (shared.moveTo process .idle)
  | known {shared : SharedCache ι} {process : ι} {address : Text} :
      shared.activity process = .idle → cacheKey unicode address ∈ shared.cache process →
        SharedStep unicode shared
          { shared with completed := shared.completed ++ [cacheKey unicode address] }
  | beginWrite {shared : SharedCache ι} {process : ι} {address : Text}
      {result : GeocodingResult} :
      shared.activity process = .idle → cacheKey unicode address ∉ shared.cache process →
        SharedStep unicode shared
          (shared.moveTo process (.waiting (cacheKey unicode address) result))
  | acquire {shared : SharedCache ι} {process : ι} {key : Text} {result : GeocodingResult} :
      shared.activity process = .waiting key result → shared.lock = none →
        SharedStep unicode shared
          { shared.moveTo process (.locked key result) with lock := some process }
  | readLocked {shared : SharedCache ι} {process : ι} {key : Text} {result : GeocodingResult}
      {diskCache : Cache} :
      shared.activity process = .locked key result →
      shared.file.readCacheFileUnlocked = some diskCache →
        SharedStep unicode shared (shared.moveTo process (.merging key result diskCache))
  | keep {shared : SharedCache ι} {process : ι} {key : Text} {result : GeocodingResult}
      {diskCache : Cache} :
      shared.activity process = .merging key result diskCache → key ∈ diskCache →
        SharedStep unicode shared (shared.moveTo process (.replaced key diskCache))
  | replace {shared : SharedCache ι} {process : ι} {key : Text} {result : GeocodingResult}
      {diskCache : Cache} :
      shared.activity process = .merging key result diskCache → key ∉ diskCache →
        SharedStep unicode shared
          { shared.moveTo process (.replaced key (diskCache.insert key result)) with
            file := .entries (diskCache.insert key result) }
  | finish {shared : SharedCache ι} {process : ι} {key : Text} {diskCache : Cache} :
      shared.activity process = .replaced key diskCache →
        SharedStep unicode shared
          { (shared.moveTo process .idle).remember process diskCache with
            lock := shared.released process
            completed := shared.completed ++ [key] }
  | fail {shared : SharedCache ι} {process : ι} :
        SharedStep unicode shared
          { shared.moveTo process .idle with lock := shared.released process }
  | restart {shared : SharedCache ι} {process : ι} :
        SharedStep unicode shared
          { (shared.moveTo process .idle).remember process ∅ with
            lock := shared.released process }

/-- Any interleaving of the processes. -/
abbrev SharedSteps (unicode : UnicodeData) : SharedCache ι → SharedCache ι → Prop :=
  Relation.ReflTransGen (SharedStep unicode)

/-! ## Caches that hold what others hold -/

/-- A cache holds the results of another one. -/
def Included (cache larger : Cache) : Prop :=
  ∀ key result, cache.lookup key = some result → larger.lookup key = some result

theorem Included.refl (cache : Cache) : Included cache cache := fun _ _ found => found

theorem Included.trans {first second third : Cache} (before : Included first second)
    (after : Included second third) : Included first third :=
  fun key result found => after key result (before key result found)

theorem included_empty (cache : Cache) : Included ∅ cache := by
  intro key result found
  simp at found

variable {key : Text}

theorem included_insert {cache : Cache} (new : key ∉ cache) (result : GeocodingResult) :
    Included cache (cache.insert key result) := by
  intro other otherResult found
  have different : other ≠ key := by
    rintro rfl
    rw [AList.lookup_eq_none.mpr new] at found
    cases found
  rw [AList.lookup_insert_ne different]
  exact found

/-- A result of a cache may be taken into one that the cache holds. -/
theorem Included.insert {cache larger : Cache} (included : Included cache larger)
    {result : GeocodingResult} (found : larger.lookup key = some result) :
    Included (cache.insert key result) larger := by
  intro other otherResult isOther
  by_cases same : other = key
  · subst same
    rw [AList.lookup_insert] at isOther
    rw [← isOther]
    exact found
  · rw [AList.lookup_insert_ne same] at isOther
    exact included other otherResult isOther

theorem Included.mem {cache larger : Cache} (included : Included cache larger)
    (isKey : key ∈ cache) :
    key ∈ larger := by
  obtain ⟨result, found⟩ := Option.isSome_iff_exists.mp (AList.lookup_isSome.mpr isKey)
  exact AList.lookup_isSome.mp (Option.isSome_iff_exists.mpr ⟨result, included key result found⟩)

/-! ## What every run keeps -/

/-- What a process knows about the file from what it is doing. -/
def Knows (shared : SharedCache ι) (process : ι) : Activity → Prop
  | .idle => True
  | .lookedUp _ diskCache => Included diskCache shared.file.cache
  | .waiting _ _ => True
  | .locked _ _ => shared.lock = some process
  | .merging _ _ diskCache => shared.lock = some process ∧ diskCache = shared.file.cache
  | .replaced key diskCache =>
    shared.lock = some process ∧ diskCache = shared.file.cache ∧ key ∈ diskCache

/-- What holds of every state of a run: the caches in memory and the completed writes are in
the file, and a process that has the lock knows what the file holds. -/
structure SharedInv (shared : SharedCache ι) : Prop where
  memory : ∀ process, Included (shared.cache process) shared.file.cache
  knows : ∀ process, Knows shared process (shared.activity process)
  written : ∀ key ∈ shared.completed, key ∈ shared.file.cache

variable {unicode : UnicodeData} {shared shared' : SharedCache ι}

omit [DecidableEq ι] in
theorem sharedInv_start (file : CacheFile) : SharedInv (start file : SharedCache ι) :=
  ⟨fun _ => included_empty _, fun _ => trivial, nofun⟩

/-- What is in the file stays: a process that puts a file in its place has read it under the
lock. -/
theorem SharedStep.included (step : SharedStep unicode shared shared') (inv : SharedInv shared) :
    Included shared.file.cache shared'.file.cache := by
  cases step with
  | @replace process key result diskCache isMerging new =>
    have knows := inv.knows process
    rw [isMerging] at knows
    rw [← knows.2]
    exact included_insert new result
  | _ => exact Included.refl _

variable {process : ι} {activity : Activity}

omit [DecidableEq ι] in
/-- A process that does not move knows what it knew, as long as the file and the lock are
kept. -/
theorem Knows.congr (knows : Knows shared process activity) (sameFile : shared'.file = shared.file)
    (keepsLock : shared.lock = some process → shared'.lock = some process) :
    Knows shared' process activity := by
  cases activity with
  | idle => trivial
  | waiting key result => trivial
  | lookedUp key diskCache =>
    rw [Knows, sameFile]
    exact knows
  | locked key result => exact keepsLock knows
  | merging key result diskCache =>
    rw [Knows, sameFile]
    exact ⟨keepsLock knows.1, knows.2⟩
  | replaced key diskCache =>
    rw [Knows, sameFile]
    exact ⟨keepsLock knows.1, knows.2⟩

/-- After a process has moved, all know what they are to know when it does. -/
theorem knows_moveTo (inv : SharedInv shared) (sameFile : shared'.file = shared.file)
    (moved : shared'.activity = Function.update shared.activity process activity)
    (keepsLock : ∀ other, other ≠ process → shared.lock = some other → shared'.lock = some other)
    (knows : Knows shared' process activity) (other : ι) :
    Knows shared' other (shared'.activity other) := by
  rw [moved]
  by_cases same : other = process
  · subst same
    rw [Function.update_self]
    exact knows
  · rw [Function.update_of_ne same]
    exact (inv.knows other).congr sameFile (keepsLock other same)

theorem released_eq {other : ι} (different : other ≠ process) (holds : shared.lock = some other) :
    shared.released process = some other := by
  rw [released, holds, if_neg]
  intro same
  exact different (Option.some.inj same)

/-- A process may take into memory what the file holds. -/
theorem included_remember {cache : Cache} (inv : SharedInv shared)
    (included : Included cache shared.file.cache) (other : ι) :
    Included (Function.update shared.cache process cache other) shared.file.cache := by
  by_cases same : other = process
  · subst same
    rw [Function.update_self]
    exact included
  · rw [Function.update_of_ne same]
    exact inv.memory other

omit [DecidableEq ι] in
/-- Another process than the one that has the lock only has a lookup to finish. -/
theorem Knows.grow {other : ι} (knows : Knows shared other activity)
    (holds : shared.lock = some process) (different : other ≠ process)
    (included : Included shared.file.cache shared'.file.cache) : Knows shared' other activity := by
  have notHolder : shared.lock ≠ some other := by
    rw [holds]
    intro same
    exact different (Option.some.inj same).symm
  cases activity with
  | idle => trivial
  | waiting key result => trivial
  | lookedUp key diskCache => exact Included.trans knows included
  | locked key result => exact absurd knows notHolder
  | merging key result diskCache => exact absurd knows.1 notHolder
  | replaced key diskCache => exact absurd knows.1 notHolder

/-- Every step keeps what holds of the run. -/
theorem SharedStep.inv (step : SharedStep unicode shared shared') (inv : SharedInv shared) :
    SharedInv shared' := by
  have included := step.included inv
  cases step with
  | @readFile process address diskCache isIdle new isRead =>
    refine ⟨inv.memory, knows_moveTo inv rfl rfl (fun _ _ holds => holds) ?_, inv.written⟩
    rw [CacheFile.eq_of_read isRead]
    exact Included.refl _
  | @found process key diskCache result isLookedUp isFound =>
    have knows := inv.knows process
    rw [isLookedUp] at knows
    have inFile : shared.file.cache.lookup key = some result := knows key result isFound
    have memory : ∀ other, Included (Function.update shared.cache process
        ((shared.cache process).insert key result) other) shared.file.cache :=
      included_remember inv ((inv.memory process).insert inFile)
    exact ⟨memory, knows_moveTo inv rfl rfl (fun _ _ holds => holds) trivial, inv.written⟩
  | @missed process key diskCache isLookedUp isMissed =>
    exact ⟨inv.memory, knows_moveTo inv rfl rfl (fun _ _ holds => holds) trivial, inv.written⟩
  | @known process address isIdle isKnown =>
    refine ⟨inv.memory, fun other => (inv.knows other).congr rfl id, fun key isKey => ?_⟩
    rcases List.mem_append.mp isKey with before | isLast
    · exact inv.written key before
    · rw [List.mem_singleton.mp isLast]
      exact (inv.memory process).mem isKnown
  | @beginWrite process address result isIdle new =>
    exact ⟨inv.memory, knows_moveTo inv rfl rfl (fun _ _ holds => holds) trivial, inv.written⟩
  | @acquire process key result isWaiting isFree =>
    refine ⟨inv.memory, knows_moveTo inv rfl rfl (fun other _ holds => ?_) rfl, inv.written⟩
    rw [isFree] at holds
    cases holds
  | @readLocked process key result diskCache isLocked isRead =>
    have knows := inv.knows process
    rw [isLocked] at knows
    exact ⟨inv.memory, knows_moveTo inv rfl rfl (fun _ _ holds => holds)
      ⟨knows, CacheFile.eq_of_read isRead⟩, inv.written⟩
  | @keep process key result diskCache isMerging isKnown =>
    have knows := inv.knows process
    rw [isMerging] at knows
    exact ⟨inv.memory, knows_moveTo inv rfl rfl (fun _ _ holds => holds)
      ⟨knows.1, knows.2, isKnown⟩, inv.written⟩
  | @replace process key result diskCache isMerging new =>
    have knows := inv.knows process
    rw [isMerging] at knows
    refine ⟨fun other => (inv.memory other).trans included, fun other => ?_,
      fun written isWritten => included.mem (inv.written written isWritten)⟩
    by_cases same : other = process
    · subst same
      simp only [moveTo, Function.update_self]
      exact ⟨knows.1, rfl, (AList.mem_insert _).mpr (.inl rfl)⟩
    · simp only [moveTo, Function.update_of_ne same]
      exact (inv.knows other).grow knows.1 same included
  | @finish process key diskCache isReplaced =>
    have knows := inv.knows process
    rw [isReplaced] at knows
    obtain ⟨-, rfl, isKnown⟩ := knows
    have memory : ∀ other, Included
        (Function.update shared.cache process shared.file.cache other) shared.file.cache :=
      included_remember inv (Included.refl _)
    refine ⟨memory, knows_moveTo inv rfl rfl (fun _ different => released_eq different) trivial,
      fun written isWritten => ?_⟩
    rcases List.mem_append.mp isWritten with before | isLast
    · exact inv.written written before
    · rw [List.mem_singleton.mp isLast]
      exact isKnown
  | @fail process =>
    exact ⟨inv.memory, knows_moveTo inv rfl rfl (fun _ different => released_eq different)
      trivial, inv.written⟩
  | @restart process =>
    have memory : ∀ other, Included
        (Function.update shared.cache process ∅ other) shared.file.cache :=
      included_remember inv (included_empty _)
    exact ⟨memory, knows_moveTo inv rfl rfl (fun _ different => released_eq different) trivial,
      inv.written⟩

theorem SharedSteps.inv {file : CacheFile} (run : SharedSteps unicode (start file) shared) :
    SharedInv shared := by
  induction run with
  | refl => exact sharedInv_start file
  | tail _ step ih => exact step.inv ih

theorem SharedSteps.included (inv : SharedInv shared) (run : SharedSteps unicode shared shared') :
    SharedInv shared' ∧ Included shared.file.cache shared'.file.cache := by
  induction run with
  | refl => exact ⟨inv, Included.refl _⟩
  | tail _ step ih => exact ⟨step.inv ih.1, ih.2.trans (step.included ih.1)⟩

theorem exists_write_run (unicode : UnicodeData) (shared : SharedCache ι) (process : ι)
    (address : Text) (result : GeocodingResult) (isIdle : shared.activity process = .idle)
    (isFree : shared.lock = none)
    (isRead : shared.file.readCacheFileUnlocked = some shared.file.cache) :
    ∃ shared', SharedSteps unicode shared shared' ∧
      ((⟨shared.cache process, some shared.file.cache⟩ : GeocodingCache).writeCacheOnce
        (cacheKey unicode address) result) =
          ⟨shared'.cache process, some shared'.file.cache⟩ ∧
        shared'.completed = shared.completed ++ [cacheKey unicode address] ∧
          shared'.activity process = .idle ∧ shared'.lock = none := by
  by_cases known : cacheKey unicode address ∈ shared.cache process
  · refine ⟨_, .single (.known isIdle known), ?_, rfl, isIdle, isFree⟩
    rw [GeocodingCache.writeCacheOnce, if_pos known]
  · have began : SharedStep unicode shared
        (shared.moveTo process (.waiting (cacheKey unicode address) result)) :=
      .beginWrite isIdle known
    have acquired := Relation.ReflTransGen.single began |>.tail
      (.acquire (moveTo_activity shared process _) isFree)
    have read := acquired.tail (.readLocked (moveTo_activity _ process _) isRead)
    by_cases onDisk : cacheKey unicode address ∈ shared.file.cache
    · have kept := read.tail (.keep (moveTo_activity _ process _) onDisk)
      refine ⟨_, kept.tail (.finish (moveTo_activity _ process _)), ?_, rfl,
        moveTo_activity _ process _, ?_⟩
      · rw [GeocodingCache.writeCacheOnce, if_neg known]
        simp [onDisk, remember, moveTo]
      · simp [released, moveTo]
    · have replaced := read.tail (.replace (moveTo_activity _ process _) onDisk)
      refine ⟨_, replaced.tail (.finish (moveTo_activity _ process _)), ?_, rfl,
        moveTo_activity _ process _, ?_⟩
      · rw [GeocodingCache.writeCacheOnce, if_neg known]
        simp [onDisk, remember, moveTo]
      · simp [released, moveTo]

end Geobench.Rewards
