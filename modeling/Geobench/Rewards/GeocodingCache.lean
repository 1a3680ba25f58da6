import Geobench.Library.Text
import Mathlib.Data.List.AList
import Mathlib.Data.Rat.Init

/-!
# The cache of the GeoScore reward

A cache maps the key of an address to the result of its lookup. The key writes every
separator as a comma, without blanks around it, and does not tell upper from lower case.
The first result written under a key is kept.

When there is a cache file, a key that is not in memory is looked up in the file, and a
write takes the contents of the file into memory. The contents of the file are those this
process has written.
-/

namespace Geobench.Rewards

open Library

/-- The tables of the Unicode database that the text operations read. -/
structure UnicodeData where
  isSpace : Char → Bool
  isDecimal : Char → Bool
  lower : Text → Text

/-- The Unicode tables, as far as they concern the characters of ASCII. -/
def asciiUnicode : UnicodeData where
  isSpace := Char.isWhitespace
  isDecimal := Char.isDigit
  lower := List.map Char.toLower

/-! ## Results -/

/-- What a lookup returns. An invalid query has no code. -/
inductive GeocodingResult where
  | success (longitude latitude : ℚ) (confidence : ℤ) (formattedAddress : Text)
      (components : List (Text × Text))
  | error (code : Option ℤ) (message : Text) (address : Text)
  deriving DecidableEq

inductive GeocodingStatus where
  | success
  | error
  deriving DecidableEq, Repr

def GeocodingResult.status : GeocodingResult → GeocodingStatus
  | .success .. => .success
  | .error .. => .error

/-- The latitude and the longitude of a result. -/
def GeocodingResult.coordinates : GeocodingResult → Option (ℚ × ℚ)
  | .success longitude latitude _ _ _ => some (latitude, longitude)
  | .error .. => none

/-! ## Keys -/

/-- The separators of an address in the form the service reads. -/
def commaSeparated (address : Text) : Text :=
  replaceChar '，' ',' (replaceChar '；' ',' (replaceChar ';' ',' address))

@[simp] theorem length_commaSeparated (address : Text) :
    (commaSeparated address).length = address.length := by
  simp [commaSeparated]

/-- Substitute `,` for `\s*,\s*`. The blanks read since the last other character are held
back until it is known whether a comma follows. -/
def trimCommas (isSpace : Char → Bool) : Text → Bool → Text → Text
  | blanks, afterComma, [] => if afterComma then [] else blanks
  | blanks, afterComma, char :: rest =>
    if isSpace char then trimCommas isSpace (blanks ++ [char]) afterComma rest
    else if char = ',' then ',' :: trimCommas isSpace [] true rest
    else (if afterComma then [] else blanks) ++ char :: trimCommas isSpace [] false rest

/-- Substitute one blank for `\s+`. -/
def collapseSpaces (isSpace : Char → Bool) : Bool → Text → Text
  | _, [] => []
  | afterSpace, char :: rest =>
    if isSpace char then
      if afterSpace then collapseSpaces isSpace true rest
      else ' ' :: collapseSpaces isSpace true rest
    else char :: collapseSpaces isSpace false rest

def cacheKey (unicode : UnicodeData) (address : Text) : Text :=
  let normalized := commaSeparated address
  let normalized := trimCommas unicode.isSpace [] false normalized
  unicode.lower (strip unicode.isSpace (collapseSpaces unicode.isSpace false normalized))

/-! ## The cache -/

abbrev Cache := AList fun _ : Text => GeocodingResult

/-- The cache in memory and the cache file, when there is one. -/
structure GeocodingCache where
  cache : Cache
  cacheFile : Option Cache

/-- Read the cache, and then the cache file, whose entry is taken into the cache. -/
def GeocodingCache.getCachedGeocoding (store : GeocodingCache) (key : Text) :
    Option GeocodingResult × GeocodingCache :=
  match store.cache.lookup key with
  | some result => (some result, store)
  | none =>
    match (store.cacheFile.getD ∅).lookup key with
    | some result => (some result, { store with cache := store.cache.insert key result })
    | none => (none, store)

/-- Cache a result under a key that has none. The cache then is what the file holds. -/
def GeocodingCache.writeCacheOnce (store : GeocodingCache) (key : Text)
    (result : GeocodingResult) : GeocodingCache :=
  if key ∈ store.cache then store
  else
    match store.cacheFile with
    | none => { store with cache := store.cache.insert key result }
    | some diskCache =>
      let diskCache := if key ∈ diskCache then diskCache else diskCache.insert key result
      { store with cache := diskCache, cacheFile := some diskCache }

/-- The cache has a result under a key, in the cache or in the cache file. -/
def GeocodingCache.Holds (store : GeocodingCache) (key : Text) (result : GeocodingResult) :
    Prop :=
  store.cache.lookup key = some result ∨ (store.cacheFile.getD ∅).lookup key = some result

/-- A read gives a result the store has, and takes no other result into the cache. -/
theorem GeocodingCache.getCachedGeocoding_holds (store : GeocodingCache) (key : Text) :
    (∀ result, (store.getCachedGeocoding key).1 = some result → store.Holds key result) ∧
      ∀ other result, (store.getCachedGeocoding key).2.Holds other result →
        store.Holds other result := by
  unfold GeocodingCache.getCachedGeocoding
  cases inMemory : store.cache.lookup key with
  | some cached =>
    refine ⟨fun result isResult => .inl ?_, fun other result holds => holds⟩
    rw [inMemory]
    exact isResult
  | none =>
    dsimp only
    cases onDisk : (store.cacheFile.getD ∅).lookup key with
    | none =>
      refine ⟨fun result found => ?_, fun other result holds => holds⟩
      cases found
    | some stored =>
      refine ⟨fun result isResult => .inr ?_, ?_⟩
      · rw [onDisk]
        exact isResult
      · rintro other result (inCache | inFile)
        · by_cases same : other = key
          · subst same
            rw [AList.lookup_insert] at inCache
            exact .inr (onDisk.trans inCache)
          · rw [AList.lookup_insert_ne same] at inCache
            exact .inl inCache
        · exact .inr inFile

/-- The service and the count are untouched by a read that finds nothing. -/
theorem GeocodingCache.getCachedGeocoding_none {store store' : GeocodingCache} {key : Text}
    (missed : store.getCachedGeocoding key = (none, store')) : store' = store := by
  unfold GeocodingCache.getCachedGeocoding at missed
  cases inMemory : store.cache.lookup key with
  | some cached => simp [inMemory] at missed
  | none =>
    cases onDisk : (store.cacheFile.getD ∅).lookup key with
    | some stored => simp [inMemory, onDisk] at missed
    | none =>
      simp only [inMemory, onDisk, Prod.mk.injEq, true_and] at missed
      exact missed.symm

/-- A write adds at most its own result. -/
theorem GeocodingCache.writeCacheOnce_holds (store : GeocodingCache) (key : Text)
    (written : GeocodingResult) {other : Text} {result : GeocodingResult}
    (holds : (store.writeCacheOnce key written).Holds other result) :
    store.Holds other result ∨ (other = key ∧ result = written) := by
  have insert_cases (cache : Cache)
      (found : (cache.insert key written).lookup other = some result) :
      cache.lookup other = some result ∨ (other = key ∧ result = written) := by
    by_cases same : other = key
    · subst same
      rw [AList.lookup_insert, Option.some.injEq] at found
      exact .inr ⟨rfl, found.symm⟩
    · rw [AList.lookup_insert_ne same] at found
      exact .inl found
  unfold GeocodingCache.writeCacheOnce at holds
  split at holds
  · exact .inl holds
  · cases file : store.cacheFile with
    | none =>
      simp only [file] at holds
      rcases holds with inCache | inFile
      · rcases insert_cases _ inCache with found | written
        · exact .inl (.inl found)
        · exact .inr written
      · simp at inFile
    | some diskCache =>
      simp only [file] at holds
      have inDisk : (if key ∈ diskCache then diskCache
          else diskCache.insert key written).lookup other = some result := by
        rcases holds with found | found
        · exact found
        · exact found
      split at inDisk
      · exact .inl (.inr (by rw [file]; exact inDisk))
      · rcases insert_cases _ inDisk with found | written
        · exact .inl (.inr (by rw [file]; exact found))
        · exact .inr written

/-- A read that finds a result finds it again. -/
theorem GeocodingCache.getCachedGeocoding_again {store store' : GeocodingCache} {key : Text}
    {result : GeocodingResult}
    (read : store.getCachedGeocoding key = (some result, store')) :
    (store'.getCachedGeocoding key).1 = some result := by
  unfold GeocodingCache.getCachedGeocoding at read
  cases inMemory : store.cache.lookup key with
  | some cached =>
    simp only [inMemory, Prod.mk.injEq, Option.some.injEq] at read
    obtain ⟨rfl, rfl⟩ := read
    simp only [GeocodingCache.getCachedGeocoding, inMemory]
  | none =>
    cases onDisk : (store.cacheFile.getD ∅).lookup key with
    | none => simp [inMemory, onDisk] at read
    | some stored =>
      simp only [inMemory, onDisk, Prod.mk.injEq, Option.some.injEq] at read
      obtain ⟨rfl, rfl⟩ := read
      simp only [GeocodingCache.getCachedGeocoding, AList.lookup_insert]

theorem GeocodingCache.getCachedGeocoding_writeCacheOnce (store : GeocodingCache) (key : Text)
    (result : GeocodingResult) :
    ∃ cached, ((store.writeCacheOnce key result).getCachedGeocoding key).1 = some cached := by
  have found {cache : Cache} {cacheFile : Option Cache}
      (member : key ∈ cache) : ∃ cached, (GeocodingCache.getCachedGeocoding
        ⟨cache, cacheFile⟩ key).1 = some cached := by
    obtain ⟨cached, isCached⟩ := Option.isSome_iff_exists.mp (AList.lookup_isSome.mpr member)
    refine ⟨cached, ?_⟩
    simp only [GeocodingCache.getCachedGeocoding, isCached]
  unfold GeocodingCache.writeCacheOnce
  split
  · rename_i member
    exact found member
  · cases store.cacheFile with
    | none => exact found ((AList.mem_insert _).mpr (.inl rfl))
    | some diskCache =>
      refine found ?_
      split
      · assumption
      · exact (AList.mem_insert _).mpr (.inl rfl)

/-! ## Entries that stay -/

namespace GeocodingCache

/-- There is a result under a key, in memory or in the file. -/
def Present (store : GeocodingCache) (key : Text) : Prop := ∃ result, store.Holds key result

/-- What is in memory is in the file, when there is one. -/
def Backed (store : GeocodingCache) : Prop :=
  ∀ file, store.cacheFile = some file → ∀ key result, store.cache.lookup key = some result →
    file.lookup key = some result

variable {store : GeocodingCache}

theorem exists_read_of_present {key : Text} (present : store.Present key) :
    ∃ result, (store.getCachedGeocoding key).1 = some result := by
  obtain ⟨result, inCache | inFile⟩ := present
  · exact ⟨result, by rw [getCachedGeocoding, inCache]⟩
  · rw [getCachedGeocoding]
    cases store.cache.lookup key with
    | some cached => exact ⟨cached, rfl⟩
    | none => exact ⟨result, by rw [inFile]⟩

theorem Backed.read (backed : store.Backed) (key : Text) :
    (store.getCachedGeocoding key).2.Backed ∧
      ∀ other, store.Present other → (store.getCachedGeocoding key).2.Present other := by
  unfold getCachedGeocoding
  cases inMemory : store.cache.lookup key with
  | some cached => exact ⟨backed, fun other present => present⟩
  | none =>
    dsimp only
    cases onDisk : (store.cacheFile.getD ∅).lookup key with
    | none => exact ⟨backed, fun other present => present⟩
    | some stored =>
      constructor
      · intro file isFile other result found
        by_cases same : other = key
        · subst same
          rw [AList.lookup_insert] at found
          rw [show store.cacheFile = some file from isFile] at onDisk
          exact onDisk.trans found
        · rw [AList.lookup_insert_ne same] at found
          exact backed file isFile other result found
      · rintro other ⟨result, inCache | inFile⟩
        · refine ⟨result, .inl ?_⟩
          have different : other ≠ key := by
            rintro rfl
            rw [inMemory] at inCache
            cases inCache
          exact (AList.lookup_insert_ne different).trans inCache
        · exact ⟨result, .inr inFile⟩

theorem Backed.write (backed : store.Backed) (key : Text) (written : GeocodingResult) :
    (store.writeCacheOnce key written).Backed ∧
      (store.writeCacheOnce key written).Present key ∧
        ∀ other, store.Present other → (store.writeCacheOnce key written).Present other := by
  have kept {cache : Cache} {other : Text} {result : GeocodingResult}
      (found : cache.lookup other = some result) :
      ∃ cached, (cache.insert key written).lookup other = some cached := by
    by_cases same : other = key
    · subst same
      exact ⟨written, AList.lookup_insert _⟩
    · exact ⟨result, (AList.lookup_insert_ne same).trans found⟩
  unfold writeCacheOnce
  split
  · rename_i member
    obtain ⟨cached, isCached⟩ := Option.isSome_iff_exists.mp (AList.lookup_isSome.mpr member)
    exact ⟨backed, ⟨cached, .inl isCached⟩, fun other present => present⟩
  · cases isFile : store.cacheFile with
    | none =>
      refine ⟨fun file isSome => ?_, ⟨written, .inl (AList.lookup_insert _)⟩, ?_⟩
      · cases isSome
      · rintro other ⟨result, inCache | inFile⟩
        · obtain ⟨cached, isCached⟩ := kept inCache
          exact ⟨cached, .inl isCached⟩
        · rw [isFile] at inFile
          cases inFile
    | some diskCache =>
      have present {other : Text} {result : GeocodingResult}
          (found : diskCache.lookup other = some result) : ∃ cached,
            (if key ∈ diskCache then diskCache else diskCache.insert key written).lookup other =
              some cached := by
        split
        · exact ⟨result, found⟩
        · exact kept found
      refine ⟨fun file isSome other result found => ?_, ?_, ?_⟩
      · cases isSome
        exact found
      · dsimp only
        split
        · rename_i member
          obtain ⟨cached, isCached⟩ := Option.isSome_iff_exists.mp
            (AList.lookup_isSome.mpr member)
          exact ⟨cached, .inl isCached⟩
        · exact ⟨written, .inl (AList.lookup_insert _)⟩
      · rintro other ⟨result, inCache | inFile⟩
        · obtain ⟨cached, isCached⟩ := present (backed diskCache isFile other result inCache)
          exact ⟨cached, .inl isCached⟩
        · rw [isFile] at inFile
          obtain ⟨cached, isCached⟩ := present inFile
          exact ⟨cached, .inl isCached⟩

end GeocodingCache

end Geobench.Rewards
