import Geobench.Rewards.ReplyChains
import Mathlib.Data.List.Perm.Basic
import Mathlib.Data.Set.Insert

/-!
# When the geocoding cache is transparent

Two addresses return the same against every deterministic geocoder exactly when their
query chains are equal (`uncached_agree_iff`): a geocoder that only knows one query tells
the chains apart.

The cache keeps one result for each key. The key writes every separator as a comma, and
the lookup drops parts at semicolons only, so that two addresses may have one key and
different chains. Through the cache every lookup returns what the uncached lookup returns
exactly when no two addresses in use are of this kind (`cached_lookup_iff`).
-/

namespace Geobench.Rewards

open Library

variable (reward : GeoScoreAccuracy) (geocoder : Text → Reply)

/-- A state in which nothing has been looked up. -/
def freshState (cacheFile : Option Cache) : GeocoderState Unit := ⟨⟨∅, cacheFile⟩, 0, ()⟩

/-- The lookup of an address returns, and shows this. -/
def Returns (state : GeocoderState Unit) (address : Text) (observed : Observed) : Prop :=
  ∃ fuel result state', reward.callOpencageGeocoding (deterministicService geocoder) fuel
    address 0 state = some (result, state') ∧ result.observed = observed

/-- The states after lookups of addresses from a set. -/
inductive Served (addresses : Set Text) : GeocoderState Unit → Prop where
  | start (cacheFile : Option Cache) :
      cacheFile.getD ∅ = ∅ → Served addresses (freshState cacheFile)
  | lookup {state state' : GeocoderState Unit} {fuel : ℕ} {address : Text}
      {result : GeocodingResult} :
      Served addresses state → address ∈ addresses →
        reward.callOpencageGeocoding (deterministicService geocoder) fuel address 0 state =
          some (result, state') →
        Served addresses state'

variable {reward geocoder}

variable {address : Text} {state : GeocoderState Unit}

/-- A lookup with a faithful cache returns what its chain decides. -/
theorem returns_iff_of_faithful (faithful : Faithful reward geocoder address state)
    (observed : Observed) :
    Returns reward geocoder state address observed ↔
      chainVerdict geocoder (queryChain reward.unicode address) = some observed := by
  constructor
  · rintro ⟨fuel, result, state', found, rfl⟩
    exact (lookup_sound faithful found).1
  · intro decided
    obtain ⟨fuel, returns⟩ := lookup_terminates decided 0 state
    obtain ⟨⟨result, state'⟩, found⟩ := Option.isSome_iff_exists.mp returns
    have same := (lookup_sound faithful found).1
    rw [decided, Option.some.injEq] at same
    exact ⟨fuel, result, state', found, same.symm⟩

theorem not_holds_freshState {cacheFile : Option Cache} (empty : cacheFile.getD ∅ = ∅)
    (key : Text) (result : GeocodingResult) : ¬ (freshState cacheFile).store.Holds key result := by
  rintro (inCache | inFile)
  · cases inCache
  · rw [show (freshState cacheFile).store.cacheFile = cacheFile from rfl, empty] at inFile
    cases inFile

theorem faithful_freshState {cacheFile : Option Cache} (empty : cacheFile.getD ∅ = ∅)
    (address : Text) : Faithful reward geocoder address (freshState cacheFile) :=
  fun _ _ _ _ holds => absurd holds (not_holds_freshState empty _ _)

/-- The uncached lookup returns what its chain decides. -/
theorem returns_fresh_iff (address : Text) (observed : Observed) :
    Returns reward geocoder (freshState none) address observed ↔
      chainVerdict geocoder (queryChain reward.unicode address) = some observed :=
  returns_iff_of_faithful (faithful_freshState rfl address) observed

/-! ## Telling query chains apart -/

def somePlace : Place := ⟨0, 0, 10, [], []⟩

/-- A geocoder that has a place for one query and no results for any other. -/
def knowsOnly (known : Text) (query : Text) : Reply :=
  .http 200 [] (.json 200 [] (if query = known then [somePlace] else []))

theorem chainVerdict_knowsOnly (known : Text) (chain : List Text) :
    chainVerdict (knowsOnly known) chain =
      some (if known ∈ chain then (some (0, 0), .success) else failed) := by
  induction chain with
  | nil => rfl
  | cons query later ih =>
    by_cases same : query = known
    · have kind : (knowsOnly known query).kind = .found 0 0 := by
        rw [knowsOnly, if_pos same]
        rfl
      rw [chainVerdict, kind, if_pos (by simp [same])]
    · have kind : (knowsOnly known query).kind = .shortened := by
        rw [knowsOnly, if_neg same]
        rfl
      rw [chainVerdict, kind]
      dsimp only
      rw [ih]
      have different : known ≠ query := fun equal => same equal.symm
      simp [different]

/-- The geocoder tells chains with its query from chains without it. -/
theorem verdict_eq_iff {known : Text} {chain other : List Text} :
    (if known ∈ chain then ((some (0, 0), .success) : Observed) else failed) =
        (if known ∈ other then (some (0, 0), .success) else failed) ↔
      (known ∈ chain ↔ known ∈ other) := by
  by_cases member : known ∈ chain
  · by_cases memberOther : known ∈ other
    · rw [if_pos member, if_pos memberOther]
      exact iff_of_true rfl (iff_of_true member memberOther)
    · rw [if_pos member, if_neg memberOther]
      exact iff_of_false (by decide) (fun same => memberOther (same.mp member))
  · by_cases memberOther : known ∈ other
    · rw [if_neg member, if_pos memberOther]
      exact iff_of_false (by decide) (fun same => member (same.mpr memberOther))
    · rw [if_neg member, if_neg memberOther]
      exact iff_of_true rfl (iff_of_false member memberOther)

/-- Chains of shorter and shorter queries with the same members are equal. -/
theorem eq_of_same_members {chain other : List Text}
    (shorter : chain.Pairwise fun query later => later.length < query.length)
    (shorterOther : other.Pairwise fun query later => later.length < query.length)
    (same : ∀ query, query ∈ chain ↔ query ∈ other) : chain = other := by
  have nodup {queries : List Text}
      (strict : queries.Pairwise fun query later => later.length < query.length) :
      queries.Nodup := by
    refine strict.imp ?_
    rintro query later less rfl
    exact Nat.lt_irrefl _ less
  have permuted := (List.perm_ext_iff_of_nodup (nodup shorter) (nodup shorterOther)).mpr same
  refine permuted.eq_of_pairwise ?_ shorter shorterOther
  intro query later _ _ less greater
  exact absurd less (Nat.lt_asymm greater)

/-- **Two addresses return the same against every deterministic geocoder exactly when
their query chains are equal.** -/
theorem uncached_agree_iff (reward : GeoScoreAccuracy) (address other : Text) :
    (∀ geocoder observed, Returns reward geocoder (freshState none) address observed ↔
        Returns reward geocoder (freshState none) other observed) ↔
      queryChain reward.unicode address = queryChain reward.unicode other := by
  simp only [returns_fresh_iff]
  constructor
  · intro agree
    refine eq_of_same_members (queryChain_pairwise _ _) (queryChain_pairwise _ _) fun known => ?_
    have verdict := (agree (knowsOnly known) _).mpr (chainVerdict_knowsOnly known _)
    rw [chainVerdict_knowsOnly, Option.some.injEq] at verdict
    exact verdict_eq_iff.mp verdict
  · intro same geocoder observed
    rw [same]

/-! ## Lookups through the cache -/

/-- Addresses with one key have one query chain. -/
def KeysDetermineChains (unicode : UnicodeData) (addresses : Set Text) : Prop :=
  ∀ address ∈ addresses, ∀ other ∈ addresses, Askable unicode address → Askable unicode other →
    lookupKey unicode address = lookupKey unicode other →
      queryChain unicode address = queryChain unicode other

/-- A set of addresses that has the addresses their lookups come to. -/
def ClosedUnderFallback (unicode : UnicodeData) (addresses : Set Text) : Prop :=
  ∀ address ∈ addresses, ∀ fallback, FallbackOf unicode address fallback → fallback ∈ addresses

variable {addresses : Set Text}

/-- A cache whose entries are for addresses of the set is faithful for each of them. -/
theorem faithful_of_cachedFor (closed : ClosedUnderFallback reward.unicode addresses)
    (determine : KeysDetermineChains reward.unicode addresses)
    (cached : ∀ key result, state.store.Holds key result →
      ∃ address ∈ addresses, CachedFor reward geocoder address key result)
    (member : address ∈ addresses) : Faithful reward geocoder address state := by
  intro fallback reached askable result holds
  obtain ⟨other, isMember, isAskable, sameKey, decided⟩ := cached _ _ holds
  rw [determine fallback (closed address member fallback reached) other isMember askable
    isAskable sameKey]
  exact decided

/-- Along every run of lookups the cache holds what the chains of its addresses
decide. -/
theorem Served.cachedFor (closed : ClosedUnderFallback reward.unicode addresses)
    (determine : KeysDetermineChains reward.unicode addresses)
    (served : Served reward geocoder addresses state) :
    ∀ key result, state.store.Holds key result →
      ∃ address ∈ addresses, CachedFor reward geocoder address key result := by
  induction served with
  | start cacheFile empty =>
    intro key result holds
    exact absurd holds (not_holds_freshState empty key result)
  | lookup _ member found ih =>
    intro key result holds
    have faithful := faithful_of_cachedFor closed determine ih member
    rcases (lookup_sound faithful found).2 key result holds with
      earlier | ⟨-, fallback, reached, now⟩
    · exact ih key result earlier
    · exact ⟨fallback, closed _ member fallback reached, now⟩

theorem returns_cached {cached : GeocodingResult} (askable : Askable reward.unicode address)
    (read : (state.store.getCachedGeocoding (lookupKey reward.unicode address)).1 = some cached) :
    Returns reward geocoder state address cached.observed := by
  rcases callStep_cases reward (deterministicService geocoder)
    (strip reward.unicode.isSpace address) 0 state with
    ⟨invalid, -⟩ | ⟨-, -, result, store, isRead, step⟩ | ⟨-, missed, -⟩
  · rw [show invalidQuery _ _ = false from askable] at invalid
    cases invalid
  · rw [lookupKey, isRead, Option.some.injEq] at read
    subst read
    refine ⟨1, result, { state with store := store }, ?_, rfl⟩
    rw [callOpencageGeocoding_succ, step]
  · rw [lookupKey, missed rfl] at read
    cases read

theorem returns_after_lookup {other : Text} {observed : Observed}
    (askable : Askable reward.unicode address) (otherAskable : Askable reward.unicode other)
    (sameKey : lookupKey reward.unicode address = lookupKey reward.unicode other)
    (returned : Returns reward geocoder (freshState none) other observed) :
    ∃ state', Served reward geocoder {other} state' ∧
      Returns reward geocoder state' address observed := by
  obtain ⟨fuel, result, state', found, rfl⟩ := returned
  have served : Served reward geocoder {other} state' :=
    .lookup (.start none rfl) (Set.mem_singleton other) found
  refine ⟨state', served, ?_⟩
  obtain ⟨cached, read⟩ := lookup_caches reward _ otherAskable found
  have held := (state'.store.getCachedGeocoding_holds _).1 cached read
  rcases (lookup_sound (faithful_freshState rfl other) found).2 _ _ held with
    fresh | ⟨rfl, -⟩
  · exact absurd fresh (not_holds_freshState rfl _ _)
  · refine returns_cached askable ?_
    rw [sameKey]
    exact read

theorem Served.mono {more : Set Text} (subset : addresses ⊆ more)
    (served : Served reward geocoder addresses state) : Served reward geocoder more state := by
  induction served with
  | start cacheFile empty => exact .start cacheFile empty
  | lookup _ member found ih => exact .lookup ih (subset member) found

/-- **Through the cache every lookup returns what the uncached lookup returns exactly when
addresses with one key have one query chain**, for the addresses of a set that is closed
under dropping parts. -/
theorem cached_lookup_iff (reward : GeoScoreAccuracy) (addresses : Set Text)
    (closed : ClosedUnderFallback reward.unicode addresses) :
    (∀ geocoder state, Served reward geocoder addresses state → ∀ address ∈ addresses,
        ∀ observed, Returns reward geocoder state address observed ↔
          Returns reward geocoder (freshState none) address observed) ↔
      KeysDetermineChains reward.unicode addresses := by
  constructor
  · intro transparent address member other otherMember askable otherAskable sameKey
    refine eq_of_same_members (queryChain_pairwise _ _) (queryChain_pairwise _ _) fun known => ?_
    have decided := chainVerdict_knowsOnly known (queryChain reward.unicode other)
    obtain ⟨state, served, returns⟩ := returns_after_lookup askable otherAskable sameKey
      ((returns_fresh_iff other _).mpr decided)
    have uncached := (transparent (knowsOnly known) state
      (served.mono (Set.singleton_subset_iff.mpr otherMember)) address member _).mp returns
    rw [returns_fresh_iff, chainVerdict_knowsOnly, Option.some.injEq] at uncached
    exact verdict_eq_iff.mp uncached
  · intro determine geocoder state served address member observed
    have faithful := faithful_of_cachedFor closed determine
      (served.cachedFor closed determine) member
    rw [returns_iff_of_faithful faithful, returns_fresh_iff]

def asciiReward : GeoScoreAccuracy := ⟨asciiUnicode, ["key-1234".toList]⟩

theorem closedUnderFallback_paris :
    ClosedUnderFallback asciiReward.unicode {"Paris".toList} := by
  rintro _ rfl fallback reached
  cases reached with
  | strip => decide
  | shorten dropped _ =>
    have onePart : dropLastPart ';' (strip asciiReward.unicode.isSpace "Paris".toList) = none := by
      decide
    rw [onePart] at dropped
    cases dropped

theorem cached_lookup_paris :
    (∀ geocoder state, Served asciiReward geocoder {"Paris".toList} state →
        ∀ address ∈ ({"Paris".toList} : Set Text), ∀ observed,
          Returns asciiReward geocoder state address observed ↔
            Returns asciiReward geocoder (freshState none) address observed) ↔
      KeysDetermineChains asciiReward.unicode {"Paris".toList} :=
  cached_lookup_iff asciiReward {"Paris".toList} closedUnderFallback_paris

/-- **A comma and a semicolon have one key and different fallbacks**: once the address with
the comma has been looked up, the one with the semicolon fails. -/
theorem semicolon_answered_by_comma :
    cacheKey asciiUnicode "Paris;Nowhere".toList = cacheKey asciiUnicode "Paris,Nowhere".toList ∧
    Returns asciiReward (knowsOnly "Paris".toList) (freshState none) "Paris;Nowhere".toList
      (some (0, 0), .success) ∧
    ∃ state, Served asciiReward (knowsOnly "Paris".toList) {"Paris,Nowhere".toList} state ∧
      Returns asciiReward (knowsOnly "Paris".toList) state "Paris;Nowhere".toList failed ∧
      ¬ Returns asciiReward (knowsOnly "Paris".toList) (freshState none) "Paris;Nowhere".toList
        failed := by
  have sameKey : lookupKey asciiReward.unicode "Paris;Nowhere".toList =
      lookupKey asciiReward.unicode "Paris,Nowhere".toList := by decide
  have uncached : chainVerdict (knowsOnly "Paris".toList)
      (queryChain asciiReward.unicode "Paris;Nowhere".toList) =
        some (some (0, 0), .success) := by decide
  have collides : chainVerdict (knowsOnly "Paris".toList)
      (queryChain asciiReward.unicode "Paris,Nowhere".toList) = some failed := by decide
  obtain ⟨state, served, returns⟩ : ∃ state,
      Served asciiReward (knowsOnly "Paris".toList) {"Paris,Nowhere".toList} state ∧
        Returns asciiReward (knowsOnly "Paris".toList) state "Paris;Nowhere".toList failed :=
    returns_after_lookup (by decide) (by decide) sameKey ((returns_fresh_iff _ _).mpr collides)
  have succeeds : Returns asciiReward (knowsOnly "Paris".toList) (freshState none)
      "Paris;Nowhere".toList (some (0, 0), .success) := (returns_fresh_iff _ _).mpr uncached
  refine ⟨by decide, succeeds, state, served, returns, fun alsoFails => ?_⟩
  have verdict := (returns_fresh_iff _ _).mp alsoFails
  rw [uncached] at verdict
  exact absurd verdict (by decide)

end Geobench.Rewards
