import Geobench.Rewards.Geocoding

/-!
# Lookups against a deterministic geocoder

Against a service that always gives a query the same reply, what a lookup returns is
decided by the queries it may come to: the one of the address, the one of the address
without its last part, and so on (`queryChain`). The first reply in this chain that is not
an empty one decides (`chainVerdict`).

A lookup whose cache is faithful returns what its chain decides, and caches nothing else
(`lookup_sound`), and it does return when the chain decides something
(`lookup_terminates`).
-/

namespace Geobench.Rewards

open Library

/-! ## Kinds of replies -/

/-- What a reply means for a lookup, whatever the address and the retry count are. -/
inductive ReplyKind where
  | usageLimit
  | retried
  | shortened
  | found (latitude longitude : ℚ)
  | refused
  deriving DecidableEq

def statusKind (code : ℤ) (results : List Place) : ReplyKind :=
  if code = 200 then
    match results with
    | [] => .shortened
    | place :: _ => .found place.lat place.lng
  else if isUsageLimitStatus code then .usageLimit
  else if code = 410 then .shortened
  else if code = 408 then .retried
  else .refused

def Reply.kind : Reply → ReplyKind
  | .requestException _ => .retried
  | .otherException _ => .refused
  | .http status _ body =>
    if isUsageLimitStatus status then .usageLimit
    else if 400 ≤ status ∧ status < 600 then .retried
    else
      match body with
      | .undecodable _ => .retried
      | .malformed _ => .refused
      | .json code _ results => statusKind code results

def GeocodingResult.observed (result : GeocodingResult) : Option (ℚ × ℚ) × GeocodingStatus :=
  (result.coordinates, result.status)

abbrev Observed := Option (ℚ × ℚ) × GeocodingStatus

def failed : Observed := (none, .error)

def ReplyKind.Allows (address : Text) (retryCount : ℕ) (reaction : Reaction) : ReplyKind → Prop
  | .usageLimit => reaction = .askAgain
  | .retried => ∃ failure : GeocodingResult,
      failure.observed = failed ∧ reaction = retryOrFail retryCount failure
  | .shortened => ∃ failure : GeocodingResult,
      failure.observed = failed ∧ reaction = shortenOrFail address failure
  | .found latitude longitude => ∃ result : GeocodingResult,
      result.observed = (some (latitude, longitude), .success) ∧ reaction = .finish result
  | .refused => ∃ failure : GeocodingResult,
      failure.observed = failed ∧ reaction = .finish failure

theorem reactToStatus_allowed (address : Text) (retryCount : ℕ) (code : ℤ) (message : Text)
    (results : List Place) :
    (statusKind code results).Allows address retryCount
      (reactToStatus address retryCount code message results) := by
  unfold statusKind reactToStatus
  dsimp only
  by_cases ok : code = 200
  · rw [if_pos ok, if_pos ok]
    cases results with
    | nil => exact ⟨_, rfl, rfl⟩
    | cons place rest => exact ⟨_, rfl, rfl⟩
  rw [if_neg ok, if_neg ok]
  by_cases limit : isUsageLimitStatus code = true
  · rw [if_pos limit, if_pos limit]
    rfl
  rw [if_neg limit, if_neg limit]
  by_cases tooLong : code = 410
  · rw [if_pos tooLong, if_pos tooLong]
    exact ⟨_, rfl, rfl⟩
  rw [if_neg tooLong, if_neg tooLong]
  by_cases timeout : code = 408
  · rw [if_pos timeout, if_pos timeout]
    exact ⟨_, rfl, rfl⟩
  · rw [if_neg timeout, if_neg timeout]
    exact ⟨_, rfl, rfl⟩

theorem GeoScoreAccuracy.react_allowed (reward : GeoScoreAccuracy) (address : Text)
    (retryCount : ℕ) (reply : Reply) :
    reply.kind.Allows address retryCount (reward.react address retryCount reply) := by
  cases reply with
  | requestException error => exact ⟨_, rfl, rfl⟩
  | otherException error => exact ⟨_, rfl, rfl⟩
  | http status error body =>
    unfold Reply.kind GeoScoreAccuracy.react
    dsimp only
    by_cases limit : isUsageLimitStatus status = true
    · rw [if_pos limit, if_pos limit]
      rfl
    rw [if_neg limit, if_neg limit]
    by_cases failure : 400 ≤ status ∧ status < 600
    · rw [if_pos failure, if_pos failure]
      exact ⟨_, rfl, rfl⟩
    rw [if_neg failure, if_neg failure]
    cases body with
    | undecodable error => exact ⟨_, rfl, rfl⟩
    | malformed error => exact ⟨_, rfl, rfl⟩
    | json code message results => exact reactToStatus_allowed address retryCount _ _ _

/-! ## One call -/

section Call

variable {σ : Type} (reward : GeoScoreAccuracy) (respond : σ → Text → Option (Reply × σ))

/-- The three ways a call begins: an invalid query, a cached result, a query. -/
theorem callStep_cases (address : Text) (retryCount : ℕ) (state : GeocoderState σ) :
    (invalidQuery reward.unicode address = true ∧ ∃ message,
        reward.callStep respond address retryCount state =
          .returns (.error none message address) state) ∨
      (invalidQuery reward.unicode address = false ∧ retryCount = 0 ∧ ∃ result store,
        state.store.getCachedGeocoding (cacheKey reward.unicode address) = (some result, store) ∧
        reward.callStep respond address retryCount state =
          .returns result { state with store := store }) ∨
      (invalidQuery reward.unicode address = false ∧
        (retryCount = 0 →
          (state.store.getCachedGeocoding (cacheKey reward.unicode address)).1 = none) ∧
        reward.callStep respond address retryCount state =
          reward.query respond address retryCount state) := by
  unfold GeoScoreAccuracy.callStep
  by_cases invalid : invalidQuery reward.unicode address = true
  · rw [if_pos invalid]
    exact .inl ⟨invalid, _, rfl⟩
  rw [if_neg invalid]
  rw [Bool.not_eq_true] at invalid
  by_cases first : retryCount = 0
  · rw [if_pos first]
    cases read : state.store.getCachedGeocoding (cacheKey reward.unicode address) with
    | mk found store =>
      cases found with
      | some result => exact .inr (.inl ⟨invalid, first, result, store, rfl, rfl⟩)
      | none =>
        obtain rfl := GeocodingCache.getCachedGeocoding_none read
        exact .inr (.inr ⟨invalid, fun _ => rfl, rfl⟩)
  · rw [if_neg first]
    exact .inr (.inr ⟨invalid, fun isFirst => absurd isFirst first, rfl⟩)

/-- The state after a query that was answered. -/
def GeocoderState.answered (state : GeocoderState σ) (service : σ) : GeocoderState σ :=
  { state with queryCount := state.queryCount + 1, service := service }

/-- The three ways a query goes: the daily limit is reached, there is no reply, or the
reply decides. -/
theorem query_cases (address : Text) (retryCount : ℕ) (state : GeocoderState σ) :
    (dailyLimit ≤ state.queryCount ∧
        reward.query respond address retryCount state =
          .asksAgain { state with queryCount := 0 }) ∨
      (state.queryCount < dailyLimit ∧ respond state.service (commaSeparated address) = none ∧
        reward.query respond address retryCount state = .unanswered) ∨
      (state.queryCount < dailyLimit ∧ ∃ reply service,
        respond state.service (commaSeparated address) = some (reply, service) ∧
        reward.query respond address retryCount state =
          .ofReaction (state.answered service) (reward.react address retryCount reply)) := by
  unfold GeoScoreAccuracy.query
  dsimp only
  by_cases limit : state.queryCount + 1 > dailyLimit
  · rw [if_pos limit]
    exact .inl ⟨Nat.le_of_lt_succ limit, rfl⟩
  rw [if_neg limit]
  cases replied : respond state.service (commaSeparated address) with
  | none => exact .inr (.inl ⟨Nat.lt_of_succ_le (Nat.le_of_not_lt limit), rfl, rfl⟩)
  | some answer => exact .inr (.inr ⟨Nat.lt_of_succ_le (Nat.le_of_not_lt limit), answer.1, answer.2, rfl, rfl⟩)

/-- The lookup with one more unit of fuel, in the steps of its first call. -/
theorem callOpencageGeocoding_succ (fuel : ℕ) (address : Text) (retryCount : ℕ)
    (state : GeocoderState σ) :
    reward.callOpencageGeocoding respond (fuel + 1) address retryCount state =
      match reward.callStep respond (strip reward.unicode.isSpace address) retryCount state with
      | .returns result state => some (result, state)
      | .caches result state => some (result,
          state.writeCacheOnce (cacheKey reward.unicode (strip reward.unicode.isSpace address))
            result)
      | .asksAgain state =>
        reward.callOpencageGeocoding respond fuel (strip reward.unicode.isSpace address)
          (retryCount + 1) state
      | .shortens shorterAddress state =>
        (reward.callOpencageGeocoding respond fuel shorterAddress retryCount state).map
          fun (result, state) => (result,
            state.writeCacheOnce
              (cacheKey reward.unicode (strip reward.unicode.isSpace address)) result)
      | .unanswered => none := rfl

theorem callOpencageGeocoding_strip (fuel : ℕ) (address : Text) (retryCount : ℕ)
    (state : GeocoderState σ) :
    reward.callOpencageGeocoding respond fuel (strip reward.unicode.isSpace address) retryCount
      state = reward.callOpencageGeocoding respond fuel address retryCount state := by
  cases fuel with
  | zero => rfl
  | succ fuel => rw [callOpencageGeocoding_succ, callOpencageGeocoding_succ, strip_strip]

/-- A lookup that was sent to the service leaves an entry under its key. -/
theorem lookup_caches {fuel : ℕ} {address : Text} {retryCount : ℕ}
    {state state' : GeocoderState σ} {result : GeocodingResult}
    (askable : invalidQuery reward.unicode (strip reward.unicode.isSpace address) = false)
    (found : reward.callOpencageGeocoding respond fuel address retryCount state =
      some (result, state')) :
    ∃ cached, (state'.store.getCachedGeocoding
      (cacheKey reward.unicode (strip reward.unicode.isSpace address))).1 = some cached := by
  induction fuel generalizing address retryCount state with
  | zero => cases found
  | succ fuel ih =>
    rw [callOpencageGeocoding_succ] at found
    cases step : reward.callStep respond (strip reward.unicode.isSpace address) retryCount
        state with
    | returns returned next =>
      simp only [step, Option.some.injEq, Prod.mk.injEq] at found
      obtain ⟨rfl, rfl⟩ := found
      rcases callStep_cases reward respond (strip reward.unicode.isSpace address) retryCount
        state with ⟨invalid, -⟩ | ⟨-, -, cached, read, isRead, returns⟩ | ⟨-, -, queries⟩
      · rw [askable] at invalid
        cases invalid
      · rw [step, CallStep.returns.injEq] at returns
        obtain ⟨rfl, rfl⟩ := returns
        exact ⟨_, GeocodingCache.getCachedGeocoding_again isRead⟩
      · rw [step] at queries
        rcases query_cases reward respond (strip reward.unicode.isSpace address) retryCount
          state with ⟨-, other⟩ | ⟨-, -, other⟩ | ⟨-, reply, service, -, other⟩
        · cases queries.trans other
        · cases queries.trans other
        · cases reaction : reward.react (strip reward.unicode.isSpace address) retryCount
            reply <;> rw [reaction] at other <;> cases queries.trans other
    | caches returned next =>
      simp only [step, Option.some.injEq, Prod.mk.injEq] at found
      obtain ⟨rfl, rfl⟩ := found
      exact GeocodingCache.getCachedGeocoding_writeCacheOnce _ _ _
    | asksAgain next =>
      simp only [step] at found
      rw [callOpencageGeocoding_strip] at found
      exact ih askable found
    | shortens shorterAddress next =>
      simp only [step, Option.map_eq_some_iff] at found
      obtain ⟨⟨shorterResult, shorterState⟩, -, isResult⟩ := found
      obtain ⟨rfl, rfl⟩ := Prod.mk.inj isResult
      exact GeocodingCache.getCachedGeocoding_writeCacheOnce _ _ _
    | unanswered => simp [step] at found

end Call

/-! ## The queries of an address -/

/-- The queries a lookup of an address may come to. Each address of the chain is shorter
than the one before, and the number bounds their lengths. -/
def boundedQueryChain (unicode : UnicodeData) : ℕ → Text → List Text
  | 0, _ => []
  | bound + 1, address =>
    let address := strip unicode.isSpace address
    if invalidQuery unicode address then []
    else
      commaSeparated address ::
        match dropLastPart ';' address with
        | none => []
        | some shorterAddress => boundedQueryChain unicode bound shorterAddress

def queryChain (unicode : UnicodeData) (address : Text) : List Text :=
  boundedQueryChain unicode (address.length + 1) address

variable {address : Text}

variable (unicode : UnicodeData)

theorem boundedQueryChain_eq_of_lt {bound bound' : ℕ} (enough : address.length < bound)
    (enough' : address.length < bound') :
    boundedQueryChain unicode bound address = boundedQueryChain unicode bound' address := by
  induction bound generalizing address bound' with
  | zero => exact absurd enough (Nat.not_lt_zero _)
  | succ bound ih =>
    obtain ⟨bound', rfl⟩ : ∃ smaller, bound' = smaller + 1 := ⟨bound' - 1, by omega⟩
    simp only [boundedQueryChain]
    split
    · rfl
    · cases dropped : dropLastPart ';' (strip unicode.isSpace address) with
      | none => rfl
      | some shorterAddress =>
        have shorter := length_lt_of_dropLastPart dropped
        have stripped := length_strip_le unicode.isSpace address
        dsimp only
        exact congrArg _ (ih (by omega) (by omega))

theorem queryChain_eq (address : Text) :
    queryChain unicode address =
      if invalidQuery unicode (strip unicode.isSpace address) then []
      else
        commaSeparated (strip unicode.isSpace address) ::
          match dropLastPart ';' (strip unicode.isSpace address) with
          | none => []
          | some shorterAddress => queryChain unicode shorterAddress := by
  rw [queryChain, boundedQueryChain]
  split
  · rfl
  · cases dropped : dropLastPart ';' (strip unicode.isSpace address) with
    | none => rfl
    | some shorterAddress =>
      have shorter := length_lt_of_dropLastPart dropped
      have stripped := length_strip_le unicode.isSpace address
      dsimp only
      rw [queryChain, boundedQueryChain_eq_of_lt unicode (by omega) (Nat.lt_succ_self _)]

theorem queryChain_strip (address : Text) :
    queryChain unicode (strip unicode.isSpace address) = queryChain unicode address := by
  rw [queryChain_eq, strip_strip, ← queryChain_eq]

theorem length_le_of_mem_queryChain {query : Text} (member : query ∈ queryChain unicode address) :
    query.length ≤ address.length := by
  induction length : address.length using Nat.strongRecOn generalizing address with
  | ind bound ih =>
    have stripped := length_strip_le unicode.isSpace address
    rw [queryChain_eq] at member
    split at member
    · cases member
    · rcases List.mem_cons.mp member with rfl | later
      · rw [length_commaSeparated]
        omega
      · cases dropped : dropLastPart ';' (strip unicode.isSpace address) with
        | none => simp [dropped] at later
        | some shorterAddress =>
          have shorter := length_lt_of_dropLastPart dropped
          rw [dropped] at later
          have := ih _ (by omega) later rfl
          omega

/-- The queries of a chain become shorter and shorter. -/
theorem queryChain_pairwise (address : Text) :
    (queryChain unicode address).Pairwise fun query later => later.length < query.length := by
  induction length : address.length using Nat.strongRecOn generalizing address with
  | ind bound ih =>
    have stripped := length_strip_le unicode.isSpace address
    rw [queryChain_eq]
    split
    · exact .nil
    · cases dropped : dropLastPart ';' (strip unicode.isSpace address) with
      | none => exact List.pairwise_singleton _ _
      | some shorterAddress =>
        have shorter := length_lt_of_dropLastPart dropped
        refine .cons ?_ (ih _ (by omega) _ rfl)
        intro later member
        have := length_le_of_mem_queryChain unicode member
        rw [length_commaSeparated]
        omega

/-- The addresses a lookup may come to, each of them stripped. -/
inductive FallbackOf (unicode : UnicodeData) : Text → Text → Prop where
  | strip (address : Text) : FallbackOf unicode address (strip unicode.isSpace address)
  | shorten {address shorterAddress fallback : Text} :
      dropLastPart ';' (Library.strip unicode.isSpace address) = some shorterAddress →
        FallbackOf unicode shorterAddress fallback → FallbackOf unicode address fallback

/-- Stripping an address does not change the addresses a lookup may come to. -/
theorem fallbackOf_strip {fallback : Text} :
    FallbackOf unicode (strip unicode.isSpace address) fallback ↔
      FallbackOf unicode address fallback := by
  constructor
  · intro reached
    cases reached with
    | strip =>
      rw [strip_strip]
      exact .strip address
    | shorten dropped rest =>
      rw [strip_strip] at dropped
      exact .shorten dropped rest
  · intro reached
    cases reached with
    | strip =>
      have self := @FallbackOf.strip unicode (strip unicode.isSpace address)
      rwa [strip_strip] at self
    | shorten dropped rest =>
      refine .shorten ?_ rest
      rw [strip_strip]
      exact dropped

/-- An address that is sent to the service. -/
def Askable (unicode : UnicodeData) (address : Text) : Prop :=
  invalidQuery unicode (strip unicode.isSpace address) = false

instance (unicode : UnicodeData) (address : Text) : Decidable (Askable unicode address) :=
  inferInstanceAs (Decidable (_ = false))

def lookupKey (unicode : UnicodeData) (address : Text) : Text :=
  cacheKey unicode (strip unicode.isSpace address)

theorem lookupKey_strip (address : Text) :
    lookupKey unicode (strip unicode.isSpace address) = lookupKey unicode address := by
  rw [lookupKey, strip_strip, lookupKey]

theorem askable_strip (address : Text) :
    Askable unicode (strip unicode.isSpace address) ↔ Askable unicode address := by
  rw [Askable, strip_strip, Askable]

/-! ## What a deterministic geocoder decides -/

/-- A service that gives a query always the same reply. -/
def deterministicService (geocoder : Text → Reply) : Unit → Text → Option (Reply × Unit) :=
  fun service query => some (geocoder query, service)

/-- What a chain of queries decides. A usage limit that never ends decides nothing. -/
def chainVerdict (geocoder : Text → Reply) : List Text → Option Observed
  | [] => some failed
  | query :: later =>
    match (geocoder query).kind with
    | .usageLimit => none
    | .retried => some failed
    | .shortened => chainVerdict geocoder later
    | .found latitude longitude => some (some (latitude, longitude), .success)
    | .refused => some failed

/-! ## Lookups -/

section Lookups

variable {reward : GeoScoreAccuracy} {geocoder : Text → Reply}

/-- A result is cached under the key of an address, and is what its chain decides. -/
def CachedFor (reward : GeoScoreAccuracy) (geocoder : Text → Reply) (address key : Text)
    (result : GeocodingResult) : Prop :=
  Askable reward.unicode address ∧ key = lookupKey reward.unicode address ∧
    chainVerdict geocoder (queryChain reward.unicode address) = some result.observed

/-- What is cached for the addresses a lookup may come to is what their chains decide. -/
def Faithful (reward : GeoScoreAccuracy) (geocoder : Text → Reply) (address : Text)
    (state : GeocoderState Unit) : Prop :=
  ∀ fallback, FallbackOf reward.unicode address fallback → Askable reward.unicode fallback →
    ∀ result, state.store.Holds (lookupKey reward.unicode fallback) result →
      chainVerdict geocoder (queryChain reward.unicode fallback) = some result.observed

/-- The entries of a state are those of another one and the result of a lookup, under the
keys of the addresses it came to. -/
def Extends (reward : GeoScoreAccuracy) (geocoder : Text → Reply) (address : Text)
    (result : GeocodingResult) (state state' : GeocoderState Unit) : Prop :=
  ∀ key cached, state'.store.Holds key cached → state.store.Holds key cached ∨
    (cached = result ∧ ∃ fallback, FallbackOf reward.unicode address fallback ∧
      CachedFor reward geocoder fallback key cached)

variable {address : Text}

theorem queryChain_of_askable (askable : Askable reward.unicode address) :
    queryChain reward.unicode address =
      commaSeparated (strip reward.unicode.isSpace address) ::
        match dropLastPart ';' (strip reward.unicode.isSpace address) with
        | none => []
        | some shorterAddress => queryChain reward.unicode shorterAddress := by
  rw [queryChain_eq]
  exact if_neg (by rw [show invalidQuery _ _ = false from askable]; decide)

def replyKind (reward : GeoScoreAccuracy) (geocoder : Text → Reply) (address : Text) : ReplyKind :=
  (geocoder (commaSeparated (strip reward.unicode.isSpace address))).kind

theorem chainVerdict_queryChain (reward : GeoScoreAccuracy) (geocoder : Text → Reply)
    (askable : Askable reward.unicode address) :
    chainVerdict geocoder (queryChain reward.unicode address) =
      match replyKind reward geocoder address with
      | .usageLimit => none
      | .retried => some failed
      | .shortened =>
        match dropLastPart ';' (strip reward.unicode.isSpace address) with
        | none => some failed
        | some shorterAddress =>
          chainVerdict geocoder (queryChain reward.unicode shorterAddress)
      | .found latitude longitude => some (some (latitude, longitude), .success)
      | .refused => some failed := by
  rw [queryChain_of_askable askable, chainVerdict, replyKind]
  cases (geocoder (commaSeparated (strip reward.unicode.isSpace address))).kind with
  | shortened => cases dropLastPart ';' (strip reward.unicode.isSpace address) <;> rfl
  | _ => rfl

theorem Extends.write {state state' : GeocoderState Unit} {result : GeocodingResult}
    (extended : Extends reward geocoder address result state state')
    (askable : Askable reward.unicode address)
    (decided : chainVerdict geocoder (queryChain reward.unicode address) = some result.observed) :
    Extends reward geocoder address result state
      (state'.writeCacheOnce (lookupKey reward.unicode address) result) := by
  intro key cached holds
  rcases state'.store.writeCacheOnce_holds _ _ holds with earlier | ⟨rfl, rfl⟩
  · exact extended key cached earlier
  · refine .inr ⟨rfl, _, .strip address, (askable_strip _ _).mpr askable,
      (lookupKey_strip _ _).symm, ?_⟩
    rw [queryChain_strip]
    exact decided

/-- A lookup whose cache is faithful returns what its chain decides, and caches what the
chains of its addresses decide. -/
theorem lookup_sound {fuel : ℕ} {retryCount : ℕ} {state state' : GeocoderState Unit}
    {result : GeocodingResult} (faithful : Faithful reward geocoder address state)
    (found : reward.callOpencageGeocoding (deterministicService geocoder) fuel address
      retryCount state = some (result, state')) :
    chainVerdict geocoder (queryChain reward.unicode address) = some result.observed ∧
      Extends reward geocoder address result state state' := by
  induction fuel generalizing address retryCount state state' result with
  | zero => cases found
  | succ fuel ih =>
    rw [callOpencageGeocoding_succ] at found
    rcases callStep_cases reward (deterministicService geocoder)
      (strip reward.unicode.isSpace address) retryCount state with
      ⟨invalid, message, step⟩ | ⟨askable, -, cached, read, isRead, step⟩ | ⟨askable, -, step⟩
    · simp only [step, Option.some.injEq, Prod.mk.injEq] at found
      obtain ⟨rfl, rfl⟩ := found
      rw [queryChain_eq, if_pos invalid]
      exact ⟨rfl, fun key cached holds => .inl holds⟩
    · simp only [step, Option.some.injEq, Prod.mk.injEq] at found
      obtain ⟨rfl, rfl⟩ := found
      have reads := state.store.getCachedGeocoding_holds
        (cacheKey reward.unicode (strip reward.unicode.isSpace address))
      rw [isRead] at reads
      have own := faithful _ (.strip address) ((askable_strip _ _).mpr askable) cached (by
        rw [lookupKey_strip]
        exact reads.1 _ rfl)
      rw [queryChain_strip] at own
      exact ⟨own, fun key cached holds => .inl (reads.2 key cached holds)⟩
    · have verdict := chainVerdict_queryChain reward geocoder askable
      -- asking again keeps the address and the entries
      have again {state₁ : GeocoderState Unit}
          (later : reward.callOpencageGeocoding (deterministicService geocoder) fuel
            (strip reward.unicode.isSpace address) (retryCount + 1) state₁ =
              some (result, state')) (same : state₁.store = state.store) :
          chainVerdict geocoder (queryChain reward.unicode address) = some result.observed ∧
            Extends reward geocoder address result state state' := by
        have holdsIff (key : Text) (cached : GeocodingResult) :
            state₁.store.Holds key cached ↔ state.store.Holds key cached := by
          rw [same]
        obtain ⟨decided, extended⟩ := ih (fun fallback reached isAskable cached holds =>
          faithful fallback ((fallbackOf_strip _).mp reached) isAskable cached
            ((holdsIff _ _).mp holds)) later
        rw [queryChain_strip] at decided
        refine ⟨decided, fun key cached holds => ?_⟩
        rcases extended key cached holds with earlier | ⟨rfl, fallback, reached, now⟩
        · exact .inl ((holdsIff _ _).mp earlier)
        · exact .inr ⟨rfl, fallback, (fallbackOf_strip _).mp reached, now⟩
      rcases query_cases reward (deterministicService geocoder)
        (strip reward.unicode.isSpace address) retryCount state with
        ⟨-, isQuery⟩ | ⟨-, unanswered, -⟩ | ⟨-, reply, service, replied, isQuery⟩
      · simp only [step, isQuery] at found
        exact again found rfl
      · cases unanswered
      · obtain ⟨rfl, rfl⟩ := Prod.mk.inj (Option.some.inj replied)
        simp only [step, isQuery] at found
        have allowed := reward.react_allowed (strip reward.unicode.isSpace address) retryCount
          (geocoder (commaSeparated (strip reward.unicode.isSpace address)))
        -- a reply that ends the lookup is cached
        have finishes {final : GeocodingResult}
            (decided : chainVerdict geocoder (queryChain reward.unicode address) =
              some final.observed)
            (reacts : reward.react (strip reward.unicode.isSpace address) retryCount
              (geocoder (commaSeparated (strip reward.unicode.isSpace address))) =
                .finish final) :
            chainVerdict geocoder (queryChain reward.unicode address) = some result.observed ∧
              Extends reward geocoder address result state state' := by
          simp only [reacts, CallStep.ofReaction, Option.some.injEq, Prod.mk.injEq] at found
          obtain ⟨rfl, rfl⟩ := found
          have kept : Extends reward geocoder address final state (state.answered ()) :=
            fun key cached holds => .inl holds
          exact ⟨decided, kept.write askable decided⟩
        unfold replyKind at verdict
        cases kind : (geocoder (commaSeparated (strip reward.unicode.isSpace address))).kind with
        | usageLimit =>
          rw [kind] at allowed
          simp only [show reward.react _ _ _ = _ from allowed, CallStep.ofReaction] at found
          exact again found rfl
        | retried =>
          rw [kind] at allowed verdict
          obtain ⟨failure, fails, reacts⟩ := allowed
          by_cases retries : retryCount < 5
          · rw [retryOrFail, if_pos retries] at reacts
            simp only [reacts, CallStep.ofReaction] at found
            exact again found rfl
          · rw [retryOrFail, if_neg retries] at reacts
            exact finishes (verdict.trans (by rw [fails])) reacts
        | shortened =>
          rw [kind] at allowed verdict
          obtain ⟨failure, fails, reacts⟩ := allowed
          cases dropped : dropLastPart ';' (strip reward.unicode.isSpace address) with
          | none =>
            rw [shortenOrFail, dropped] at reacts
            rw [dropped] at verdict
            exact finishes (verdict.trans (by rw [fails])) reacts
          | some shorterAddress =>
            rw [shortenOrFail, dropped] at reacts
            rw [dropped] at verdict
            simp only [reacts, CallStep.ofReaction, Option.map_eq_some_iff] at found
            obtain ⟨⟨shorterResult, shorterState⟩, shorterFound, isResult⟩ := found
            obtain ⟨rfl, rfl⟩ := Prod.mk.inj isResult
            have faithfulShorter : Faithful reward geocoder shorterAddress
                (state.answered ()) := fun fallback reached isAskable cached holds =>
              faithful fallback (.shorten dropped reached) isAskable cached holds
            obtain ⟨decided, extended⟩ := ih faithfulShorter shorterFound
            have extendedHere : Extends reward geocoder address shorterResult state shorterState := by
              intro key cached holds
              rcases extended key cached holds with earlier | ⟨rfl, fallback, reached, now⟩
              · exact .inl earlier
              · exact .inr ⟨rfl, fallback, .shorten dropped reached, now⟩
            exact ⟨verdict.trans decided,
              extendedHere.write askable (verdict.trans decided)⟩
        | found latitude longitude =>
          rw [kind] at allowed verdict
          obtain ⟨final, shows, reacts⟩ := allowed
          exact finishes (verdict.trans (by rw [shows])) reacts
        | refused =>
          rw [kind] at allowed verdict
          obtain ⟨failure, fails, reacts⟩ := allowed
          exact finishes (verdict.trans (by rw [fails])) reacts

/-- How often a lookup may still ask again for an address: five retries, each of which may
follow a pause for the daily limit. -/
def budget (retryCount queryCount : ℕ) : ℕ :=
  2 * (5 - retryCount) + if queryCount < dailyLimit then 0 else 1

/-- A lookup returns when its chain decides something, from any state. -/
theorem lookup_terminates {observed : Observed}
    (decided : chainVerdict geocoder (queryChain reward.unicode address) = some observed)
    (retryCount : ℕ) (state : GeocoderState Unit) :
    ∃ fuel, (reward.callOpencageGeocoding (deterministicService geocoder) fuel address
      retryCount state).isSome = true := by
  -- outer induction: the length of the address; inner induction: the budget of its retries
  induction length : address.length using Nat.strongRecOn
    generalizing address retryCount state with
  | ind bound shorterLookups =>
    induction remaining : budget retryCount state.queryCount using Nat.strongRecOn
      generalizing address retryCount state with
    | ind _ laterLookups =>
      rcases callStep_cases reward (deterministicService geocoder)
        (strip reward.unicode.isSpace address) retryCount state with
        ⟨_, _, step⟩ | ⟨_, _, _, _, _, step⟩ | ⟨askable, -, step⟩
      · exact ⟨1, by rw [callOpencageGeocoding_succ, step]; rfl⟩
      · exact ⟨1, by rw [callOpencageGeocoding_succ, step]; rfl⟩
      · have verdict := chainVerdict_queryChain reward geocoder askable
        rw [decided] at verdict
        have stripped := length_strip_le reward.unicode.isSpace address
        have again (state₁ : GeocoderState Unit)
            (less : budget (retryCount + 1) state₁.queryCount <
              budget retryCount state.queryCount)
            (asks : reward.callStep (deterministicService geocoder)
              (strip reward.unicode.isSpace address) retryCount state = .asksAgain state₁) :
            ∃ fuel, (reward.callOpencageGeocoding (deterministicService geocoder) fuel
              address retryCount state).isSome = true := by
          obtain ⟨fuel, returns⟩ :=
            laterLookups _ (remaining ▸ less) decided _ state₁ length rfl
          refine ⟨fuel + 1, ?_⟩
          rw [callOpencageGeocoding_succ, asks]
          dsimp only
          rw [callOpencageGeocoding_strip]
          exact returns
        rcases query_cases reward (deterministicService geocoder)
          (strip reward.unicode.isSpace address) retryCount state with
          ⟨limit, isQuery⟩ | ⟨-, unanswered, -⟩ | ⟨below, reply, service, replied, isQuery⟩
        · refine again _ ?_ (step.trans isQuery)
          have reset : (0 : ℕ) < dailyLimit := by decide
          rw [budget, if_pos reset, budget, if_neg (Nat.not_lt_of_le limit)]
          omega
        · cases unanswered
        · obtain ⟨rfl, rfl⟩ := Prod.mk.inj (Option.some.inj replied)
          have allowed := reward.react_allowed (strip reward.unicode.isSpace address) retryCount
            (geocoder (commaSeparated (strip reward.unicode.isSpace address)))
          rw [isQuery] at step
          have finishes {final : GeocodingResult}
              (reacts : reward.react (strip reward.unicode.isSpace address) retryCount
                (geocoder (commaSeparated (strip reward.unicode.isSpace address))) =
                  .finish final) :
              ∃ fuel, (reward.callOpencageGeocoding (deterministicService geocoder) fuel
                address retryCount state).isSome = true := by
            refine ⟨1, ?_⟩
            rw [callOpencageGeocoding_succ, step, reacts]
            rfl
          unfold replyKind at verdict
          cases kind : (geocoder (commaSeparated
              (strip reward.unicode.isSpace address))).kind with
          | usageLimit => simp [kind] at verdict
          | retried =>
            rw [kind] at allowed
            obtain ⟨failure, -, reacts⟩ := allowed
            by_cases retries : retryCount < 5
            · rw [retryOrFail, if_pos retries] at reacts
              refine again (state.answered ()) ?_ (step.trans (by rw [reacts]; rfl))
              rw [budget, budget, if_pos below]
              split <;> omega
            · rw [retryOrFail, if_neg retries] at reacts
              exact finishes reacts
          | shortened =>
            rw [kind] at allowed verdict
            obtain ⟨failure, -, reacts⟩ := allowed
            cases dropped : dropLastPart ';' (strip reward.unicode.isSpace address) with
            | none =>
              rw [shortenOrFail, dropped] at reacts
              exact finishes reacts
            | some shorterAddress =>
              rw [shortenOrFail, dropped] at reacts
              rw [dropped] at verdict
              have shorter := length_lt_of_dropLastPart dropped
              obtain ⟨fuel, returns⟩ := shorterLookups _ (by omega) verdict.symm retryCount
                (state.answered ()) rfl
              refine ⟨fuel + 1, ?_⟩
              rw [callOpencageGeocoding_succ, step, reacts]
              simp only [CallStep.ofReaction, Option.isSome_map]
              exact returns
          | found latitude longitude =>
            rw [kind] at allowed
            obtain ⟨final, -, reacts⟩ := allowed
            exact finishes reacts
          | refused =>
            rw [kind] at allowed
            obtain ⟨failure, -, reacts⟩ := allowed
            exact finishes reacts

end Lookups

end Geobench.Rewards
