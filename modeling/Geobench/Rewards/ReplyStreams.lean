import Geobench.Rewards.ReplyChains

/-!
# Lookups against a stream of replies

A service may give its replies from a stream, whatever the query is. Every query then
takes one reply, and a lookup can be read as a recursion over the stream
(`streamLookup`): the retry count and the query count change with every reply, and a
fallback begins again with an answer from the cache or without one.

This reading gives the results and caches of the lookup itself (`lookupYields_iff`).
-/

namespace Geobench.Rewards

open Library

/-- A service that gives the replies of a stream one after the other. -/
def streamService : List Reply → Text → Option (Reply × List Reply)
  | [], _ => none
  | reply :: later, _ => some (reply, later)

/-- The counts a lookup carries along its queries. -/
structure Counters where
  retryCount : ℕ
  queryCount : ℕ
  deriving DecidableEq

/-- The counts with which the next query is sent: a pause for the daily limit is a retry. -/
def Counters.admit (counters : Counters) : Counters :=
  if counters.queryCount < dailyLimit then counters else ⟨counters.retryCount + 1, 0⟩

/-- The counts with which a lookup asks again after a reply. -/
def Counters.again (counters : Counters) : Counters :=
  ⟨counters.retryCount + 1, counters.queryCount + 1⟩

/-- The counts with which a lookup goes on to a fallback after a reply. -/
def Counters.shortened (counters : Counters) : Counters :=
  ⟨counters.retryCount, counters.queryCount + 1⟩

theorem Counters.admit_admit (counters : Counters) : counters.admit.admit = counters.admit := by
  by_cases below : counters.queryCount < dailyLimit
  · have same : counters.admit = counters := if_pos below
    rw [same, same]
  · have paused : counters.admit = ⟨counters.retryCount + 1, 0⟩ := if_neg below
    rw [paused]
    rfl

/-- What a call returns without a query: an error for an invalid query, or on the first
try what is cached. -/
def GeoScoreAccuracy.answerWithoutQuery (reward : GeoScoreAccuracy) (address : Text) (retryCount : ℕ)
    (store : GeocodingCache) : Option (GeocodingResult × GeocodingCache) :=
  if invalidQuery reward.unicode address then
    some (.error none "invalid geocoding query".toList address, store)
  else if retryCount = 0 then
    match store.getCachedGeocoding (cacheKey reward.unicode address) with
    | (some result, store) => some (result, store)
    | (none, _) => none
  else none

/-- Look up an address that has to be asked for, with the replies of a stream. -/
def GeoScoreAccuracy.streamLookup (reward : GeoScoreAccuracy) :
    List Reply → Text → Counters → GeocodingCache → Option (GeocodingResult × GeocodingCache)
  | [], _, _, _ => none
  | reply :: later, address, counters, store =>
    let sent := counters.admit
    match reward.react address sent.retryCount reply with
    | .askAgain => reward.streamLookup later address sent.again store
    | .finish result =>
      some (result, store.writeCacheOnce (cacheKey reward.unicode address) result)
    | .shorten shorterAddress =>
      let fallback := strip reward.unicode.isSpace shorterAddress
      (match reward.answerWithoutQuery fallback sent.retryCount store with
        | some answer => some answer
        | none => reward.streamLookup later fallback sent.shortened store).map
        fun (answer : GeocodingResult × GeocodingCache) =>
          (answer.1, answer.2.writeCacheOnce (cacheKey reward.unicode address) answer.1)

/-- A call that returns at once, or looks the address up. -/
def GeoScoreAccuracy.beginLookup (reward : GeoScoreAccuracy) (replies : List Reply)
    (address : Text) (counters : Counters) (store : GeocodingCache) : Option (GeocodingResult × GeocodingCache) :=
  match reward.answerWithoutQuery address counters.retryCount store with
  | some answer => some answer
  | none => reward.streamLookup replies address counters store

/-- The lookup of an address with the replies of a stream gives a result and a cache. -/
def LookupYields (reward : GeoScoreAccuracy) (replies : List Reply) (address : Text) (counters : Counters)
    (store : GeocodingCache) (outcome : GeocodingResult × GeocodingCache) : Prop :=
  ∃ fuel state, reward.callOpencageGeocoding streamService fuel address counters.retryCount
    ⟨store, counters.queryCount, replies⟩ = some (outcome.1, state) ∧ state.store = outcome.2

section

variable {reward : GeoScoreAccuracy}

/-- A call answers without a query, or queries. -/
theorem callStep_eq {σ : Type} (respond : σ → Text → Option (Reply × σ)) (address : Text)
    (retryCount : ℕ) (state : GeocoderState σ) :
    reward.callStep respond address retryCount state =
      match reward.answerWithoutQuery address retryCount state.store with
      | some (result, store) => .returns result { state with store := store }
      | none => reward.query respond address retryCount state := by
  unfold GeoScoreAccuracy.callStep GeoScoreAccuracy.answerWithoutQuery
  by_cases invalid : invalidQuery reward.unicode address = true
  · rw [if_pos invalid, if_pos invalid]
  rw [if_neg invalid, if_neg invalid]
  by_cases first : retryCount = 0
  · rw [if_pos first, if_pos first]
    cases read : state.store.getCachedGeocoding (cacheKey reward.unicode address) with
    | mk found store =>
      cases found with
      | some result => rfl
      | none =>
        obtain rfl := GeocodingCache.getCachedGeocoding_none read
        rfl
  · rw [if_neg first, if_neg first]

variable {address : Text} {store : GeocodingCache}

/-- A later try of an address that had to be asked for has no answer either. -/
theorem answerWithoutQuery_later {retryCount : ℕ}
    (unanswered : reward.answerWithoutQuery address retryCount store = none) (later : ℕ)
    (other : GeocodingCache) : reward.answerWithoutQuery address (later + 1) other = none := by
  unfold GeoScoreAccuracy.answerWithoutQuery at unanswered ⊢
  by_cases invalid : invalidQuery reward.unicode address = true
  · rw [if_pos invalid] at unanswered
    cases unanswered
  · rw [if_neg invalid, if_neg (Nat.succ_ne_zero later)]

/-- A pause for the daily limit does not change what the replies lead to. -/
theorem streamLookup_admit (replies : List Reply) (address : Text) (counters : Counters)
    (store : GeocodingCache) :
    reward.streamLookup replies address counters.admit store =
      reward.streamLookup replies address counters store := by
  cases replies with
  | nil => rfl
  | cons reply later =>
    simp only [GeoScoreAccuracy.streamLookup, Counters.admit_admit]

variable {counters : Counters}

/-- What the lookup returns, its recursion over the stream returns. -/
theorem beginLookup_of_call {fuel : ℕ} {replies : List Reply} {result : GeocodingResult}
    {state : GeocoderState (List Reply)}
    (found : reward.callOpencageGeocoding streamService fuel address counters.retryCount
      ⟨store, counters.queryCount, replies⟩ = some (result, state)) :
    reward.beginLookup replies (strip reward.unicode.isSpace address) counters store =
      some (result, state.store) := by
  induction fuel generalizing replies address counters store result state with
  | zero => cases found
  | succ fuel ih =>
    rw [callOpencageGeocoding_succ, callStep_eq] at found
    unfold GeoScoreAccuracy.beginLookup
    cases answer : reward.answerWithoutQuery (strip reward.unicode.isSpace address)
        counters.retryCount store with
    | some answered =>
      simp only [answer, Option.some.injEq, Prod.mk.injEq] at found
      obtain ⟨rfl, rfl⟩ := found
      rfl
    | none =>
      simp only [answer] at found
      have again (next : Counters) (isLater : ∃ earlier, next.retryCount = earlier + 1)
          (replies : List Reply) (later : reward.callOpencageGeocoding streamService fuel
            (strip reward.unicode.isSpace address) next.retryCount
            ⟨store, next.queryCount, replies⟩ = some (result, state)) :
          reward.streamLookup replies (strip reward.unicode.isSpace address) next store =
            some (result, state.store) := by
        obtain ⟨earlier, isNext⟩ := isLater
        have begun := ih later
        rw [strip_strip, GeoScoreAccuracy.beginLookup, isNext,
          answerWithoutQuery_later answer] at begun
        exact begun
      rcases query_cases reward streamService (strip reward.unicode.isSpace address)
        counters.retryCount ⟨store, counters.queryCount, replies⟩ with
        ⟨limit, isQuery⟩ | ⟨-, -, isQuery⟩ | ⟨below, reply, later, replied, isQuery⟩
      · simp only [isQuery] at found
        rw [← streamLookup_admit, Counters.admit, if_neg (Nat.not_lt_of_le limit)]
        exact again ⟨counters.retryCount + 1, 0⟩ ⟨_, rfl⟩ _ found
      · simp [isQuery] at found
      · have isStream : replies = reply :: later := by
          cases replies with
          | nil => cases replied
          | cons head rest =>
            cases replied
            rfl
        subst isStream
        simp only [isQuery, GeocoderState.answered] at found
        have sent : counters.admit = counters := if_pos below
        rw [GeoScoreAccuracy.streamLookup, sent]
        dsimp only
        cases reaction : reward.react (strip reward.unicode.isSpace address)
            counters.retryCount reply with
        | askAgain =>
          simp only [reaction, CallStep.ofReaction] at found
          exact again counters.again ⟨_, rfl⟩ _ found
        | finish final =>
          simp only [reaction, CallStep.ofReaction, Option.some.injEq, Prod.mk.injEq] at found
          obtain ⟨rfl, rfl⟩ := found
          rfl
        | shorten shorterAddress =>
          simp only [reaction, CallStep.ofReaction, Option.map_eq_some_iff] at found
          obtain ⟨⟨shorterResult, shorterState⟩, shorterFound, isResult⟩ := found
          obtain ⟨rfl, rfl⟩ := Prod.mk.inj isResult
          have begun : reward.beginLookup later
              (strip reward.unicode.isSpace shorterAddress) counters.shortened store =
                some (shorterResult, shorterState.store) := ih shorterFound
          unfold GeoScoreAccuracy.beginLookup at begun
          dsimp only [Counters.shortened] at begun ⊢
          rw [begun]
          rfl

/-- The lookup of an address whose counts are below the daily limit queries. -/
theorem callStep_admitted
    (unanswered : reward.answerWithoutQuery address counters.retryCount store = none)
    (below : counters.queryCount < dailyLimit) (reply : Reply) (later : List Reply) :
    reward.callStep streamService address counters.retryCount
        ⟨store, counters.queryCount, reply :: later⟩ =
      .ofReaction ⟨store, counters.queryCount + 1, later⟩
        (reward.react address counters.retryCount reply) := by
  rw [callStep_eq]
  simp only [unanswered]
  rcases query_cases reward streamService address counters.retryCount
    ⟨store, counters.queryCount, reply :: later⟩ with
    ⟨limit, -⟩ | ⟨-, unreplied, -⟩ | ⟨-, other, rest, replied, isQuery⟩
  · exact absurd below (Nat.not_lt_of_le limit)
  · cases unreplied
  · cases replied
    exact isQuery

/-- What the recursion over the stream returns, the lookup returns. -/
theorem call_of_streamLookup {replies : List Reply} {outcome : GeocodingResult × GeocodingCache}
    (stripped : strip reward.unicode.isSpace address = address)
    (unanswered : reward.answerWithoutQuery address counters.retryCount store = none)
    (found : reward.streamLookup replies address counters store = some outcome) :
    LookupYields reward replies address counters store outcome := by
  induction replies generalizing address counters store outcome with
  | nil => cases found
  | cons reply later ih =>
    -- first the query of counts below the daily limit
    have admitted (counters : Counters)
        (unanswered : reward.answerWithoutQuery address counters.retryCount store = none)
        (below : counters.queryCount < dailyLimit)
        (found : reward.streamLookup (reply :: later) address counters store = some outcome) :
        LookupYields reward (reply :: later) address counters store outcome := by
      have sent : counters.admit = counters := if_pos below
      rw [GeoScoreAccuracy.streamLookup, sent] at found
      dsimp only at found
      have step := callStep_admitted unanswered below reply later
      cases reaction : reward.react address counters.retryCount reply with
      | askAgain =>
        simp only [reaction] at found step
        obtain ⟨fuel, state, called, isStore⟩ :=
          ih stripped (answerWithoutQuery_later unanswered _ _) found
        refine ⟨fuel + 1, state, ?_, isStore⟩
        rw [callOpencageGeocoding_succ, stripped, step]
        exact called
      | finish final =>
        simp only [reaction, Option.some.injEq] at found step
        subst found
        refine ⟨1, ⟨store.writeCacheOnce (cacheKey reward.unicode address) final,
          counters.queryCount + 1, later⟩, ?_, rfl⟩
        rw [callOpencageGeocoding_succ, stripped, step]
        rfl
      | shorten shorterAddress =>
        simp only [reaction, Option.map_eq_some_iff] at found step
        obtain ⟨⟨shorterResult, shorterStore⟩, shorterFound, rfl⟩ := found
        have shorterYields : LookupYields reward later shorterAddress counters.shortened store
            (shorterResult, shorterStore) := by
          cases answer : reward.answerWithoutQuery
              (strip reward.unicode.isSpace shorterAddress) counters.retryCount store with
          | some answered =>
            simp only [answer, Option.some.injEq] at shorterFound
            subst shorterFound
            refine ⟨1, ⟨shorterStore, counters.queryCount + 1, later⟩, ?_, rfl⟩
            rw [callOpencageGeocoding_succ, callStep_eq]
            simp only [Counters.shortened, answer]
          | none =>
            simp only [answer] at shorterFound
            have yields : LookupYields reward later
                (strip reward.unicode.isSpace shorterAddress) counters.shortened store
                  (shorterResult, shorterStore) := ih (strip_strip _ _) answer shorterFound
            obtain ⟨fuel, state, called, isStore⟩ := yields
            rw [callOpencageGeocoding_strip] at called
            exact ⟨fuel, state, called, isStore⟩
        obtain ⟨fuel, state, called, rfl⟩ := shorterYields
        refine ⟨fuel + 1, state.writeCacheOnce (cacheKey reward.unicode address) shorterResult,
          ?_, rfl⟩
        rw [callOpencageGeocoding_succ, stripped, step]
        simp only [CallStep.ofReaction]
        dsimp only [Counters.shortened] at called
        rw [called]
        rfl
    by_cases below : counters.queryCount < dailyLimit
    · exact admitted counters unanswered below found
    · -- a pause for the daily limit comes first
      have paused : counters.admit = ⟨counters.retryCount + 1, 0⟩ := if_neg below
      rw [← streamLookup_admit, paused] at found
      obtain ⟨fuel, state, called, isStore⟩ := admitted ⟨counters.retryCount + 1, 0⟩
        (answerWithoutQuery_later unanswered _ _) (show 0 < dailyLimit by decide) found
      refine ⟨fuel + 1, state, ?_, isStore⟩
      rw [callOpencageGeocoding_succ, stripped, callStep_eq]
      simp only [unanswered]
      rcases query_cases reward streamService address counters.retryCount
        ⟨store, counters.queryCount, reply :: later⟩ with
        ⟨-, isQuery⟩ | ⟨admits, -⟩ | ⟨admits, -⟩
      · rw [isQuery]
        exact called
      · exact absurd admits below
      · exact absurd admits below

/-- The lookup and its recursion over the stream agree. -/
theorem lookupYields_iff (replies : List Reply) (address : Text) (counters : Counters)
    (store : GeocodingCache) (outcome : GeocodingResult × GeocodingCache) :
    LookupYields reward replies address counters store outcome ↔
      reward.beginLookup replies (strip reward.unicode.isSpace address) counters store =
        some outcome := by
  constructor
  · rintro ⟨fuel, state, called, isStore⟩
    rw [beginLookup_of_call called, isStore]
  · intro found
    unfold GeoScoreAccuracy.beginLookup at found
    cases answer : reward.answerWithoutQuery (strip reward.unicode.isSpace address)
        counters.retryCount store with
    | some answered =>
      simp only [answer, Option.some.injEq] at found
      subst found
      refine ⟨1, ⟨answered.2, counters.queryCount, replies⟩, ?_, rfl⟩
      rw [callOpencageGeocoding_succ, callStep_eq]
      simp only [answer]
    | none =>
      simp only [answer] at found
      obtain ⟨fuel, state, called, isStore⟩ :=
        call_of_streamLookup (strip_strip _ _) answer found
      rw [callOpencageGeocoding_strip] at called
      exact ⟨fuel, state, called, isStore⟩

end

end Geobench.Rewards
