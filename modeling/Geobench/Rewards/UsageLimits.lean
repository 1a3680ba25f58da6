import Geobench.Rewards.ReplyStreams

/-!
# Usage limits and the retry count

A usage limit is answered by waiting and asking again, and counts as a retry. The same
count bounds the retries of the other failures and tells a first try, which may be
answered from the cache.

`usage_limits_unaffected`: inserted usage limits leave the result and the cache as they are as long
as the two counts, with and without them, are on the same side of the bound at every failure that is
retried, and are both zero or both positive at every cached fallback (`Unaffected`). Where they are
not, some further reply tells the two lookups apart.
-/

namespace Geobench.Rewards

open Library

/-! ## Streams with inserted usage limits -/

abbrev UsageLimit := { reply : Reply // reply.kind = .usageLimit }

/-- A reply of the original stream, or a usage limit that has been inserted. -/
inductive StreamItem where
  | original (reply : Reply)
  | inserted (limit : UsageLimit)

/-- The stream before the insertions. -/
def originals : List StreamItem → List Reply
  | [] => []
  | .original reply :: items => reply :: originals items
  | .inserted _ :: items => originals items

/-- The stream after the insertions. -/
def allReplies : List StreamItem → List Reply
  | [] => []
  | .original reply :: items => reply :: allReplies items
  | .inserted limit :: items => limit.val :: allReplies items

variable (reward : GeoScoreAccuracy)

/-- The inserted usage limits do not matter: at a failure that is retried both lookups have
retries left or neither has, and a cached fallback is a first try of both or of neither.
The counts are those of the lookup without and with the inserted items. -/
def Unaffected : List StreamItem → Text → Counters → Counters → GeocodingCache → Prop
  | [], _, _, _, _ => True
  | .inserted _ :: items, address, counters, delayed, store =>
    Unaffected items address counters delayed.admit.again store
  | .original reply :: items, address, counters, delayed, store =>
    let sent := counters.admit
    let late := delayed.admit
    (reply.kind = .retried → (sent.retryCount < 5 ↔ late.retryCount < 5)) ∧
      match reward.react address sent.retryCount reply with
      | .askAgain => Unaffected items address sent.again late.again store
      | .finish _ => True
      | .shorten shorterAddress =>
        let fallback := strip reward.unicode.isSpace shorterAddress
        let cached := (store.getCachedGeocoding (cacheKey reward.unicode fallback)).1
        invalidQuery reward.unicode fallback = false →
          (cached ≠ none → (sent.retryCount = 0 ↔ late.retryCount = 0)) ∧
          (cached = none ∨ sent.retryCount ≠ 0 →
            Unaffected items fallback sent.shortened late.shortened store)

variable {reward}

/-! ## Unaffected lookups -/

variable {reply : Reply}

theorem react_of_usageLimit (limit : reply.kind = .usageLimit) (address : Text) (retryCount : ℕ) :
    reward.react address retryCount reply = .askAgain := by
  have allowed := reward.react_allowed address retryCount reply
  rw [limit] at allowed
  exact allowed

theorem streamLookup_usageLimit (limit : UsageLimit) (later : List Reply) (address : Text)
    (counters : Counters) (store : GeocodingCache) :
    reward.streamLookup (limit.val :: later) address counters store =
      reward.streamLookup later address counters.admit.again store := by
  rw [GeoScoreAccuracy.streamLookup]
  dsimp only
  rw [react_of_usageLimit limit.property]

variable {retryCount : ℕ}

/-- The reaction depends on the retry count only at a failure that is retried, and there
only on whether retries are left. -/
theorem react_congr (reward : GeoScoreAccuracy) (address : Text) {other : ℕ}
    (same : reply.kind = .retried → (retryCount < 5 ↔ other < 5)) :
    reward.react address retryCount reply = reward.react address other reply := by
  have retryOrFail_congr (result : GeocodingResult) (iff : retryCount < 5 ↔ other < 5) :
      retryOrFail retryCount result = retryOrFail other result := by
    unfold retryOrFail
    by_cases left : retryCount < 5
    · rw [if_pos left, if_pos (iff.mp left)]
    · rw [if_neg left, if_neg (fun leftOther => left (iff.mpr leftOther))]
  cases reply with
  | requestException error => exact retryOrFail_congr _ (same rfl)
  | otherException error => rfl
  | http status error body =>
    unfold Reply.kind at same
    unfold GeoScoreAccuracy.react
    dsimp only at same ⊢
    by_cases limit : isUsageLimitStatus status = true
    · rw [if_pos limit, if_pos limit]
    rw [if_neg limit] at same
    rw [if_neg limit, if_neg limit]
    by_cases failure : 400 ≤ status ∧ status < 600
    · rw [if_pos failure] at same
      rw [if_pos failure, if_pos failure]
      exact retryOrFail_congr _ (same rfl)
    rw [if_neg failure] at same
    rw [if_neg failure, if_neg failure]
    cases body with
    | undecodable error => exact retryOrFail_congr _ (same rfl)
    | malformed error => rfl
    | json code message results =>
      unfold statusKind at same
      dsimp only at same ⊢
      unfold reactToStatus
      dsimp only
      split
      · rfl
      · rename_i notOk
        rw [if_neg notOk] at same
        split
        · rfl
        · rename_i notLimit
          rw [if_neg notLimit] at same
          split
          · rfl
          · rename_i notTooLong
            rw [if_neg notTooLong] at same
            split
            · rename_i timeout
              rw [if_pos timeout] at same
              exact retryOrFail_congr _ (same rfl)
            · rfl

variable {address : Text} {store : GeocodingCache}

section

variable (valid : invalidQuery reward.unicode address = false)
include valid

/-- A valid address that is not cached has to be asked for. -/
theorem answerWithoutQuery_uncached
    (uncached : (store.getCachedGeocoding (cacheKey reward.unicode address)).1 = none)
    (retryCount : ℕ) : reward.answerWithoutQuery address retryCount store = none := by
  unfold GeoScoreAccuracy.answerWithoutQuery
  rw [if_neg (by rw [valid]; decide)]
  split
  · cases read : store.getCachedGeocoding (cacheKey reward.unicode address) with
    | mk found after =>
      rw [read] at uncached
      dsimp only at uncached
      subst uncached
      rfl
  · rfl

/-- A valid address that is not tried for the first time has to be asked for. -/
theorem answerWithoutQuery_retried (retried : retryCount ≠ 0) :
    reward.answerWithoutQuery address retryCount store = none := by
  unfold GeoScoreAccuracy.answerWithoutQuery
  rw [if_neg (by rw [valid]; decide), if_neg retried]

/-- A valid address that is cached is answered on the first try. -/
theorem answerWithoutQuery_cached {cached : GeocodingResult}
    (isCached : (store.getCachedGeocoding (cacheKey reward.unicode address)).1 = some cached) :
    ∃ after, reward.answerWithoutQuery address 0 store = some (cached, after) := by
  unfold GeoScoreAccuracy.answerWithoutQuery
  rw [if_neg (by rw [valid]; decide), if_pos rfl]
  cases read : store.getCachedGeocoding (cacheKey reward.unicode address) with
  | mk found after =>
    rw [read] at isCached
    dsimp only at isCached
    subst isCached
    exact ⟨after, rfl⟩

end

/-- An answer without a query only depends on whether the try is a first one. -/
theorem answerWithoutQuery_congr {other : ℕ} (same : retryCount = 0 ↔ other = 0) :
    reward.answerWithoutQuery address retryCount store =
      reward.answerWithoutQuery address other store := by
  unfold GeoScoreAccuracy.answerWithoutQuery
  by_cases first : retryCount = 0
  · rw [if_pos first, if_pos (same.mp first)]
  · rw [if_neg first, if_neg (fun firstOther => first (same.mpr firstOther))]

variable {counters delayed : Counters}

/-- Inserted usage limits that do not matter change nothing, by induction on the
stream. -/
theorem streamLookup_eq_of_unaffected {items : List StreamItem}
    (unaffected : Unaffected reward items address counters delayed store) :
    reward.streamLookup (originals items) address counters store =
      reward.streamLookup (allReplies items) address delayed store := by
  induction items generalizing address counters delayed store with
  | nil => rfl
  | cons item items ih =>
    cases item with
    | inserted limit =>
      rw [originals, allReplies, streamLookup_usageLimit]
      exact ih unaffected
    | original reply =>
      obtain ⟨sameBudget, afterwards⟩ := unaffected
      have sameReaction := react_congr reward address sameBudget
      rw [originals, allReplies, GeoScoreAccuracy.streamLookup, GeoScoreAccuracy.streamLookup]
      dsimp only at afterwards ⊢
      rw [← sameReaction]
      cases reaction : reward.react address counters.admit.retryCount reply with
      | askAgain =>
        rw [reaction] at afterwards
        exact ih afterwards
      | finish result => rfl
      | shorten shorterAddress =>
        rw [reaction] at afterwards
        dsimp only at afterwards ⊢
        refine congrArg (Option.map _) ?_
        by_cases invalid : invalidQuery reward.unicode
            (strip reward.unicode.isSpace shorterAddress) = true
        · simp only [GeoScoreAccuracy.answerWithoutQuery, if_pos invalid]
        · have valid := Bool.not_eq_true _ ▸ invalid
          obtain ⟨sameTry, rest⟩ := afterwards valid
          by_cases uncached : (store.getCachedGeocoding (cacheKey reward.unicode
              (strip reward.unicode.isSpace shorterAddress))).1 = none
          · rw [answerWithoutQuery_uncached valid uncached,
              answerWithoutQuery_uncached valid uncached]
            exact ih (rest (.inl uncached))
          · rw [← answerWithoutQuery_congr (sameTry uncached)]
            by_cases first : counters.admit.retryCount = 0
            · obtain ⟨cached, isCached⟩ := Option.ne_none_iff_exists'.mp uncached
              obtain ⟨after, answered⟩ := answerWithoutQuery_cached valid isCached
              rw [first, answered]
            · rw [answerWithoutQuery_retried valid first]
              exact ih (rest (.inr first))

/-! ## Affected lookups -/

/-- Two lookups return, and show different things. -/
def Differ (first second : Option (GeocodingResult × GeocodingCache)) : Prop :=
  ∃ outcome other, first = some outcome ∧ second = some other ∧
    outcome.1.observed ≠ other.1.observed

theorem Differ.symm {first second : Option (GeocodingResult × GeocodingCache)}
    (differ : Differ first second) : Differ second first := by
  obtain ⟨outcome, other, isFirst, isSecond, different⟩ := differ
  exact ⟨other, outcome, isSecond, isFirst, different.symm⟩

/-- The result that a fallback writes for its address is its own result. -/
def withWrite (key : Text) (answer : GeocodingResult × GeocodingCache) :
    GeocodingResult × GeocodingCache :=
  (answer.1, answer.2.writeCacheOnce key answer.1)

theorem Differ.withWrite {first second : Option (GeocodingResult × GeocodingCache)}
    (differ : Differ first second) (key : Text) :
    Differ (first.map (withWrite key)) (second.map (withWrite key)) := by
  obtain ⟨outcome, other, rfl, rfl, different⟩ := differ
  exact ⟨_, _, rfl, rfl, different⟩

def foundReply (place : Place) : Reply := .http 200 [] (.json 200 [] [place])

theorem streamLookup_found (reward : GeoScoreAccuracy) (place : Place) (address : Text) (counters : Counters)
    (store : GeocodingCache) :
    ∃ outcome, reward.streamLookup [foundReply place] address counters store = some outcome ∧
      outcome.1.observed = (some (place.lat, place.lng), .success) :=
  ⟨_, rfl, rfl⟩

variable {later : List Reply}

theorem streamLookup_again
    (reaction : reward.react address counters.admit.retryCount reply = .askAgain) :
    reward.streamLookup (reply :: later) address counters store =
      reward.streamLookup later address counters.admit.again store := by
  rw [GeoScoreAccuracy.streamLookup]
  dsimp only
  rw [reaction]

theorem streamLookup_finish {result : GeocodingResult}
    (reaction : reward.react address counters.admit.retryCount reply = .finish result) :
    reward.streamLookup (reply :: later) address counters store =
      some (withWrite (cacheKey reward.unicode address) (result, store)) := by
  rw [GeoScoreAccuracy.streamLookup]
  dsimp only
  rw [reaction]
  rfl

theorem streamLookup_shorten {shorterAddress : Text}
    (reaction : reward.react address counters.admit.retryCount reply = .shorten shorterAddress) :
    reward.streamLookup (reply :: later) address counters store =
      (reward.beginLookup later (strip reward.unicode.isSpace shorterAddress)
        counters.admit.shortened store).map (withWrite (cacheKey reward.unicode address)) := by
  rw [GeoScoreAccuracy.streamLookup]
  dsimp only
  rw [reaction]
  rfl

theorem beginLookup_asks {replies : List Reply}
    (unanswered : reward.answerWithoutQuery address counters.retryCount store = none) :
    reward.beginLookup replies address counters store =
      reward.streamLookup replies address counters store := by
  rw [GeoScoreAccuracy.beginLookup, unanswered]

/-- At a failure that only one of two lookups retries, a place found next tells them apart. -/
theorem differ_at_retry (retried : reply.kind = .retried) (left : counters.admit.retryCount < 5)
    (used : ¬ delayed.admit.retryCount < 5) (place : Place) (store : GeocodingCache) :
    Differ (reward.streamLookup [reply, foundReply place] address counters store)
      (reward.streamLookup [reply, foundReply place] address delayed store) := by
  have allowed := reward.react_allowed address counters.admit.retryCount reply
  have allowedLate := reward.react_allowed address delayed.admit.retryCount reply
  rw [retried] at allowed allowedLate
  obtain ⟨_, -, reaction⟩ := allowed
  obtain ⟨failure, fails, reactionLate⟩ := allowedLate
  rw [retryOrFail, if_pos left] at reaction
  rw [retryOrFail, if_neg used] at reactionLate
  obtain ⟨outcome, found, shows⟩ :=
    streamLookup_found reward place address counters.admit.again store
  refine ⟨outcome, _, (streamLookup_again reaction).trans found,
    streamLookup_finish reactionLate, ?_⟩
  rw [shows, show (withWrite _ (failure, store)).1.observed = failed from fails]
  intro same
  cases congrArg Prod.snd same

/-- At a fallback that only one of two lookups takes from the cache, a place found next
tells them apart. -/
theorem differ_at_fallback {shorterAddress : Text} {cached : GeocodingResult}
    (reaction : reward.react address counters.admit.retryCount reply = .shorten shorterAddress)
    (reactionLate : reward.react address delayed.admit.retryCount reply = .shorten shorterAddress)
    (valid : invalidQuery reward.unicode (strip reward.unicode.isSpace shorterAddress) = false)
    (isCached : (store.getCachedGeocoding (cacheKey reward.unicode
      (strip reward.unicode.isSpace shorterAddress))).1 = some cached)
    (first : counters.admit.retryCount = 0) (later : delayed.admit.retryCount ≠ 0) :
    ∃ place, Differ (reward.streamLookup [reply, foundReply place] address counters store)
      (reward.streamLookup [reply, foundReply place] address delayed store) := by
  obtain ⟨place, different⟩ : ∃ place : Place,
      cached.observed ≠ (some (place.lat, place.lng), .success) := by
    by_cases same : cached.observed = (some (0, 0), .success)
    · refine ⟨⟨1, 0, 10, [], []⟩, ?_⟩
      rw [same]
      intro equal
      simp at equal
    · exact ⟨⟨0, 0, 10, [], []⟩, same⟩
  obtain ⟨after, answered⟩ := answerWithoutQuery_cached valid isCached
  obtain ⟨outcome, found, shows⟩ := streamLookup_found reward place
    (strip reward.unicode.isSpace shorterAddress) delayed.admit.shortened store
  refine ⟨place, ?_⟩
  rw [streamLookup_shorten reaction, streamLookup_shorten reactionLate]
  refine Differ.withWrite ⟨(cached, after), outcome, ?_, ?_, ?_⟩ _
  · rw [GeoScoreAccuracy.beginLookup, show counters.admit.shortened.retryCount = 0 from first,
      answered]
  · have laterFallback : delayed.admit.shortened.retryCount ≠ 0 := later
    rw [beginLookup_asks (answerWithoutQuery_retried valid laterFallback), found]
  · rw [shows]
    exact different

/-- Where inserted usage limits matter, some further replies tell the lookups apart. -/
theorem streamLookup_ne_of_affected {items : List StreamItem}
    (affected : ¬ Unaffected reward items address counters delayed store) :
    ∃ before after further, items = before ++ after ∧
      Differ (reward.streamLookup (originals before ++ further) address counters store)
        (reward.streamLookup (allReplies before ++ further) address delayed store) := by
  induction items generalizing address counters delayed store with
  | nil => exact absurd trivial affected
  | cons item items ih =>
    cases item with
    | inserted limit =>
      obtain ⟨before, after, further, rfl, differ⟩ := ih affected
      refine ⟨.inserted limit :: before, after, further, rfl, ?_⟩
      rw [allReplies, List.cons_append, streamLookup_usageLimit]
      exact differ
    | original reply =>
      by_cases sameBudget : reply.kind = .retried →
          ( counters.admit.retryCount < 5 ↔ delayed.admit.retryCount < 5)
      · have sameReaction := react_congr reward address sameBudget
        have afterwards := fun holds => affected ⟨sameBudget, holds⟩
        cases reaction : reward.react address counters.admit.retryCount reply with
        | askAgain =>
          rw [reaction] at afterwards
          rw [reaction] at sameReaction
          obtain ⟨before, after, further, rfl, differ⟩ := ih afterwards
          refine ⟨.original reply :: before, after, further, rfl, ?_⟩
          rw [originals, allReplies, List.cons_append, List.cons_append,
            streamLookup_again reaction, streamLookup_again sameReaction.symm]
          exact differ
        | finish result =>
          rw [reaction] at afterwards
          exact absurd trivial afterwards
        | shorten shorterAddress =>
          rw [reaction] at afterwards
          rw [reaction] at sameReaction
          dsimp only at afterwards
          obtain ⟨valid, goesWrong⟩ := Classical.not_imp.mp afterwards
          by_cases sameTry : (store.getCachedGeocoding (cacheKey reward.unicode
              (strip reward.unicode.isSpace shorterAddress))).1 ≠ none →
                ( counters.admit.retryCount = 0 ↔ delayed.admit.retryCount = 0)
          · obtain ⟨asks, affectedRest⟩ :=
              Classical.not_imp.mp fun rest => goesWrong ⟨sameTry, rest⟩
            have asked : reward.answerWithoutQuery
                  (strip reward.unicode.isSpace shorterAddress)
                  counters.admit.shortened.retryCount store = none ∧
                reward.answerWithoutQuery (strip reward.unicode.isSpace shorterAddress)
                  delayed.admit.shortened.retryCount store = none := by
              by_cases uncached : (store.getCachedGeocoding (cacheKey reward.unicode
                  (strip reward.unicode.isSpace shorterAddress))).1 = none
              · exact ⟨answerWithoutQuery_uncached valid uncached _,
                  answerWithoutQuery_uncached valid uncached _⟩
              · have retried := asks.resolve_left uncached
                exact ⟨answerWithoutQuery_retried valid retried,
                  answerWithoutQuery_retried valid
                    (fun first => retried ((sameTry uncached).mpr first))⟩
            obtain ⟨before, after, further, rfl, differ⟩ := ih affectedRest
            refine ⟨.original reply :: before, after, further, rfl, ?_⟩
            rw [originals, allReplies, List.cons_append, List.cons_append,
              streamLookup_shorten reaction, streamLookup_shorten sameReaction.symm,
              beginLookup_asks asked.1, beginLookup_asks asked.2]
            exact differ.withWrite _
          · obtain ⟨present, differentTry⟩ := Classical.not_imp.mp sameTry
            obtain ⟨cached, isCached⟩ := Option.ne_none_iff_exists'.mp present
            by_cases first : counters.admit.retryCount = 0
            · have later : delayed.admit.retryCount ≠ 0 := fun firstLate =>
                differentTry (iff_of_true first firstLate)
              obtain ⟨place, differ⟩ := differ_at_fallback reaction sameReaction.symm valid
                isCached first later
              exact ⟨[.original reply], items, [foundReply place], rfl, differ⟩
            · have firstLate : delayed.admit.retryCount = 0 := by
                by_contra later
                exact differentTry (iff_of_false first later)
              obtain ⟨place, differ⟩ := differ_at_fallback sameReaction.symm reaction valid
                isCached firstLate first
              exact ⟨[.original reply], items, [foundReply place], rfl, differ.symm⟩
      · obtain ⟨retried, differentBudget⟩ := Classical.not_imp.mp sameBudget
        refine ⟨[.original reply], items, [foundReply ⟨0, 0, 10, [], []⟩], rfl, ?_⟩
        by_cases left : counters.admit.retryCount < 5
        · exact differ_at_retry retried left
            (fun leftLate => differentBudget (iff_of_true left leftLate)) _ store
        · refine (differ_at_retry retried ?_ left _ store).symm
          by_contra used
          exact differentBudget (iff_of_false left used)

/-! ## Whole lookups -/

/-- The usage limits inserted into the replies of a lookup do not matter: it is answered
without a query, or they matter at none of its queries. -/
def InsertionsUnaffected (reward : GeoScoreAccuracy) (items : List StreamItem) (address : Text)
    (counters : Counters) (store : GeocodingCache) : Prop :=
  reward.answerWithoutQuery (strip reward.unicode.isSpace address) counters.retryCount store =
      none →
    Unaffected reward items (strip reward.unicode.isSpace address) counters counters store

/-- HTTP status 429. -/
def tooManyRequests : UsageLimit := ⟨.http 429 [] (.json 429 [] []), rfl⟩

/-- A network error and then a place, with five usage limits before them. -/
def limitsThenFailure : List StreamItem :=
  List.replicate 5 (.inserted tooManyRequests) ++
    [.original (.requestException "timed out".toList), .original (foundReply ⟨48, 2, 10, [], []⟩)]

/-- The reward without API keys to hide. -/
def plainReward : GeoScoreAccuracy := ⟨asciiUnicode, []⟩

end Geobench.Rewards
