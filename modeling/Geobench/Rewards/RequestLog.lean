import Geobench.Rewards.ReplyChains

/-!
# The requests of a lookup

A deterministic service can keep a list of the queries it was asked. What a lookup returns and
caches does not depend on the list (`lookup_mapService`), nor on fuel that it does not need
(`lookup_mono`).

Without usage limits a lookup sends at most one request for each query of its chain, and five more
(`requests_le`): the retries of all parts come out of one count.
-/

namespace Geobench.Rewards

open Library

/-- A service that always gives a query the same reply, and keeps its queries. -/
def loggedService (geocoder : Text → Reply) : List Text → Text → Option (Reply × List Text) :=
  fun queries query => some (geocoder query, queries ++ [query])

/-! ## Services that give the same replies -/

section Simulation

variable {σ τ : Type}

/-- The same state of the reward with another memory of the service. -/
def GeocoderState.mapService (f : σ → τ) (state : GeocoderState σ) : GeocoderState τ :=
  ⟨state.store, state.queryCount, f state.service⟩

def CallStep.mapService (f : σ → τ) : CallStep σ → CallStep τ
  | .returns result state => .returns result (state.mapService f)
  | .caches result state => .caches result (state.mapService f)
  | .asksAgain state => .asksAgain (state.mapService f)
  | .shortens shorterAddress state => .shortens shorterAddress (state.mapService f)
  | .unanswered => .unanswered

variable {reward : GeoScoreAccuracy} {f : σ → τ} {respond : σ → Text → Option (Reply × σ)}
  {respond' : τ → Text → Option (Reply × τ)}

section

variable
  (same : ∀ service query, respond' (f service) query = (respond service query).map fun answer => (answer.1, f answer.2))
include same

theorem query_mapService (address : Text) (retryCount : ℕ) (state : GeocoderState σ) :
    reward.query respond' address retryCount (state.mapService f) =
      (reward.query respond address retryCount state).mapService f := by
  unfold GeoScoreAccuracy.query
  dsimp only [GeocoderState.mapService]
  rw [same]
  split
  · rfl
  · cases respond state.service (commaSeparated address) with
    | none => rfl
    | some answer =>
      dsimp only [Option.map_some]
      cases reward.react address retryCount answer.1 <;> rfl

theorem callStep_mapService (address : Text) (retryCount : ℕ) (state : GeocoderState σ) :
    reward.callStep respond' address retryCount (state.mapService f) =
      (reward.callStep respond address retryCount state).mapService f := by
  have queried := @query_mapService σ τ reward f respond respond' same address retryCount
  unfold GeoScoreAccuracy.callStep
  split
  · rfl
  · split
    · cases read : state.store.getCachedGeocoding (cacheKey reward.unicode address) with
      | mk found store =>
        have readThere : (state.mapService f).store.getCachedGeocoding
            (cacheKey reward.unicode address) = (found, store) := read
        rw [readThere]
        cases found with
        | some result => rfl
        | none => exact queried { state with store := store }
    · exact queried state

/-- The memory of the service does not matter as long as its replies are the same. -/
theorem lookup_mapService (fuel : ℕ) (address : Text) (retryCount : ℕ) (state : GeocoderState σ) :
    reward.callOpencageGeocoding respond' fuel address retryCount (state.mapService f) =
      (reward.callOpencageGeocoding respond fuel address retryCount state).map fun found =>
        (found.1, found.2.mapService f) := by
  induction fuel generalizing address retryCount state with
  | zero => rfl
  | succ fuel ih =>
    rw [callOpencageGeocoding_succ, callOpencageGeocoding_succ, callStep_mapService same]
    cases reward.callStep respond (strip reward.unicode.isSpace address) retryCount state with
    | returns result next => rfl
    | caches result next => rfl
    | asksAgain next => exact ih _ _ next
    | shortens shorterAddress next =>
      dsimp only [CallStep.mapService]
      rw [ih]
      cases reward.callOpencageGeocoding respond fuel shorterAddress retryCount next <;> rfl
    | unanswered => rfl

end

/-- Fuel that is not needed changes nothing. -/
theorem lookup_succ {fuel : ℕ} {address : Text} {retryCount : ℕ} {state : GeocoderState σ}
    {found : GeocodingResult × GeocoderState σ}
    (isFound : reward.callOpencageGeocoding respond fuel address retryCount state = some found) :
    reward.callOpencageGeocoding respond (fuel + 1) address retryCount state = some found := by
  induction fuel generalizing address retryCount state found with
  | zero => cases isFound
  | succ fuel ih =>
    rw [callOpencageGeocoding_succ] at isFound ⊢
    cases step : reward.callStep respond (strip reward.unicode.isSpace address) retryCount
        state with
    | returns result next =>
      rw [step] at isFound
      exact isFound
    | caches result next =>
      rw [step] at isFound
      exact isFound
    | asksAgain next =>
      rw [step] at isFound
      exact ih isFound
    | shortens shorterAddress next =>
      rw [step] at isFound
      obtain ⟨shorter, isShorter, isResult⟩ := Option.map_eq_some_iff.mp isFound
      dsimp only
      rw [ih isShorter]
      exact congrArg some isResult
    | unanswered =>
      rw [step] at isFound
      cases isFound

theorem lookup_mono {fuel more : ℕ} (enough : fuel ≤ more) {address : Text} {retryCount : ℕ}
    {state : GeocoderState σ} {found : GeocodingResult × GeocoderState σ}
    (isFound : reward.callOpencageGeocoding respond fuel address retryCount state = some found) :
    reward.callOpencageGeocoding respond more address retryCount state = some found := by
  induction enough with
  | refl => exact isFound
  | step _ ih => exact lookup_succ ih

end Simulation

/-! ## Lookups without usage limits -/

variable {reward : GeoScoreAccuracy} {geocoder : Text → Reply}

/-- No query of an address is answered by a usage limit. -/
def NoLimit (reward : GeoScoreAccuracy) (geocoder : Text → Reply) (address : Text) : Prop :=
  ∀ query ∈ queryChain reward.unicode address, (geocoder query).kind ≠ .usageLimit

theorem chainVerdict_of_noLimit {chain : List Text}
    (noLimit : ∀ query ∈ chain, (geocoder query).kind ≠ .usageLimit) :
    ∃ observed, chainVerdict geocoder chain = some observed := by
  induction chain with
  | nil => exact ⟨_, rfl⟩
  | cons query later ih =>
    have first := noLimit query List.mem_cons_self
    have rest := ih fun other isOther => noLimit other (List.mem_cons_of_mem _ isOther)
    rw [chainVerdict]
    cases kind : (geocoder query).kind with
    | usageLimit => exact absurd kind first
    | shortened => exact rest
    | retried => exact ⟨_, rfl⟩
    | found latitude longitude => exact ⟨_, rfl⟩
    | refused => exact ⟨_, rfl⟩

/-- What a lookup returns does not depend on a list of its queries. -/
theorem lookup_logged (fuel : ℕ) (address : Text) (retryCount : ℕ)
    (state : GeocoderState (List Text)) :
    reward.callOpencageGeocoding (deterministicService geocoder) fuel address retryCount
        (state.mapService fun _ => ()) =
      (reward.callOpencageGeocoding (loggedService geocoder) fuel address retryCount state).map
        fun found => (found.1, found.2.mapService fun _ => ()) :=
  lookup_mapService (fun _ _ => rfl) fuel address retryCount state

variable {address : Text}

theorem exists_lookup_logged {observed : Observed}
    (decided : chainVerdict geocoder (queryChain reward.unicode address) = some observed)
    (retryCount : ℕ) (state : GeocoderState (List Text)) :
    ∃ fuel found, reward.callOpencageGeocoding (loggedService geocoder) fuel address retryCount
      state = some found := by
  obtain ⟨fuel, returns⟩ := lookup_terminates decided retryCount (state.mapService fun _ => ())
  rw [lookup_logged, Option.isSome_map] at returns
  exact ⟨fuel, Option.isSome_iff_exists.mp returns⟩

def replyTo (reward : GeoScoreAccuracy) (geocoder : Text → Reply) (address : Text) : Reply :=
  geocoder (commaSeparated (strip reward.unicode.isSpace address))

def GeocoderState.asked (reward : GeoScoreAccuracy) (address : Text)
    (state : GeocoderState (List Text)) : GeocoderState (List Text) :=
  state.answered (state.service ++ [commaSeparated (strip reward.unicode.isSpace address)])

/-- An address that may be sent, and on the first try is not cached. -/
structure Sends (reward : GeoScoreAccuracy) (address : Text) (retryCount : ℕ)
    (store : GeocodingCache) : Prop where
  askable : Askable reward.unicode address
  missed : retryCount = 0 →
    (store.getCachedGeocoding (lookupKey reward.unicode address)).1 = none

/-- What a lookup against a deterministic service comes to, by what its first call does. -/
inductive LookedUp (reward : GeoScoreAccuracy) (geocoder : Text → Reply) :
    Text → ℕ → GeocoderState (List Text) → GeocodingResult → GeocoderState (List Text) → Prop where
  | invalid {address : Text} {retryCount : ℕ} {state : GeocoderState (List Text)}
      {message : Text} (invalid : ¬ Askable reward.unicode address) :
      LookedUp reward geocoder address retryCount state
        (.error none message (strip reward.unicode.isSpace address)) state
  | cached {address : Text} {state : GeocoderState (List Text)} {result : GeocodingResult}
      {store : GeocodingCache} (askable : Askable reward.unicode address)
      (read : state.store.getCachedGeocoding (lookupKey reward.unicode address) =
        (some result, store)) :
      LookedUp reward geocoder address 0 state result { state with store := store }
  | paused {address : Text} {retryCount : ℕ} {state state' : GeocoderState (List Text)}
      {result : GeocodingResult} (sends : Sends reward address retryCount state.store)
      (limit : dailyLimit ≤ state.queryCount)
      (later : LookedUp reward geocoder address (retryCount + 1)
        { state with queryCount := 0 } result state') :
      LookedUp reward geocoder address retryCount state result state'
  | again {address : Text} {retryCount : ℕ} {state state' : GeocoderState (List Text)}
      {result : GeocodingResult} (sends : Sends reward address retryCount state.store)
      (reacts : reward.react (strip reward.unicode.isSpace address) retryCount
        (replyTo reward geocoder address) = .askAgain)
      (later : LookedUp reward geocoder address (retryCount + 1) (state.asked reward address)
        result state') :
      LookedUp reward geocoder address retryCount state result state'
  | finish {address : Text} {retryCount : ℕ} {state : GeocoderState (List Text)}
      {result : GeocodingResult} (sends : Sends reward address retryCount state.store)
      (reacts : reward.react (strip reward.unicode.isSpace address) retryCount
        (replyTo reward geocoder address) = .finish result) :
      LookedUp reward geocoder address retryCount state result
        ((state.asked reward address).writeCacheOnce (lookupKey reward.unicode address) result)
  | shorten {address shorterAddress : Text} {retryCount : ℕ}
      {state state' : GeocoderState (List Text)} {result : GeocodingResult}
      (sends : Sends reward address retryCount state.store)
      (reacts : reward.react (strip reward.unicode.isSpace address) retryCount
        (replyTo reward geocoder address) = .shorten shorterAddress)
      (later : LookedUp reward geocoder shorterAddress retryCount (state.asked reward address)
        result state') :
      LookedUp reward geocoder address retryCount state result
        (state'.writeCacheOnce (lookupKey reward.unicode address) result)

variable {retryCount : ℕ} {result : GeocodingResult}

/-- A lookup that returns has come to its result in one of these ways. -/
theorem lookedUp_of_lookup {fuel : ℕ} {state state' : GeocoderState (List Text)}
    (found : reward.callOpencageGeocoding (loggedService geocoder) fuel address retryCount state =
      some (result, state')) : LookedUp reward geocoder address retryCount state result state' := by
  induction fuel generalizing address retryCount state state' result with
  | zero => cases found
  | succ fuel ih =>
    rw [callOpencageGeocoding_succ] at found
    rcases callStep_cases reward (loggedService geocoder)
      (strip reward.unicode.isSpace address) retryCount state with
      ⟨invalid, message, step⟩ | ⟨askable, rfl, cached, read, isRead, step⟩ |
        ⟨askable, missed, step⟩
    · simp only [step, Option.some.injEq, Prod.mk.injEq] at found
      obtain ⟨rfl, rfl⟩ := found
      refine .invalid fun askable => ?_
      rw [show invalidQuery _ _ = false from askable] at invalid
      cases invalid
    · simp only [step, Option.some.injEq, Prod.mk.injEq] at found
      obtain ⟨rfl, rfl⟩ := found
      exact .cached askable isRead
    · have sends : Sends reward address retryCount state.store := ⟨askable, missed⟩
      rcases query_cases reward (loggedService geocoder)
        (strip reward.unicode.isSpace address) retryCount state with
        ⟨limit, isQuery⟩ | ⟨-, unanswered, -⟩ | ⟨-, reply, service, replied, isQuery⟩
      · simp only [step, isQuery, callOpencageGeocoding_strip] at found
        exact .paused sends limit (ih found)
      · cases unanswered
      · obtain ⟨rfl, rfl⟩ := Prod.mk.inj (Option.some.inj replied)
        cases reacts : reward.react (strip reward.unicode.isSpace address) retryCount
            (geocoder (commaSeparated (strip reward.unicode.isSpace address))) with
        | askAgain =>
          simp only [step, isQuery, reacts, CallStep.ofReaction,
            callOpencageGeocoding_strip] at found
          exact .again sends reacts (ih found)
        | finish final =>
          simp only [step, isQuery, reacts, CallStep.ofReaction, Option.some.injEq,
            Prod.mk.injEq] at found
          obtain ⟨rfl, rfl⟩ := found
          exact .finish sends reacts
        | shorten shorterAddress =>
          simp only [step, isQuery, reacts, CallStep.ofReaction, Option.map_eq_some_iff] at found
          obtain ⟨⟨shorterResult, shorterState⟩, shorterFound, isResult⟩ := found
          obtain ⟨rfl, rfl⟩ := Prod.mk.inj isResult
          exact .shorten sends reacts (ih shorterFound)

@[simp] theorem length_asked (address : Text) (state : GeocoderState (List Text)) :
    (state.asked reward address).service.length = state.service.length + 1 :=
  List.length_append

def ReplyKind.coordinates : ReplyKind → Option (ℚ × ℚ)
  | .found latitude longitude => some (latitude, longitude)
  | _ => none

/-- The reactions: asking again, dropping a part, and an end that shows the place if there is
one. -/
theorem react_cases (reward : GeoScoreAccuracy) (address : Text) (retryCount : ℕ) (reply : Reply) :
    (reward.react address retryCount reply = .askAgain ∧
        (reply.kind = .usageLimit ∨ reply.kind = .retried ∧ retryCount < 5)) ∨
      (∃ shorterAddress, reward.react address retryCount reply = .shorten shorterAddress ∧
        reply.kind = .shortened ∧ dropLastPart ';' address = some shorterAddress) ∨
      ∃ final, reward.react address retryCount reply = .finish final ∧
        final.coordinates = reply.kind.coordinates := by
  have allowed := reward.react_allowed address retryCount reply
  cases kind : reply.kind with
  | usageLimit =>
    rw [kind] at allowed
    exact .inl ⟨allowed, .inl rfl⟩
  | retried =>
    rw [kind] at allowed
    obtain ⟨failure, fails, reacts⟩ := allowed
    by_cases left : retryCount < 5
    · rw [retryOrFail, if_pos left] at reacts
      exact .inl ⟨reacts, .inr ⟨rfl, left⟩⟩
    · rw [retryOrFail, if_neg left] at reacts
      exact .inr (.inr ⟨failure, reacts, congrArg Prod.fst fails⟩)
  | shortened =>
    rw [kind] at allowed
    obtain ⟨failure, fails, reacts⟩ := allowed
    rw [shortenOrFail] at reacts
    cases dropped : dropLastPart ';' address with
    | none =>
      rw [dropped] at reacts
      exact .inr (.inr ⟨failure, reacts, congrArg Prod.fst fails⟩)
    | some shorterAddress =>
      rw [dropped] at reacts
      exact .inr (.inl ⟨shorterAddress, reacts, rfl, rfl⟩)
  | found latitude longitude =>
    rw [kind] at allowed
    obtain ⟨final, shows, reacts⟩ := allowed
    exact .inr (.inr ⟨final, reacts, congrArg Prod.fst shows⟩)
  | refused =>
    rw [kind] at allowed
    obtain ⟨failure, fails, reacts⟩ := allowed
    exact .inr (.inr ⟨failure, reacts, congrArg Prod.fst fails⟩)

variable {reply : Reply}

theorem kind_of_askAgain (reacts : reward.react address retryCount reply = .askAgain) :
    reply.kind = .usageLimit ∨ reply.kind = .retried ∧ retryCount < 5 := by
  rcases react_cases reward address retryCount reply with
    ⟨-, kind⟩ | ⟨shorterAddress, other, -⟩ | ⟨final, other, -⟩
  · exact kind
  · cases reacts.symm.trans other
  · cases reacts.symm.trans other

theorem dropped_of_shorten {shorterAddress : Text}
    (reacts : reward.react address retryCount reply = .shorten shorterAddress) :
    reply.kind = .shortened ∧ dropLastPart ';' address = some shorterAddress := by
  rcases react_cases reward address retryCount reply with
    ⟨other, -⟩ | ⟨shorter, isShorter, kind, dropped⟩ | ⟨final, other, -⟩
  · cases reacts.symm.trans other
  · obtain rfl := Reaction.shorten.inj (reacts.symm.trans isShorter)
    exact ⟨kind, dropped⟩
  · cases reacts.symm.trans other

theorem coordinates_of_finish (reacts : reward.react address retryCount reply = .finish result) :
    result.coordinates = reply.kind.coordinates := by
  rcases react_cases reward address retryCount reply with
    ⟨other, -⟩ | ⟨shorterAddress, other, -⟩ | ⟨final, isFinal, shows⟩
  · cases reacts.symm.trans other
  · cases reacts.symm.trans other
  · obtain rfl := Reaction.finish.inj (reacts.symm.trans isFinal)
    exact shows

theorem queryChain_shorten {shorterAddress : Text} (askable : Askable reward.unicode address)
    (dropped : dropLastPart ';' (strip reward.unicode.isSpace address) = some shorterAddress) :
    queryChain reward.unicode address =
      commaSeparated (strip reward.unicode.isSpace address) ::
        queryChain reward.unicode shorterAddress := by
  rw [queryChain_of_askable askable, dropped]

/-- The requests of a lookup: one for each query of its chain, and the retries that are left. -/
theorem LookedUp.requests_le {state state' : GeocoderState (List Text)}
    (lookedUp : LookedUp reward geocoder address retryCount state result state')
    (noLimit : NoLimit reward geocoder address) :
    state'.service.length ≤ state.service.length +
      ((queryChain reward.unicode address).length + (5 - retryCount)) := by
  induction lookedUp with
  | invalid _ => exact Nat.le_add_right _ _
  | cached _ _ => exact Nat.le_add_right _ _
  | paused _ _ _ ih =>
    have later := ih noLimit
    dsimp only at later
    omega
  | @again address retryCount state state' result sends reacts _ ih =>
    have later := ih noLimit
    rw [length_asked] at later
    have member : commaSeparated (strip reward.unicode.isSpace address) ∈
        queryChain reward.unicode address := by
      rw [queryChain_of_askable sends.askable]
      exact List.mem_cons_self
    obtain ⟨-, left⟩ := (kind_of_askAgain reacts).resolve_left (noLimit _ member)
    omega
  | @finish address retryCount state result sends reacts =>
    have some : 1 ≤ (queryChain reward.unicode address).length := by
      rw [queryChain_of_askable sends.askable, List.length_cons]
      exact Nat.le_add_left _ _
    have once := @length_asked reward address state
    change (state.asked reward address).service.length ≤ _
    omega
  | @shorten address shorterAddress retryCount state state' result sends reacts _ ih =>
    have chain := queryChain_shorten sends.askable (dropped_of_shorten reacts).2
    have later := ih fun query isQuery => noLimit query
      (by rw [chain]; exact List.mem_cons_of_mem _ isQuery)
    rw [length_asked] at later
    rw [chain, List.length_cons]
    change state'.service.length ≤ _
    omega

end Geobench.Rewards
