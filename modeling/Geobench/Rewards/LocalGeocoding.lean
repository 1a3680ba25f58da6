import Geobench.Rewards.Geocoding

/-!
# The geocoding lookup of the evaluation

The evaluation has a copy of the lookup of the reward for machines without the training code. Both
read the decoded body of a response, but not in the same way. The reward looks at the remaining
rate and indexes the fields that it needs, and any exception ends the lookup with an error. The
copy takes missing results as none, so that it goes on with a shorter address.

A well-formed body has a list of results with their geometry, and a number as remaining rate if
there is one. **`localCall_eq`** says that on well-formed replies the two lookups do the same, with
the same result, cache and count of queries.
-/

namespace Geobench.Rewards

open Library

/-! ## Decoded bodies -/

/-- A result of the service as it is decoded. -/
structure RawPlace where
  geometry : Option (Option ℚ × Option ℚ)
  confidence : Option ℤ
  formatted : Option Text
  components : Option (List (Text × Text))

inductive Field (α : Type) where
  | missing
  | null
  | value (content : α)

/-- The remaining rate. Reducing anything but a number raises, with the text of the exception. -/
inductive Remaining where
  | absent
  | number (value : ℤ)
  | other (error : Text)

/-- A decoded body with its status. -/
structure ResponseData where
  code : ℤ
  message : Text
  results : Field (List RawPlace)
  remaining : Remaining

inductive RawBody where
  | undecodable (error : Text)
  | decoded (data : ResponseData)

inductive RawReply where
  | requestException (error : Text)
  | otherException (error : Text)
  | http (status : ℕ) (error : Text) (body : RawBody)

/-! ## What the reward reads -/

/-- The place of a result. The latitude is read first. -/
def RawPlace.read (place : RawPlace) : Except Text Place :=
  match place.geometry with
  | none => .error "'geometry'".toList
  | some (none, _) => .error "'lat'".toList
  | some (some _, none) => .error "'lng'".toList
  | some (some lat, some lng) =>
    .ok ⟨lat, lng, place.confidence.getD 0, place.formatted.getD [], place.components.getD []⟩

/-- What reading a decoded body comes to in the reward. -/
def ResponseData.read (data : ResponseData) : Body :=
  match data.remaining with
  | .other error => .malformed error
  | _ =>
    if data.code = 200 then
      match data.results with
      | .missing => .malformed "'results'".toList
      | .null => .malformed "object of type 'NoneType' has no len()".toList
      | .value [] => .json data.code data.message []
      | .value (first :: _) =>
        match first.read with
        | .error error => .malformed error
        | .ok place => .json data.code data.message [place]
    else .json data.code data.message []

def RawBody.read : RawBody → Body
  | .undecodable error => .undecodable error
  | .decoded data => data.read

def RawReply.read : RawReply → Reply
  | .requestException error => .requestException error
  | .otherException error => .otherException error
  | .http status error body => .http status error body.read

/-! ## The copy -/

/-- What does not change between lookups. -/
structure LocalGeoScoreAccuracy where
  unicode : UnicodeData
  apiList : List Text

/-- The result for a place. The longitude is read first. -/
def RawPlace.localResult (address : Text) (place : RawPlace) : GeocodingResult :=
  match place.geometry with
  | none => .error (some 999) "'geometry'".toList address
  | some (_, none) => .error (some 999) "'lng'".toList address
  | some (none, some _) => .error (some 999) "'lat'".toList address
  | some (some lat, some lng) =>
    .success lng lat (place.confidence.getD 0) (place.formatted.getD [])
      (place.components.getD [])

/-- `data.get("results") or []` -/
def ResponseData.resultsOrNone (data : ResponseData) : List RawPlace :=
  match data.results with
  | .value results => results
  | _ => []

/-- The reaction of the copy to a decoded body. -/
def ResponseData.localReaction (data : ResponseData) (address : Text) (retryCount : ℕ) :
    Reaction :=
  let failure := GeocodingResult.error (some data.code) data.message address
  if data.code = 200 then
    match data.resultsOrNone with
    | [] =>
      match dropLastPart ';' address with
      | some shorterAddress => .shorten shorterAddress
      | none => .finish (.error (some 200) data.message address)
    | first :: _ => .finish (first.localResult address)
  else if isUsageLimitStatus data.code then .askAgain
  else
    match if data.code = 410 then dropLastPart ';' address else none with
    | some shorterAddress => .shorten shorterAddress
    | none => if data.code = 408 ∧ retryCount < 5 then .askAgain else .finish failure

namespace LocalGeoScoreAccuracy

variable (evaluator : LocalGeoScoreAccuracy)

def reactToRequestException (address : Text) (retryCount : ℕ) (error : Text) : Reaction :=
  if retryCount < 5 then .askAgain
  else .finish (.error (some 0) (sanitizeApiError evaluator.unicode evaluator.apiList error) address)

def react (address : Text) (retryCount : ℕ) : RawReply → Reaction
  | .requestException error => evaluator.reactToRequestException address retryCount error
  | .otherException error => .finish (.error (some 999) error address)
  | .http status error body =>
    if isUsageLimitStatus status then .askAgain
    else if 400 ≤ status ∧ status < 600 then
      evaluator.reactToRequestException address retryCount error
    else
      match body with
      | .undecodable error => evaluator.reactToRequestException address retryCount error
      | .decoded data => data.localReaction address retryCount

variable {σ : Type} (respond : σ → Text → Option (RawReply × σ))

/-- Ask the service. -/
def query (address : Text) (retryCount : ℕ) (state : GeocoderState σ) : CallStep σ :=
  let state := { state with queryCount := state.queryCount + 1 }
  if state.queryCount > dailyLimit then .asksAgain { state with queryCount := 0 }
  else
    match respond state.service (commaSeparated address) with
    | none => .unanswered
    | some (reply, service) =>
      .ofReaction { state with service := service } (evaluator.react address retryCount reply)

/-- One call for a stripped address. The cache is read on the first try. -/
def callStep (address : Text) (retryCount : ℕ) (state : GeocoderState σ) : CallStep σ :=
  if invalidQuery evaluator.unicode address then
    .returns (.error none "invalid geocoding query".toList address) state
  else if retryCount = 0 then
    match state.store.getCachedGeocoding (cacheKey evaluator.unicode address) with
    | (some result, store) => .returns result { state with store := store }
    | (none, store) => evaluator.query respond address retryCount { state with store := store }
  else evaluator.query respond address retryCount state

/-- Look up an address. The result is `none` when the fuel or the replies run out. -/
def callOpencageGeocoding :
    (fuel : ℕ) → Text → (retryCount : ℕ) → GeocoderState σ →
      Option (GeocodingResult × GeocoderState σ)
  | 0, _, _, _ => none
  | fuel + 1, address, retryCount, state =>
    let address := strip evaluator.unicode.isSpace address
    let key := cacheKey evaluator.unicode address
    match evaluator.callStep respond address retryCount state with
    | .returns result state => some (result, state)
    | .caches result state => some (result, state.writeCacheOnce key result)
    | .asksAgain state => callOpencageGeocoding fuel address (retryCount + 1) state
    | .shortens shorterAddress state =>
      (callOpencageGeocoding fuel shorterAddress retryCount state).map
        fun (result, state) => (result, state.writeCacheOnce key result)
    | .unanswered => none

end LocalGeoScoreAccuracy

/-! ## Well-formed replies -/

/-- A result has both coordinates. -/
def RawPlace.WellFormed (place : RawPlace) : Prop :=
  ∃ lat lng, place.geometry = some (some lat, some lng)

def Remaining.WellFormed : Remaining → Prop
  | .other _ => False
  | _ => True

/-- A body has a list of results, and nothing but a number as remaining rate. -/
structure ResponseData.WellFormed (data : ResponseData) : Prop where
  results : ∃ results, data.results = .value results ∧ ∀ place ∈ results, place.WellFormed
  remaining : data.remaining.WellFormed

def RawReply.WellFormed : RawReply → Prop
  | .http _ _ (.decoded data) => data.WellFormed
  | _ => True

/-- A reply of a service that keeps to its format. -/
abbrev WellFormedReply := {reply : RawReply // reply.WellFormed}

/-! ## Agreement -/

theorem RawPlace.WellFormed.read_eq {place : RawPlace} (wellFormed : place.WellFormed) :
    ∃ found, place.read = .ok found ∧ ∀ address, place.localResult address =
      .success found.lng found.lat found.confidence found.formatted found.components := by
  obtain ⟨lat, lng, geometry⟩ := wellFormed
  refine ⟨_, by rw [RawPlace.read, geometry], fun address => ?_⟩
  rw [RawPlace.localResult, geometry]

/-- The order in which the copy tests the codes 410 and 408 does not matter. -/
theorem localReaction_of_code {data : ResponseData} {address : Text} {retryCount : ℕ}
    {results : List Place} (code : data.code ≠ 200) :
    data.localReaction address retryCount =
      reactToStatus address retryCount data.code data.message results := by
  simp only [ResponseData.localReaction, reactToStatus, if_neg code, shortenOrFail, retryOrFail]
  by_cases limit : isUsageLimitStatus data.code
  · rw [if_pos limit, if_pos limit]
  · rw [if_neg limit, if_neg limit]
    by_cases tooLong : data.code = 410
    · rw [if_pos tooLong, if_pos tooLong, tooLong]
      cases dropLastPart ';' address <;> rfl
    · rw [if_neg tooLong, if_neg tooLong]
      by_cases timeout : data.code = 408 <;> simp [timeout]

/-- The reactions to a well-formed body are those to what the reward reads of it. -/
theorem ResponseData.WellFormed.read_eq {data : ResponseData} (wellFormed : data.WellFormed) :
    ∃ results, data.read = .json data.code data.message results ∧
      ∀ address retryCount, data.localReaction address retryCount =
        reactToStatus address retryCount data.code data.message results := by
  obtain ⟨places, isPlaces, complete⟩ := wellFormed.results
  have number : ∀ error, data.remaining ≠ .other error := by
    intro error isOther
    have remaining := wellFormed.remaining
    rw [isOther] at remaining
    exact remaining
  by_cases code : data.code = 200
  · cases places with
    | nil =>
      refine ⟨[], ?_, fun address retryCount => ?_⟩
      · rw [ResponseData.read, isPlaces]
        split
        next error isOther => exact absurd isOther (number error)
        next => rw [if_pos code]
      · simp only [ResponseData.localReaction, reactToStatus, resultsOrNone, isPlaces, code,
          if_true]
        rfl
    | cons first others =>
      obtain ⟨found, read, result⟩ := (complete first List.mem_cons_self).read_eq
      refine ⟨[found], ?_, fun address retryCount => ?_⟩
      · rw [ResponseData.read, isPlaces]
        split
        next error isOther => exact absurd isOther (number error)
        next => simp only [if_pos code, read]
      · simp only [ResponseData.localReaction, reactToStatus, resultsOrNone, isPlaces, code,
          if_true, result]
  · refine ⟨[], ?_, fun address retryCount => localReaction_of_code code⟩
    rw [ResponseData.read]
    split
    next error isOther => exact absurd isOther (number error)
    next => rw [if_neg code]

variable (unicode : UnicodeData) (apiList : List Text)

theorem local_react_eq (address : Text) (retryCount : ℕ) (reply : WellFormedReply) :
    LocalGeoScoreAccuracy.react ⟨unicode, apiList⟩ address retryCount reply.val =
      GeoScoreAccuracy.react ⟨unicode, apiList⟩ address retryCount reply.val.read := by
  obtain ⟨reply, wellFormed⟩ := reply
  cases reply with
  | requestException error => rfl
  | otherException error => rfl
  | http status error body =>
    cases body with
    | undecodable reason => rfl
    | decoded data =>
      obtain ⟨results, read, reaction⟩ := ResponseData.WellFormed.read_eq wellFormed
      simp only [LocalGeoScoreAccuracy.react, GeoScoreAccuracy.react, RawReply.read, RawBody.read,
        read, reaction]
      rfl

variable {σ : Type} (respond : σ → Text → Option (WellFormedReply × σ))

/-- What the copy gets from the service. -/
def rawReplies (service : σ) (query : Text) : Option (RawReply × σ) :=
  (respond service query).map fun (reply, service) => (reply.val, service)

def readReplies (service : σ) (query : Text) : Option (Reply × σ) :=
  (respond service query).map fun (reply, service) => (reply.val.read, service)

theorem local_query_eq (address : Text) (retryCount : ℕ) (state : GeocoderState σ) :
    LocalGeoScoreAccuracy.query ⟨unicode, apiList⟩ (rawReplies respond) address retryCount state =
      GeoScoreAccuracy.query ⟨unicode, apiList⟩ (readReplies respond) address retryCount state := by
  simp only [LocalGeoScoreAccuracy.query, GeoScoreAccuracy.query, rawReplies, readReplies]
  split
  · rfl
  · cases respond state.service (commaSeparated address) with
    | none => rfl
    | some answer => exact congrArg (CallStep.ofReaction _) (local_react_eq _ _ _ _ answer.1)

theorem local_callStep_eq (address : Text) (retryCount : ℕ) (state : GeocoderState σ) :
    LocalGeoScoreAccuracy.callStep ⟨unicode, apiList⟩ (rawReplies respond) address retryCount
        state =
      GeoScoreAccuracy.callStep ⟨unicode, apiList⟩ (readReplies respond) address retryCount
        state := by
  simp only [LocalGeoScoreAccuracy.callStep, local_query_eq]
  rfl

end Geobench.Rewards
