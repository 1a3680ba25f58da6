import Geobench.Rewards.GeocodingCache

/-!
# The geocoding lookup of the GeoScore reward

The reward geocodes the answer of a completion with a remote service. A lookup strips the
address, looks into a cache, asks the service, and reacts to its reply: it waits and asks
again when a usage limit is reached, asks again a few times after a network error or a
timeout, drops the last part of an address without results, and caches what it returns.
All of these ask again through one recursion with one retry count.

The lookup is `callOpencageGeocoding`. One call of it up to its recursive call is
`callStep`, and what it does with a reply is `react`. The service is a function of its own
state and of the query; a stream of replies is one such service and a deterministic
geocoder another. Fuel bounds the recursion, which may wait for ever.

Waiting and printing are left out.
-/

namespace Geobench.Rewards

open Library

/-! ## Replies -/

/-- A place the service found. -/
structure Place where
  lat : ℚ
  lng : ℚ
  confidence : ℤ
  formatted : Text
  components : List (Text × Text)
  deriving DecidableEq

/-- The body of a response. Reading a body may raise: the text is that of the exception,
and an undecodable body raises a request exception. -/
inductive Body where
  | undecodable (error : Text)
  | malformed (error : Text)
  | json (code : ℤ) (message : Text) (results : List Place)
  deriving DecidableEq

/-- What a request comes to: an exception of the request, any other exception, or a
response. The error of a response is the text `raise_for_status` would raise. -/
inductive Reply where
  | requestException (error : Text)
  | otherException (error : Text)
  | http (status : ℕ) (error : Text) (body : Body)
  deriving DecidableEq

/-! ## Queries -/

/-- An optional sign at the beginning of a number. -/
def dropSign : Text → Text
  | '-' :: rest => rest
  | '+' :: rest => rest
  | text => text

/-- A text that matches `[-+]?\d+(?:\.\d+)?` as a whole. -/
def isNumber (unicode : UnicodeData) (text : Text) : Bool :=
  let whole := (dropSign text).takeWhile unicode.isDecimal
  !whole.isEmpty &&
    match (dropSign text).dropWhile unicode.isDecimal with
    | [] => true
    | '.' :: fraction => !fraction.isEmpty && fraction.all unicode.isDecimal
    | _ => false

/-- An empty address or a bare number is not sent to the service. -/
def invalidQuery (unicode : UnicodeData) (address : Text) : Bool :=
  address.isEmpty || isNumber unicode address

/-! ## Error texts -/

def maskApiKey (apiKey : Text) : Text :=
  if apiKey.length ≤ 8 then "***".toList else "***".toList ++ apiKey.drop (apiKey.length - 4)

def isKeyValue (isSpace : Char → Bool) (char : Char) : Bool :=
  !(char = '&' || isSpace char)

/-- Substitute `\1*` for `([?&]key=)[^&\s]+`. The number counts the characters of a
replaced `key=` that are still to be dropped, and `inValue` is set while the value of the
parameter is read. -/
def hideKeyParameter (isSpace : Char → Bool) : ℕ → (inValue : Bool) → Text → Text
  | _, _, [] => []
  | dropped + 1, inValue, _ :: rest => hideKeyParameter isSpace dropped inValue rest
  | 0, inValue, char :: rest =>
    if inValue && isKeyValue isSpace char then
      hideKeyParameter isSpace 0 true rest
    else if (char = '?' || char = '&') && "key=".toList.isPrefixOf rest &&
        (rest.drop 4).head?.any (isKeyValue isSpace) then
      char :: "key=***".toList ++ hideKeyParameter isSpace 4 true rest
    else
      char :: hideKeyParameter isSpace 0 false rest

/-- Hide the API keys in the text of an exception. -/
def sanitizeApiError (unicode : UnicodeData) (apiList : List Text) (error : Text) : Text :=
  let message := apiList.foldl
    (fun message apiKey =>
      if apiKey ≠ [] then replaceFrom apiKey (maskApiKey apiKey) 0 message else message) error
  hideKeyParameter unicode.isSpace 0 false message

/-- What does not change between lookups. -/
structure GeoScoreAccuracy where
  unicode : UnicodeData
  apiList : List Text

/-! ## The reaction to a reply -/

/-- What a lookup does with a reply. -/
inductive Reaction where
  | askAgain
  | shorten (shorterAddress : Text)
  | finish (result : GeocodingResult)
  deriving DecidableEq

def isUsageLimitStatus (code : ℤ) : Bool :=
  code = 402 || code = 429 || code = 503

/-- Ask for the address without its last part, or give up when it has only one part. -/
def shortenOrFail (address : Text) (result : GeocodingResult) : Reaction :=
  match dropLastPart ';' address with
  | some shorterAddress => .shorten shorterAddress
  | none => .finish result

/-- Ask again while there are retries left. -/
def retryOrFail (retryCount : ℕ) (result : GeocodingResult) : Reaction :=
  if retryCount < 5 then .askAgain else .finish result

def reactToStatus (address : Text) (retryCount : ℕ) (code : ℤ) (message : Text)
    (results : List Place) : Reaction :=
  let failure := GeocodingResult.error (some code) message address
  if code = 200 then
    match results with
    | [] => shortenOrFail address failure
    | place :: _ =>
      .finish (.success place.lng place.lat place.confidence place.formatted place.components)
  else if isUsageLimitStatus code then .askAgain
  else if code = 410 then shortenOrFail address failure
  else if code = 408 then retryOrFail retryCount failure
  else .finish failure

def GeoScoreAccuracy.reactToRequestException (reward : GeoScoreAccuracy) (address : Text)
    (retryCount : ℕ) (error : Text) : Reaction :=
  retryOrFail retryCount
    (.error (some 0) (sanitizeApiError reward.unicode reward.apiList error) address)

def GeoScoreAccuracy.react (reward : GeoScoreAccuracy) (address : Text) (retryCount : ℕ) :
    Reply → Reaction
  | .requestException error => reward.reactToRequestException address retryCount error
  | .otherException error => .finish (.error (some 999) error address)
  | .http status error body =>
    if isUsageLimitStatus status then .askAgain
    else if 400 ≤ status ∧ status < 600 then
      reward.reactToRequestException address retryCount error
    else
      match body with
      | .undecodable error => reward.reactToRequestException address retryCount error
      | .malformed error => .finish (.error (some 999) error address)
      | .json code message results => reactToStatus address retryCount code message results

/-! ## The lookup -/

def dailyLimit : ℕ := 100000

/-- The state of the reward and of the service: the cache, the queries counted since the
last pause, and what the service remembers. -/
structure GeocoderState (σ : Type) where
  store : GeocodingCache
  queryCount : ℕ
  service : σ

variable {σ : Type}

def GeocoderState.writeCacheOnce (state : GeocoderState σ) (key : Text)
    (result : GeocodingResult) : GeocoderState σ :=
  { state with store := state.store.writeCacheOnce key result }

/-- What a call of the lookup does up to its recursive call. -/
inductive CallStep (σ : Type) where
  | returns (result : GeocodingResult) (state : GeocoderState σ)
  | caches (result : GeocodingResult) (state : GeocoderState σ)
  | asksAgain (state : GeocoderState σ)
  | shortens (shorterAddress : Text) (state : GeocoderState σ)
  | unanswered

def CallStep.ofReaction (state : GeocoderState σ) : Reaction → CallStep σ
  | .askAgain => .asksAgain state
  | .shorten shorterAddress => .shortens shorterAddress state
  | .finish result => .caches result state

/-- Ask the service, after the queries of this process have been counted. -/
def GeoScoreAccuracy.query (reward : GeoScoreAccuracy)
    (respond : σ → Text → Option (Reply × σ)) (address : Text) (retryCount : ℕ)
    (state : GeocoderState σ) : CallStep σ :=
  let state := { state with queryCount := state.queryCount + 1 }
  if state.queryCount > dailyLimit then
    .asksAgain { state with queryCount := 0 }
  else
    match respond state.service (commaSeparated address) with
    | none => .unanswered
    | some (reply, service) =>
      .ofReaction { state with service := service } (reward.react address retryCount reply)

/-- One call of the lookup for a stripped address. The cache is read on the first try. -/
def GeoScoreAccuracy.callStep (reward : GeoScoreAccuracy)
    (respond : σ → Text → Option (Reply × σ)) (address : Text) (retryCount : ℕ)
    (state : GeocoderState σ) : CallStep σ :=
  if invalidQuery reward.unicode address then
    .returns (.error none "invalid geocoding query".toList address) state
  else if retryCount = 0 then
    match state.store.getCachedGeocoding (cacheKey reward.unicode address) with
    | (some result, store) => .returns result { state with store := store }
    | (none, store) => reward.query respond address retryCount { state with store := store }
  else
    reward.query respond address retryCount state

/-- Look up an address. The result is `none` when the fuel or the replies run out. -/
def GeoScoreAccuracy.callOpencageGeocoding (reward : GeoScoreAccuracy)
    (respond : σ → Text → Option (Reply × σ)) :
    (fuel : ℕ) → Text → (retryCount : ℕ) → GeocoderState σ →
      Option (GeocodingResult × GeocoderState σ)
  | 0, _, _, _ => none
  | fuel + 1, address, retryCount, state =>
    let address := strip reward.unicode.isSpace address
    let key := cacheKey reward.unicode address
    match reward.callStep respond address retryCount state with
    | .returns result state => some (result, state)
    | .caches result state => some (result, state.writeCacheOnce key result)
    | .asksAgain state =>
      reward.callOpencageGeocoding respond fuel address (retryCount + 1) state
    | .shortens shorterAddress state =>
      (reward.callOpencageGeocoding respond fuel shorterAddress retryCount state).map
        fun (result, state) => (result, state.writeCacheOnce key result)
    | .unanswered => none

end Geobench.Rewards
