import Geobench.Rewards.GeoFormat
import Geobench.Rewards.TruthCoordinates

/-!
# Rows with their results

`enrichRows` locates the answer of each row and stores a result in the row. A row leaves in one of
six ways, which differ in the status and the reason of the result, and one of four counters counts
it.

The numbers of a row go through `safe_float`, which lets the overflow of a large integer through,
and other calls may raise as well. **`enrichRows_eq_some`**: all rows get their result exactly
where no row raises, and the counters are those of the statuses.
-/

namespace Geobench.Evaluation

open Library Rewards

variable {σ : Type}

/-! ## Rows -/

inductive Status where
  | inferenceFailed
  | failed
  | success
  deriving DecidableEq, Repr

/-- The number that stands for a status. -/
def Status.code : Status → ℤ
  | .inferenceFailed => -1
  | .failed => 0
  | .success => 1

inductive Reason where
  | finalAnswerParseFailed
  | geocodeFailed
  | invalidPredCoordinates
  | missingTruthCoordinates
  deriving DecidableEq, Repr

def Reason.text : Reason → Text
  | .finalAnswerParseFailed => "final_answer_parse_failed".toList
  | .geocodeFailed => "geocode_failed".toList
  | .invalidPredCoordinates => "invalid_pred_coordinates".toList
  | .missingTruthCoordinates => "missing_truth_coordinates".toList

/-- What is stored in a row. Keys that a result lacks are `none`. -/
structure Result where
  status : Status
  finalAnswer : Option CodePoints
  reason : Option Reason
  geocodeResult : Option JsonValue
  predLatitude : Option PyFloat
  predLongitude : Option PyFloat
  distance : Option ℚ
  geoscore : Option ℚ
  trainingRewardGeoscore : Option ℚ

/-- `{"status": status}` -/
def Result.bare (status : Status) : Result :=
  ⟨status, none, none, none, none, none, none, none, none⟩

/-- A row, and what is stored under its result field. -/
structure EvalRow where
  fields : DataRow
  result : Option Result

/-- What a row has under a key. -/
inductive RowValue where
  | json (value : JsonValue)
  | result (result : Result)

def EvalRow.get (row : EvalRow) (resultField key : CodePoints) : RowValue :=
  match row.result with
  | some result => if key = resultField then .result result else .json (rowGet row.fields key)
  | none => .json (rowGet row.fields key)

/-! ## The geocoder -/

/-- What the evaluation calls. `none` stands for an exception. The address is looked up in a state
that has the cache. -/
structure Setup (σ : Type) where
  python : Conversions
  str : RowValue → CodePoints
  lower : CodePoints → CodePoints
  extractAnswer : JsonValue → Option (Option CodePoints)
  callOpencageGeocoding : σ → CodePoints → Option (JsonValue × σ)
  calculateDistance : PyFloat → PyFloat → PyFloat → PyFloat → Option ℚ
  calculateGeoscore : ℚ → ℚ
  reportGeoscore : ℚ → ℚ

variable (setup : Setup σ)

def latitudeKey : CodePoints := codes "latitude".toList
def longitudeKey : CodePoints := codes "longitude".toList
def statusKey : CodePoints := codes "status".toList
def addressKey : CodePoints := codes "address".toList
def messageKey : CodePoints := codes "message".toList

def textValue (text : Text) : JsonValue := .string (codes text)

/-- `geo_result.get(key)`, which is only asked of a dictionary. -/
def memberOf (key : CodePoints) : JsonValue → JsonValue
  | .object members => (getMember members key).getD .null
  | _ => .null

/-- `safe_float(value)`, or nothing where it raises. -/
def safeFloatOf (value : JsonValue) : Option (Option PyFloat) :=
  (safeFloat setup.python value).toOption

def splitAddressParts (finalAnswer : CodePoints) : List CodePoints :=
  answerParts (strip isBlankCode finalAnswer)

/-- All parts, and then fewer and fewer of them, without the last ones. -/
def buildGeocodeCandidates (finalAnswer : CodePoints) : List CodePoints :=
  let parts := splitAddressParts finalAnswer
  (List.range parts.length).foldl (fun candidates dropped =>
    let candidate := strip isBlankCode
      ((codes "; ".toList).intercalate (parts.take (parts.length - dropped)))
    if candidate ≠ [] ∧ candidate ∉ candidates then candidates ++ [candidate] else candidates) []

def attemptRecord (candidate : CodePoints) :
    JsonValue → List (CodePoints × JsonValue)
  | .object members =>
    if addressKey ∈ members.map Prod.fst then members
    else members ++ [(addressKey, .string candidate)]
  | _ =>
    [(statusKey, textValue "error".toList),
      (messageKey, textValue "invalid geocode result".toList),
      (addressKey, .string candidate)]

def resolvedKey : CodePoints := codes "resolved_from".toList
def originalKey : CodePoints := codes "original_final_answer".toList
def attemptsKey : CodePoints := codes "fallback_attempts".toList

def attemptsValue (attempts : List (List (CodePoints × JsonValue))) : JsonValue :=
  .array (attempts.map .object)

/-- The result of a broader address than the answer. -/
def resolvedFrom (candidate finalAnswer : CodePoints)
    (attempts : List (List (CodePoints × JsonValue))) : JsonValue → JsonValue
  | .object members =>
    let members := setMember members resolvedKey (.string candidate)
    let members := setMember members originalKey (.string finalAnswer)
    .object (setMember members attemptsKey (attemptsValue attempts))
  | value => value

def lastAttempt (finalAnswer : CodePoints) (attempts : List (List (CodePoints × JsonValue))) :
    JsonValue :=
  let members := setMember (attempts.getLast?.getD []) originalKey (.string finalAnswer)
  .object (setMember members attemptsKey (attemptsValue attempts))

/-- Look the candidates up until one has coordinates. -/
def tryCandidates (finalAnswer : CodePoints) (attempts : List (List (CodePoints × JsonValue)))
    (state : σ) : List CodePoints → Option (JsonValue × σ)
  | [] => some (lastAttempt finalAnswer attempts, state)
  | candidate :: rest => do
      let (geoResult, state) ← setup.callOpencageGeocoding state candidate
      let lat ← safeFloatOf setup (memberOf latitudeKey geoResult)
      let lng ← safeFloatOf setup (memberOf longitudeKey geoResult)
      let attempts := attempts ++ [attemptRecord candidate geoResult]
      if lat.isSome ∧ lng.isSome then
        if candidate ≠ finalAnswer then
          some (resolvedFrom candidate finalAnswer attempts geoResult, state)
        else some (geoResult, state)
      else tryCandidates finalAnswer attempts state rest

def geocode (state : σ) (finalAnswer : CodePoints) : Option (JsonValue × σ) :=
  match buildGeocodeCandidates finalAnswer with
  | [] =>
    some (.object [(statusKey, textValue "error".toList),
      (messageKey, textValue "invalid geocoding query".toList),
      (addressKey, .string finalAnswer)], state)
  | candidates => tryCandidates setup finalAnswer [] state candidates

/-- Whether a result of the geocoder is a dictionary with the status `success`. -/
def isSuccess : JsonValue → Bool
  | .object members =>
    match getMember members statusKey with
    | some (.string status) => status = codes "success".toList
    | _ => false
  | _ => false

/-! ## One row -/

def trueWords : List CodePoints := ["true", "1", "yes", "y"].map fun word => codes word.toList

def falseWords : List CodePoints := ["false", "0", "no", "n", ""].map fun word => codes word.toList

def toBool (value : JsonValue) : Bool :=
  match value with
  | .string text =>
    let normalized := setup.lower (strip isBlankCode text)
    if normalized ∈ trueWords then true
    else if normalized ∈ falseWords then false
    else truthy setup.python value
  | value => truthy setup.python value

/-- The fields that `enrich_rows` reads. -/
structure FieldNames where
  answerField : CodePoints
  successField : CodePoints
  latitudeField : CodePoints
  longitudeField : CodePoints

inductive Counter where
  | geocodeSuccess
  | geocodeFailed
  | parseFailed
  | inferenceFailed
  deriving DecidableEq, Repr

variable (names : FieldNames)

/-- Whether a row goes past the check of its inference. -/
def inferred (row : DataRow) : Bool :=
  !(!names.successField.isEmpty && !toBool setup (rowGet row names.successField))

/-- The result of a row whose address is found, with the counter that counts it. -/
def locate (row : DataRow) (finalAnswer : CodePoints) (geoResult : JsonValue) :
    Option (Result × Counter) := do
  let predLatitude ← safeFloatOf setup (memberOf latitudeKey geoResult)
  let predLongitude ← safeFloatOf setup (memberOf longitudeKey geoResult)
  let result : Result := { Result.bare .success with
    finalAnswer := some finalAnswer
    predLatitude := predLatitude
    predLongitude := predLongitude
    geocodeResult := some geoResult }
  let truth ←
    (getTruthCoordinates setup.python row names.latitudeField names.longitudeField).toOption
  match predLatitude, predLongitude, truth with
  | some predLatitude, some predLongitude, some (latitude, longitude) =>
    let distance ← setup.calculateDistance predLatitude predLongitude latitude longitude
    some ({ result with
      distance := some distance
      geoscore := some (setup.reportGeoscore distance)
      trainingRewardGeoscore := some (setup.calculateGeoscore distance) }, .geocodeSuccess)
  | some _, some _, none =>
    some ({ result with
      status := .failed
      reason := some .missingTruthCoordinates }, .geocodeFailed)
  | _, _, _ =>
    some ({ result with
      status := .failed
      reason := some .invalidPredCoordinates }, .geocodeFailed)

/-- The result of one row, the counter that counts it, and the state after it. -/
def enrichRow (state : σ) (row : DataRow) : Option (Result × Counter × σ) := do
  if inferred setup names row then
    match ← setup.extractAnswer (rowGet row names.answerField) with
    | none | some [] =>
      some ({ Result.bare .failed with
        finalAnswer := some []
        reason := some .finalAnswerParseFailed }, .parseFailed, state)
    | some finalAnswer =>
      let (geoResult, state) ← geocode setup state finalAnswer
      if isSuccess geoResult then
        let (result, counter) ← locate setup names row finalAnswer geoResult
        some (result, counter, state)
      else
        some ({ Result.bare .failed with
          finalAnswer := some finalAnswer
          reason := some .geocodeFailed
          geocodeResult := some geoResult }, .geocodeFailed, state)
  else some (Result.bare .inferenceFailed, .inferenceFailed, state)

/-! ## All rows -/

structure Stats where
  geocodeSuccess : ℕ
  geocodeFailed : ℕ
  parseFailed : ℕ
  inferenceFailed : ℕ
  deriving DecidableEq, Repr

def Stats.zero : Stats := ⟨0, 0, 0, 0⟩

def Stats.count (stats : Stats) : Counter → Stats
  | .geocodeSuccess => { stats with geocodeSuccess := stats.geocodeSuccess + 1 }
  | .geocodeFailed => { stats with geocodeFailed := stats.geocodeFailed + 1 }
  | .parseFailed => { stats with parseFailed := stats.parseFailed + 1 }
  | .inferenceFailed => { stats with inferenceFailed := stats.inferenceFailed + 1 }

def enrichFrom (state : σ) (stats : Stats) : List DataRow → Option (List EvalRow × Stats × σ)
  | [] => some ([], stats, state)
  | row :: rows => do
      let (result, counter, state) ← enrichRow setup names state row
      let (enriched, stats, state) ← enrichFrom state (stats.count counter) rows
      some (⟨row, some result⟩ :: enriched, stats, state)

def enrichRows (state : σ) (rows : List DataRow) : Option (List EvalRow × Stats × σ) :=
  enrichFrom setup names state .zero rows

/-! ## Coordinates of a result -/

/-- `float` takes the coordinates of a result, or is no number; it does not overflow. -/
def Converts (geoResult : JsonValue) : Prop :=
  (safeFloatOf setup (memberOf latitudeKey geoResult)).isSome ∧
    (safeFloatOf setup (memberOf longitudeKey geoResult)).isSome

theorem safeFloatOf_null : (safeFloatOf setup .null).isSome := by
  simp [safeFloatOf, safeFloat, setup.python.float_null, Except.toOption]

theorem Converts.of_same {first second : JsonValue}
    (latitude : memberOf latitudeKey second = memberOf latitudeKey first)
    (longitude : memberOf longitudeKey second = memberOf longitudeKey first)
    (converts : Converts setup first) : Converts setup second := by
  rw [Converts, latitude, longitude]
  exact converts

theorem Converts.setMember {members : List (CodePoints × JsonValue)}
    (converts : Converts setup (.object members)) (key : CodePoints) (value : JsonValue)
    (latitude : latitudeKey ≠ key) (longitude : longitudeKey ≠ key) :
    Converts setup (.object (Library.setMember members key value)) :=
  converts.of_same setup (by simp [memberOf, getMember_setMember_of_ne latitude])
    (by simp [memberOf, getMember_setMember_of_ne longitude])

theorem Converts.attemptRecord {geoResult : JsonValue} (converts : Converts setup geoResult)
    (candidate : CodePoints) :
    Converts setup (.object (attemptRecord candidate geoResult)) := by
  have absent : ∀ key, key ≠ addressKey → key ≠ statusKey → key ≠ messageKey →
      memberOf key (.object (Evaluation.attemptRecord candidate geoResult)) =
        memberOf key geoResult := by
    intro key notAddress notStatus notMessage
    cases geoResult with
    | object members =>
      simp only [Evaluation.attemptRecord]
      split
      · rfl
      · simp [memberOf, getMember, List.find?_append, notAddress.symm]
    | _ =>
      simp [Evaluation.attemptRecord, memberOf, getMember, notAddress.symm, notStatus.symm,
        notMessage.symm]
  exact converts.of_same setup (absent _ (by decide) (by decide) (by decide))
    (absent _ (by decide) (by decide) (by decide))

theorem Converts.resolvedFrom {geoResult : JsonValue} (converts : Converts setup geoResult)
    (candidate finalAnswer : CodePoints) (attempts : List (List (CodePoints × JsonValue))) :
    Converts setup (resolvedFrom candidate finalAnswer attempts geoResult) := by
  cases geoResult with
  | object members =>
    have first := converts.setMember setup resolvedKey (.string candidate) (by decide) (by decide)
    have second := first.setMember setup originalKey (.string finalAnswer) (by decide)
      (by decide)
    exact second.setMember setup attemptsKey (attemptsValue attempts) (by decide) (by decide)
  | _ => exact converts

theorem converts_lastAttempt {attempts : List (List (CodePoints × JsonValue))}
    (all : ∀ attempt ∈ attempts, Converts setup (.object attempt)) (finalAnswer : CodePoints) :
    Converts setup (lastAttempt finalAnswer attempts) := by
  have last : Converts setup (.object (attempts.getLast?.getD [])) := by
    cases found : attempts.getLast? with
    | none => exact ⟨safeFloatOf_null setup, safeFloatOf_null setup⟩
    | some attempt => exact all attempt (List.mem_of_getLast? found)
  have first := last.setMember setup originalKey (.string finalAnswer) (by decide) (by decide)
  exact first.setMember setup attemptsKey (attemptsValue attempts) (by decide) (by decide)

variable {finalAnswer : CodePoints} {state after : σ} {geoResult : JsonValue}

theorem converts_of_tryCandidates {candidates : List CodePoints}
    {attempts : List (List (CodePoints × JsonValue))}
    (all : ∀ attempt ∈ attempts, Converts setup (.object attempt))
    (returns : tryCandidates setup finalAnswer attempts state candidates =
      some (geoResult, after)) :
    Converts setup geoResult := by
  induction candidates generalizing attempts state with
  | nil =>
    simp only [tryCandidates, Option.some.injEq, Prod.mk.injEq] at returns
    exact returns.1 ▸ converts_lastAttempt setup all finalAnswer
  | cons candidate candidates inductionHypothesis =>
    simp only [tryCandidates, Option.bind_eq_bind, Option.bind_eq_some_iff] at returns
    obtain ⟨⟨reply, later⟩, _, lat, isLat, lng, isLng, returns⟩ := returns
    have converts : Converts setup reply := ⟨by simp [isLat], by simp [isLng]⟩
    split at returns
    · split at returns
      · simp only [Option.some.injEq, Prod.mk.injEq] at returns
        exact returns.1 ▸ converts.resolvedFrom setup candidate finalAnswer _
      · simp only [Option.some.injEq, Prod.mk.injEq] at returns
        exact returns.1 ▸ converts
    · refine inductionHypothesis (fun attempt member => ?_) returns
      rcases List.mem_append.mp member with earlier | new
      · exact all attempt earlier
      · rw [List.mem_singleton.mp new]
        exact converts.attemptRecord setup candidate

/-- The coordinates of what the geocoder returns were already converted. -/
theorem converts_of_geocode (returns : geocode setup state finalAnswer = some (geoResult, after)) :
    Converts setup geoResult := by
  unfold geocode at returns
  split at returns
  · simp only [Option.some.injEq, Prod.mk.injEq] at returns
    rw [← returns.1]
    exact ⟨safeFloatOf_null setup, safeFloatOf_null setup⟩
  · exact converts_of_tryCandidates setup (by simp) returns

/-! ## Rows that do not raise -/

/-- The true coordinates of a row are read, and a distance to them is computed, without raising. -/
def TruthRuns (row : DataRow) (geoResult : JsonValue) : Prop :=
  ∃ truth, getTruthCoordinates setup.python row names.latitudeField names.longitudeField =
      .ok truth ∧
    ∀ predLatitude predLongitude latitude longitude,
      safeFloatOf setup (memberOf latitudeKey geoResult) = some (some predLatitude) →
        safeFloatOf setup (memberOf longitudeKey geoResult) = some (some predLongitude) →
          truth = some (latitude, longitude) →
            (setup.calculateDistance predLatitude predLongitude latitude longitude).isSome

/-- The answer of a row is extracted and looked up, and the true coordinates of a row that is found
are read, without raising. -/
def RowRuns (state : σ) (row : DataRow) : Prop :=
  inferred setup names row = true →
    ∃ answer, setup.extractAnswer (rowGet row names.answerField) = some answer ∧
      ∀ finalAnswer, answer = some finalAnswer → finalAnswer ≠ [] →
        ∃ geoResult after, geocode setup state finalAnswer = some (geoResult, after) ∧
          (isSuccess geoResult = true → TruthRuns setup names row geoResult)

def stateAfter (state : σ) (row : DataRow) : σ :=
  if inferred setup names row then
    match setup.extractAnswer (rowGet row names.answerField) with
    | some (some (code :: rest)) =>
      match geocode setup state (code :: rest) with
      | some (_, after) => after
      | none => state
    | _ => state
  else state

/-- No row raises, in the state that the rows before it leave. -/
def RowsRun (state : σ) : List DataRow → Prop
  | [] => True
  | row :: rows => RowRuns setup names state row ∧ RowsRun (stateAfter setup names state row) rows

variable {row : DataRow}

theorem locate_eq_some (converts : Converts setup geoResult) :
    (∃ located, locate setup names row finalAnswer geoResult = some located) ↔
      TruthRuns setup names row geoResult := by
  obtain ⟨predLatitude, isLatitude⟩ := Option.isSome_iff_exists.mp converts.1
  obtain ⟨predLongitude, isLongitude⟩ := Option.isSome_iff_exists.mp converts.2
  rw [locate, TruthRuns, isLatitude, isLongitude]
  cases getTruthCoordinates setup.python row names.latitudeField names.longitudeField with
  | error _ => simp [Except.toOption]
  | ok truth =>
    cases predLatitude with
    | none => simp [Except.toOption]
    | some predLatitude =>
      cases predLongitude with
      | none => simp [Except.toOption]
      | some predLongitude =>
        cases truth with
        | none => simp [Except.toOption]
        | some truth =>
          obtain ⟨latitude, longitude⟩ := truth
          simp only [Except.toOption, Option.bind_eq_bind, Option.bind_some]
          cases far : setup.calculateDistance predLatitude predLongitude latitude
            longitude with
          | none => simp [far]
          | some distance =>
            refine ⟨fun _ => ⟨_, rfl, ?_⟩, fun _ => by simp⟩
            rintro _ _ _ _ ⟨⟩ ⟨⟩ ⟨⟩
            simp [far]

/-- A row gets a result exactly where it does not raise. -/
theorem enrichRow_eq_some (state : σ) (row : DataRow) :
    (∃ result counter, enrichRow setup names state row =
      some (result, counter, stateAfter setup names state row)) ↔ RowRuns setup names state row := by
  unfold enrichRow RowRuns stateAfter
  by_cases isInferred : inferred setup names row = true
  · simp only [isInferred, if_true, forall_const]
    cases setup.extractAnswer (rowGet row names.answerField) with
    | none => simp
    | some answer =>
      cases answer with
      | none => simp
      | some finalAnswer =>
        cases finalAnswer with
        | nil => simp
        | cons code rest =>
          cases returns : geocode setup state (code :: rest) with
          | none => simp [returns]
          | some located =>
            obtain ⟨geoResult, after⟩ := located
            have found : (∃ result, locate setup names row (code :: rest) geoResult =
                some result) ↔ TruthRuns setup names row geoResult :=
              locate_eq_some setup names (converts_of_geocode setup returns)
            by_cases success : isSuccess geoResult = true
            · simp [returns, success, ← found]
              cases locate setup names row (code :: rest) geoResult with
              | none => simp
              | some located =>
                obtain ⟨result, counter⟩ := located
                simp
            · simp [returns, success]
  · simp [isInferred]

variable {result : Result}

theorem state_of_enrichRow {counter : Counter}
    (enriches : enrichRow setup names state row = some (result, counter, after)) :
    after = stateAfter setup names state row := by
  unfold enrichRow at enriches
  unfold stateAfter
  by_cases isInferred : inferred setup names row = true
  · simp only [isInferred, if_true, Option.bind_eq_bind, Option.bind_eq_some_iff] at enriches ⊢
    obtain ⟨answer, extracts, enriches⟩ := enriches
    rw [extracts]
    split at enriches
    · cases enriches
      rfl
    · cases enriches
      rfl
    · rename_i finalAnswer notEmpty
      cases finalAnswer with
      | nil => exact absurd rfl notEmpty
      | cons code rest =>
        obtain ⟨⟨geoResult, later⟩, returns, enriches⟩ := Option.bind_eq_some_iff.mp enriches
        simp only [returns]
        split at enriches
        · obtain ⟨located, _, same⟩ := Option.bind_eq_some_iff.mp enriches
          cases same
          rfl
        · cases enriches
          rfl
  · simp only [isInferred] at enriches ⊢
    cases enriches
    rfl

/-! ## Counters and statuses -/

def Result.counter (result : Result) : Counter :=
  match result.status with
  | .inferenceFailed => .inferenceFailed
  | .success => .geocodeSuccess
  | .failed =>
    if result.reason = some .finalAnswerParseFailed then .parseFailed else .geocodeFailed

/-- A result has a distance where its status is a success. -/
def Result.Complete (result : Result) : Prop :=
  result.status = .success → result.distance.isSome

theorem counter_of_locate {counter : Counter}
    (locates : locate setup names row finalAnswer geoResult = some (result, counter)) :
    counter = result.counter ∧ result.Complete := by
  simp only [locate, Option.bind_eq_bind, Option.bind_eq_some_iff] at locates
  obtain ⟨predLatitude, -, predLongitude, -, truth, -, locates⟩ := locates
  split at locates
  · obtain ⟨distance, -, same⟩ := Option.bind_eq_some_iff.mp locates
    cases same
    exact ⟨rfl, fun _ => rfl⟩
  · cases locates
    exact ⟨rfl, by simp [Result.Complete]⟩
  · cases locates
    exact ⟨rfl, by simp [Result.Complete]⟩

theorem counter_of_enrichRow {counter : Counter}
    (enriches : enrichRow setup names state row = some (result, counter, after)) :
    counter = result.counter ∧ result.Complete := by
  unfold enrichRow at enriches
  split at enriches
  · obtain ⟨answer, -, enriches⟩ := Option.bind_eq_some_iff.mp enriches
    split at enriches
    · cases enriches
      exact ⟨rfl, by simp [Result.Complete, Result.bare]⟩
    · cases enriches
      exact ⟨rfl, by simp [Result.Complete, Result.bare]⟩
    · obtain ⟨⟨geoResult, later⟩, -, enriches⟩ := Option.bind_eq_some_iff.mp enriches
      simp only at enriches
      split at enriches
      · obtain ⟨⟨located, counted⟩, locates, same⟩ := Option.bind_eq_some_iff.mp enriches
        cases same
        exact counter_of_locate setup names locates
      · cases enriches
        exact ⟨rfl, by simp [Result.Complete, Result.bare]⟩
  · cases enriches
    exact ⟨rfl, by simp [Result.Complete, Result.bare]⟩

/-! ## All rows together -/

def Stats.get (stats : Stats) : Counter → ℕ
  | .geocodeSuccess => stats.geocodeSuccess
  | .geocodeFailed => stats.geocodeFailed
  | .parseFailed => stats.parseFailed
  | .inferenceFailed => stats.inferenceFailed

theorem Stats.get_count (stats : Stats) (counted counter : Counter) :
    (stats.count counted).get counter =
      stats.get counter + if counted = counter then 1 else 0 := by
  cases counted <;> cases counter <;> rfl

def EvalRow.isCounted (counter : Counter) (row : EvalRow) : Bool :=
  row.result.any fun result => decide (result.counter = counter)

/-- The rows are the given ones, each has a result, and the counters count the results. -/
structure Enriched (rows : List DataRow) (before : Stats) (enriched : List EvalRow)
    (after : Stats) : Prop where
  fields : enriched.map EvalRow.fields = rows
  results : ∀ row ∈ enriched, ∃ result, row.result = some result ∧ result.Complete
  counts : ∀ counter, after.get counter =
    before.get counter + enriched.countP (EvalRow.isCounted counter)

/-- One row keeps what the counters count. -/
theorem Enriched.cons {rows : List DataRow} {before after : Stats} {enriched : List EvalRow}
    (complete : result.Complete)
    (rest : Enriched rows (before.count result.counter) enriched after) :
    Enriched (row :: rows) before (⟨row, some result⟩ :: enriched) after where
  fields := by simp [rest.fields]
  results := by
    intro other member
    rcases List.mem_cons.mp member with rfl | later
    · exact ⟨result, rfl, complete⟩
    · exact rest.results other later
  counts := by
    intro counter
    rw [rest.counts, Stats.get_count, List.countP_cons]
    simp only [EvalRow.isCounted, Option.any_some, decide_eq_true_eq]
    omega

theorem enriched_of_enrichFrom {rows : List DataRow} {before stats : Stats}
    {enriched : List EvalRow}
    (enriches : enrichFrom setup names state before rows = some (enriched, stats, after)) :
    Enriched rows before enriched stats := by
  induction rows generalizing state before enriched with
  | nil =>
    cases enriches
    exact ⟨rfl, by simp, by simp⟩
  | cons row rows inductionHypothesis =>
    simp only [enrichFrom, Option.bind_eq_bind, Option.bind_eq_some_iff] at enriches
    obtain ⟨⟨result, counter, later⟩, one, ⟨others, total, last⟩, rest, same⟩ := enriches
    cases same
    obtain ⟨rfl, complete⟩ := counter_of_enrichRow setup names one
    exact .cons complete (inductionHypothesis rest)

theorem enrichFrom_eq_some (state : σ) (stats : Stats) (rows : List DataRow) :
    (∃ outcome, enrichFrom setup names state stats rows = some outcome) ↔
      RowsRun setup names state rows := by
  induction rows generalizing state stats with
  | nil => simp [enrichFrom, RowsRun]
  | cons row rows inductionHypothesis =>
    simp only [RowsRun, ← enrichRow_eq_some, enrichFrom, Option.bind_eq_bind]
    constructor
    · rintro ⟨outcome, enriches⟩
      obtain ⟨⟨result, counter, later⟩, one, enriches⟩ := Option.bind_eq_some_iff.mp enriches
      obtain ⟨rest, others, -⟩ := Option.bind_eq_some_iff.mp enriches
      obtain rfl := state_of_enrichRow setup names one
      exact ⟨⟨result, counter, one⟩, (inductionHypothesis _ _).mp ⟨rest, others⟩⟩
    · rintro ⟨⟨result, counter, one⟩, rest⟩
      obtain ⟨others, enriches⟩ := (inductionHypothesis _ (stats.count counter)).mpr rest
      exact ⟨_, by simp [one, enriches]; rfl⟩

/-- All rows get a result exactly where no row raises, and then the counters count them. -/
theorem enrichRows_eq_some (state : σ) (rows : List DataRow) :
    (∃ enriched stats after, enrichRows setup names state rows = some (enriched, stats, after) ∧
      Enriched rows .zero enriched stats) ↔ RowsRun setup names state rows := by
  rw [← enrichFrom_eq_some setup names state .zero]
  constructor
  · rintro ⟨enriched, stats, after, enriches, -⟩
    exact ⟨_, enriches⟩
  · rintro ⟨⟨enriched, stats, after⟩, enriches⟩
    exact ⟨enriched, stats, after, enriches, enriched_of_enrichFrom setup names enriches⟩

end Geobench.Evaluation
