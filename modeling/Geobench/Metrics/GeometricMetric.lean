import Geobench.Evaluation.ReportMetrics

/-!
# The distances of predictions

`GeometricMetric.update` counts a sample and then appends to three lists: a failure, or the
predicted coordinates with their distance and score. It may raise in between, and takes a
predicted latitude of zero for none.

A run is a sequence of updates; one that raises leaves the state as it is at this point.
`Progress` has beside the state the samples that were counted. **`run_describes`**: where no sample
meets one of these branches, the entries of the lists describe the counted samples, and
`compute` is over the samples with a distance.
-/

namespace Geobench.Metrics

open Library Rewards Evaluation List

variable {σ : Type}

/-! ## What the metric calls -/

/-- What is called. `geodesic` and a lookup without a result are `none`; the geocoder looks up in a
state. -/
structure Surroundings (σ : Type) where
  python : Conversions
  extractAnswerFromJson : JsonValue → JsonValue
  hasApiKeys : Bool
  callGeocode : σ → CodePoints → Option (JsonValue × JsonValue) × σ
  geodesic : JsonValue → JsonValue → JsonValue → JsonValue → Option ℚ
  exp : ℚ → ℚ
  maxDistance : ℚ

variable (world : Surroundings σ)

def predLatKey : CodePoints := codes "pred_lat".toList
def predLonKey : CodePoints := codes "pred_lon".toList
def semicolon : CodePoints := codes ";".toList

/-- `key in value`, which raises where the value is no text, list or dictionary. -/
def contains (key : CodePoints) : JsonValue → Option Bool
  | .object members => some (decide (key ∈ members.map Prod.fst))
  | .string text => some (decide (key <:+: text))
  | .array items => some (items.any fun item =>
    match item with
    | .string text => decide (text = key)
    | _ => false)
  | _ => none

/-- `label.get(bdKey, label.get(key, 0))`, which raises where the label is no dictionary. -/
def labelCoordinate (bdKey key : Text) : JsonValue → Option JsonValue
  | .object members =>
    some ((getMember members (codes bdKey)).getD
      ((getMember members (codes key)).getD (.number "0".toList)))
  | _ => none

def trueLat : JsonValue → Option JsonValue := labelCoordinate "lat_bd".toList "lat".toList

def trueLon : JsonValue → Option JsonValue := labelCoordinate "lon_bd".toList "lon".toList

/-! ## The coordinates of a prediction -/

structure Coordinates where
  lat : JsonValue
  lon : JsonValue
  address : Option JsonValue

/-- What a prediction comes to before something is appended. -/
inductive Sighting where
  | raises
  | fails
  | found (coordinates : Coordinates)

/-- A prediction with its coordinates. -/
def sightGiven (pred : JsonValue) : Sighting :=
  match pred with
  | .object members =>
    let predLat := (getMember members predLatKey).getD .null
    if truthy world.python predLat then
      match getMember members predLonKey with
      | some predLon => .found ⟨predLat, predLon, none⟩
      | none => .raises
    else .fails
  | _ => .raises

/-- `geocoder.geocode(address)` for a text. -/
def geocode (state : σ) (address : CodePoints) : Option (JsonValue × JsonValue) × σ :=
  if world.hasApiKeys then world.callGeocode state address else (none, state)

/-- Try again without the last part, at most so many times. -/
def geocodeShorter (state : σ) : ℕ → CodePoints → Option (JsonValue × JsonValue) × σ
  | 0, _ => (none, state)
  | steps + 1, tempAnswer =>
    if ';'.toNat ∉ tempAnswer then (none, state)
    else
      let parts := (tempAnswer.splitOn ';'.toNat).map (strip isBlankCode)
      let shorter := (codes "; ".toList).intercalate parts.dropLast
      let outcome := geocode world state shorter
      if parts.length = 2 ∨ outcome.1.isSome then outcome
      else geocodeShorter outcome.2 steps shorter

/-- The coordinates of an answer, or nothing where this raises: only a text has `replace`, and what
has no semicolon is not split. -/
def geocodeAnswer (state : σ) (answer : JsonValue) :
    Option (Option (JsonValue × JsonValue)) × σ :=
  match answer with
  | .string address =>
    let outcome := geocode world state address
    if outcome.1.isSome then (some outcome.1, outcome.2)
    else
      let again := geocodeShorter world outcome.2 2 address
      (some again.1, again.2)
  | answer =>
    if world.hasApiKeys then (none, state)
    else if contains semicolon answer = some false then (some none, state)
    else (none, state)

/-- A prediction that has its address in an answer. -/
def sightAnswer (state : σ) (pred : JsonValue) : Sighting × σ :=
  let answer := world.extractAnswerFromJson pred
  if truthy world.python answer then
    match geocodeAnswer world state answer with
    | (none, state) => (.raises, state)
    | (some none, state) => (.fails, state)
    | (some (some (lat, lon)), state) => (.found ⟨lat, lon, some answer⟩, state)
  else (.fails, state)

def sight (state : σ) (pred : JsonValue) : Sighting × σ :=
  match contains predLatKey pred with
  | none => (.raises, state)
  | some true => (sightGiven world pred, state)
  | some false => sightAnswer world state pred

/-! ## The state -/

structure MetricState where
  distances : List (Option ℚ)
  validPredictions : ℕ
  totalSamples : ℕ
  predictedCoordinates : List (Option Coordinates)
  individualGeoscores : List ℚ

def MetricState.initial : MetricState := ⟨[], 0, 0, [], []⟩

def MetricState.count (state : MetricState) : MetricState :=
  { state with totalSamples := state.totalSamples + 1 }

def MetricState.fail (state : MetricState) : MetricState :=
  { state with
    distances := state.distances ++ [none]
    predictedCoordinates := state.predictedCoordinates ++ [none]
    individualGeoscores := state.individualGeoscores ++ [0] }

/-- `5000 * exp(-10 * (distance / max_distance))` -/
def geoscoreOf (distance : ℚ) : ℚ := 5000 * world.exp (-10 * (distance / world.maxDistance))

/-- Append coordinates and their distance, and then the score, where the division by the maximal
distance does not raise. -/
def MetricState.find (state : MetricState) (coordinates : Coordinates) (distance : Option ℚ) :
    MetricState × Bool :=
  let state := { state with
    predictedCoordinates := state.predictedCoordinates ++ [some coordinates]
    distances := state.distances ++ [distance] }
  match distance with
  | some kilometers =>
    if world.maxDistance = 0 then (state, true)
    else ({ state with
      validPredictions := state.validPredictions + 1
      individualGeoscores := state.individualGeoscores ++ [geoscoreOf world kilometers] }, false)
  | none => ({ state with individualGeoscores := state.individualGeoscores ++ [0] }, false)

/-- A prediction and its label. -/
structure GeoSample where
  pred : JsonValue
  label : JsonValue

/-- `_calculate_distance`, which is infinite where `geodesic` raises. -/
def distanceTo (coordinates : Coordinates) (trueLat trueLon : JsonValue) : Option ℚ :=
  world.geodesic trueLat trueLon coordinates.lat coordinates.lon

/-- What a sample does to the state, and whether it raises. -/
def MetricState.react (state : MetricState) (label : JsonValue) : Sighting → MetricState × Bool
  | .raises => (state, true)
  | .fails => (state.fail, false)
  | .found coordinates =>
    match trueLat label, trueLon label with
    | some lat, some lon => state.find world coordinates (distanceTo world coordinates lat lon)
    | _, _ => (state, true)

/-- The state of the metric and of the geocoder, and the samples that were counted. -/
structure Progress (σ : Type) where
  metric : MetricState
  geocoder : σ
  counted : List GeoSample

def Progress.initial (geocoder : σ) : Progress σ := ⟨.initial, geocoder, []⟩

def updateSample (progress : Progress σ) (sample : GeoSample) : Progress σ × Bool :=
  let sighting := sight world progress.geocoder sample.pred
  let outcome := progress.metric.count.react world sample.label sighting.1
  (⟨outcome.1, sighting.2, progress.counted ++ [sample]⟩, outcome.2)

/-- `update`: the samples up to one that raises. -/
def update (progress : Progress σ) : List GeoSample → Progress σ
  | [] => progress
  | sample :: samples =>
    let outcome := updateSample world progress sample
    if outcome.2 then outcome.1 else update outcome.1 samples

/-- The pairs that `zip(predictions, labels)` goes through. -/
def samplesOf (predictions labels : List JsonValue) : List GeoSample :=
  (predictions.zip labels).map fun pair => ⟨pair.1, pair.2⟩

/-- A sequence of updates, of which each may raise. -/
def run (progress : Progress σ) (updates : List (List JsonValue × List JsonValue)) : Progress σ :=
  updates.foldl (fun progress given => update world progress (samplesOf given.1 given.2)) progress

/-! ## The metrics -/

structure GeometricMetrics where
  meanDistance : ℚ
  medianDistance : ℚ
  accuracy : Threshold → ℚ
  meanGeoscore : ℚ
  medianGeoscore : ℚ
  validPredictions : ℕ
  totalSamples : ℕ

def MetricState.validDistances (state : MetricState) : List ℚ := state.distances.filterMap id

/-- The scores of the samples with a distance. -/
def MetricState.validGeoscores (state : MetricState) : List ℚ :=
  (state.individualGeoscores.zip state.distances).filterMap fun entry =>
    entry.2.map fun _ => entry.1

def accuracyOf (distances : List ℚ) (threshold : Threshold) : ℚ :=
  (distances.countP fun distance => decide (distance < threshold.kilometers)) /
    distances.length * 100

/-- `compute`, which returns an empty dictionary where there is no sample. -/
def MetricState.compute (state : MetricState) : Option GeometricMetrics :=
  if state.distances = [] then none
  else if state.validDistances = [] then
    some ⟨0, 0, fun _ => 0, 0, 0, 0, state.totalSamples⟩
  else
    some {
      meanDistance := Evaluation.mean state.validDistances
      medianDistance := median state.validDistances
      accuracy := accuracyOf state.validDistances
      meanGeoscore := if state.validGeoscores = [] then 0 else Evaluation.mean state.validGeoscores
      medianGeoscore := if state.validGeoscores = [] then 0 else median state.validGeoscores
      validPredictions := state.validPredictions
      totalSamples := state.totalSamples }

/-! ## What a run promises -/

/-- What the lists have for a sample. -/
structure Entry where
  sample : GeoSample
  coordinates : Option Coordinates
  distance : Option ℚ
  geoscore : ℚ

def Entry.isValid (entry : Entry) : Bool := entry.distance.isSome

/-- The coordinates are those of the prediction, the distance is that to the label, and the score
is that of the distance. -/
structure Entry.Fits (entry : Entry) : Prop where
  sighted : ∃ geocoder, (sight world geocoder entry.sample.pred).1 =
    match entry.coordinates with
    | some coordinates => .found coordinates
    | none => .fails
  missed : entry.coordinates = none → entry.distance = none
  measured : ∀ coordinates, entry.coordinates = some coordinates →
    ∃ lat lon, trueLat entry.sample.label = some lat ∧ trueLon entry.sample.label = some lon ∧
      entry.distance = distanceTo world coordinates lat lon
  scored : entry.geoscore = entry.distance.elim 0 (geoscoreOf world)

/-- A number between a bound and its negation. -/
def IsCoordinate (bound : ℚ) (value : JsonValue) : Prop :=
  (∃ literal, value = .number literal) ∧
    ∃ number, world.python.float value = .ok (.finite number) ∧ -bound ≤ number ∧ number ≤ bound

/-- A prediction that is given with numeric coordinates in their range. -/
def GivenAt (pred lat lon : JsonValue) : Prop :=
  ∃ members, pred = .object members ∧ getMember members predLatKey = some lat ∧
    getMember members predLonKey = some lon ∧ IsCoordinate world 90 lat ∧
      IsCoordinate world 180 lon

/-- The lists and counters are those of some entries, one for each counted sample. -/
structure Describes (entries : List Entry) (progress : Progress σ) : Prop where
  counted : progress.counted = entries.map Entry.sample
  total : progress.metric.totalSamples = entries.length
  distances : progress.metric.distances = entries.map Entry.distance
  coordinates : progress.metric.predictedCoordinates = entries.map Entry.coordinates
  geoscores : progress.metric.individualGeoscores = entries.map Entry.geoscore
  valid : progress.metric.validPredictions = entries.countP Entry.isValid
  fits : ∀ entry ∈ entries, entry.Fits world
  given : ∀ entry ∈ entries, ∀ lat lon, GivenAt world entry.sample.pred lat lon →
    entry.isValid = true

/-- The metrics are over the entries with a distance. -/
structure GeometricMetrics.Over (metrics : GeometricMetrics) (entries : List Entry) : Prop where
  total : metrics.totalSamples = entries.length
  valid : metrics.validPredictions = (entries.filter Entry.isValid).length
  meanDistance : metrics.meanDistance =
    Evaluation.mean ((entries.filter Entry.isValid).filterMap Entry.distance)
  medianDistance : metrics.medianDistance =
    median ((entries.filter Entry.isValid).filterMap Entry.distance)
  meanGeoscore : metrics.meanGeoscore = Evaluation.mean ((entries.filter Entry.isValid).map Entry.geoscore)
  medianGeoscore : metrics.medianGeoscore =
    median ((entries.filter Entry.isValid).map Entry.geoscore)
  accuracy : metrics.accuracy =
    accuracyOf ((entries.filter Entry.isValid).filterMap Entry.distance)
  nested : ∀ inner outer : Threshold, inner.kilometers ≤ outer.kilometers →
    metrics.accuracy inner ≤ metrics.accuracy outer

/-- Every list has an entry for each counted sample, and the metrics are over those with a
distance. -/
def Consistent (progress : Progress σ) : Prop :=
  ∃ entries, Describes world entries progress ∧
    ∀ metrics, progress.metric.compute = some metrics → metrics.Over entries

/-! ## Samples that take no bad branch -/

/-- The prediction is a text, a list or a dictionary; with `pred_lat` it is a dictionary that has
`pred_lon` as well, unless its `pred_lat` is false; and an answer that is not false is a text, or
nothing that would be split or looked up. -/
def Readable (pred : JsonValue) : Prop :=
  match contains predLatKey pred with
  | none => False
  | some true =>
    ∃ members, pred = .object members ∧
      (truthy world.python ((getMember members predLatKey).getD .null) = true →
        (getMember members predLonKey).isSome)
  | some false =>
    truthy world.python (world.extractAnswerFromJson pred) = true →
      (∃ address, world.extractAnswerFromJson pred = .string address) ∨
        (world.hasApiKeys = false ∧
          contains semicolon (world.extractAnswerFromJson pred) = some false)

/-- A sample whose update does not raise, and whose numeric coordinates, if it is given with them,
have a latitude other than zero and a distance to the label. -/
structure GeoSample.Meets (geocoder : σ) (sample : GeoSample) : Prop where
  readable : Readable world sample.pred
  labelled : ∀ coordinates, (sight world geocoder sample.pred).1 = .found coordinates →
    ∃ lat lon, trueLat sample.label = some lat ∧ trueLon sample.label = some lon ∧
      ((distanceTo world coordinates lat lon).isSome → world.maxDistance ≠ 0)
  measured : ∀ lat lon, GivenAt world sample.pred lat lon →
    world.python.float lat ≠ .ok (.finite 0) ∧
      ∀ labelLat labelLon, trueLat sample.label = some labelLat →
        trueLon sample.label = some labelLon →
          (world.geodesic labelLat labelLon lat lon).isSome

/-- All samples meet this, each in the state of the geocoder after those before it. -/
def Meet (geocoder : σ) : List GeoSample → Prop
  | [] => True
  | sample :: samples =>
    sample.Meets world geocoder ∧ Meet (sight world geocoder sample.pred).2 samples

/-! ## One sample -/

theorem geocodeAnswer_string (geocoder : σ) (address : CodePoints) :
    (geocodeAnswer world geocoder (.string address)).1 ≠ none := by
  simp only [geocodeAnswer]
  split <;> simp

variable {geocoder : σ}

theorem geocodeAnswer_unsplit {answer : JsonValue} (notText : ∀ address, answer ≠ .string address)
    (noKeys : world.hasApiKeys = false) (unsplit : contains semicolon answer = some false) :
    (geocodeAnswer world geocoder answer).1 ≠ none := by
  cases answer with
  | string address => exact absurd rfl (notText address)
  | _ => simp [geocodeAnswer, noKeys, unsplit]

theorem geocodeAnswer_ne_none {answer : JsonValue}
    (readable : (∃ address, answer = .string address) ∨
      (world.hasApiKeys = false ∧ contains semicolon answer = some false)) :
    (geocodeAnswer world geocoder answer).1 ≠ none := by
  by_cases isText : ∃ address, answer = .string address
  · obtain ⟨address, rfl⟩ := isText
    exact geocodeAnswer_string world geocoder address
  · obtain ⟨noKeys, unsplit⟩ := readable.resolve_left isText
    exact geocodeAnswer_unsplit world (fun address same => isText ⟨address, same⟩) noKeys unsplit

theorem sight_ne_raises {pred : JsonValue} (readable : Readable world pred) :
    (sight world geocoder pred).1 ≠ .raises := by
  unfold Readable at readable
  unfold sight
  split at readable
  · exact readable.elim
  · obtain ⟨members, rfl, given⟩ := readable
    simp only [sightGiven]
    split
    · rename_i isTrue
      obtain ⟨predLon, isLon⟩ := Option.isSome_iff_exists.mp (given isTrue)
      simp [isLon]
    · simp
  · simp only [sightAnswer]
    split
    · rename_i isTrue
      have located : (geocodeAnswer world geocoder (world.extractAnswerFromJson pred)).1 ≠ none :=
        geocodeAnswer_ne_none world (readable isTrue)
      split
      · rename_i raises
        simp [raises] at located
      · simp
      · simp
    · simp

/-- A prediction that is given with coordinates is found at them, unless its latitude is zero. -/
theorem sight_of_given {pred lat lon : JsonValue} (given : GivenAt world pred lat lon)
    (nonzero : world.python.float lat ≠ .ok (.finite 0)) :
    (sight world geocoder pred).1 = .found ⟨lat, lon, none⟩ := by
  obtain ⟨members, rfl, isLat, isLon, ⟨⟨literal, rfl⟩, _⟩, _⟩ := given
  have has : predLatKey ∈ members.map Prod.fst := by
    unfold getMember at isLat
    obtain ⟨member, found, -⟩ := Option.map_eq_some_iff.mp isLat
    have isKey : member.1 = predLatKey := by simpa using find?_some found
    exact isKey ▸ mem_map_of_mem (mem_of_find?_eq_some found)
  have isTrue : truthy world.python (.number literal) = true := by
    simpa [truthy] using nonzero
  have contained : contains predLatKey (.object members) = some true := by
    rw [contains, decide_eq_true has]
  rw [sight, contained]
  simp [sightGiven, isLat, isLon, isTrue]

theorem exists_entry {sample : GeoSample} (meets : sample.Meets world geocoder)
    (metric : MetricState) :
    ∃ entry : Entry, entry.sample = sample ∧ entry.Fits world ∧
      (∀ lat lon, GivenAt world sample.pred lat lon → entry.isValid = true) ∧
        metric.count.react world sample.label (sight world geocoder sample.pred).1 =
          ({ distances := metric.distances ++ [entry.distance]
             validPredictions := metric.validPredictions + if entry.isValid then 1 else 0
             totalSamples := metric.totalSamples + 1
             predictedCoordinates := metric.predictedCoordinates ++ [entry.coordinates]
             individualGeoscores := metric.individualGeoscores ++ [entry.geoscore] }, false) := by
  cases sighting : (sight world geocoder sample.pred).1 with
  | raises => exact absurd sighting (sight_ne_raises world meets.readable)
  | fails =>
    refine ⟨⟨sample, none, none, 0⟩, rfl, ⟨⟨geocoder, sighting⟩, fun _ => rfl, by simp, rfl⟩,
      fun lat lon given => ?_, rfl⟩
    have found : (sight world geocoder sample.pred).1 = .found ⟨lat, lon, none⟩ :=
      sight_of_given world given (meets.measured lat lon given).1
    simp [found] at sighting
  | found coordinates =>
    obtain ⟨lat, lon, isLat, isLon, divides⟩ := meets.labelled coordinates sighting
    refine ⟨⟨sample, some coordinates, distanceTo world coordinates lat lon,
      (distanceTo world coordinates lat lon).elim 0 (geoscoreOf world)⟩, rfl,
      ⟨⟨geocoder, sighting⟩, by simp, ?_, rfl⟩, fun predLat predLon given => ?_, ?_⟩
    · rintro _ ⟨⟩
      exact ⟨lat, lon, isLat, isLon, rfl⟩
    · obtain ⟨nonzero, far⟩ := meets.measured predLat predLon given
      have found : (sight world geocoder sample.pred).1 = .found ⟨predLat, predLon, none⟩ :=
        sight_of_given world given nonzero
      obtain rfl : coordinates = ⟨predLat, predLon, none⟩ := by
        simpa [found, eq_comm] using sighting
      exact far lat lon isLat isLon
    · simp only [MetricState.react, isLat, isLon, MetricState.find, MetricState.count,
        Entry.isValid]
      cases far : distanceTo world coordinates lat lon with
      | none => simp
      | some kilometers =>
        have nonzero : world.maxDistance ≠ 0 := divides (by simp [far])
        simp [nonzero]

theorem Describes.updateSample {entries : List Entry} {progress : Progress σ} {sample : GeoSample}
    (describes : Describes world entries progress)
    (meets : sample.Meets world progress.geocoder) :
    (updateSample world progress sample).2 = false ∧
      ∃ entry, Describes world (entries ++ [entry]) (updateSample world progress sample).1 := by
  obtain ⟨entry, rfl, fits, given, reacts⟩ := exists_entry world meets progress.metric
  refine ⟨congrArg Prod.snd reacts, entry, ?_⟩
  have metric : (Metrics.updateSample world progress entry.sample).1.metric = _ :=
    congrArg Prod.fst reacts
  constructor
  · simp [Metrics.updateSample, describes.counted]
  · simp [metric, describes.total]
  · simp [metric, describes.distances]
  · simp [metric, describes.coordinates]
  · simp [metric, describes.geoscores]
  · simp [metric, describes.valid, countP_singleton]
  · intro other member
    rcases mem_append.mp member with earlier | new
    · exact describes.fits other earlier
    · exact mem_singleton.mp new ▸ fits
  · intro other member
    rcases mem_append.mp member with earlier | new
    · exact describes.given other earlier
    · exact mem_singleton.mp new ▸ given

/-! ## Runs -/

/-- An update whose samples meet the condition keeps the description. -/
theorem Describes.update {entries : List Entry} {progress : Progress σ} {samples later : List GeoSample}
    (describes : Describes world entries progress)
    (meet : Meet world progress.geocoder (samples ++ later)) :
    ∃ entries, Describes world entries (update world progress samples) ∧
      Meet world (update world progress samples).geocoder later := by
  induction samples generalizing progress entries with
  | nil => exact ⟨entries, describes, meet⟩
  | cons sample samples inductionHypothesis =>
    obtain ⟨meets, others⟩ := meet
    obtain ⟨silent, entry, next⟩ := describes.updateSample world meets
    rw [Metrics.update]
    simp only [silent, Bool.false_eq_true, if_false]
    exact inductionHypothesis next others

/-- So does a sequence of updates. -/
theorem Describes.run {entries : List Entry} {progress : Progress σ}
    {updates : List (List JsonValue × List JsonValue)} (describes : Describes world entries progress)
    (meet : Meet world progress.geocoder
      (updates.flatMap fun given => samplesOf given.1 given.2)) :
    ∃ entries, Describes world entries (run world progress updates) := by
  induction updates generalizing progress entries with
  | nil => exact ⟨entries, describes⟩
  | cons given updates inductionHypothesis =>
    rw [flatMap_cons] at meet
    obtain ⟨more, next, others⟩ := describes.update world meet
    exact inductionHypothesis next others

theorem describes_initial (geocoder : σ) : Describes world [] (.initial geocoder) := by
  constructor <;> first | rfl | simp

/-! ## The metrics of a run -/

theorem accuracyOf_mono {inner outer : Threshold} (smaller : inner.kilometers ≤ outer.kilometers)
    (distances : List ℚ) : accuracyOf distances inner ≤ accuracyOf distances outer := by
  have fewer : (distances.countP fun distance => decide (distance < inner.kilometers)) ≤
      distances.countP fun distance => decide (distance < outer.kilometers) := by
    refine countP_mono_left fun distance _ within => ?_
    simp only [decide_eq_true_eq] at within ⊢
    exact within.trans_le smaller
  have ratio := div_le_div_of_nonneg_right (c := (distances.length : ℚ))
    (Nat.cast_le.mpr fewer) (Nat.cast_nonneg _)
  exact mul_le_mul_of_nonneg_right ratio (by norm_num)

variable {entries : List Entry} {progress : Progress σ}

theorem Describes.validDistances (describes : Describes world entries progress) :
    progress.metric.validDistances = (entries.filter Entry.isValid).filterMap Entry.distance := by
  rw [MetricState.validDistances, describes.distances, filterMap_map, Function.id_comp]
  clear describes
  induction entries with
  | nil => rfl
  | cons entry entries inductionHypothesis =>
    cases far : entry.distance <;>
      simp [Entry.isValid, far, inductionHypothesis]

theorem Describes.validGeoscores (describes : Describes world entries progress) :
    progress.metric.validGeoscores = (entries.filter Entry.isValid).map Entry.geoscore := by
  rw [MetricState.validGeoscores, describes.distances, describes.geoscores]
  clear describes
  induction entries with
  | nil => rfl
  | cons entry entries inductionHypothesis =>
    cases far : entry.distance <;>
      simp [Entry.isValid, far, inductionHypothesis]

theorem length_filterMap_distance (entries : List Entry) :
    ((entries.filter Entry.isValid).filterMap Entry.distance).length =
      (entries.filter Entry.isValid).length := by
  induction entries with
  | nil => rfl
  | cons entry entries inductionHypothesis =>
    cases far : entry.distance <;>
      simp [Entry.isValid, far, inductionHypothesis]

theorem Describes.consistent (describes : Describes world entries progress) {metrics : GeometricMetrics}
    (computes : progress.metric.compute = some metrics) : metrics.Over entries := by
  have nestedOf : ∀ distances : List ℚ, ∀ inner outer : Threshold,
      inner.kilometers ≤ outer.kilometers →
        accuracyOf distances inner ≤ accuracyOf distances outer :=
    fun distances inner outer smaller => accuracyOf_mono smaller distances
  have distances := describes.validDistances world
  have geoscores := describes.validGeoscores world
  unfold MetricState.compute at computes
  split at computes
  · cases computes
  split at computes
  · rename_i nothing
    have noEntry : entries.filter Entry.isValid = [] := by
      rw [distances] at nothing
      rw [← length_eq_zero_iff, ← length_filterMap_distance, nothing]
      rfl
    cases computes
    constructor <;> simp [describes.total, noEntry, Evaluation.mean, median]
    funext threshold
    simp [accuracyOf]
  · rename_i something
    have someEntry : progress.metric.validGeoscores ≠ [] := by
      rw [geoscores, ← length_pos_iff, length_map, ← length_filterMap_distance, ← distances]
      exact length_pos_iff.mpr something
    cases computes
    constructor
    · exact describes.total
    · rw [← countP_eq_length_filter]
      exact describes.valid
    · simp [distances]
    · simp [distances]
    · simp only [if_neg someEntry]
      rw [geoscores]
    · simp only [if_neg someEntry]
      rw [geoscores]
    · simp [distances]
    · exact nestedOf _

/-- **After updates whose samples meet the condition, every list has an entry for each counted
sample, and the metrics are over those with a distance.** -/
theorem run_consistent (geocoder : σ) (updates : List (List JsonValue × List JsonValue))
    (meet : Meet world geocoder (updates.flatMap fun given => samplesOf given.1 given.2)) :
    Consistent world (run world (.initial geocoder) updates) := by
  obtain ⟨entries, describes⟩ := (describes_initial world geocoder).run world meet
  exact ⟨entries, describes, fun metrics computes => describes.consistent world computes⟩

/-! ## Two runs -/

/-- Whole numbers as they are written, and places that are no distance apart. -/
def onSpot : Surroundings Unit where
  python := wholeNumbers
  extractAnswerFromJson _ := .null
  hasApiKeys := false
  callGeocode state _ := (none, state)
  geodesic _ _ _ _ := some 0
  exp _ := 1
  maxDistance := 20000

/-- A prediction with numeric coordinates. -/
def predAt (lat lon : Text) : JsonValue :=
  .object [(predLatKey, .number lat), (predLonKey, .number lon)]

def labelAt (lat lon : Text) : JsonValue :=
  .object [(codes "lat".toList, .number lat), (codes "lon".toList, .number lon)]

theorem coordinates_of_given {lat lon : Text} {predLat predLon : JsonValue}
    (given : GivenAt onSpot (predAt lat lon) predLat predLon) :
    predLat = .number lat ∧ predLon = .number lon := by
  obtain ⟨members, isObject, isLat, isLon, -⟩ := given
  cases isObject
  exact ⟨(Option.some.inj isLat).symm, (Option.some.inj isLon).symm⟩

theorem meets_predAt : GeoSample.Meets onSpot ()
    ⟨predAt "31".toList "121".toList, labelAt "31".toList "121".toList⟩ where
  readable := ⟨_, rfl, fun _ => rfl⟩
  labelled _ _ := ⟨_, _, rfl, rfl, fun _ => by norm_num [onSpot]⟩
  measured lat lon given := by
    obtain ⟨rfl, rfl⟩ := coordinates_of_given given
    exact ⟨by decide, fun _ _ _ _ => rfl⟩

theorem run_consistent_predAt : Consistent onSpot (run onSpot (.initial ())
    [([predAt "31".toList "121".toList], [labelAt "31".toList "121".toList])]) :=
  run_consistent onSpot () [([predAt "31".toList "121".toList],
    [labelAt "31".toList "121".toList])] ⟨meets_predAt, trivial⟩

/-- A prediction on the equator is given with coordinates in their range. -/
theorem given_equator : GivenAt onSpot (predAt "0".toList "30".toList) (.number "0".toList)
    (.number "30".toList) :=
  ⟨_, rfl, rfl, rfl, ⟨⟨_, rfl⟩, 0, rfl, by norm_num, by norm_num⟩,
    ⟨_, rfl⟩, 30, rfl, by norm_num, by norm_num⟩

/-- A prediction on the equator has no distance. -/
theorem not_consistent_equator : ¬ Consistent onSpot (run onSpot (.initial ())
    [([predAt "0".toList "30".toList], [labelAt "0".toList "30".toList])]) := by
  rintro ⟨entries, describes, -⟩
  have distances : [none] = entries.map Entry.distance := describes.distances
  have counted : [GeoSample.mk (predAt "0".toList "30".toList) (labelAt "0".toList "30".toList)] =
      entries.map Entry.sample := describes.counted
  match entries, distances, counted, describes.given with
  | [entry], distances, counted, given =>
    have isSample : entry.sample.pred = predAt "0".toList "30".toList := by
      simp only [map_cons, map_nil, List.cons.injEq, and_true] at counted
      rw [← counted]
    have valid := given entry (mem_singleton_self entry) _ _ (isSample ▸ given_equator)
    simp only [map_cons, map_nil, List.cons.injEq, and_true] at distances
    simp [Entry.isValid, ← distances] at valid

end Geobench.Metrics
