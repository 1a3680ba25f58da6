import Mathlib.Algebra.BigOperators.Ring.Finset
import Geobench.Evaluation.EnrichedRows
import Geobench.Library.Grouping

/-!
# The metrics of a report

`computeMetrics` counts the results of some rows. The accuracies and the scores are over all of
them, the distances over those with a distance. `writeReport` has the metrics of all rows, of the
rows of each continent and of the rows of each domain.

What is counted is a sum over the rows, so that the groups add up (`Tally.sum_groups`).
**`reportsAgree_iff`**: the metrics agree with the counters of `enrichRows`, and those of the
groups with the overall ones, exactly where no row raises.
-/

namespace Geobench.Evaluation

open Library Rewards List

variable {σ : Type} (setup : Setup σ)

/-! ## Metrics -/

inductive Threshold where
  | continent
  | country
  | region
  | city
  | street
  deriving DecidableEq, Repr

def Threshold.metricName : Threshold → Text
  | .continent => "continent_accuracy".toList
  | .country => "country_accuracy".toList
  | .region => "region_accuracy".toList
  | .city => "city_accuracy".toList
  | .street => "street_accuracy".toList

def Threshold.kilometers : Threshold → ℚ
  | .continent => 2500
  | .country => 750
  | .region => 200
  | .city => 25
  | .street => 1

/-- What `compute_metrics` collects in its loop. -/
structure Tally where
  statuses : List Status
  distances : List ℚ
  geoscores : List ℚ

def Tally.empty : Tally := ⟨[], [], []⟩

/-- A row without a result, or without a distance, has the score zero. -/
def Tally.add (tally : Tally) (row : EvalRow) : Tally :=
  match row.result with
  | none => { tally with geoscores := tally.geoscores ++ [0] }
  | some result =>
    let tally := { tally with statuses := tally.statuses ++ [result.status] }
    match result.status, result.distance with
    | .success, some distance =>
      { tally with
        distances := tally.distances ++ [distance]
        geoscores := tally.geoscores ++ [setup.reportGeoscore distance] }
    | _, _ => { tally with geoscores := tally.geoscores ++ [0] }

/-- `statistics.mean` -/
def mean (values : List ℚ) : ℚ := values.sum / values.length

/-- `statistics.median` -/
def median (values : List ℚ) : ℚ :=
  let sorted := values.mergeSort fun first second => decide (first ≤ second)
  if values.length % 2 = 1 then sorted.getD (values.length / 2) 0
  else (sorted.getD (values.length / 2 - 1) 0 + sorted.getD (values.length / 2) 0) / 2

structure Metrics where
  totalSamples : ℕ
  validPredictions : ℕ
  statusCounts : Status → ℕ
  accuracy : Threshold → ℚ
  meanDistance : ℚ
  medianDistance : ℚ
  meanGeoscore : ℚ
  medianGeoscore : ℚ

def computeMetrics (rows : List EvalRow) : Metrics :=
  let tally := rows.foldl (Tally.add setup) .empty
  { totalSamples := rows.length
    validPredictions := tally.distances.length
    statusCounts := fun status => tally.statuses.count status
    accuracy := fun threshold =>
      let hitCount := tally.distances.countP fun distance => decide (distance ≤ threshold.kilometers)
      if rows = [] then 0 else hitCount / rows.length
    meanDistance := if tally.distances = [] then 0 else mean tally.distances
    medianDistance := if tally.distances = [] then 0 else median tally.distances
    meanGeoscore := if tally.geoscores = [] then 0 else mean tally.geoscores
    medianGeoscore := if tally.geoscores = [] then 0 else median tally.geoscores }

/-! ## Reports -/

def unknownKey : CodePoints := codes "UNKNOWN".toList

/-- `value or "UNKNOWN"` as a text. -/
def strOrUnknown (value : RowValue) : CodePoints :=
  match value with
  | .json json => if truthy setup.python json then setup.str value else unknownKey
  | .result _ => setup.str value

def groupKey (resultField field : CodePoints) (row : EvalRow) : CodePoints :=
  let key := strip isBlankCode (strOrUnknown setup (row.get resultField field))
  if key = [] then unknownKey else key

def groupByField (resultField field : CodePoints) (rows : List EvalRow) :
    List (CodePoints × List EvalRow) :=
  groupBy (groupKey setup resultField field) rows

def groupMetrics (resultField field : CodePoints) (rows : List EvalRow) :
    List (CodePoints × Metrics) :=
  (sortedGroups (groupByField setup resultField field rows)).map fun group =>
    (group.1, computeMetrics setup group.2)

structure Report where
  overall : Metrics
  domains : List (CodePoints × Metrics)
  continents : List (CodePoints × Metrics)

def domainField : CodePoints := codes "domain".toList

def writeReport (rows : List EvalRow) (resultField continentField : CodePoints) : Report where
  overall := computeMetrics setup rows
  continents := groupMetrics setup resultField continentField rows
  domains := groupMetrics setup resultField domainField rows

/-! ## What a report promises -/

/-- The metrics of groups add up to those of all rows. -/
structure AddUp (overall : Metrics) (groups : List (CodePoints × Metrics)) : Prop where
  samples : (groups.map fun group => group.2.totalSamples).sum = overall.totalSamples
  valid : (groups.map fun group => group.2.validPredictions).sum = overall.validPredictions
  statuses : ∀ status,
    (groups.map fun group => group.2.statusCounts status).sum = overall.statusCounts status
  accuracy : ∀ threshold, overall.accuracy threshold =
    weightedMean (groups.map fun group => (group.2.accuracy threshold, group.2.totalSamples))
  geoscore : overall.meanGeoscore =
    weightedMean (groups.map fun group => (group.2.meanGeoscore, group.2.totalSamples))
  distance : overall.meanDistance =
    weightedMean (groups.map fun group => (group.2.meanDistance, group.2.validPredictions))

/-- A smaller threshold has a smaller accuracy. -/
def Nested (metrics : Metrics) : Prop :=
  ∀ inner outer : Threshold, inner.kilometers ≤ outer.kilometers →
    metrics.accuracy inner ≤ metrics.accuracy outer

structure Report.Consistent (report : Report) (stats : Stats) : Prop where
  valid : report.overall.validPredictions = stats.geocodeSuccess
  domains : AddUp report.overall report.domains
  continents : AddUp report.overall report.continents
  nested : Nested report.overall
  nestedGroups : ∀ group ∈ report.domains ++ report.continents, Nested group.2

/-- The counters of `enrich_rows` sum to the number of rows and are those of the statuses. -/
structure Stats.Agrees (stats : Stats) (rows : List EvalRow) (overall : Metrics) : Prop where
  total : stats.geocodeSuccess + stats.geocodeFailed + stats.parseFailed + stats.inferenceFailed =
    rows.length
  success : stats.geocodeSuccess = overall.statusCounts .success
  failed : stats.geocodeFailed + stats.parseFailed = overall.statusCounts .failed
  inferenceFailed : stats.inferenceFailed = overall.statusCounts .inferenceFailed
  counters : ∀ counter, stats.get counter = rows.countP (EvalRow.isCounted counter)

/-- All rows get a result, the counters agree with them, and every report is consistent. -/
def ReportsAgree (names : FieldNames) (state : σ) (rows : List DataRow) : Prop :=
  ∃ enriched stats after, enrichRows setup names state rows = some (enriched, stats, after) ∧
    enriched.map EvalRow.fields = rows ∧ (∀ row ∈ enriched, row.result.isSome) ∧
      stats.Agrees enriched (computeMetrics setup enriched) ∧
        ∀ resultField continentField,
          (writeReport setup enriched resultField continentField).Consistent stats

/-! ## What the loop collects -/

def EvalRow.statuses (row : EvalRow) : List Status := (row.result.map Result.status).toList

def EvalRow.distances (row : EvalRow) : List ℚ :=
  match row.result with
  | some result => if result.status = .success then result.distance.toList else []
  | none => []

def EvalRow.geoscore (row : EvalRow) : ℚ := (row.distances.map setup.reportGeoscore).sum

theorem Tally.add_eq (tally : Tally) (row : EvalRow) :
    tally.add setup row =
      ⟨tally.statuses ++ row.statuses, tally.distances ++ row.distances,
        tally.geoscores ++ [row.geoscore setup]⟩ := by
  obtain ⟨fields, result⟩ := row
  cases result with
  | none => simp [Tally.add, EvalRow.statuses, EvalRow.distances, EvalRow.geoscore]
  | some result =>
    obtain ⟨status, _, _, _, _, _, distance, _, _⟩ := result
    cases status <;> cases distance <;>
      simp [Tally.add, EvalRow.statuses, EvalRow.distances, EvalRow.geoscore]

theorem foldl_add (tally : Tally) (rows : List EvalRow) :
    rows.foldl (Tally.add setup) tally =
      ⟨tally.statuses ++ rows.flatMap EvalRow.statuses,
        tally.distances ++ rows.flatMap EvalRow.distances,
        tally.geoscores ++ rows.map (EvalRow.geoscore setup)⟩ := by
  induction rows generalizing tally with
  | nil => simp
  | cons row rows inductionHypothesis =>
    rw [foldl_cons, inductionHypothesis, Tally.add_eq]
    simp

def EvalRow.hits (threshold : Threshold) (row : EvalRow) : ℕ :=
  row.distances.countP fun distance => decide (distance ≤ threshold.kilometers)

theorem computeMetrics_statusCounts (rows : List EvalRow) (status : Status) :
    (computeMetrics setup rows).statusCounts status =
      (rows.map fun row => row.statuses.count status).sum := by
  simp [computeMetrics, foldl_add, Tally.empty, count_flatMap, Function.comp_def]

theorem computeMetrics_validPredictions (rows : List EvalRow) :
    (computeMetrics setup rows).validPredictions =
      (rows.map fun row => row.distances.length).sum := by
  simp [computeMetrics, foldl_add, Tally.empty, length_flatMap]

theorem computeMetrics_accuracy (rows : List EvalRow) (threshold : Threshold) :
    (computeMetrics setup rows).accuracy threshold =
      (rows.map fun row => (row.hits threshold : ℚ)).sum / rows.length := by
  have hits : ((rows.flatMap EvalRow.distances).countP
      fun distance => decide (distance ≤ threshold.kilometers)) =
        (rows.map (EvalRow.hits threshold)).sum := by
    rw [countP_flatMap]
    rfl
  cases rows with
  | nil => simp [computeMetrics]
  | cons row rows =>
    simp only [computeMetrics, foldl_add, Tally.empty, nil_append, hits]
    simp [Nat.cast_list_sum, Function.comp_def]

theorem computeMetrics_meanGeoscore (rows : List EvalRow) :
    (computeMetrics setup rows).meanGeoscore =
      (rows.map (EvalRow.geoscore setup)).sum / rows.length := by
  cases rows with
  | nil => simp [computeMetrics, Tally.empty]
  | cons row rows =>
    simp only [computeMetrics, foldl_add, Tally.empty, nil_append]
    simp [mean]

theorem computeMetrics_meanDistance (rows : List EvalRow) :
    (computeMetrics setup rows).meanDistance =
      (rows.map fun row => row.distances.sum).sum /
        ((rows.map fun row => row.distances.length).sum : ℕ) := by
  have total : (rows.flatMap EvalRow.distances).sum =
      (rows.map fun row => row.distances.sum).sum := by
    simp [flatMap, sum_flatten, Function.comp_def]
  have length : (rows.flatMap EvalRow.distances).length =
      (rows.map fun row => row.distances.length).sum := by
    simp [length_flatMap]
  simp only [computeMetrics, foldl_add, Tally.empty, nil_append]
  split
  · rename_i none
    rw [← total, none]
    simp
  · rw [mean, total, length]

/-! ## Groups -/

section Groups

variable (resultField field : CodePoints) (rows : List EvalRow)

theorem Tally.sum_groups {M : Type} [AddCommMonoid M] (measure : EvalRow → M)
    (amount : Metrics → M)
    (isSum : ∀ rows, amount (computeMetrics setup rows) = (rows.map measure).sum) :
    ((groupMetrics setup resultField field rows).map fun group => amount group.2).sum =
      amount (computeMetrics setup rows) := by
  rw [groupMetrics, map_map, isSum]
  simp only [Function.comp_def, isSum]
  rw [sum_sortedGroups fun group => (group.2.map measure).sum]
  exact sum_groupBy measure _ rows

theorem weightedMean_groups (measure : EvalRow → ℚ) (weigh : EvalRow → ℕ)
    (value : Metrics → ℚ) (weight : Metrics → ℕ)
    (isRatio : ∀ rows, value (computeMetrics setup rows) =
      (rows.map measure).sum / ((rows.map weigh).sum : ℕ))
    (isWeight : ∀ rows, weight (computeMetrics setup rows) = (rows.map weigh).sum)
    (weightless : ∀ row, weigh row = 0 → measure row = 0) :
    value (computeMetrics setup rows) =
      weightedMean ((groupMetrics setup resultField field rows).map
        fun group => (value group.2, weight group.2)) := by
  have empty : ∀ group ∈ sortedGroups (groupByField setup resultField field rows),
      (group.2.map weigh).sum = 0 → (group.2.map measure).sum = 0 := by
    intro group _ nothing
    refine sum_eq_zero fun amount member => ?_
    obtain ⟨row, isRow, rfl⟩ := mem_map.mp member
    exact weightless row (sum_eq_zero_iff.mp nothing _ (mem_map_of_mem isRow))
  have ratio := weightedMean_ratio (fun group : CodePoints × List EvalRow =>
    (group.2.map measure).sum) (fun group => (group.2.map weigh).sum) empty
  rw [groupMetrics, map_map]
  simp only [Function.comp_def, isRatio, isWeight]
  rw [ratio, sum_sortedGroups fun group : CodePoints × List EvalRow => (group.2.map measure).sum,
    sum_sortedGroups fun group : CodePoints × List EvalRow => (group.2.map weigh).sum]
  rw [groupByField, sum_groupBy measure, sum_groupBy weigh]

theorem computeMetrics_totalSamples :
    (computeMetrics setup rows).totalSamples = (rows.map fun _ => 1).sum := by
  simp [computeMetrics]

theorem distances_of_length {row : EvalRow} (none : row.distances.length = 0) :
    row.distances = [] := length_eq_zero_iff.mp none

theorem addUp_groupMetrics :
    AddUp (computeMetrics setup rows) (groupMetrics setup resultField field rows) where
  samples := Tally.sum_groups setup resultField field rows (fun _ => 1) Metrics.totalSamples
    (computeMetrics_totalSamples setup)
  valid := Tally.sum_groups setup resultField field rows _ Metrics.validPredictions
    (computeMetrics_validPredictions setup)
  statuses status := Tally.sum_groups setup resultField field rows _
    (fun metrics => metrics.statusCounts status)
    (fun rows => computeMetrics_statusCounts setup rows status)
  accuracy threshold :=
    weightedMean_groups setup resultField field rows (fun row => (row.hits threshold : ℚ))
      (fun _ => 1) (fun metrics => metrics.accuracy threshold) Metrics.totalSamples
      (fun rows => by simpa using computeMetrics_accuracy setup rows threshold)
      (computeMetrics_totalSamples setup) (by simp)
  geoscore :=
    weightedMean_groups setup resultField field rows (EvalRow.geoscore setup)
      (fun _ => 1) Metrics.meanGeoscore Metrics.totalSamples
      (fun rows => by simpa using computeMetrics_meanGeoscore setup rows)
      (computeMetrics_totalSamples setup) (by simp)
  distance :=
    weightedMean_groups setup resultField field rows (fun row => row.distances.sum)
      (fun row => row.distances.length) Metrics.meanDistance Metrics.validPredictions
      (computeMetrics_meanDistance setup) (computeMetrics_validPredictions setup)
      (fun row none => by simp [distances_of_length none])

end Groups

/-! ## Thresholds -/

theorem EvalRow.hits_mono {inner outer : Threshold} (smaller : inner.kilometers ≤ outer.kilometers)
    (row : EvalRow) : row.hits inner ≤ row.hits outer := by
  refine countP_mono_left fun distance _ within => ?_
  simp only [decide_eq_true_eq] at within ⊢
  exact within.trans smaller

/-- The accuracies of smaller thresholds are smaller. -/
theorem nested_computeMetrics (rows : List EvalRow) : Nested (computeMetrics setup rows) := by
  intro inner outer smaller
  rw [computeMetrics_accuracy, computeMetrics_accuracy]
  have fewer : (rows.map fun row => (row.hits inner : ℚ)).sum ≤
      (rows.map fun row => (row.hits outer : ℚ)).sum := by
    refine sum_le_sum fun row _ => ?_
    exact_mod_cast EvalRow.hits_mono smaller row
  exact div_le_div_of_nonneg_right fewer (by positivity)

/-! ## Counters -/

variable {row : EvalRow} {result : Result}

theorem length_distances (isResult : row.result = some result) (complete : result.Complete) :
    row.distances.length = if result.status = .success then 1 else 0 := by
  by_cases success : result.status = .success
  · obtain ⟨distance, isDistance⟩ := Option.isSome_iff_exists.mp (complete success)
    simp [EvalRow.distances, isResult, success, isDistance]
  · simp [EvalRow.distances, isResult, success]

theorem sum_eq_of_complete {rows : List EvalRow} {first second : EvalRow → ℕ}
    (results : ∀ row ∈ rows, ∃ result, row.result = some result ∧ result.Complete)
    (same : ∀ row result, row.result = some result → result.Complete → first row = second row) :
    (rows.map first).sum = (rows.map second).sum := by
  refine congrArg sum (map_congr_left fun row member => ?_)
  obtain ⟨result, isResult, complete⟩ := results row member
  exact same row result isResult complete

def EvalRow.counted (counter : Counter) (row : EvalRow) : ℕ :=
  if row.isCounted counter then 1 else 0

theorem countP_isCounted (counter : Counter) (rows : List EvalRow) :
    rows.countP (EvalRow.isCounted counter) = (rows.map (EvalRow.counted counter)).sum := by
  induction rows with
  | nil => rfl
  | cons row rows inductionHypothesis =>
    simp [countP_cons, inductionHypothesis, EvalRow.counted, add_comm]

theorem counted_eq (isResult : row.result = some result) (counter : Counter) :
    row.counted counter = if result.counter = counter then 1 else 0 := by
  simp [EvalRow.counted, EvalRow.isCounted, isResult]

theorem statuses_count (isResult : row.result = some result) (status : Status) :
    row.statuses.count status = if result.status = status then 1 else 0 := by
  simp [EvalRow.statuses, isResult, count_singleton]

variable {enriched : List EvalRow} {stats : Stats}

/-- The counters are those of the statuses. -/
theorem Enriched.agrees {rows : List DataRow} (isEnriched : Enriched rows .zero enriched stats) :
    stats.Agrees enriched (computeMetrics setup enriched) := by
  have counts : ∀ counter, stats.get counter = (enriched.map (EvalRow.counted counter)).sum := by
    intro counter
    rw [isEnriched.counts, countP_isCounted]
    cases counter <;> simp [Stats.get, Stats.zero]
  have success : stats.geocodeSuccess = _ := counts .geocodeSuccess
  have failed : stats.geocodeFailed = _ := counts .geocodeFailed
  have parse : stats.parseFailed = _ := counts .parseFailed
  have inference : stats.inferenceFailed = _ := counts .inferenceFailed
  refine ⟨?_, ?_, ?_, ?_, fun counter => ?_⟩
  · rw [success, failed, parse, inference, ← sum_map_add, ← sum_map_add, ← sum_map_add]
    have once : (enriched.map fun row => row.counted .geocodeSuccess + row.counted .geocodeFailed +
        row.counted .parseFailed + row.counted .inferenceFailed).sum =
          (enriched.map fun _ => 1).sum := by
      refine sum_eq_of_complete isEnriched.results fun row result isResult _ => ?_
      simp only [counted_eq isResult]
      cases result.counter <;> rfl
    simpa using once
  · rw [success, computeMetrics_statusCounts]
    refine sum_eq_of_complete isEnriched.results fun row result isResult _ => ?_
    rw [counted_eq isResult, statuses_count isResult]
    cases isStatus : result.status <;> simp [Result.counter, isStatus]
    split <;> simp
  · rw [failed, parse, computeMetrics_statusCounts, ← sum_map_add]
    refine sum_eq_of_complete isEnriched.results fun row result isResult _ => ?_
    rw [counted_eq isResult, counted_eq isResult, statuses_count isResult]
    cases isStatus : result.status <;> simp [Result.counter, isStatus]
    split <;> simp
  · rw [inference, computeMetrics_statusCounts]
    refine sum_eq_of_complete isEnriched.results fun row result isResult _ => ?_
    rw [counted_eq isResult, statuses_count isResult]
    cases isStatus : result.status <;> simp [Result.counter, isStatus]
    split <;> simp
  · rw [counts, countP_isCounted]

/-- The valid predictions of a report are the rows that were counted as successes. -/
theorem Enriched.valid {rows : List DataRow} (isEnriched : Enriched rows .zero enriched stats) :
    (computeMetrics setup enriched).validPredictions = stats.geocodeSuccess := by
  rw [(isEnriched.agrees setup).success, computeMetrics_validPredictions,
    computeMetrics_statusCounts]
  refine sum_eq_of_complete isEnriched.results fun row result isResult complete => ?_
  rw [length_distances isResult complete, statuses_count isResult]

theorem nested_groupMetrics (resultField field : CodePoints) (rows : List EvalRow) :
    ∀ group ∈ groupMetrics setup resultField field rows, Nested group.2 := by
  intro group member
  obtain ⟨_, _, rfl⟩ := mem_map.mp member
  exact nested_computeMetrics setup _

theorem Enriched.consistent {rows : List DataRow} (isEnriched : Enriched rows .zero enriched stats)
    (resultField continentField : CodePoints) :
    (writeReport setup enriched resultField continentField).Consistent stats where
  valid := isEnriched.valid setup
  domains := addUp_groupMetrics setup resultField domainField enriched
  continents := addUp_groupMetrics setup resultField continentField enriched
  nested := nested_computeMetrics setup enriched
  nestedGroups := by
    intro group member
    rcases mem_append.mp member with domain | continent
    · exact nested_groupMetrics setup resultField domainField enriched group domain
    · exact nested_groupMetrics setup resultField continentField enriched group continent

/-! ## Runs -/

/-- **All rows get a result, and the counters and every report agree with the results, exactly
where no row raises.** -/
theorem reportsAgree_iff (names : FieldNames) (state : σ) (rows : List DataRow) :
    ReportsAgree setup names state rows ↔ RowsRun setup names state rows := by
  rw [← enrichRows_eq_some setup names state rows]
  constructor
  · rintro ⟨enriched, stats, after, enriches, -⟩
    exact ⟨enriched, stats, after, enriches, enriched_of_enrichFrom setup names enriches⟩
  · rintro ⟨enriched, stats, after, enriches, isEnriched⟩
    refine ⟨enriched, stats, after, enriches, isEnriched.fields, fun row member => ?_,
      isEnriched.agrees setup, isEnriched.consistent setup⟩
    obtain ⟨result, isResult, -⟩ := isEnriched.results row member
    simp [isResult]

/-! ## A row that raises -/

/-- Whole numbers as they are written. Those with more than 309 digits do not fit a float. -/
def fittingNumbers : Conversions where
  float value :=
    match value with
    | .number literal =>
      if 309 < literal.length then .error .overflowError
      else wholeNumbers.float (.number literal)
    | value => wholeNumbers.float value
  float_null := rfl
  loads _ := none

/-- Every answer is found in one place. -/
def onePlace : Setup Unit where
  python := fittingNumbers
  str _ := []
  lower text := text
  extractAnswer _ := some (some (codes "Bern".toList))
  callOpencageGeocoding state _ :=
    some (.object [(statusKey, textValue "success".toList),
      (latitudeKey, .number "46".toList), (longitudeKey, .number "7".toList)], state)
  calculateDistance _ _ _ _ := some 0
  calculateGeoscore _ := 1
  reportGeoscore _ := 5000

def autoNames : FieldNames := ⟨codes "answer".toList, [], autoField, autoField⟩

def latitudeRow (literal : Text) : DataRow where
  fields := [(latitudeKey, .number literal)]
  nodup_keys := by simp

/-- An integer that is too large for a float is not caught. -/
theorem latitudeRow_truth {literal : Text} (huge : 309 < literal.length) :
    getTruthCoordinates fittingNumbers (latitudeRow literal) autoField autoField =
      .error .overflowError := by
  have overflows : safeFloat fittingNumbers (rowGet (latitudeRow literal) latitudeKey) =
      .error .overflowError := by
    have isLiteral : rowGet (latitudeRow literal) latitudeKey = .number literal := by
      simp [rowGet, latitudeRow, Record.get?, valueAt_cons]
    simp [isLiteral, safeFloat, fittingNumbers, huge]
  have first : firstFinite fittingNumbers (latitudeRow literal) latKeys =
      .error .overflowError := by
    rw [latKeys, firstFinite]
    exact congrArg (· >>= _) overflows
  simp [getTruthCoordinates, first]
  rfl

def hugeRow : DataRow := latitudeRow ('1' :: List.replicate 400 '0')

theorem not_reportsAgree_hugeRow : ¬ ReportsAgree onePlace autoNames () [hugeRow] := by
  rw [reportsAgree_iff]
  rintro ⟨runs, -⟩
  obtain ⟨answer, extracts, located⟩ := runs rfl
  obtain ⟨geoResult, after, returns, truth⟩ := located (codes "Bern".toList)
    (Option.some.inj extracts).symm (by decide)
  have isPlace : geoResult = .object [(statusKey, textValue "success".toList),
      (latitudeKey, .number "46".toList), (longitudeKey, .number "7".toList)] := by
    have found : geocode onePlace () (codes "Bern".toList) =
        some (.object [(statusKey, textValue "success".toList),
          (latitudeKey, .number "46".toList), (longitudeKey, .number "7".toList)], ()) := rfl
    rw [found] at returns
    exact (Prod.mk.inj (Option.some.inj returns)).1.symm
  obtain ⟨coordinates, isTruth, -⟩ := truth (by rw [isPlace]; decide)
  have overflows : getTruthCoordinates fittingNumbers hugeRow autoField autoField =
      .error .overflowError :=
    latitudeRow_truth (by rw [length_cons, length_replicate]; decide)
  simp only [onePlace, autoNames] at isTruth
  rw [overflows] at isTruth
  cases isTruth

end Geobench.Evaluation
