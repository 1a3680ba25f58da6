import Geobench.Rewards.GeoScore

/-!
# A row in a batch and alone

The trainer turns the rows of a batch into columns, with `None` for the rows that lack a key. The
distance reward takes the first of the names of a coordinate that is a column, so that another row
can put `None` before the coordinates that this row has under a later name.

**`rewardsAlone_iff`** says when each row has the reward that it has in a batch of its own.
-/

namespace Geobench.Rewards

open Library List

namespace GeoScoreReward

variable (reward : GeoScoreReward) (geocode : CodePoints → PredResult)

/-! ## Batches -/

/-- The rewards of a batch of rows with their completions, where the geocoder is a function of
the address. -/
def batchRewards (samples : List (DataRow × Text)) : List PyFloat :=
  let kwargs := rowsToBatched (samples.map Prod.fst)
  reward.call (fun _ _ => geocode) (samples.map Prod.snd) (valueAt kwargs solutionKey) kwargs

/-- There is one reward for each completion, the one that its row has alone. -/
def RewardsAlone (samples : List (DataRow × Text)) : Prop :=
  (reward.batchRewards geocode samples).length = samples.length ∧
    ∀ (index : ℕ) (sample : DataRow × Text), samples[index]? = some sample →
      (reward.batchRewards geocode samples)[index]? = (reward.batchRewards geocode [sample])[0]?

/-- What the solution of a row gives: its coordinates, or the place of its answer. -/
def solutionPlace (row : DataRow) : Option Coordinates :=
  let sol := rowGet row solutionKey
  match getGtCoordinatesFromSolution reward.python sol with
  | .error _ => none
  | .ok (some coordinates) => some coordinates
  | .ok none => (geocodedAddress reward.interpreter (reward.str sol)).bind fun gtAnswer =>
    (geocode gtAnswer).coordinates

/-- What the columns of a row give, and where they give nothing its solution. -/
def placeFrom (columns : Except FloatError (Option Coordinates)) (row : DataRow) :
    Option Coordinates :=
  match columns with
  | .error _ => none
  | .ok (some coordinates) => some coordinates
  | .ok none => reward.solutionPlace geocode row

def ownColumns (row : DataRow) : Except FloatError (Option Coordinates) :=
  judge (columnReading reward.python [row] row latKeys)
    (columnReading reward.python [row] row lonKeys)

def placeScore (pred : Coordinates) (truth : Option Coordinates) : PyFloat :=
  (truth.map (reward.scoreBetween pred)).getD (.finite 0)

/-- No row is masked: where a prediction is found and a row has coordinates of its own that
the columns of the batch do not give, what the solution gives instead has the same score. -/
def Unmasked (samples : List (DataRow × Text)) : Prop :=
  ∀ sample ∈ samples, ∀ answer pred,
    geocodedAddress reward.interpreter sample.2 = some answer →
    (geocode answer).coordinates = some pred →
    Settled reward.python [sample.1] sample.1 →
    ¬ Settled reward.python (samples.map Prod.fst) sample.1 →
      reward.placeScore pred (reward.placeFrom geocode (reward.ownColumns sample.1) sample.1) =
        reward.placeScore pred (reward.solutionPlace geocode sample.1)

/-! ## What a row has in a batch -/

def rewardFrom (columns : Except FloatError (Option Coordinates)) (sample : DataRow × Text) :
    PyFloat :=
  ((reward.locatePrediction (fun _ _ => geocode) 0 sample.2).map fun pred =>
    reward.placeScore pred (reward.placeFrom geocode columns sample.1)).getD (.finite 0)

variable {rows : List DataRow} {sample : DataRow × Text}

theorem sampleReward_eq_rewardFrom {index : ℕ} (isRow : rows[index]? = some sample.1) :
    reward.sampleReward (fun _ _ => geocode) (rowsToBatched rows) index sample.2
        (rowGet sample.1 solutionKey) =
      reward.rewardFrom geocode
        (judge (columnReading reward.python rows sample.1 latKeys)
          (columnReading reward.python rows sample.1 lonKeys)) sample := by
  have truth : reward.locateTruth (fun _ _ => geocode) (rowsToBatched rows) index
      (rowGet sample.1 solutionKey) = reward.placeFrom geocode
        (judge (columnReading reward.python rows sample.1 latKeys)
          (columnReading reward.python rows sample.1 lonKeys)) sample.1 := by
    rw [locateTruth, getGtCoordinates_eq reward.python isRow]
    generalize judge (columnReading reward.python rows sample.1 latKeys)
      (columnReading reward.python rows sample.1 lonKeys) = columns
    rcases columns with _ | _ | _ <;> rfl
  have prediction : reward.locatePrediction (fun _ _ => geocode) index sample.2 =
      reward.locatePrediction (fun _ _ => geocode) 0 sample.2 := rfl
  rw [sampleReward, passed, truth, prediction, rewardFrom]
  cases reward.locatePrediction (fun _ _ => geocode) 0 sample.2 with
  | none => rfl
  | some pred =>
    rw [Option.bind_some, Option.map_map, Option.map_some, Option.getD_some]
    rfl

theorem length_solutionsOf (solution : Option (List JsonValue)) (count : ℕ) :
    (solutionsOf solution count).length = count := by
  unfold solutionsOf
  dsimp only
  split
  · rename_i single
    simp [single.1]
  · split
    · exact length_replicate
    · rename_i same
      exact not_not.mp same

theorem length_batchRewards (samples : List (DataRow × Text)) :
    (reward.batchRewards geocode samples).length = samples.length := by
  simp [batchRewards, call, length_solutionsOf]

theorem batchRewards_getElem? {samples : List (DataRow × Text)} {index : ℕ}
    (isSample : samples[index]? = some sample) :
    (reward.batchRewards geocode samples)[index]? =
      some (reward.rewardFrom geocode
        (judge (columnReading reward.python (samples.map Prod.fst) sample.1 latKeys)
          (columnReading reward.python (samples.map Prod.fst) sample.1 lonKeys)) sample) := by
  have isRow : (samples.map Prod.fst)[index]? = some sample.1 := by
    rw [getElem?_map, isSample, Option.map_some]
  have isCompletion : (samples.map Prod.snd)[index]? = some sample.2 := by
    rw [getElem?_map, isSample, Option.map_some]
  have inside := (List.getElem?_eq_some_iff.mp isRow).1
  have isSolution : (solutionsOf
      (valueAt (rowsToBatched (samples.map Prod.fst)) solutionKey)
      (samples.map Prod.snd).length)[index]? = some (rowGet sample.1 solutionKey) := by
    have found := solutionsOf_rows isRow
    rw [length_map] at found inside ⊢
    rw [getD_eq_getElem?_getD] at found
    rw [getElem?_eq_getElem (by rw [length_solutionsOf]; exact inside)] at found ⊢
    exact congrArg some found
  have isPair : ((samples.map Prod.snd).zip (solutionsOf
      (valueAt (rowsToBatched (samples.map Prod.fst)) solutionKey)
      (samples.map Prod.snd).length))[index]? =
        some (sample.2, rowGet sample.1 solutionKey) :=
    getElem?_zip_eq_some.mpr ⟨isCompletion, isSolution⟩
  rw [batchRewards, call_getElem?, isPair, Option.map_some,
    ← sampleReward_eq_rewardFrom reward geocode isRow]

theorem batchRewards_single (sample : DataRow × Text) :
    (reward.batchRewards geocode [sample])[0]? =
      some (reward.rewardFrom geocode (reward.ownColumns sample.1) sample) :=
  reward.batchRewards_getElem? geocode rfl

/-! ## Masked rows -/

variable {row : DataRow}

omit reward geocode in
/-- What the columns of a batch give of use is what the row has alone. -/
theorem columnReading_alone (python : Conversions) (isRow : row ∈ rows) (keys : List CodePoints)
    (useful : columnReading python rows row keys ≠ .unusable) :
    columnReading python [row] row keys = columnReading python rows row keys := by
  induction keys with
  | nil => rfl
  | cons key rest ih =>
    rw [columnReading, find?_cons] at useful ⊢
    rw [columnReading, find?_cons]
    by_cases isColumn : ∃ row ∈ rows, row.Carries key
    · rw [decide_eq_true isColumn] at useful ⊢
      have carries : row.Carries key := by
        by_contra lacks
        have absent : row.get? key = none := Option.not_isSome_iff_eq_none.mp lacks
        refine useful ?_
        dsimp only
        rw [Option.map_some, Option.getD_some, rowGet, absent, Option.getD_none, reading,
          python.float_null]
      rw [decide_eq_true ⟨row, mem_singleton_self row, carries⟩]
    · have lacks : ¬ ∃ other ∈ [row], other.Carries key := by
        rintro ⟨other, isOther, carries⟩
        exact isColumn ⟨row, isRow, mem_singleton.mp isOther ▸ carries⟩
      rw [decide_eq_false isColumn] at useful ⊢
      rw [decide_eq_false lacks]
      exact ih useful

omit reward geocode in
theorem judge_eq_none_of_not_settled {python : Conversions}
    (unsettled : ¬ Settled python rows row) :
    judge (columnReading python rows row latKeys) (columnReading python rows row lonKeys) =
      .ok none :=
  judge_eq_none_iff.mpr unsettled

omit geocode in
/-- A row that the columns of the batch settle has the same alone. -/
theorem ownColumns_of_settled (isRow : row ∈ rows) (settled : Settled reward.python rows row) :
    reward.ownColumns row = judge (columnReading reward.python rows row latKeys)
      (columnReading reward.python rows row lonKeys) := by
  have alone := columnReading_alone reward.python isRow
  rw [ownColumns]
  rcases settled with ⟨lat, lon, isLat, isLon, -⟩ | tooLarge | tooLarge
  · rw [alone latKeys (by simp [isLat]), alone lonKeys (by simp [isLon])]
  · rw [alone latKeys (by simp [tooLarge]), tooLarge]
    rfl
  · rw [alone lonKeys (by simp [tooLarge]), tooLarge]
    cases columnReading reward.python [row] row latKeys <;>
      cases columnReading reward.python rows row latKeys <;> rfl

omit geocode in
theorem ownColumns_of_not_settled (unsettled : ¬ Settled reward.python [row] row) :
    reward.ownColumns row = .ok none :=
  judge_eq_none_of_not_settled unsettled

/-- One row has the reward that it has alone exactly when what takes the place of its own
coordinates scores the same. -/
theorem rewardFrom_own_iff (isRow : sample.1 ∈ rows) :
    reward.rewardFrom geocode
        (judge (columnReading reward.python rows sample.1 latKeys)
          (columnReading reward.python rows sample.1 lonKeys)) sample =
        reward.rewardFrom geocode (reward.ownColumns sample.1) sample ↔
      ∀ answer pred, geocodedAddress reward.interpreter sample.2 = some answer →
        (geocode answer).coordinates = some pred →
        Settled reward.python [sample.1] sample.1 →
        ¬ Settled reward.python rows sample.1 →
          reward.placeScore pred (reward.placeFrom geocode (reward.ownColumns sample.1) sample.1) =
            reward.placeScore pred (reward.solutionPlace geocode sample.1) := by
  by_cases settled : Settled reward.python rows sample.1
  · rw [reward.ownColumns_of_settled isRow settled]
    exact iff_of_true rfl fun _ _ _ _ _ unsettled => absurd settled unsettled
  rw [judge_eq_none_of_not_settled settled]
  by_cases ownSettled : Settled reward.python [sample.1] sample.1
  · rw [rewardFrom, rewardFrom, locatePrediction]
    cases isAnswer : geocodedAddress reward.interpreter sample.2 with
    | none => exact iff_of_true rfl (by rintro _ _ ⟨⟩)
    | some answer =>
      rw [Option.bind_some]
      cases isPlace : (geocode answer).coordinates with
      | none =>
        refine iff_of_true rfl fun other _ isOther isAlso => ?_
        cases isOther
        rw [isPlace] at isAlso
        cases isAlso
      | some pred =>
        rw [Option.map_some, Option.getD_some, Option.map_some, Option.getD_some]
        constructor
        · intro same other place isOther isAlso _ _
          cases isOther
          rw [isPlace] at isAlso
          cases isAlso
          exact same.symm
        · exact fun unmasked => (unmasked answer pred rfl isPlace ownSettled settled).symm
  · rw [reward.ownColumns_of_not_settled ownSettled]
    exact iff_of_true rfl fun _ _ _ _ settled => absurd settled ownSettled

/-- **Every row has the reward that it has alone exactly when no row is masked.** -/
theorem rewardsAlone_iff (samples : List (DataRow × Text)) :
    reward.RewardsAlone geocode samples ↔ reward.Unmasked geocode samples := by
  rw [RewardsAlone, and_iff_right (reward.length_batchRewards geocode samples)]
  constructor
  · intro same sample isSample
    obtain ⟨index, inside, rfl⟩ := mem_iff_getElem.mp isSample
    have isPlace := getElem?_eq_getElem inside
    have agree := same index samples[index] isPlace
    rw [reward.batchRewards_getElem? geocode isPlace, reward.batchRewards_single] at agree
    exact (reward.rewardFrom_own_iff geocode (mem_map_of_mem isSample)).mp
      (Option.some.inj agree)
  · intro unmasked index sample isPlace
    have isSample := mem_of_getElem? isPlace
    rw [reward.batchRewards_getElem? geocode isPlace, reward.batchRewards_single]
    exact congrArg some ((reward.rewardFrom_own_iff geocode (mem_map_of_mem isSample)).mpr
      (unmasked sample isSample))

end GeoScoreReward

/-! ## A masked row -/

def otherNames : DataRow where
  fields := [(codes "gt_latitude".toList, .number "0".toList),
    (codes "gt_longitude".toList, .number "0".toList)]
  nodup_keys := by decide

theorem geocodedAddress_none : geocodedAddress plainPython "None".toList = none := by
  decide +kernel

theorem scoreBetween_origin :
    originReward.scoreBetween (.finite 0, .finite 0) (.finite 0, .finite 0) = .finite 1 := by
  have angle : originReward.haversine (0, 0) (0, 0) = 0 := by
    norm_num [GeoScoreReward.haversine, originReward, nearZero]
  rw [GeoScoreReward.scoreBetween, GeoScoreReward.calculateDistance_finite, angle]
  norm_num [MathModule.rootOf, MathModule.arcOf, GeoScoreReward.calculateGeoscore, originReward,
    nearZero, PyFloat.onFinite]

/-- **The row loses its coordinates to another row**, which has the first names. -/
theorem not_rewardsAlone_otherNames :
    ¬ ∀ (reward : GeoScoreReward) (geocode : CodePoints → PredResult)
      (samples : List (DataRow × Text)), reward.RewardsAlone geocode samples := by
  intro always
  obtain ⟨-, alone⟩ := always originReward (originGeocoder 0 .prediction)
    [(otherNames, answered), (plainRow, answered)]
  have same := alone 0 (otherNames, answered) rfl
  rw [originReward.batchRewards_getElem? _ rfl, originReward.batchRewards_single] at same
  have isAnswer : geocodedAddress originReward.interpreter answered = some [65] :=
    geocodedAddress_answered
  have masked : judge (columnReading originReward.python [otherNames, plainRow] otherNames latKeys)
      (columnReading originReward.python [otherNames, plainRow] otherNames lonKeys) =
        .ok none := rfl
  have own : originReward.ownColumns otherNames = .ok (some (.finite 0, .finite 0)) := rfl
  have nowhere : originReward.solutionPlace (originGeocoder 0 .prediction) otherNames = none :=
    congrArg (fun found : Option CodePoints => found.bind fun gtAnswer =>
      (originGeocoder 0 .prediction gtAnswer).coordinates) geocodedAddress_none
  have zero : originReward.rewardFrom (originGeocoder 0 .prediction) (.ok none)
      (otherNames, answered) = .finite 0 := by
    rw [GeoScoreReward.rewardFrom, GeoScoreReward.locatePrediction, isAnswer,
      GeoScoreReward.placeFrom, nowhere]
    rfl
  have one : originReward.rewardFrom (originGeocoder 0 .prediction)
      (.ok (some (.finite 0, .finite 0))) (otherNames, answered) = .finite 1 := by
    rw [GeoScoreReward.rewardFrom, GeoScoreReward.locatePrediction, isAnswer]
    exact scoreBetween_origin
  rw [map_cons, map_cons, map_nil, masked, own, zero, one] at same
  exact absurd same (by decide)

end Geobench.Rewards
