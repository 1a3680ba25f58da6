import Geobench.Trainers.DynamicSampling

/-!
# Advantages

The advantages of the samples of a batch, from the rewards that every reward function
gave them. A reward that a function did not give is `none`, `nan` in the source, and so is
an advantage that is not a number. The square root is any function.

The trainer has two ways to form groups. In the grouped mode every `num_generations`
samples in a row are a group. In the request-aware mode the last sample of every request
counts, and the requests with one prompt id are a group.

Only the `gdpo` branch of the grouped mode can leave a sample without a number
(`groupedAdvantages_of_not_gdpo`).
-/

set_option autoImplicit false
set_option linter.unusedSectionVars false

namespace Geobench.Trainers

open Library List

/-! ## Settings -/

inductive AdvantageEstimator where
  | grpo
  | rloo
  | reinforcePlusPlus
  deriving DecidableEq, Repr

inductive ScaleRewards where
  | group
  | batch
  | none
  | gdpo
  deriving DecidableEq, Repr

/-- The settings of a trainer that the advantages depend on. With `gdpo` the trainers set
`kl_in_reward` to false. -/
structure AdvantageSettings (F : Type) where
  advantageEstimator : AdvantageEstimator
  scaleRewards : ScaleRewards
  numGenerations : ℕ
  numGenerations_pos : 0 < numGenerations
  rewardWeights : List F
  klInReward : Bool
  beta : F
  gdpo_kl : scaleRewards = .gdpo → klInReward = false

/-- Groups of two, with `gdpo`. -/
def gdpoPairs : AdvantageSettings ℚ where
  advantageEstimator := .grpo
  scaleRewards := .gdpo
  numGenerations := 2
  numGenerations_pos := Nat.two_pos
  rewardWeights := [1]
  klInReward := false
  beta := 0
  gdpo_kl := fun _ => rfl

/-- The exceptions that computing advantages raises. -/
inductive AdvantageError where
  | runtimeError
  | assertionError
  | attributeError
  | inconsistentRewards
  deriving DecidableEq, Repr

section Numbers

variable {F : Type} [Field F] [LinearOrder F] (sqrt : F → F)

/-! ## Operations on tensors -/

/-- The standard deviation, which one number does not have. -/
def tensorStd (values : List F) : Option F :=
  if 1 < values.length then some (sqrt (sampleVariance values)) else none

def viewGroups {α : Type} (size : ℕ) (values : List α) : List (List α) :=
  cutAt (· * size) (values.length / size) values

def repeatInterleave {α : Type} (size : ℕ) (values : List α) : List α :=
  values.flatMap fun value => List.replicate size value

/-- The weighted sum of the rewards of a sample, where `nan` counts as zero. -/
def weightedNansum (rewardWeights : List F) (row : List (Option F)) : F :=
  ((row.zip rewardWeights).map fun (reward, weight) =>
    match reward with
    | none => 0
    | some reward => reward * weight).sum

/-- The rewards that a function gave to the samples. -/
def rewardColumn (rewardsPerFunc : List (List (Option F))) (index : ℕ) : List (Option F) :=
  rewardsPerFunc.map fun row => row.getD index none

/-- The mean of the values that are numbers. -/
def nanmean (values : List (Option F)) : Option F :=
  let numbers := values.filterMap id
  if numbers.isEmpty then none else some (mean numbers)

/-- The standard deviation of the values that are numbers. -/
def nanstd (values : List (Option F)) : Option F :=
  let numbers := values.filterMap id
  let count : F := numbers.length
  let variance := mean (squaredDistances numbers)
  if 1 < numbers.length then some (sqrt (variance * (count / (count - 1)))) else none

/-- The mean of a vector, a number only when all its values are. -/
def tensorMean (values : List (Option F)) : Option F :=
  match values.mapM id with
  | none => none
  | some numbers => if numbers.isEmpty then none else some (mean numbers)

/-- The standard deviation of a vector, a number only when all its values are. -/
def tensorStdNan (values : List (Option F)) : Option F :=
  match values.mapM id with
  | none => none
  | some numbers => tensorStd sqrt numbers

/-! ## The rewards -/

/-- The rewards of the samples, less the divergence when it is part of the reward. -/
def totalRewards (settings : AdvantageSettings F) (rewardsPerFunc : List (List (Option F)))
    (kl : Option (List F)) : Except AdvantageError (List F) :=
  let rewards := rewardsPerFunc.map (weightedNansum settings.rewardWeights)
  if settings.klInReward && decide (settings.beta ≠ 0) then
    match kl with
    | none => .ok rewards
    | some kl =>
      if kl.length = rewards.length then
        .ok (List.zipWith (fun reward divergence => reward - settings.beta * divergence)
          rewards kl)
      else .error .runtimeError
  else .ok rewards

/-- Divide by the deviations, made positive by a small number. -/
def normalizeAdvantages (advantages : List F) (std : List (Option F)) : List (Option F) :=
  List.zipWith (fun advantage std => std.map fun std => advantage / (std + 1 / 10 ^ 4))
    advantages std

/-- The difference of a reward and its baseline, given the mean and the size of the
group. -/
def baselineAdvantage (estimator : AdvantageEstimator) (size : ℕ) (reward groupMean : F) : F :=
  if estimator = .rloo ∧ 1 < size then
    reward * size / (size - 1) - groupMean * size / (size - 1)
  else reward - groupMean

/-- The deviation of the batch, for every sample. One sample has the deviation zero. -/
def batchStd (values : List F) : List (Option F) :=
  if 1 < values.length then List.replicate values.length (tensorStd sqrt values)
  else List.replicate values.length (some 0)

/-! ## The grouped mode -/

/-- The deviation of its group, for every sample. Groups of one have the deviation zero. -/
def groupStd (size : ℕ) (values : List F) : List (Option F) :=
  if 1 < size then repeatInterleave size ((viewGroups size values).map (tensorStd sqrt))
  else List.replicate values.length (some 0)

/-- The differences of the rewards and their baselines. -/
def groupedBaseline (settings : AdvantageSettings F) (rewards : List F) : List F :=
  let groupRewardsMean := repeatInterleave settings.numGenerations
    ((viewGroups settings.numGenerations rewards).map mean)
  List.zipWith (baselineAdvantage settings.advantageEstimator settings.numGenerations)
    rewards groupRewardsMean

/-- The advantages of the grouped mode. The advantages of `gdpo` are given. -/
def groupedAdvantages (settings : AdvantageSettings F) (rewards : List F)
    (gdpo : Except AdvantageError (List (Option F))) :
    Except AdvantageError (List (Option F)) :=
  let advantages := groupedBaseline settings rewards
  match settings.advantageEstimator, settings.scaleRewards with
  | .reinforcePlusPlus, .batch => .ok (normalizeAdvantages advantages (batchStd sqrt advantages))
  | .reinforcePlusPlus, .group =>
    .ok (normalizeAdvantages advantages (groupStd sqrt settings.numGenerations advantages))
  | .reinforcePlusPlus, _ => .ok (advantages.map some)
  | _, .batch => .ok (normalizeAdvantages advantages (batchStd sqrt rewards))
  | _, .group =>
    .ok (normalizeAdvantages advantages (groupStd sqrt settings.numGenerations rewards))
  | _, .gdpo => gdpo
  | _, .none => .ok (advantages.map some)

/-- Make the mean of the batch zero and its deviation nearly one. -/
def whiten (advantages : List F) : List (Option F) :=
  advantages.map fun advantage =>
    (tensorStd sqrt advantages).map fun std =>
      (advantage - mean advantages) / (std + 1 / 10 ^ 8)

/-- The rewards of a function, normalized in their groups. What is not a number becomes
zero. -/
def gdpoNormalized (size : ℕ) (column : List (Option F)) : List F :=
  (viewGroups size column).flatMap fun group =>
    let groupMean := nanmean group
    let groupStd := if 1 < size then nanstd sqrt group else some 0
    group.map fun reward =>
      match reward, groupMean, groupStd with
      | some reward, some groupMean, some groupStd =>
        (reward - groupMean) / (groupStd + 1 / 10 ^ 8)
      | _, _, _ => 0

/-- The weighted sum over the functions, for every sample. -/
def weightedColumns (rewardWeights : List F) (count : ℕ) (columns : List (List F)) : List F :=
  (List.range count).map fun sample =>
    ((columns.zip rewardWeights).map fun (column, weight) => column.getD sample 0 * weight).sum

/-- The advantages of `gdpo`. -/
def gdpoAdvantages (settings : AdvantageSettings F) (rewardsPerFunc : List (List (Option F))) :
    Except AdvantageError (List (Option F)) :=
  let columns := (List.range settings.rewardWeights.length).map fun index =>
    gdpoNormalized sqrt settings.numGenerations (rewardColumn rewardsPerFunc index)
  .ok (whiten sqrt (weightedColumns settings.rewardWeights rewardsPerFunc.length columns))

/-! ## The request-aware mode -/

/-- The values of the requests that have a prompt id, in the order of the requests. -/
def promptGroup {α : Type} (promptIds : List String) (values : List α) (promptId : String) :
    List α :=
  ((promptIds.zip values).filter fun pair => pair.1 = promptId).map Prod.snd

def requestBaseline (settings : AdvantageSettings F) (promptIds : List String)
    (rewards : List F) : List F :=
  List.zipWith (fun promptId reward =>
    let group := promptGroup promptIds rewards promptId
    baselineAdvantage settings.advantageEstimator group.length reward (mean group))
    promptIds rewards

/-- The deviation of its group, for every request. -/
def promptStd (promptIds : List String) (values : List F) : List (Option F) :=
  promptIds.map fun promptId =>
    let group := promptGroup promptIds values promptId
    if 1 < group.length then tensorStd sqrt group else some 0

def requestAdvantages (settings : AdvantageSettings F) (promptIds : List String)
    (rewards : List F) : List (Option F) :=
  let advantages := requestBaseline settings promptIds rewards
  match settings.advantageEstimator, settings.scaleRewards with
  | .reinforcePlusPlus, .batch => normalizeAdvantages advantages (batchStd sqrt advantages)
  | .reinforcePlusPlus, .group =>
    normalizeAdvantages advantages (promptStd sqrt promptIds advantages)
  | .reinforcePlusPlus, _ => advantages.map some
  | _, .batch => normalizeAdvantages advantages (batchStd sqrt rewards)
  | _, .group => normalizeAdvantages advantages (promptStd sqrt promptIds rewards)
  | _, _ => advantages.map some

/-- Two rewards are close. -/
def allclose (reward other : F) : Prop :=
  |reward - other| ≤ 1 / 10 ^ 6 + 1 / 10 ^ 5 * |other|

instance (reward other : F) : Decidable (allclose reward other) :=
  inferInstanceAs (Decidable (_ ≤ _))

/-- The rewards of every request are close to the first of them. -/
def consistentRewards (requestIds : List String) (rewards : List F) : Bool :=
  requestIds.all fun requestId =>
    let own := promptGroup requestIds rewards requestId
    own.all fun reward => decide (allclose reward (own.headD 0))

def requestAwareAdvantages (settings : AdvantageSettings F) (promptIds requestIds : List String)
    (rewards : List F) : Except AdvantageError (List (Option F)) :=
  if rewards.length = promptIds.length ∧ promptIds.length = requestIds.length then
    let uniqueIndices := getLastIndices requestIds
    let uniqueRequestIds := uniqueIndices.map (requestIds.getD · "")
    let uniquePromptIds := uniqueIndices.map (promptIds.getD · "")
    if consistentRewards requestIds rewards then
      let uniqueRewards := uniqueIndices.map (rewards.getD · 0)
      let advantages := requestAdvantages sqrt settings uniquePromptIds uniqueRewards
      -- The metrics view the rewards of the requests as groups.
      if settings.numGenerations ∣ uniqueRewards.length then
        .ok (requestIds.map fun requestId =>
          advantages.getD (uniqueRequestIds.idxOf requestId) none)
      else .error .runtimeError
    else .error .inconsistentRewards
  else .error .assertionError

/-! ## The trainer -/

def computeAdvantages (settings : AdvantageSettings F) (dynamicNumSamples : Bool)
    (promptIds requestIds : List String) (rewardsPerFunc : List (List (Option F)))
    (kl : List F) : Except AdvantageError (List (Option F)) :=
  match totalRewards settings rewardsPerFunc (some kl) with
  | .error error => .error error
  | .ok rewards =>
    if dynamicNumSamples = false then
      if settings.numGenerations ∣ rewards.length then
        groupedAdvantages sqrt settings rewards (gdpoAdvantages sqrt settings rewardsPerFunc)
      else .error .runtimeError
    else requestAwareAdvantages sqrt settings promptIds requestIds rewards

/-! ## Vectors of numbers -/

variable {α : Type}

theorem mapM_id_map_some (values : List α) : (values.map some).mapM id = some values := by
  induction values with
  | nil => rfl
  | cons value values ih =>
    rw [map_cons, mapM_cons, ih]
    rfl

theorem exists_map_some {values : List (Option α)} (complete : none ∉ values) :
    ∃ numbers : List α, values = numbers.map some := by
  refine ⟨values.filterMap id, ?_⟩
  induction values with
  | nil => rfl
  | cons value values ih =>
    cases value with
    | none => exact absurd mem_cons_self complete
    | some number =>
      have rest := ih fun later => complete (mem_cons_of_mem _ later)
      exact congrArg (some number :: ·) rest

@[simp] theorem length_viewGroups {α : Type} (size : ℕ) (values : List α) :
    (viewGroups size values).length = values.length / size :=
  length_cutAt _ _ _

variable {size : ℕ} {values : List α}

theorem length_of_mem_viewGroups {group : List α} (isGroup : group ∈ viewGroups size values) :
    group.length = size := by
  obtain ⟨index, isIndex, rfl⟩ := mem_map.mp isGroup
  have covered : (index + 1) * size ≤ values.length :=
    Nat.le_trans (Nat.mul_le_mul_right _ (mem_range.mp isIndex)) (Nat.div_mul_le_self _ _)
  rw [length_slice, Nat.min_eq_left covered, Nat.succ_mul, Nat.add_sub_cancel_left]

theorem mem_of_mem_viewGroups {group : List α} {value : α}
    (isGroup : group ∈ viewGroups size values) (member : value ∈ group) : value ∈ values := by
  obtain ⟨index, -, rfl⟩ := mem_map.mp isGroup
  exact mem_of_mem_take (mem_of_mem_drop member)

theorem flatten_viewGroups (full : size ∣ values.length) :
    (viewGroups size values).flatten = values :=
  flatten_cutAt (fun _ _ before => Nat.mul_le_mul_right _ before) (Nat.zero_mul _)
    (Nat.le_of_eq (Nat.div_mul_cancel full).symm)

theorem viewGroups_map {β : Type} (f : α → β) (size : ℕ) (values : List α) :
    viewGroups size (values.map f) = (viewGroups size values).map (map f) := by
  rw [viewGroups, viewGroups, cutAt, cutAt, map_map, length_map]
  exact map_congr_left fun index _ => (map_slice f values _ _).symm

theorem length_repeatInterleave (size : ℕ) (values : List α) :
    (repeatInterleave size values).length = values.length * size := by
  induction values with
  | nil => rw [repeatInterleave, flatMap_nil, length_nil, Nat.zero_mul]
  | cons value values ih =>
    rw [repeatInterleave] at ih ⊢
    rw [flatMap_cons, length_append, ih, length_replicate, length_cons, Nat.succ_mul, Nat.add_comm]

theorem mem_repeatInterleave {value : α} (member : value ∈ repeatInterleave size values) :
    value ∈ values := by
  obtain ⟨original, isOriginal, isCopy⟩ := mem_flatMap.mp member
  rwa [eq_of_mem_replicate isCopy]

/-! ## The branches that the trainers share -/

theorem batchStd_complete (values : List F) : none ∉ batchStd sqrt values := by
  intro missing
  rw [batchStd] at missing
  split at missing
  · rename_i several
    have isNone := eq_of_mem_replicate missing
    rw [tensorStd, if_pos several] at isNone
    cases isNone
  · cases eq_of_mem_replicate missing

theorem groupStd_complete (size : ℕ) (values : List F) : none ∉ groupStd sqrt size values := by
  intro missing
  rw [groupStd] at missing
  split at missing
  · rename_i several
    obtain ⟨group, isGroup, isNone⟩ := mem_map.mp (mem_repeatInterleave missing)
    rw [tensorStd, if_pos (by rwa [length_of_mem_viewGroups isGroup])] at isNone
    cases isNone
  · cases eq_of_mem_replicate missing

theorem normalizeAdvantages_complete (advantages : List F) {std : List (Option F)}
    (complete : none ∉ std) : none ∉ normalizeAdvantages advantages std := by
  obtain ⟨numbers, rfl⟩ := exists_map_some complete
  intro missing
  rw [normalizeAdvantages, zipWith_map_right, ← map_uncurry_zip_eq_zipWith] at missing
  obtain ⟨pair, -, isNone⟩ := mem_map.mp missing
  cases isNone

theorem length_batchStd (values : List F) : (batchStd sqrt values).length = values.length := by
  rw [batchStd]
  split <;> exact length_replicate

theorem length_groupStd {values : List F} (full : size ∣ values.length) :
    (groupStd sqrt size values).length = values.length := by
  rw [groupStd]
  split
  · rw [length_repeatInterleave, length_map, length_viewGroups, Nat.div_mul_cancel full]
  · exact length_replicate

variable {settings : AdvantageSettings F}

theorem length_groupedBaseline {rewards : List F}
    (full : settings.numGenerations ∣ rewards.length) :
    (groupedBaseline settings rewards).length = rewards.length := by
  rw [groupedBaseline, length_zipWith, length_repeatInterleave, length_map,
    length_viewGroups, Nat.div_mul_cancel full, Nat.min_self]

theorem length_normalizeAdvantages {advantages : List F} {std : List (Option F)}
    (same : std.length = advantages.length) :
    (normalizeAdvantages advantages std).length = advantages.length := by
  rw [normalizeAdvantages, length_zipWith, same, Nat.min_self]

/-- The branch that the copies of the trainers differ in. -/
def AdvantageSettings.UsesGdpo (settings : AdvantageSettings F) : Prop :=
  settings.scaleRewards = .gdpo ∧ settings.advantageEstimator ≠ .reinforcePlusPlus

instance (settings : AdvantageSettings F) : Decidable settings.UsesGdpo :=
  inferInstanceAs (Decidable (_ ∧ _))

theorem groupedAdvantages_of_gdpo (uses : settings.UsesGdpo) (rewards : List F)
    (gdpo : Except AdvantageError (List (Option F))) :
    groupedAdvantages sqrt settings rewards gdpo = gdpo := by
  obtain ⟨scale, estimator⟩ := uses
  rw [groupedAdvantages, scale]
  cases isEstimator : settings.advantageEstimator with
  | grpo => rfl
  | rloo => rfl
  | reinforcePlusPlus => exact absurd isEstimator estimator

/-- Outside that branch every sample has an advantage, a number, the same in all copies. -/
theorem groupedAdvantages_of_not_gdpo (other : ¬settings.UsesGdpo) {rewards : List F}
    (full : settings.numGenerations ∣ rewards.length) :
    ∃ advantages : List F, advantages.length = rewards.length ∧
      ∀ gdpo, groupedAdvantages sqrt settings rewards gdpo = .ok (advantages.map some) := by
  let baseline := groupedBaseline settings rewards
  have lengthBaseline : baseline.length = rewards.length := length_groupedBaseline full
  have fullBaseline : settings.numGenerations ∣ baseline.length := by rwa [lengthBaseline]
  have scaled : ∀ std : List (Option F), none ∉ std → std.length = rewards.length →
      ∃ advantages : List F, advantages.length = rewards.length ∧
        normalizeAdvantages baseline std = advantages.map some := by
    intro std complete sameLength
    obtain ⟨advantages, isSome⟩ := exists_map_some (normalizeAdvantages_complete baseline complete)
    have length := length_normalizeAdvantages (sameLength.trans lengthBaseline.symm)
    rw [isSome, length_map] at length
    exact ⟨advantages, length.trans lengthBaseline, isSome⟩
  have byBatch : ∀ values : List F, values.length = rewards.length →
      ∃ advantages : List F, advantages.length = rewards.length ∧
        normalizeAdvantages baseline (batchStd sqrt values) = advantages.map some :=
    fun values same => scaled _ (batchStd_complete sqrt values) ((length_batchStd sqrt _).trans same)
  have byGroup : ∀ values : List F, values.length = rewards.length →
      ∃ advantages : List F, advantages.length = rewards.length ∧
        normalizeAdvantages baseline (groupStd sqrt settings.numGenerations values) =
          advantages.map some :=
    fun values same => scaled _ (groupStd_complete sqrt _ values)
      ((length_groupStd sqrt (by rwa [same])).trans same)
  rw [AdvantageSettings.UsesGdpo] at other
  cases isEstimator : settings.advantageEstimator <;> cases isScale : settings.scaleRewards <;>
    simp only [groupedAdvantages, isEstimator, isScale]
  case grpo.gdpo | rloo.gdpo =>
    exact absurd ⟨isScale, by rw [isEstimator]; exact nofun⟩ other
  case grpo.group | rloo.group =>
    obtain ⟨advantages, length, isSome⟩ := byGroup rewards rfl
    exact ⟨advantages, length, fun _ => congrArg Except.ok isSome⟩
  case grpo.batch | rloo.batch =>
    obtain ⟨advantages, length, isSome⟩ := byBatch rewards rfl
    exact ⟨advantages, length, fun _ => congrArg Except.ok isSome⟩
  case reinforcePlusPlus.group =>
    obtain ⟨advantages, length, isSome⟩ := byGroup baseline lengthBaseline
    exact ⟨advantages, length, fun _ => congrArg Except.ok isSome⟩
  case reinforcePlusPlus.batch =>
    obtain ⟨advantages, length, isSome⟩ := byBatch baseline lengthBaseline
    exact ⟨advantages, length, fun _ => congrArg Except.ok isSome⟩
  all_goals exact ⟨baseline, lengthBaseline, fun _ => rfl⟩

/-- The rewards are computed when there is a divergence for every sample. -/
theorem exists_totalRewards (settings : AdvantageSettings F)
    {rewardsPerFunc : List (List (Option F))} {kl : List F}
    (measured : kl.length = rewardsPerFunc.length) :
    ∃ rewards : List F, rewards.length = rewardsPerFunc.length ∧
      totalRewards settings rewardsPerFunc (some kl) = .ok rewards := by
  rw [totalRewards]
  split
  · rw [if_pos (by rw [length_map, measured])]
    refine ⟨_, ?_, rfl⟩
    rw [length_zipWith, length_map, measured, Nat.min_self]
  · exact ⟨_, length_map _, rfl⟩

/-! ## The advantages of `gdpo` -/

theorem filterMap_id_map_some (values : List α) : (values.map some).filterMap id = values := by
  rw [filterMap_map]
  exact filterMap_some

theorem tensorMean_map_some {numbers : List F} (some : numbers ≠ []) :
    tensorMean (numbers.map Option.some) = Option.some (mean numbers) := by
  rw [tensorMean, mapM_id_map_some]
  exact if_neg (by rwa [List.isEmpty_iff])

theorem tensorStdNan_map_some (numbers : List F) :
    tensorStdNan sqrt (numbers.map some) = tensorStd sqrt numbers := by
  rw [tensorStdNan, mapM_id_map_some]

theorem nanmean_map_some {numbers : List F} (some : numbers ≠ []) :
    nanmean (numbers.map Option.some) = Option.some (mean numbers) := by
  rw [nanmean, filterMap_id_map_some]
  exact if_neg (by rwa [List.isEmpty_iff])

theorem length_gdpoNormalized {column : List (Option F)} (full : size ∣ column.length) :
    (gdpoNormalized sqrt size column).length = column.length := by
  conv_rhs => rw [← flatten_viewGroups full]
  rw [gdpoNormalized, length_flatMap, length_flatten]
  exact congrArg sum (map_congr_left fun group _ => length_map _)

theorem length_weightedColumns (rewardWeights : List F) (count : ℕ) (columns : List (List F)) :
    (weightedColumns rewardWeights count columns).length = count := by
  rw [weightedColumns, length_map, length_range]

/-- The sums are whitened alike when there are two of them. -/
theorem whiten_eq_some (numbers : List F) (several : 1 < numbers.length) :
    whiten sqrt numbers = (numbers.map fun number =>
      (number - mean numbers) / (sqrt (sampleVariance numbers) + 1 / 10 ^ 8)).map some := by
  rw [whiten, tensorStd, if_pos several, map_map]
  rfl

variable [IsStrictOrderedRing F]

/-- Without missing rewards both copies compute the same deviation. -/
theorem nanstd_map_some (numbers : List F) :
    nanstd sqrt (numbers.map some) = tensorStd sqrt numbers := by
  rw [nanstd, filterMap_id_map_some, tensorStd]
  split
  · rename_i several
    have count : (numbers.length : F) ≠ 0 := Nat.cast_ne_zero.mpr (by omega)
    have variance : mean (squaredDistances numbers) *
        ((numbers.length : F) / (numbers.length - 1)) = sampleVariance numbers := by
      rw [mean, sampleVariance, squaredDistances, length_map, div_mul_div_comm,
        mul_comm (numbers.length : F) (numbers.length - 1 : F), mul_div_mul_right _ _ count]
    rw [variance]
  · rfl

end Numbers

end Geobench.Trainers
