import Geobench.Trainers.Advantages

/-!
# Advantages of the Megatron trainer

The Megatron trainer has a copy of the grouped mode. Every process computes the advantages
of all samples and keeps those of its own batch.

The copies differ for `gdpo` only. There the Megatron trainer takes means and deviations
that are no numbers when a reward is missing, has no branch for groups of one sample, and
needs a reward function. They give every sample the same advantage, a number, unless the
`gdpo` branch is taken and one of these is met (`megatron_agrees_iff`).
-/

set_option autoImplicit false
set_option linter.unusedSectionVars false

namespace Geobench.Trainers

open Library List

section Numbers

variable {F : Type} [Field F] [LinearOrder F] (sqrt : F → F)

/-! ## The trainer -/

/-- The rewards of a function, normalized in their groups, in the Megatron trainer. -/
def megatronNormalized (size : ℕ) (column : List (Option F)) : List (Option F) :=
  (viewGroups size column).flatMap fun group =>
    let groupMean := tensorMean group
    let groupStd := tensorStdNan sqrt group
    group.map fun reward =>
      match reward, groupMean, groupStd with
      | some reward, some groupMean, some groupStd =>
        some ((reward - groupMean) / (groupStd + 1 / 10 ^ 8))
      | _, _, _ => none

/-- The sum over the functions, for every sample, of the weighted rewards. -/
def summedAdvantages (rewardWeights : List F) (count : ℕ) (columns : List (List (Option F))) :
    List (Option F) :=
  (List.range count).map fun sample =>
    ((columns.zip rewardWeights).mapM fun (pair : List (Option F) × F) =>
      (pair.1.getD sample none).map (pair.2 * ·)).map List.sum

/-- The advantages of `gdpo` in the Megatron trainer. The sum over no functions is no
tensor. -/
def megatronGdpo (settings : AdvantageSettings F) (rewardsPerFunc : List (List (Option F))) :
    Except AdvantageError (List (Option F)) :=
  if settings.rewardWeights.isEmpty then .error .attributeError
  else
    let columns := (List.range settings.rewardWeights.length).map fun index =>
      megatronNormalized sqrt settings.numGenerations (rewardColumn rewardsPerFunc index)
    let summed := summedAdvantages settings.rewardWeights rewardsPerFunc.length columns
    .ok (summed.map fun advantage =>
      match advantage, tensorMean summed, tensorStdNan sqrt summed with
      | some advantage, some batchMean, some batchStd =>
        some ((advantage - batchMean) / (batchStd + 1 / 10 ^ 8))
      | _, _, _ => none)

/-- The advantages of the samples of a process in the Megatron trainer, from the rewards
of every process. -/
def megatronComputeAdvantages (settings : AdvantageSettings F)
    (rewardsPerFunc : List (List (List (Option F)))) (klValues : Option (List F))
    (processIndex : ℕ) : Except AdvantageError (List (Option F)) :=
  let totalRewardsPerFunc := gatherObject rewardsPerFunc
  match totalRewards settings totalRewardsPerFunc klValues with
  | .error error => .error error
  | .ok rewards =>
    if settings.numGenerations ∣ rewards.length then
      match groupedAdvantages sqrt settings rewards
          (megatronGdpo sqrt settings totalRewardsPerFunc) with
      | .error error => .error error
      | .ok advantages =>
        let batch := (rewardsPerFunc.getD processIndex []).length
        .ok (slice advantages (processIndex * batch) (processIndex * batch + batch))
    else .error .runtimeError

/-! ## The rewards of a function -/

variable [IsStrictOrderedRing F]

variable {size : ℕ}

/-- Without missing rewards both copies normalize the rewards of a function alike. -/
theorem megatronNormalized_map_some (several : 1 < size) (numbers : List F) :
    megatronNormalized sqrt size (numbers.map some) =
      (gdpoNormalized sqrt size (numbers.map some)).map some := by
  rw [megatronNormalized, gdpoNormalized, viewGroups_map, map_flatMap, flatMap_map, flatMap_map]
  refine flatMap_congr fun group isGroup => ?_
  have length : group.length = size := length_of_mem_viewGroups isGroup
  have someNumber : group ≠ [] := ne_nil_of_length_pos (by omega)
  have std : tensorStd sqrt group = some (sqrt (sampleVariance group)) := by
    rw [tensorStd, if_pos (by omega)]
  rw [if_pos several, tensorMean_map_some someNumber, nanmean_map_some someNumber,
    tensorStdNan_map_some, nanstd_map_some, std, map_map, map_map, map_map]
  rfl

variable {column : List (Option F)}

theorem length_megatronNormalized (full : size ∣ column.length) :
    (megatronNormalized sqrt size column).length = column.length := by
  conv_rhs => rw [← flatten_viewGroups full]
  rw [megatronNormalized, length_flatMap, length_flatten]
  exact congrArg sum (map_congr_left fun group _ => length_map _)

theorem tensorStdNan_eq_none {values : List (Option F)} (few : values.length ≤ 1) :
    tensorStdNan sqrt values = none := by
  match values, few with
  | [], _ => rfl
  | [none], _ => rfl
  | [some number], _ => rfl

/-- A missing reward, or groups of one, leave a sample without a number. -/
theorem none_mem_megatronNormalized (full : size ∣ column.length) (someSample : column ≠ [])
    (missing : size ≤ 1 ∨ none ∈ column) : none ∈ megatronNormalized sqrt size column := by
  rcases missing with small | missing
  · obtain ⟨reward, member⟩ := exists_mem_of_ne_nil column someSample
    rw [← flatten_viewGroups full] at member
    obtain ⟨group, isGroup, isReward⟩ := List.mem_flatten.mp member
    have few : group.length ≤ 1 := by rwa [length_of_mem_viewGroups isGroup]
    refine mem_flatMap.mpr ⟨group, isGroup, mem_map.mpr ⟨reward, isReward, ?_⟩⟩
    rw [tensorStdNan_eq_none sqrt few]
    cases reward <;> cases tensorMean group <;> rfl
  · rw [← flatten_viewGroups full] at missing
    obtain ⟨group, isGroup, isMissing⟩ := List.mem_flatten.mp missing
    exact mem_flatMap.mpr ⟨group, isGroup, mem_map.mpr ⟨none, isMissing, rfl⟩⟩

/-! ## The sum over the functions -/

/-- Without missing numbers both copies compute the same sums. -/
theorem summedAdvantages_map_some (rewardWeights : List F) {count : ℕ} {columns : List (List F)}
    (long : ∀ column ∈ columns, count ≤ column.length) :
    summedAdvantages rewardWeights count (columns.map (map some)) =
      (weightedColumns rewardWeights count columns).map some := by
  rw [summedAdvantages, weightedColumns, map_map]
  refine map_congr_left fun sample isSample => ?_
  have inside : ∀ pair ∈ columns.zip rewardWeights,
      (((pair.1.map some).getD sample none).map (pair.2 * ·) : Option F) =
        some (pair.1.getD sample 0 * pair.2) := by
    intro pair isPair
    have short : sample < pair.1.length :=
      Nat.lt_of_lt_of_le (mem_range.mp isSample) (long _ (of_mem_zip isPair).1)
    rw [getD_eq_getElem _ _ (by rwa [length_map]), getD_eq_getElem _ _ short,
      getElem_map, Option.map_some, mul_comm]
  rw [zip_map_left, mapM_map]
  exact congrArg (Option.map sum) (mapM_eq_some inside)

/-- A column that misses a number gives a sum that is no number. -/
theorem none_mem_summedAdvantages {rewardWeights : List F} {count index : ℕ}
    {columns : List (List (Option F))} (isColumn : columns[index]? = some column)
    (weighted : index < rewardWeights.length) (short : column.length ≤ count)
    (missing : none ∈ column) : none ∈ summedAdvantages rewardWeights count columns := by
  obtain ⟨sample, inside, isNone⟩ := getElem_of_mem missing
  have isPair : (column, rewardWeights[index]) ∈ columns.zip rewardWeights :=
    mem_of_getElem? (getElem?_zip_eq_some.mpr
      ⟨isColumn, getElem?_eq_getElem weighted⟩)
  refine mem_map.mpr ⟨sample, mem_range.mpr (Nat.lt_of_lt_of_le inside short), ?_⟩
  rw [mapM_eq_none isPair (by rw [getD_eq_getElem _ _ inside, isNone]; rfl)]
  rfl

/-! ## The advantages of `gdpo` -/

/-- The rewards that both copies normalize alike. -/
def AdvantageSettings.Normalizes (settings : AdvantageSettings F)
    (rewardsPerFunc : List (List (Option F))) : Prop :=
  settings.rewardWeights ≠ [] ∧ (rewardsPerFunc = [] ∨ 1 < settings.numGenerations ∧
    ∀ row ∈ rewardsPerFunc, ∀ index < settings.rewardWeights.length, row.getD index none ≠ none)

theorem megatronGdpo_nil {settings : AdvantageSettings F} (weighted : settings.rewardWeights ≠ []) :
    megatronGdpo sqrt settings [] = .ok [] := by
  rw [megatronGdpo, if_neg (by rwa [List.isEmpty_iff])]
  rfl

theorem megatronGdpo_of_normalizes {settings : AdvantageSettings F}
    {rewardsPerFunc : List (List (Option F))} (normalizes : settings.Normalizes rewardsPerFunc)
    (full : settings.numGenerations ∣ rewardsPerFunc.length) :
    ∃ advantages : List F, advantages.length = rewardsPerFunc.length ∧
      gdpoAdvantages sqrt settings rewardsPerFunc = .ok (advantages.map some) ∧
      megatronGdpo sqrt settings rewardsPerFunc = .ok (advantages.map some) := by
  obtain ⟨weighted, rfl | ⟨several, complete⟩⟩ := normalizes
  · exact ⟨[], rfl, by rw [gdpoAdvantages, weightedColumns]; rfl, megatronGdpo_nil sqrt weighted⟩
  by_cases empty : rewardsPerFunc = []
  · subst empty
    exact ⟨[], rfl, by rw [gdpoAdvantages, weightedColumns]; rfl, megatronGdpo_nil sqrt weighted⟩
  -- Both copies whiten the same sums.
  let columns := (range settings.rewardWeights.length).map fun index =>
    gdpoNormalized sqrt settings.numGenerations (rewardColumn rewardsPerFunc index)
  have columnComplete : ∀ index ∈ range settings.rewardWeights.length,
      none ∉ rewardColumn rewardsPerFunc index := by
    intro index isIndex missing
    obtain ⟨row, isRow, isNone⟩ := mem_map.mp missing
    exact complete row isRow index (mem_range.mp isIndex) isNone
  have normalized : ((range settings.rewardWeights.length).map fun index =>
        megatronNormalized sqrt settings.numGenerations (rewardColumn rewardsPerFunc index)) =
      columns.map (map some) := by
    rw [map_map]
    refine map_congr_left fun index isIndex => ?_
    obtain ⟨numbers, isColumn⟩ := exists_map_some (columnComplete index isIndex)
    rw [Function.comp, isColumn, megatronNormalized_map_some sqrt several]
  have long : ∀ column ∈ columns, rewardsPerFunc.length ≤ column.length := by
    intro column isColumn
    obtain ⟨index, -, rfl⟩ := mem_map.mp isColumn
    have length : (rewardColumn rewardsPerFunc index).length = rewardsPerFunc.length :=
      length_map _
    rw [length_gdpoNormalized sqrt (by rwa [length]), length]
  let sums := weightedColumns settings.rewardWeights rewardsPerFunc.length columns
  have lengthSums : sums.length = rewardsPerFunc.length := length_weightedColumns _ _ _
  have severalSums : 1 < sums.length := by
    rw [lengthSums]
    exact Nat.lt_of_lt_of_le several
      (Nat.le_of_dvd (length_pos_iff.mpr empty) full)
  have someSum : sums ≠ [] := ne_nil_of_length_pos (Nat.lt_of_succ_lt severalSums)
  refine ⟨_, ?_, congrArg Except.ok (whiten_eq_some sqrt sums severalSums), ?_⟩
  · rw [length_map, lengthSums]
  · rw [megatronGdpo, if_neg (by rwa [List.isEmpty_iff])]
    dsimp only
    rw [normalized, summedAdvantages_map_some _ long, tensorMean_map_some someSum,
      tensorStdNan_map_some, tensorStd, if_pos severalSums, map_map, map_map]
    rfl

theorem megatronGdpo_of_not_normalizes {settings : AdvantageSettings F}
    {rewardsPerFunc : List (List (Option F))} (not : ¬settings.Normalizes rewardsPerFunc)
    (full : settings.numGenerations ∣ rewardsPerFunc.length)
    {advantages : List (Option F)}
    (computes : megatronGdpo sqrt settings rewardsPerFunc = .ok advantages) :
    none ∈ advantages := by
  rw [megatronGdpo] at computes
  split at computes
  · cases computes
  rename_i weighted
  rw [List.isEmpty_iff] at weighted
  have someRow : rewardsPerFunc ≠ [] := fun empty => not ⟨weighted, Or.inl empty⟩
  -- One of the columns has a sample that is no number.
  have incomplete : ∃ index < settings.rewardWeights.length,
      settings.numGenerations ≤ 1 ∨ none ∈ rewardColumn rewardsPerFunc index := by
    by_cases several : 1 < settings.numGenerations
    · by_contra none
      refine not ⟨weighted, Or.inr ⟨several, fun row isRow index inside isNone => none ?_⟩⟩
      exact ⟨index, inside, Or.inr (mem_map.mpr ⟨row, isRow, isNone⟩)⟩
    · exact ⟨0, length_pos_iff.mpr weighted, Or.inl (Nat.le_of_not_lt several)⟩
  obtain ⟨index, inside, missing⟩ := incomplete
  have length : (rewardColumn rewardsPerFunc index).length = rewardsPerFunc.length :=
    length_map _
  have isColumn : ((range settings.rewardWeights.length).map fun index =>
        megatronNormalized sqrt settings.numGenerations (rewardColumn rewardsPerFunc index))[index]? =
      some (megatronNormalized sqrt settings.numGenerations (rewardColumn rewardsPerFunc index)) := by
    rw [getElem?_map, getElem?_range inside]
    rfl
  have short : (megatronNormalized sqrt settings.numGenerations
      (rewardColumn rewardsPerFunc index)).length ≤ rewardsPerFunc.length :=
    Nat.le_of_eq ((length_megatronNormalized sqrt (by rwa [length])).trans length)
  have missingSum := none_mem_summedAdvantages isColumn inside short
    (none_mem_megatronNormalized sqrt (by rwa [length])
      (by rwa [ne_eq, rewardColumn, map_eq_nil_iff]) missing)
  -- So the mean of the sums is none, and neither is any advantage.
  cases computes
  exact mem_map.mpr ⟨none, missingSum, rfl⟩

theorem length_megatronGdpo {settings : AdvantageSettings F}
    {rewardsPerFunc : List (List (Option F))} {advantages : List (Option F)}
    (computes : megatronGdpo sqrt settings rewardsPerFunc = .ok advantages) :
    advantages.length = rewardsPerFunc.length := by
  rw [megatronGdpo] at computes
  split at computes
  · cases computes
  · cases computes
    rw [length_map, summedAdvantages, length_map, length_range]

/-! ## Agreement of the trainers -/

/-- The two trainers give every sample the same advantage, a number. The rewards are those
of every process, in the order of the process indices. -/
def AdvantagesAgree (settings : AdvantageSettings F) (promptIds requestIds : List String)
    (rewardsPerFunc : List (List (List (Option F)))) (kl : List F) : Prop :=
  ∃ advantages : List F, advantages.length = (gatherObject rewardsPerFunc).length ∧
    computeAdvantages sqrt settings false promptIds requestIds (gatherObject rewardsPerFunc) kl =
      .ok (advantages.map some) ∧
    ∃ parts : List (List (Option F)),
      (List.range rewardsPerFunc.length).mapM
        (megatronComputeAdvantages sqrt settings rewardsPerFunc (some kl)) = .ok parts ∧
      gatherObject parts = advantages.map some

section Processes

variable {settings : AdvantageSettings F} {rewardsPerFunc : List (List (List (Option F)))}
  {kl : List F} {rewards : List F}

theorem megatronComputeAdvantages_eq
    (isRewards : totalRewards settings (gatherObject rewardsPerFunc) (some kl) = .ok rewards)
    (full : settings.numGenerations ∣ rewards.length) (processIndex : ℕ) :
    megatronComputeAdvantages sqrt settings rewardsPerFunc (some kl) processIndex =
      (groupedAdvantages sqrt settings rewards
        (megatronGdpo sqrt settings (gatherObject rewardsPerFunc))).map fun advantages =>
          slice advantages (processIndex * (rewardsPerFunc.getD processIndex []).length)
            (processIndex * (rewardsPerFunc.getD processIndex []).length +
              (rewardsPerFunc.getD processIndex []).length) := by
  rw [megatronComputeAdvantages, isRewards]
  dsimp only
  rw [if_pos full]
  cases groupedAdvantages sqrt settings rewards
    (megatronGdpo sqrt settings (gatherObject rewardsPerFunc)) <;> rfl

/-- The processes of the Megatron trainer keep all advantages. -/
theorem gather_megatronComputeAdvantages {batch : ℕ} {advantages : List (Option F)}
    (isRewards : totalRewards settings (gatherObject rewardsPerFunc) (some kl) = .ok rewards)
    (full : settings.numGenerations ∣ rewards.length)
    (uniform : ∀ batchRewards ∈ rewardsPerFunc, batchRewards.length = batch)
    (computes : groupedAdvantages sqrt settings rewards
      (megatronGdpo sqrt settings (gatherObject rewardsPerFunc)) = .ok advantages)
    (length : advantages.length = (gatherObject rewardsPerFunc).length) :
    ∃ parts : List (List (Option F)),
      (range rewardsPerFunc.length).mapM
        (megatronComputeAdvantages sqrt settings rewardsPerFunc (some kl)) = .ok parts ∧
      gatherObject parts = advantages := by
  have total : advantages.length = rewardsPerFunc.length * batch := by
    rw [length, gatherObject, length_flatten, map_congr_left uniform,
      map_const', sum_replicate, smul_eq_mul]
  refine ⟨cutAt (· * batch) rewardsPerFunc.length advantages, ?_, ?_⟩
  · refine mapM_eq_ok_iff.mpr (forall₂_map_right_iff.mpr (forall₂_same.mpr ?_))
    intro processIndex isProcess
    have inside : processIndex < rewardsPerFunc.length := mem_range.mp isProcess
    rw [megatronComputeAdvantages_eq sqrt isRewards full, computes,
      getD_eq_getElem _ _ inside, uniform _ (getElem_mem inside), ← Nat.succ_mul]
    rfl
  · exact flatten_cutAt (fun _ _ before => Nat.mul_le_mul_right _ before) (Nat.zero_mul _)
      (Nat.le_of_eq total)

/-- **The trainers agree exactly when the `gdpo` branch is not taken, or all rewards are
given, in groups of at least two.** -/
theorem megatron_agrees_iff {batch : ℕ} (promptIds requestIds : List String)
    (someProcess : rewardsPerFunc ≠ [])
    (uniform : ∀ batchRewards ∈ rewardsPerFunc, batchRewards.length = batch)
    (full : settings.numGenerations ∣ (gatherObject rewardsPerFunc).length)
    (measured : kl.length = (gatherObject rewardsPerFunc).length) :
    AdvantagesAgree sqrt settings promptIds requestIds rewardsPerFunc kl ↔
      ¬settings.UsesGdpo ∨ settings.Normalizes (gatherObject rewardsPerFunc) := by
  obtain ⟨rewards, length, isRewards⟩ := exists_totalRewards settings measured
  have fullRewards : settings.numGenerations ∣ rewards.length := by rwa [length]
  have computeAdvantages_eq : computeAdvantages sqrt settings false promptIds requestIds
      (gatherObject rewardsPerFunc) kl = groupedAdvantages sqrt settings rewards
        (gdpoAdvantages sqrt settings (gatherObject rewardsPerFunc)) := by
    rw [computeAdvantages, isRewards]
    dsimp only
    rw [if_pos rfl, if_pos fullRewards]
  have agrees : ∀ advantages : List F, advantages.length = rewards.length →
      groupedAdvantages sqrt settings rewards
        (gdpoAdvantages sqrt settings (gatherObject rewardsPerFunc)) = .ok (advantages.map some) →
      groupedAdvantages sqrt settings rewards
        (megatronGdpo sqrt settings (gatherObject rewardsPerFunc)) = .ok (advantages.map some) →
      AdvantagesAgree sqrt settings promptIds requestIds rewardsPerFunc kl := by
    intro advantages sameLength ours megatrons
    refine ⟨advantages, sameLength.trans length, computeAdvantages_eq.trans ours, ?_⟩
    exact gather_megatronComputeAdvantages sqrt isRewards fullRewards uniform megatrons
      (by rw [length_map, sameLength, length])
  by_cases uses : settings.UsesGdpo
  · rw [or_iff_right (not_not_intro uses)]
    constructor
    · rintro ⟨advantages, -, -, parts, succeed, isParts⟩
      by_contra not
      -- The first process computes the advantages, and one of them is no number.
      have isFirst : 0 ∈ List.range rewardsPerFunc.length :=
        mem_range.mpr (length_pos_iff.mpr someProcess)
      obtain ⟨first, isPart⟩ := succeeds_of_mapM_eq_ok succeed isFirst
      rw [megatronComputeAdvantages_eq sqrt isRewards fullRewards,
        groupedAdvantages_of_gdpo sqrt uses] at isPart
      obtain ⟨all, computes⟩ : ∃ all,
          megatronGdpo sqrt settings (gatherObject rewardsPerFunc) = .ok all := by
        cases computes : megatronGdpo sqrt settings (gatherObject rewardsPerFunc) with
        | error error => rw [computes] at isPart; cases isPart
        | ok all => exact ⟨all, rfl⟩
      obtain ⟨sameParts, sameSucceed, isAll⟩ := gather_megatronComputeAdvantages sqrt isRewards
        fullRewards uniform ((groupedAdvantages_of_gdpo sqrt uses _ _).trans computes)
        (length_megatronGdpo sqrt computes)
      have missing := megatronGdpo_of_not_normalizes sqrt not full computes
      cases Except.ok.inj (succeed.symm.trans sameSucceed)
      rw [← isAll, isParts] at missing
      obtain ⟨_, _, isNone⟩ := mem_map.mp missing
      cases isNone
    · intro normalizes
      obtain ⟨advantages, sameLength, ours, megatrons⟩ :=
        megatronGdpo_of_normalizes sqrt normalizes full
      refine agrees advantages (sameLength.trans length.symm) ?_ ?_
      · rw [groupedAdvantages_of_gdpo sqrt uses, ours]
      · rw [groupedAdvantages_of_gdpo sqrt uses, megatrons]
  · obtain ⟨advantages, sameLength, computes⟩ :=
      groupedAdvantages_of_not_gdpo sqrt uses fullRewards
    exact iff_of_true (agrees advantages sameLength (computes _) (computes _)) (Or.inl uses)

end Processes

end Numbers

/-! ## Both cases -/

theorem triples_pos : 0 < 3 := by decide

/-- Groups of three, scaled by the group. -/
def triples : AdvantageSettings ℚ where
  advantageEstimator := .grpo
  scaleRewards := .group
  numGenerations := 3
  numGenerations_pos := triples_pos
  rewardWeights := [1]
  klInReward := true
  beta := 1 / 2
  gdpo_kl := nofun

/-- Two processes with a group each. A missing reward does not matter here. -/
theorem triples_agree :
    AdvantagesAgree id triples [] []
      [[[some 0], [some 1], [some 2]], [[some 3], [none], [some 3]]] [0, 0, 0, 0, 6, 0] :=
  have uniform : ∀ rewards ∈ [[[some (0 : ℚ)], [some 1], [some 2]], [[some 3], [none], [some 3]]],
      rewards.length = 3 := by decide
  (megatron_agrees_iff id [] [] (by decide) uniform (by decide) rfl).mpr (Or.inl (by decide))

/-- With one missing reward the Megatron trainer has no advantages. -/
theorem missing_reward_disagrees :
    computeAdvantages id gdpoPairs false [] [] [[some 1], [none]] [0, 0] = .ok [some 0, some 0] ∧
      megatronComputeAdvantages id gdpoPairs [[[some 1], [none]]] (some [0, 0]) 0 =
        .ok [none, none] := by
  decide +kernel

end Geobench.Trainers
