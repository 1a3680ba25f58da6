import Geobench.Trainers.Advantages

/-!
# The request-aware mode on grouped batches

A grouped batch could be given to both modes: its samples have request ids of their own, and
every `num_generations` samples in a row have a prompt id of their own. On such a batch the
requests are the samples and the prompts are the groups (`map_promptGroup_repeatInterleave`).

The modes agree on all grouped batches exactly when the request-aware mode has a branch for
the setting (`requestAware_eq_grouped_iff`). It has none for `gdpo`, which it takes for
`none`.
-/

set_option autoImplicit false
set_option linter.unusedSectionVars false

namespace Geobench.Trainers

open Library List

/-! ## Groups of a grouped batch -/

variable {α : Type} {size : ℕ}

theorem viewGroups_append (positive : 0 < size) {first : List α} (full : first.length = size)
    (rest : List α) : viewGroups size (first ++ rest) = first :: viewGroups size rest := by
  have groups : (first ++ rest).length / size = rest.length / size + 1 := by
    rw [length_append, full, Nat.add_div_left _ positive]
  rw [viewGroups, groups, cutAt, range_succ_eq_map, map_cons, map_map]
  refine congrArg₂ cons ?_ (map_congr_left fun index _ => ?_)
  · rw [slice, Nat.zero_mul, drop_zero, Nat.zero_add, Nat.one_mul, ← full, take_left]
  · have start : Nat.succ index * size = first.length + index * size := by
      rw [full, Nat.succ_mul, Nat.add_comm]
    have stop : (Nat.succ index + 1) * size = first.length + (index + 1) * size := by
      rw [full, Nat.succ_eq_add_one, Nat.succ_mul (index + 1), Nat.add_comm]
    rw [Function.comp_apply, start, stop, slice, slice, take_length_add_append,
      drop_length_add_append]

theorem repeatInterleave_map {β : Type} (f : α → β) (size : ℕ) (values : List α) :
    repeatInterleave size (values.map f) = (repeatInterleave size values).map f := by
  rw [repeatInterleave, repeatInterleave, flatMap_map, map_flatMap]
  exact flatMap_congr fun value _ => map_replicate.symm

variable {values : List α}

theorem promptGroup_append {promptIds : List String} (same : promptIds.length = values.length)
    (otherIds : List String) (others : List α) (promptId : String) :
    promptGroup (promptIds ++ otherIds) (values ++ others) promptId =
      promptGroup promptIds values promptId ++ promptGroup otherIds others promptId := by
  rw [promptGroup, zip_append same, filter_append, map_append]
  rfl

theorem promptGroup_eq_nil {promptIds : List String} {promptId : String}
    (absent : promptId ∉ promptIds) (values : List α) :
    promptGroup promptIds values promptId = [] := by
  rw [promptGroup, map_eq_nil_iff, filter_eq_nil_iff]
  intro pair isPair
  rw [decide_eq_true_eq]
  rintro rfl
  exact absent (of_mem_zip isPair).1

theorem promptGroup_replicate (promptId : String) (values : List α) :
    promptGroup (replicate values.length promptId) values promptId = values := by
  rw [promptGroup, filter_eq_self.mpr, map_snd_zip]
  · rw [length_replicate]
  · intro pair isPair
    exact decide_eq_true (eq_of_mem_replicate (of_mem_zip isPair).1)

theorem map_promptGroup_repeatInterleave (positive : 0 < size) {names : List String}
    (distinct : names.Nodup) (full : values.length = names.length * size) :
    names.map (promptGroup (repeatInterleave size names) values) = viewGroups size values := by
  induction names generalizing values with
  | nil =>
    rw [length_nil, Nat.zero_mul] at full
    rw [length_eq_zero_iff.mp full, viewGroups, length_nil, Nat.zero_div]
    rfl
  | cons name names ih =>
    obtain ⟨notLater, distinctRest⟩ := nodup_cons.mp distinct
    rw [length_cons, Nat.succ_mul] at full
    have lengthFirst : (values.take size).length = size := by
      rw [length_take, full]
      exact Nat.min_eq_left (Nat.le_add_left _ _)
    have lengthRest : (values.drop size).length = names.length * size := by
      rw [length_drop, full, Nat.add_sub_cancel]
    have ids : repeatInterleave size (name :: names) =
        replicate size name ++ repeatInterleave size names := flatMap_cons
    have sameLength : (replicate size name).length = (values.take size).length := by
      rw [length_replicate, lengthFirst]
    have parts : ∀ promptId, promptGroup (repeatInterleave size (name :: names)) values promptId =
        promptGroup (replicate size name) (values.take size) promptId ++
          promptGroup (repeatInterleave size names) (values.drop size) promptId := by
      intro promptId
      rw [ids, ← promptGroup_append sameLength, take_append_drop]
    have groups := viewGroups_append positive lengthFirst (values.drop size)
    rw [take_append_drop] at groups
    rw [map_cons, groups, ← ih distinctRest lengthRest]
    refine congrArg₂ cons ?_ (map_congr_left fun other isOther => ?_)
    · have own := promptGroup_replicate name (values.take size)
      rw [lengthFirst] at own
      rw [parts, own, promptGroup_eq_nil (fun later => notLater (mem_repeatInterleave later)),
        append_nil]
    · rw [parts, promptGroup_eq_nil, nil_append]
      intro isName
      exact notLater (eq_of_mem_replicate isName ▸ isOther)

/-- For every sample, the group of its prompt. -/
theorem repeatInterleave_viewGroups (positive : 0 < size) {names : List String}
    (distinct : names.Nodup) (full : values.length = names.length * size) :
    (repeatInterleave size names).map (promptGroup (repeatInterleave size names) values) =
      repeatInterleave size (viewGroups size values) := by
  rw [← repeatInterleave_map, map_promptGroup_repeatInterleave positive distinct full]

/-! ## Requests with one sample -/

theorem lastSeen_of_distinct (seen entries : List (String × ℕ))
    (distinct : ((seen ++ entries).map Prod.fst).Nodup) :
    lastSeen seen entries = seen ++ entries := by
  induction entries generalizing seen with
  | nil => rw [lastSeen, append_nil]
  | cons entry entries ih =>
    rw [map_append, map_cons] at distinct
    have new : entry.1 ∉ seen.map Prod.fst := fun old =>
      (nodup_append'.mp distinct).2.2 old mem_cons_self
    rw [lastSeen, if_neg new, ih, append_assoc, singleton_append]
    rwa [append_assoc, singleton_append, map_append, map_cons]

theorem getLastIndices_of_distinct {requestIds : List String} (distinct : requestIds.Nodup) :
    getLastIndices requestIds = range requestIds.length := by
  have keys : (([] ++ requestIds.zipIdx).map Prod.fst).Nodup := by
    rwa [nil_append, zipIdx_map_fst]
  rw [getLastIndices, lastSeen_of_distinct _ _ keys, nil_append, zipIdx_map_snd, range_eq_range']

section Numbers

variable {F : Type} [Field F] [LinearOrder F] (sqrt : F → F)

theorem length_requestBaseline {settings : AdvantageSettings F} {promptIds : List String}
    {rewards : List F} (same : promptIds.length = rewards.length) :
    (requestBaseline settings promptIds rewards).length = rewards.length := by
  rw [requestBaseline, length_zipWith, same, Nat.min_self]

theorem length_promptStd (promptIds : List String) (values : List F) :
    (promptStd sqrt promptIds values).length = promptIds.length :=
  length_map _

theorem length_requestAdvantages {settings : AdvantageSettings F} {promptIds : List String}
    {rewards : List F} (same : promptIds.length = rewards.length) :
    (requestAdvantages sqrt settings promptIds rewards).length = rewards.length := by
  have baseline : (requestBaseline settings promptIds rewards).length = rewards.length :=
    length_requestBaseline same
  have scaled : ∀ std : List (Option F), std.length = rewards.length →
      (normalizeAdvantages (requestBaseline settings promptIds rewards) std).length =
        rewards.length :=
    fun std sameLength =>
      (length_normalizeAdvantages (sameLength.trans baseline.symm)).trans baseline
  have plain : ((requestBaseline settings promptIds rewards).map some).length = rewards.length :=
    (length_map _).trans baseline
  rw [requestAdvantages]
  cases settings.advantageEstimator <;> cases settings.scaleRewards
  case grpo.batch | rloo.batch => exact scaled _ (length_batchStd sqrt _)
  case reinforcePlusPlus.batch => exact scaled _ ((length_batchStd sqrt _).trans baseline)
  case grpo.group | rloo.group | reinforcePlusPlus.group =>
    exact scaled _ ((length_promptStd sqrt _ _).trans same)
  all_goals exact plain

theorem allclose_self [IsStrictOrderedRing F] (reward : F) : allclose reward reward := by
  rw [allclose, sub_self, abs_zero]
  positivity

theorem consistentRewards_of_distinct [IsStrictOrderedRing F] {requestIds : List String}
    (distinct : requestIds.Nodup) {rewards : List F} (same : rewards.length = requestIds.length) :
    consistentRewards requestIds rewards = true := by
  have ids : repeatInterleave 1 requestIds = requestIds := by
    rw [repeatInterleave]
    exact flatMap_singleton' _
  have groups := map_promptGroup_repeatInterleave Nat.one_pos distinct
    (same.trans (Nat.mul_one _).symm)
  rw [ids] at groups
  rw [consistentRewards, all_eq_true]
  intro requestId isRequest
  have isGroup : promptGroup requestIds rewards requestId ∈ viewGroups 1 rewards :=
    groups ▸ mem_map_of_mem isRequest
  obtain ⟨reward, isReward⟩ := length_eq_one_iff.mp (length_of_mem_viewGroups isGroup)
  rw [isReward, all_eq_true]
  intro other isOther
  rw [mem_singleton.mp isOther]
  exact decide_eq_true (allclose_self reward)

theorem requestAwareAdvantages_of_distinct [IsStrictOrderedRing F]
    {settings : AdvantageSettings F} {promptIds requestIds : List String}
    (distinct : requestIds.Nodup) {rewards : List F} (samePrompts : rewards.length = promptIds.length)
    (same : promptIds.length = requestIds.length)
    (full : settings.numGenerations ∣ rewards.length) :
    requestAwareAdvantages sqrt settings promptIds requestIds rewards =
      .ok (requestAdvantages sqrt settings promptIds rewards) := by
  have uniqueRequests := map_getD_range requestIds ""
  have uniquePrompts := map_getD_range promptIds ""
  have uniqueRewards := map_getD_range rewards 0
  rw [samePrompts, same] at uniqueRewards
  rw [same] at uniquePrompts
  have advantages : requestIds.map (fun requestId =>
        (requestAdvantages sqrt settings promptIds rewards).getD (requestIds.idxOf requestId) none) =
      requestAdvantages sqrt settings promptIds rewards := by
    have length : (requestAdvantages sqrt settings promptIds rewards).length = rewards.length :=
      length_requestAdvantages sqrt samePrompts.symm
    refine ext_getElem ?_ fun index inside within => ?_
    · rw [length_map, length, samePrompts, same]
    · rw [getElem_map, distinct.idxOf_getElem, getD_eq_getElem _ _ within]
  rw [requestAwareAdvantages, if_pos ⟨samePrompts, same⟩, getLastIndices_of_distinct distinct]
  dsimp only
  rw [uniqueRequests, uniquePrompts, uniqueRewards,
    if_pos (consistentRewards_of_distinct distinct (samePrompts.trans same)), if_pos full,
    advantages]

/-! ## The advantages of a grouped batch -/

section Grouped

variable {settings : AdvantageSettings F} {names : List String} (distinct : names.Nodup)
  {rewards : List F} (full : rewards.length = names.length * settings.numGenerations)

include distinct full

theorem requestBaseline_of_grouped :
    requestBaseline settings (repeatInterleave settings.numGenerations names) rewards =
      groupedBaseline settings rewards := by
  let groups := repeatInterleave settings.numGenerations
    (viewGroups settings.numGenerations rewards)
  have ours : requestBaseline settings (repeatInterleave settings.numGenerations names) rewards =
      zipWith (fun group reward =>
        baselineAdvantage settings.advantageEstimator group.length reward (mean group))
        groups rewards := by
    have isGroups : (repeatInterleave settings.numGenerations names).map
        (promptGroup (repeatInterleave settings.numGenerations names) rewards) = groups :=
      repeatInterleave_viewGroups settings.numGenerations_pos distinct full
    rw [requestBaseline, ← isGroups, zipWith_map_left]
  have theirs : groupedBaseline settings rewards =
      zipWith (fun group reward =>
        baselineAdvantage settings.advantageEstimator settings.numGenerations reward (mean group))
        groups rewards := by
    rw [groupedBaseline, repeatInterleave_map, zipWith_map_right, zipWith_comm]
  rw [ours, theirs, ← map_uncurry_zip_eq_zipWith, ← map_uncurry_zip_eq_zipWith]
  refine map_congr_left fun pair isPair => ?_
  have length : pair.1.length = settings.numGenerations :=
    length_of_mem_viewGroups (mem_repeatInterleave (of_mem_zip isPair).1)
  rw [Function.uncurry, Function.uncurry, length]

theorem promptStd_of_grouped :
    promptStd sqrt (repeatInterleave settings.numGenerations names) rewards =
      groupStd sqrt settings.numGenerations rewards := by
  have groups := repeatInterleave_viewGroups settings.numGenerations_pos distinct full
  have stds : promptStd sqrt (repeatInterleave settings.numGenerations names) rewards =
      (repeatInterleave settings.numGenerations (viewGroups settings.numGenerations rewards)).map
        fun group => if 1 < group.length then tensorStd sqrt group else some 0 := by
    rw [← groups, map_map]
    rfl
  rw [stds, groupStd, ← repeatInterleave_map]
  split
  · rename_i several
    refine congrArg _ (map_congr_left fun group isGroup => ?_)
    rw [if_pos (by rwa [length_of_mem_viewGroups isGroup])]
  · rename_i few
    refine eq_replicate_iff.mpr ⟨?_, fun std isStd => ?_⟩
    · rw [length_repeatInterleave, length_map, length_viewGroups, full,
        Nat.mul_div_cancel _ settings.numGenerations_pos]
    · obtain ⟨group, isGroup, rfl⟩ := mem_map.mp (mem_repeatInterleave isStd)
      exact if_neg (by rwa [length_of_mem_viewGroups isGroup])

/-- Outside the `gdpo` branch the requests of a grouped batch have the advantages of the
grouped mode. -/
theorem requestAdvantages_of_grouped (other : ¬settings.UsesGdpo)
    (gdpo : Except AdvantageError (List (Option F))) :
    groupedAdvantages sqrt settings rewards gdpo =
      .ok (requestAdvantages sqrt settings (repeatInterleave settings.numGenerations names)
        rewards) := by
  have baseline := requestBaseline_of_grouped distinct full
  have fullBaseline : (groupedBaseline settings rewards).length =
      names.length * settings.numGenerations := by
    rw [length_groupedBaseline (full ▸ Dvd.intro_left _ rfl), full]
  have stdRewards := promptStd_of_grouped sqrt distinct full
  have stdBaseline := promptStd_of_grouped sqrt distinct fullBaseline
  rw [AdvantageSettings.UsesGdpo] at other
  cases isEstimator : settings.advantageEstimator <;> cases isScale : settings.scaleRewards <;>
    simp only [groupedAdvantages, requestAdvantages, isEstimator, isScale, baseline, stdRewards,
      stdBaseline]
  case grpo.gdpo | rloo.gdpo => exact absurd ⟨isScale, by simp [isEstimator]⟩ other

end Grouped

/-! ## Agreement of the modes -/

/-- A batch of contiguous groups, each with a prompt id of its own. The samples have request
ids of their own, rewards and divergences. -/
structure GroupedBatch (F : Type) (size : ℕ) where
  names : List String
  distinctNames : names.Nodup
  requestIds : List String
  distinctRequests : requestIds.Nodup
  full : requestIds.length = names.length * size
  rewardsPerFunc : List (List (Option F))
  scored : rewardsPerFunc.length = requestIds.length
  kl : List F
  measured : kl.length = requestIds.length

def GroupedBatch.promptIds {size : ℕ} (batch : GroupedBatch F size) : List String :=
  repeatInterleave size batch.names

/-- The two modes return the same for a batch. -/
def ModesAgree (settings : AdvantageSettings F)
    (batch : GroupedBatch F settings.numGenerations) : Prop :=
  computeAdvantages sqrt settings true batch.promptIds batch.requestIds batch.rewardsPerFunc
      batch.kl =
    computeAdvantages sqrt settings false batch.promptIds batch.requestIds batch.rewardsPerFunc
      batch.kl

section Modes

variable [IsStrictOrderedRing F] {settings : AdvantageSettings F}

/-- The modes differ at most in what they do with the rewards. -/
theorem modesAgree_iff (batch : GroupedBatch F settings.numGenerations) {rewards : List F}
    (isRewards : totalRewards settings batch.rewardsPerFunc (some batch.kl) = .ok rewards)
    (length : rewards.length = batch.rewardsPerFunc.length) :
    ModesAgree sqrt settings batch ↔
      .ok (requestAdvantages sqrt settings batch.promptIds rewards) =
        groupedAdvantages sqrt settings rewards
          (gdpoAdvantages sqrt settings batch.rewardsPerFunc) := by
  have lengthIds : rewards.length = batch.requestIds.length := length.trans batch.scored
  have divides : settings.numGenerations ∣ rewards.length :=
    (lengthIds.trans batch.full) ▸ Dvd.intro_left _ rfl
  have lengthPrompts : rewards.length = batch.promptIds.length := by
    rw [lengthIds, batch.full, GroupedBatch.promptIds, length_repeatInterleave]
  rw [ModesAgree, computeAdvantages, computeAdvantages, isRewards]
  dsimp only
  rw [if_neg Bool.true_eq_false_eq_False, if_pos rfl, if_pos divides,
    requestAwareAdvantages_of_distinct sqrt batch.distinctRequests lengthPrompts
      (lengthPrompts.symm.trans lengthIds) divides]

/-- With `gdpo` the divergence is no part of the reward. -/
theorem totalRewards_of_gdpo (uses : settings.UsesGdpo)
    (rewardsPerFunc : List (List (Option F))) (kl : List F) :
    totalRewards settings rewardsPerFunc (some kl) =
      .ok (rewardsPerFunc.map (weightedNansum settings.rewardWeights)) := by
  rw [totalRewards, settings.gdpo_kl uses.1]
  rfl

/-- The request-aware mode takes `gdpo` for `none`. -/
theorem requestAdvantages_of_gdpo (uses : settings.UsesGdpo) (promptIds : List String)
    (rewards : List F) :
    requestAdvantages sqrt settings promptIds rewards =
      (requestBaseline settings promptIds rewards).map some := by
  obtain ⟨scale, estimator⟩ := uses
  rw [requestAdvantages, scale]
  cases isEstimator : settings.advantageEstimator with
  | grpo => rfl
  | rloo => rfl
  | reinforcePlusPlus => exact absurd isEstimator estimator

/-- With `gdpo` the modes agree when whitening gives the differences of the rewards and their
baselines. -/
theorem modesAgree_iff_of_gdpo (uses : settings.UsesGdpo)
    (batch : GroupedBatch F settings.numGenerations) :
    ModesAgree sqrt settings batch ↔
      .ok ((groupedBaseline settings
        (batch.rewardsPerFunc.map (weightedNansum settings.rewardWeights))).map some) =
        gdpoAdvantages sqrt settings batch.rewardsPerFunc := by
  have full : (batch.rewardsPerFunc.map (weightedNansum settings.rewardWeights)).length =
      batch.names.length * settings.numGenerations := by
    rw [length_map, batch.scored, batch.full]
  rw [modesAgree_iff sqrt batch (totalRewards_of_gdpo uses _ _) (length_map _),
    groupedAdvantages_of_gdpo sqrt uses, requestAdvantages_of_gdpo sqrt uses,
    GroupedBatch.promptIds, requestBaseline_of_grouped batch.distinctNames full]

/-! ## Rewards that count for nothing -/

variable {values : List F}

theorem mean_of_zeros (zeros : ∀ value ∈ values, value = 0) : mean values = 0 := by
  rw [mean, sum_eq_zero zeros, zero_div]

theorem baselineAdvantage_eq_zero_iff (estimator : AdvantageEstimator) {size : ℕ}
    (positive : 0 < size) (reward groupMean : F) :
    baselineAdvantage estimator size reward groupMean = 0 ↔ reward = groupMean := by
  rw [baselineAdvantage]
  split
  · rename_i leaveOneOut
    have count : (size : F) ≠ 0 := Nat.cast_ne_zero.mpr positive.ne'
    have others : (size : F) - 1 ≠ 0 := by
      rw [sub_ne_zero]
      exact_mod_cast leaveOneOut.2.ne'
    rw [← sub_div, ← sub_mul, div_eq_zero_iff, or_iff_left others, mul_eq_zero,
      or_iff_left count, sub_eq_zero]
  · exact sub_eq_zero

theorem groupedBaseline_of_zeros {rewards : List F} (zeros : ∀ reward ∈ rewards, reward = 0) :
    ∀ advantage ∈ groupedBaseline settings rewards, advantage = 0 := by
  intro advantage isAdvantage
  rw [groupedBaseline, ← map_uncurry_zip_eq_zipWith] at isAdvantage
  obtain ⟨⟨reward, groupMean⟩, isPair, rfl⟩ := mem_map.mp isAdvantage
  obtain ⟨group, isGroup, isMean⟩ :=
    mem_map.mp (mem_repeatInterleave (of_mem_zip isPair).2)
  have zeroMean : groupMean = 0 := by
    rw [← isMean]
    exact mean_of_zeros fun value member => zeros value (mem_of_mem_viewGroups isGroup member)
  exact (baselineAdvantage_eq_zero_iff _ settings.numGenerations_pos _ _).mpr
    ((zeros reward (of_mem_zip isPair).1).trans zeroMean.symm)

theorem whiten_of_zeros (several : values = [] ∨ 1 < values.length)
    (zeros : ∀ value ∈ values, value = 0) :
    whiten sqrt values = replicate values.length (some 0) := by
  rcases several with rfl | several
  · rfl
  rw [whiten_eq_some sqrt values several, map_map]
  refine eq_replicate_iff.mpr ⟨length_map _, fun advantage isAdvantage => ?_⟩
  obtain ⟨value, isValue, rfl⟩ := mem_map.mp isAdvantage
  rw [Function.comp_apply, zeros value isValue, mean_of_zeros zeros, sub_self, zero_div]

theorem none_mem_whiten (some : 0 < values.length) (few : values.length ≤ 1) :
    none ∈ whiten sqrt values := by
  obtain ⟨value, isValue⟩ := exists_mem_of_length_pos some
  refine mem_map.mpr ⟨value, isValue, ?_⟩
  rw [tensorStd, if_neg (Nat.not_lt_of_le few)]
  rfl

theorem weightedColumns_of_zeros {rewardWeights : List F} {count : ℕ} {columns : List (List F)}
    (zeros : ∀ pair ∈ columns.zip rewardWeights, ∀ index, pair.1.getD index 0 * pair.2 = 0) :
    ∀ advantage ∈ weightedColumns rewardWeights count columns, advantage = 0 := by
  intro advantage isAdvantage
  obtain ⟨sample, -, rfl⟩ := mem_map.mp isAdvantage
  refine sum_eq_zero fun product isProduct => ?_
  obtain ⟨pair, isPair, rfl⟩ := mem_map.mp isProduct
  exact zeros pair isPair sample

/-- The rewards of a function that gave equal rewards are normalized to zero. -/
theorem gdpoNormalized_of_same {size : ℕ} {column : List (Option F)} {value : F}
    (same : ∀ reward, some reward ∈ column → reward = value) :
    ∀ advantage ∈ gdpoNormalized sqrt size column, advantage = 0 := by
  intro advantage isAdvantage
  obtain ⟨group, isGroup, isMember⟩ := mem_flatMap.mp isAdvantage
  obtain ⟨reward, isReward, rfl⟩ := mem_map.mp isMember
  cases reward with
  | none => rfl
  | some reward =>
    have member : ∀ number ∈ group.filterMap id, number = value := by
      intro number isNumber
      obtain ⟨_, isGiven, rfl⟩ := mem_filterMap.mp isNumber
      exact same number (mem_of_mem_viewGroups isGroup isGiven)
    have isNumber : reward ∈ group.filterMap id := mem_filterMap.mpr ⟨_, isReward, rfl⟩
    have groupMean : nanmean group = some value := by
      rw [nanmean, mean_of_all_eq (member reward isNumber ▸ isNumber) member]
      exact if_neg fun empty => ne_nil_of_mem isNumber (List.isEmpty_iff.mp empty)
    rw [groupMean, member reward isNumber]
    cases (if 1 < size then nanstd sqrt group else some 0) with
    | none => rfl
    | some std => exact (congrArg (· / (std + 1 / 10 ^ 8)) (sub_self value)).trans (zero_div _)

/-- When no function counts, the modes agree on groups of at least two. -/
theorem modesAgree_of_zero_weights (uses : settings.UsesGdpo) (several : 1 < settings.numGenerations)
    (zeroWeights : ∀ weight ∈ settings.rewardWeights, weight = 0)
    (batch : GroupedBatch F settings.numGenerations) : ModesAgree sqrt settings batch := by
  have zeroRewards : ∀ reward ∈ batch.rewardsPerFunc.map (weightedNansum settings.rewardWeights),
      reward = 0 := by
    intro reward isReward
    obtain ⟨row, -, rfl⟩ := mem_map.mp isReward
    refine sum_eq_zero fun product isProduct => ?_
    obtain ⟨⟨reward, weight⟩, isPair, rfl⟩ := mem_map.mp isProduct
    rw [zeroWeights weight (of_mem_zip isPair).2]
    cases reward with
    | none => rfl
    | some reward => exact mul_zero _
  let columns := (range settings.rewardWeights.length).map fun index =>
    gdpoNormalized sqrt settings.numGenerations (rewardColumn batch.rewardsPerFunc index)
  let sums := weightedColumns settings.rewardWeights batch.rewardsPerFunc.length columns
  have zeroSums : ∀ sum ∈ sums, sum = 0 := by
    refine weightedColumns_of_zeros fun pair isPair index => ?_
    rw [zeroWeights pair.2 (of_mem_zip isPair).2, mul_zero]
  have lengthSums : sums.length = batch.names.length * settings.numGenerations := by
    rw [length_weightedColumns, batch.scored, batch.full]
  have severalSums : sums = [] ∨ 1 < sums.length := by
    rw [lengthSums, ← length_eq_zero_iff, lengthSums]
    cases batch.names.length with
    | zero => exact Or.inl (Nat.zero_mul _)
    | succ others =>
      exact Or.inr (Nat.lt_of_lt_of_le several (Nat.le_mul_of_pos_left _ (Nat.succ_pos _)))
  have whitened : gdpoAdvantages sqrt settings batch.rewardsPerFunc =
      .ok (replicate sums.length (some 0)) :=
    congrArg Except.ok (whiten_of_zeros sqrt severalSums zeroSums)
  have lengthRewards : (batch.rewardsPerFunc.map (weightedNansum settings.rewardWeights)).length =
      batch.names.length * settings.numGenerations := by
    rw [length_map, batch.scored, batch.full]
  have lengthBaseline : (groupedBaseline settings
        (batch.rewardsPerFunc.map (weightedNansum settings.rewardWeights))).length = _ :=
    length_groupedBaseline (lengthRewards ▸ Dvd.intro_left _ rfl)
  rw [modesAgree_iff_of_gdpo sqrt uses, whitened]
  refine congrArg Except.ok (eq_replicate_iff.mpr ⟨?_, fun advantage isAdvantage => ?_⟩)
  · rw [length_map, lengthBaseline, lengthRewards, lengthSums]
  · obtain ⟨difference, isDifference, rfl⟩ := mem_map.mp isAdvantage
    rw [groupedBaseline_of_zeros zeroRewards difference isDifference]

/-- One group. No function gives its first sample a reward, and every function gives the
others its weight. -/
def lostFirst (settings : AdvantageSettings F) : GroupedBatch F settings.numGenerations where
  names := ["prompt"]
  distinctNames := nodup_singleton _
  requestIds := (List.range settings.numGenerations).map fun index =>
    String.ofList (List.replicate index 'r')
  distinctRequests := by
    refine nodup_range.map fun index other same => ?_
    have lengths := congrArg List.length (String.ofList_injective same)
    rwa [length_replicate, length_replicate] at lengths
  full := by rw [length_map, length_range, length_singleton, Nat.one_mul]
  rewardsPerFunc := settings.rewardWeights.map (fun _ => none) ::
    List.replicate (settings.numGenerations - 1) (settings.rewardWeights.map some)
  scored := by
    rw [length_cons, length_replicate, length_map, length_range,
      Nat.sub_add_cancel settings.numGenerations_pos]
  kl := List.replicate settings.numGenerations 0
  measured := by rw [length_replicate, length_map, length_range]

section LostFirst

variable (settings)

theorem rewards_lostFirst :
    (lostFirst settings).rewardsPerFunc.map (weightedNansum settings.rewardWeights) =
      0 :: replicate (settings.numGenerations - 1)
        (settings.rewardWeights.map fun weight => weight * weight).sum := by
  have first : weightedNansum settings.rewardWeights
      (settings.rewardWeights.map fun _ => (none : Option F)) = 0 := by
    refine sum_eq_zero fun product isProduct => ?_
    obtain ⟨⟨reward, weight⟩, isPair, rfl⟩ := mem_map.mp isProduct
    obtain ⟨_, -, rfl⟩ := mem_map.mp (of_mem_zip isPair).1
    rfl
  have other : weightedNansum settings.rewardWeights (settings.rewardWeights.map some) =
      (settings.rewardWeights.map fun weight => weight * weight).sum := by
    induction settings.rewardWeights with
    | nil => rfl
    | cons weight weights ih =>
      rw [weightedNansum] at ih ⊢
      rw [map_cons, zip_cons_cons, map_cons, sum_cons, ih, map_cons, sum_cons]
  rw [lostFirst, map_cons, map_replicate, first, other]

/-- Every function gave equal rewards. -/
theorem rewardColumn_lostFirst {index : ℕ} {reward : F}
    (given : some reward ∈ rewardColumn (lostFirst settings).rewardsPerFunc index) :
    reward = settings.rewardWeights.getD index 0 := by
  obtain ⟨row, isRow, isReward⟩ := mem_map.mp given
  have isGiven : row[index]? = some (some reward) := by
    rw [getD_eq_getElem?_getD] at isReward
    cases isAt : row[index]? with
    | none => rw [isAt] at isReward; cases isReward
    | some given => rw [isAt] at isReward; exact congrArg some isReward
  rcases mem_cons.mp isRow with rfl | isOther
  · rw [getElem?_map] at isGiven
    obtain ⟨_, -, isNone⟩ := Option.map_eq_some_iff.mp isGiven
    cases isNone
  · rw [eq_of_mem_replicate isOther, getElem?_map] at isGiven
    obtain ⟨weight, isWeight, isSome⟩ := Option.map_eq_some_iff.mp isGiven
    cases isSome
    rw [getD_eq_getElem?_getD, isWeight, Option.getD_some]

/-- So whitening leaves no advantage. -/
theorem gdpoAdvantages_lostFirst (several : 1 < settings.numGenerations) :
    gdpoAdvantages sqrt settings (lostFirst settings).rewardsPerFunc =
      .ok (replicate settings.numGenerations (some 0)) := by
  let columns := (range settings.rewardWeights.length).map fun index =>
    gdpoNormalized sqrt settings.numGenerations
      (rewardColumn (lostFirst settings).rewardsPerFunc index)
  let sums := weightedColumns settings.rewardWeights (lostFirst settings).rewardsPerFunc.length
    columns
  have zeroSums : ∀ sum ∈ sums, sum = 0 := by
    refine weightedColumns_of_zeros fun pair isPair sample => ?_
    obtain ⟨index, -, isColumn⟩ := mem_map.mp (of_mem_zip isPair).1
    have zeros : ∀ advantage ∈ gdpoNormalized sqrt settings.numGenerations
        (rewardColumn (lostFirst settings).rewardsPerFunc index), advantage = 0 :=
      gdpoNormalized_of_same sqrt fun _ => rewardColumn_lostFirst settings
    rw [isColumn] at zeros
    have zero : pair.1.getD sample 0 = 0 := by
      rcases Nat.lt_or_ge sample pair.1.length with inside | outside
      · rw [getD_eq_getElem _ _ inside]
        exact zeros _ (getElem_mem inside)
      · exact getD_eq_default _ _ outside
    rw [zero, zero_mul]
  have lengthSums : sums.length = settings.numGenerations := by
    rw [length_weightedColumns, (lostFirst settings).scored, (lostFirst settings).full]
    exact Nat.one_mul _
  have whitened := whiten_of_zeros sqrt (Or.inr (by rwa [lengthSums])) zeroSums
  rw [lengthSums] at whitened
  exact congrArg Except.ok whitened

theorem groupedBaseline_of_one_group {rewards : List F}
    (length : rewards.length = settings.numGenerations) :
    groupedBaseline settings rewards = rewards.map fun reward =>
      baselineAdvantage settings.advantageEstimator settings.numGenerations reward
        (mean rewards) := by
  have groups := viewGroups_append settings.numGenerations_pos length []
  have noGroups : viewGroups settings.numGenerations ([] : List F) = [] := by
    rw [viewGroups, length_nil, Nat.zero_div]
    rfl
  have means : repeatInterleave settings.numGenerations [mean rewards] =
      replicate rewards.length (mean rewards) := by
    rw [repeatInterleave, flatMap_singleton, length]
  rw [append_nil, noGroups] at groups
  rw [groupedBaseline, groups, map_singleton, means]
  refine ext_getElem ?_ fun index _ _ => ?_
  · rw [length_zipWith, length_replicate, Nat.min_self, length_map]
  · rw [getElem_zipWith, getElem_replicate, getElem_map]

/-- But the rewards of the samples are not equal. -/
theorem groupedBaseline_lostFirst (several : 1 < settings.numGenerations) {weight : F}
    (isWeight : weight ∈ settings.rewardWeights) (counts : weight ≠ 0) :
    ∃ advantage ∈ groupedBaseline settings
      ((lostFirst settings).rewardsPerFunc.map (weightedNansum settings.rewardWeights)),
      advantage ≠ 0 := by
  let squares := settings.rewardWeights.map fun weight => weight * weight
  have positive : 0 < squares.sum := by
    have nonneg : ∀ square ∈ squares, 0 ≤ square := by
      intro square isSquare
      obtain ⟨other, -, rfl⟩ := mem_map.mp isSquare
      exact mul_self_nonneg _
    exact lt_of_lt_of_le (mul_self_pos.mpr counts)
      (single_le_sum nonneg _ (mem_map_of_mem isWeight))
  let rewards := 0 :: replicate (settings.numGenerations - 1) squares.sum
  have length : rewards.length = settings.numGenerations := by
    rw [length_cons, length_replicate, Nat.sub_add_cancel settings.numGenerations_pos]
  have isOther : squares.sum ∈ rewards :=
    mem_cons_of_mem _ (mem_replicate.mpr ⟨by omega, rfl⟩)
  rw [rewards_lostFirst, groupedBaseline_of_one_group settings length]
  by_contra none
  push Not at none
  have atMean : ∀ reward ∈ rewards, reward = mean rewards := fun reward isReward =>
    (baselineAdvantage_eq_zero_iff _ settings.numGenerations_pos _ _).mp
      (none _ (mem_map_of_mem isReward))
  exact positive.ne ((atMean 0 mem_cons_self).trans (atMean _ isOther).symm)

end LostFirst

/-- One sample is not whitened to a number. -/
theorem not_modesAgree_lostFirst (uses : settings.UsesGdpo) (few : ¬1 < settings.numGenerations) :
    ¬ModesAgree sqrt settings (lostFirst settings) := by
  intro agree
  have same := Except.ok.inj ((modesAgree_iff_of_gdpo sqrt uses _).mp agree)
  have isNone : none ∈ (groupedBaseline settings ((lostFirst settings).rewardsPerFunc.map
      (weightedNansum settings.rewardWeights))).map some := by
    rw [same]
    have length := (lostFirst settings).scored.trans (lostFirst settings).full
    refine none_mem_whiten sqrt ?_ ?_
    · rw [length_weightedColumns]
      exact length_pos_of_mem mem_cons_self
    · rw [length_weightedColumns, length]
      exact Nat.le_trans (Nat.le_of_eq (Nat.one_mul _)) (Nat.le_of_not_lt few)
  obtain ⟨_, _, isSome⟩ := mem_map.mp isNone
  cases isSome

theorem modesAgree_of_not_gdpo (other : ¬settings.UsesGdpo)
    (batch : GroupedBatch F settings.numGenerations) : ModesAgree sqrt settings batch := by
  obtain ⟨rewards, length, isRewards⟩ :=
    exists_totalRewards settings (batch.measured.trans batch.scored.symm)
  rw [modesAgree_iff sqrt batch isRewards length, GroupedBatch.promptIds]
  exact (requestAdvantages_of_grouped sqrt batch.distinctNames
    (by rw [length, batch.scored, batch.full]) other _).symm

/-- **The modes agree on all grouped batches exactly when the setting is one the
request-aware mode has a branch for, or no function counts.** -/
theorem requestAware_eq_grouped_iff (settings : AdvantageSettings F) :
    (∀ batch : GroupedBatch F settings.numGenerations, ModesAgree sqrt settings batch) ↔
      ¬settings.UsesGdpo ∨
        1 < settings.numGenerations ∧ ∀ weight ∈ settings.rewardWeights, weight = 0 := by
  constructor
  · intro agree
    by_cases uses : settings.UsesGdpo
    · right
      by_cases several : 1 < settings.numGenerations
      · refine ⟨several, fun weight isWeight => ?_⟩
        by_contra counts
        obtain ⟨advantage, isAdvantage, notZero⟩ :=
          groupedBaseline_lostFirst settings several isWeight counts
        have same := (modesAgree_iff_of_gdpo sqrt uses _).mp (agree (lostFirst settings))
        rw [gdpoAdvantages_lostFirst sqrt settings several] at same
        have isZero := Except.ok.inj same ▸ mem_map_of_mem isAdvantage
        exact notZero (Option.some.inj (eq_of_mem_replicate isZero))
      · exact absurd (agree (lostFirst settings)) (not_modesAgree_lostFirst sqrt uses several)
    · exact Or.inl uses
  · rintro (other | ⟨several, zeroWeights⟩) batch
    · exact modesAgree_of_not_gdpo sqrt other batch
    · by_cases uses : settings.UsesGdpo
      · exact modesAgree_of_zero_weights sqrt uses several zeroWeights batch
      · exact modesAgree_of_not_gdpo sqrt uses batch

end Modes

end Numbers

/-- Pairs that are scaled by the reward functions. -/
theorem gdpoPairs_disagree :
    (∀ batch : GroupedBatch ℚ gdpoPairs.numGenerations, ModesAgree id gdpoPairs batch) ↔
      ¬gdpoPairs.UsesGdpo ∨
        1 < gdpoPairs.numGenerations ∧ ∀ weight ∈ gdpoPairs.rewardWeights, weight = 0 :=
  requestAware_eq_grouped_iff id gdpoPairs

/-- One group of two samples, the second without a reward. -/
theorem gdpo_taken_for_none :
    computeAdvantages id gdpoPairs true ["prompt", "prompt"] ["first", "second"]
        [[some 1], [none]] [0, 0] = .ok [some (1 / 2), some (-1 / 2)] ∧
      computeAdvantages id gdpoPairs false ["prompt", "prompt"] ["first", "second"]
        [[some 1], [none]] [0, 0] = .ok [some 0, some 0] := by
  decide +kernel

end Geobench.Trainers
