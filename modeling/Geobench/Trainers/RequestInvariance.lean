import Geobench.Trainers.RequestAdvantages

/-!
# Laws of the request-aware mode

A batch is consistent when the samples of a request have one prompt and one reward. Then
the requests of the batch are a set, and the advantage of a sample is a function of this set
and of its request alone (`rowAdvantages_eq`): the order in which the samples come, and how
often a request occurs, make no difference.

Unless the scale is that of the batch, only the rewards of the requests of the same prompt
matter (`requestAdvantage_local`). `requestAware_laws` states the laws for the batches
themselves.
-/

set_option autoImplicit false
set_option linter.unusedSectionVars false

namespace Geobench.Trainers

open Library List

/-! ## Samples and requests -/

/-- A sample of a batch. -/
structure AdvantageRow (F : Type) where
  promptId : String
  requestId : String
  rewardsPerFunc : List (Option F)
  kl : F

structure RewardedRequest (F : Type) where
  requestId : String
  promptId : String
  reward : F
  deriving DecidableEq

section Numbers

variable {F : Type} [Field F] [LinearOrder F] (sqrt : F → F) (settings : AdvantageSettings F)

/-- The reward of a sample, less its divergence when that is part of the reward. -/
def finalReward (row : AdvantageRow F) : F :=
  let reward := weightedNansum settings.rewardWeights row.rewardsPerFunc
  if settings.klInReward && decide (settings.beta ≠ 0) then reward - settings.beta * row.kl
  else reward

def requestOf (row : AdvantageRow F) : RewardedRequest F where
  requestId := row.requestId
  promptId := row.promptId
  reward := finalReward settings row

def rowAdvantages (batch : List (AdvantageRow F)) : Except AdvantageError (List (Option F)) :=
  computeAdvantages sqrt settings true (batch.map AdvantageRow.promptId)
    (batch.map AdvantageRow.requestId) (batch.map AdvantageRow.rewardsPerFunc)
    (batch.map AdvantageRow.kl)

/-- The samples of a request have one prompt and one reward. -/
def Consistent (batch : List (AdvantageRow F)) : Prop :=
  ∀ row ∈ batch, ∀ other ∈ batch, row.requestId = other.requestId →
    requestOf settings row = requestOf settings other

def requests (batch : List (AdvantageRow F)) : List (RewardedRequest F) :=
  (batch.map (requestOf settings)).dedup

def promptRewards (table : List (RewardedRequest F)) (promptId : String) : List F :=
  (table.filter fun request => request.promptId = promptId).map RewardedRequest.reward

/-! ## The advantage of a request -/

def requestDifference (table : List (RewardedRequest F)) (request : RewardedRequest F) : F :=
  let group := promptRewards table request.promptId
  baselineAdvantage settings.advantageEstimator group.length request.reward (mean group)

/-- The deviation of some values. One value has the deviation zero. -/
def deviation (values : List F) : Option F :=
  if 1 < values.length then tensorStd sqrt values else some 0

def requestAdvantage (table : List (RewardedRequest F)) (request : RewardedRequest F) :
    Option F :=
  let difference := requestDifference settings table request
  let scaled := fun std : F => difference / (std + 1 / 10 ^ 4)
  match settings.advantageEstimator, settings.scaleRewards with
  | .reinforcePlusPlus, .batch =>
    (deviation sqrt (table.map (requestDifference settings table))).map scaled
  | .reinforcePlusPlus, .group =>
    (deviation sqrt ((table.filter fun other => other.promptId = request.promptId).map
      (requestDifference settings table))).map scaled
  | .reinforcePlusPlus, _ => some difference
  | _, .batch => (deviation sqrt (table.map RewardedRequest.reward)).map scaled
  | _, .group => (deviation sqrt (promptRewards table request.promptId)).map scaled
  | _, _ => some difference

theorem promptGroup_map {α β : Type} (table : List α) (id : α → String) (value : α → β)
    (promptId : String) :
    promptGroup (table.map id) (table.map value) promptId =
      (table.filter fun entry => id entry = promptId).map value := by
  rw [promptGroup, zip_map', filter_map, map_map]
  rfl

theorem requestBaseline_map (table : List (RewardedRequest F)) :
    requestBaseline settings (table.map RewardedRequest.promptId)
        (table.map RewardedRequest.reward) =
      table.map (requestDifference settings table) := by
  rw [requestBaseline, zipWith_map, zipWith_self]
  refine map_congr_left fun request _ => ?_
  rw [promptGroup_map, requestDifference, promptRewards]

theorem promptStd_map (table : List (RewardedRequest F)) (value : RewardedRequest F → F) :
    promptStd sqrt (table.map RewardedRequest.promptId) (table.map value) =
      table.map fun request => deviation sqrt
        ((table.filter fun other => other.promptId = request.promptId).map value) := by
  rw [promptStd, map_map]
  refine map_congr_left fun request _ => ?_
  rw [Function.comp_apply, promptGroup_map, deviation]

theorem batchStd_map (table : List (RewardedRequest F)) (value : RewardedRequest F → F) :
    batchStd sqrt (table.map value) = table.map fun _ => deviation sqrt (table.map value) := by
  rw [batchStd, deviation, map_const', length_map]
  split <;> rfl

theorem normalizeAdvantages_map (table : List (RewardedRequest F))
    (difference : RewardedRequest F → F) (std : RewardedRequest F → Option F) :
    normalizeAdvantages (table.map difference) (table.map std) =
      table.map fun request => (std request).map fun std =>
        difference request / (std + 1 / 10 ^ 4) := by
  rw [normalizeAdvantages, zipWith_map, zipWith_self]

theorem requestAdvantages_map (table : List (RewardedRequest F)) :
    requestAdvantages sqrt settings (table.map RewardedRequest.promptId)
        (table.map RewardedRequest.reward) =
      table.map (requestAdvantage sqrt settings table) := by
  have plain : (table.map (requestDifference settings table)).map some =
      table.map fun request => some (requestDifference settings table request) :=
    map_map
  rw [requestAdvantages, requestBaseline_map]
  cases isEstimator : settings.advantageEstimator <;> cases isScale : settings.scaleRewards <;>
    simp only [batchStd_map, promptStd_map, normalizeAdvantages_map, plain]
  all_goals
    refine map_congr_left fun request _ => ?_
    simp only [requestAdvantage, isEstimator, isScale, promptRewards]

/-! ## What the advantage of a request depends on -/

theorem deviation_perm {values others : List F} (rearranged : values.Perm others) :
    deviation sqrt values = deviation sqrt others := by
  rw [deviation, deviation, tensorStd, tensorStd, rearranged.length_eq,
    sampleVariance_perm rearranged]

variable {table others : List (RewardedRequest F)} {request : RewardedRequest F}

theorem requestDifference_local {twin : RewardedRequest F}
    (sameReward : request.reward = twin.reward)
    (samePrompt : (promptRewards table request.promptId).Perm
      (promptRewards others twin.promptId)) :
    requestDifference settings table request = requestDifference settings others twin := by
  rw [requestDifference, requestDifference, mean_perm samePrompt, samePrompt.length_eq, sameReward]

theorem map_requestDifference_filter (table : List (RewardedRequest F)) (promptId : String) :
    (table.filter fun other => other.promptId = promptId).map (requestDifference settings table) =
      (promptRewards table promptId).map fun reward =>
        baselineAdvantage settings.advantageEstimator (promptRewards table promptId).length reward
          (mean (promptRewards table promptId)) := by
  rw [promptRewards, map_map]
  refine map_congr_left fun other isOther => ?_
  have own : other.promptId = promptId := of_decide_eq_true (mem_filter.mp isOther).2
  rw [requestDifference, own, promptRewards]
  rfl

/-- Unless the scale is that of the batch, the advantage of a request depends only on the
rewards of the requests of its prompt. -/
theorem requestAdvantage_local (notBatch : settings.scaleRewards ≠ .batch)
    {twin : RewardedRequest F} (sameReward : request.reward = twin.reward)
    (samePrompt : (promptRewards table request.promptId).Perm
      (promptRewards others twin.promptId)) :
    requestAdvantage sqrt settings table request =
      requestAdvantage sqrt settings others twin := by
  have difference := requestDifference_local settings sameReward samePrompt
  have stdRewards := deviation_perm sqrt samePrompt
  have stdDifferences : deviation sqrt ((table.filter fun other =>
        other.promptId = request.promptId).map (requestDifference settings table)) =
      deviation sqrt ((others.filter fun other =>
        other.promptId = twin.promptId).map (requestDifference settings others)) := by
    rw [map_requestDifference_filter, map_requestDifference_filter, mean_perm samePrompt,
      samePrompt.length_eq]
    exact deviation_perm sqrt (samePrompt.map _)
  cases isEstimator : settings.advantageEstimator <;> cases isScale : settings.scaleRewards <;>
    simp only [requestAdvantage, isEstimator, isScale, difference, stdRewards, stdDifferences]
  case grpo.batch | rloo.batch | reinforcePlusPlus.batch => exact absurd isScale notBatch

/-- The order of the requests makes no difference. -/
theorem requestAdvantage_perm (rearranged : table.Perm others) :
    requestAdvantage sqrt settings table = requestAdvantage sqrt settings others := by
  funext request
  have samePrompt : (promptRewards table request.promptId).Perm
      (promptRewards others request.promptId) :=
    (rearranged.filter _).map _
  by_cases isBatch : settings.scaleRewards = .batch
  · have difference : requestDifference settings table = requestDifference settings others := by
      funext other
      exact requestDifference_local settings rfl ((rearranged.filter _).map _)
    have stdRewards := deviation_perm sqrt (rearranged.map RewardedRequest.reward)
    have stdDifferences := deviation_perm sqrt
      (rearranged.map (requestDifference settings others))
    cases isEstimator : settings.advantageEstimator <;>
      simp only [requestAdvantage, isEstimator, isBatch, difference, stdRewards, stdDifferences]
  · exact requestAdvantage_local sqrt settings isBatch rfl samePrompt

/-! ## The requests that the trainer finds -/

def lastRequests (batch : List (AdvantageRow F)) : List (RewardedRequest F) :=
  (getLastIndices (batch.map AdvantageRow.requestId)).map
    ((batch.map (requestOf settings)).getD · ⟨"", "", 0⟩)

theorem lastRequests_map {α : Type} (value : RewardedRequest F → α) (batch : List (AdvantageRow F)) :
    (lastRequests settings batch).map value =
      (getLastIndices (batch.map AdvantageRow.requestId)).map
        ((batch.map (value ∘ requestOf settings)).getD · (value ⟨"", "", 0⟩)) := by
  rw [lastRequests, map_map]
  refine map_congr_left fun index _ => ?_
  rw [Function.comp_apply, ← map_map, getD_map]

theorem lastSeen_nodup (seen entries : List (String × ℕ)) (distinct : (seen.map Prod.fst).Nodup) :
    ((lastSeen seen entries).map Prod.fst).Nodup := by
  induction entries generalizing seen with
  | nil => exact distinct
  | cons entry entries ih =>
    rw [lastSeen]
    split
    · exact ih _ (by rwa [map_fst_update])
    · rename_i new
      refine ih _ ?_
      rw [map_append]
      exact distinct.append (nodup_singleton _)
        (disjoint_singleton.mpr new)

theorem getElem?_of_mem_lastSeen {requestIds : List String} {entry : String × ℕ}
    (isEntry : entry ∈ lastSeen [] requestIds.zipIdx) : requestIds[entry.2]? = some entry.1 :=
  mem_zipIdx_iff_getElem?.mp
    ((lastSeen_subset _ _ _ isEntry).resolve_left not_mem_nil)

/-- The trainer finds every request once. -/
theorem lastRequests_requestId (batch : List (AdvantageRow F)) :
    (lastRequests settings batch).map RewardedRequest.requestId =
      (lastSeen [] (batch.map AdvantageRow.requestId).zipIdx).map Prod.fst := by
  rw [lastRequests_map, getLastIndices, map_map]
  refine map_congr_left fun entry isEntry => ?_
  have place : (batch.map (RewardedRequest.requestId ∘ requestOf settings))[entry.2]? =
      some entry.1 :=
    getElem?_of_mem_lastSeen isEntry
  rw [Function.comp_apply, getD_eq_getElem?_getD, place, Option.getD_some]

theorem lastRequests_nodup (batch : List (AdvantageRow F)) :
    ((lastRequests settings batch).map RewardedRequest.requestId).Nodup := by
  rw [lastRequests_requestId]
  exact lastSeen_nodup _ _ nodup_nil

variable {batch : List (AdvantageRow F)}

theorem exists_of_mem_lastRequests (found : request ∈ lastRequests settings batch) :
    ∃ row ∈ batch, requestOf settings row = request := by
  obtain ⟨index, isIndex, rfl⟩ := mem_map.mp found
  obtain ⟨entry, isEntry, rfl⟩ := mem_map.mp isIndex
  have place := getElem?_of_mem_lastSeen isEntry
  rw [getElem?_map] at place
  obtain ⟨row, isRow, -⟩ := Option.map_eq_some_iff.mp place
  refine ⟨row, mem_of_getElem? isRow, ?_⟩
  rw [getD_eq_getElem?_getD, getElem?_map, isRow]
  rfl

theorem mem_lastRequests (consistent : Consistent settings batch) :
    request ∈ lastRequests settings batch ↔ ∃ row ∈ batch, requestOf settings row = request := by
  refine ⟨exists_of_mem_lastRequests settings, ?_⟩
  rintro ⟨row, isRow, rfl⟩
  have occurs : row.requestId ∈ (lastRequests settings batch).map RewardedRequest.requestId := by
    rw [lastRequests_requestId]
    refine mem_lastSeen _ _ _ (Or.inr ?_)
    rw [zipIdx_map_fst]
    exact mem_map_of_mem isRow
  obtain ⟨request, found, isRequest⟩ := mem_map.mp occurs
  obtain ⟨last, isLast, rfl⟩ := exists_of_mem_lastRequests settings found
  rwa [← consistent last isLast row isRow isRequest]

theorem lastRequests_perm (consistent : Consistent settings batch) :
    (lastRequests settings batch).Perm (requests settings batch) := by
  refine (perm_ext_iff_of_nodup ?_ (nodup_dedup _)).mpr fun request => ?_
  · exact (lastRequests_nodup settings batch).of_map
  · rw [mem_lastRequests settings consistent]
    exact (mem_dedup.trans mem_map).symm

/-! ## The advantages of a batch -/

theorem totalRewards_map (batch : List (AdvantageRow F)) :
    totalRewards settings (batch.map AdvantageRow.rewardsPerFunc)
        (some (batch.map AdvantageRow.kl)) =
      .ok (batch.map (finalReward settings)) := by
  rw [totalRewards]
  split
  · rename_i inReward
    rw [if_pos (by rw [length_map, length_map, length_map]), map_map, zipWith_map, zipWith_self]
    refine congrArg Except.ok (map_congr_left fun row _ => ?_)
    rw [finalReward, if_pos inReward]
    rfl
  · rename_i notInReward
    rw [map_map]
    refine congrArg Except.ok (map_congr_left fun row _ => ?_)
    rw [finalReward, if_neg notInReward]
    rfl

variable [IsStrictOrderedRing F]

theorem consistentRewards_of_consistent (consistent : Consistent settings batch) :
    consistentRewards (batch.map AdvantageRow.requestId) (batch.map (finalReward settings)) =
      true := by
  rw [consistentRewards, all_eq_true]
  intro requestId _
  rw [promptGroup_map, all_eq_true]
  intro reward isReward
  obtain ⟨row, isRow, rfl⟩ := mem_map.mp isReward
  obtain ⟨inBatch, own⟩ := mem_filter.mp isRow
  cases isGroup : batch.filter fun entry => entry.requestId = requestId with
  | nil => rw [isGroup] at isRow; exact absurd isRow not_mem_nil
  | cons first rest =>
    obtain ⟨firstInBatch, firstOwn⟩ :=
      mem_filter.mp (isGroup ▸ mem_cons_self : first ∈ batch.filter _)
    have sameRequest : row.requestId = first.requestId :=
      (of_decide_eq_true own).trans (of_decide_eq_true firstOwn).symm
    have sameReward : finalReward settings row = finalReward settings first :=
      congrArg RewardedRequest.reward (consistent row inBatch first firstInBatch sameRequest)
    rw [sameReward]
    exact decide_eq_true (allclose_self _)

/-- The advantage of a sample of a consistent batch is that of its request. -/
theorem rowAdvantages_eq (consistent : Consistent settings batch) :
    rowAdvantages sqrt settings batch =
      if settings.numGenerations ∣ (requests settings batch).length then
        .ok (batch.map fun row =>
          requestAdvantage sqrt settings (requests settings batch) (requestOf settings row))
      else .error .runtimeError := by
  have found := lastRequests_perm settings consistent
  have ids : (getLastIndices (batch.map AdvantageRow.requestId)).map
      ((batch.map AdvantageRow.requestId).getD · "") =
      (lastRequests settings batch).map RewardedRequest.requestId :=
    (lastRequests_map settings RewardedRequest.requestId batch).symm
  have prompts : (getLastIndices (batch.map AdvantageRow.requestId)).map
      ((batch.map AdvantageRow.promptId).getD · "") =
      (lastRequests settings batch).map RewardedRequest.promptId :=
    (lastRequests_map settings RewardedRequest.promptId batch).symm
  have rewards : (getLastIndices (batch.map AdvantageRow.requestId)).map
      ((batch.map (finalReward settings)).getD · 0) =
      (lastRequests settings batch).map RewardedRequest.reward :=
    (lastRequests_map settings RewardedRequest.reward batch).symm
  have lengths : (batch.map (finalReward settings)).length =
        (batch.map AdvantageRow.promptId).length ∧
      (batch.map AdvantageRow.promptId).length = (batch.map AdvantageRow.requestId).length := by
    rw [length_map, length_map, length_map]
    exact ⟨rfl, rfl⟩
  rw [rowAdvantages, computeAdvantages, totalRewards_map]
  dsimp only
  rw [if_neg Bool.true_eq_false_eq_False, requestAwareAdvantages, if_pos lengths]
  dsimp only
  rw [if_pos (consistentRewards_of_consistent settings consistent), ids, prompts, rewards,
    requestAdvantages_map, length_map, found.length_eq, requestAdvantage_perm sqrt settings found]
  split
  · refine congrArg Except.ok ?_
    rw [map_map]
    refine map_congr_left fun row isRow => ?_
    have isFound : requestOf settings row ∈ lastRequests settings batch :=
      (mem_lastRequests settings consistent).mpr ⟨row, isRow, rfl⟩
    obtain ⟨index, inside, isRequest⟩ := getElem_of_mem isFound
    have place : ((lastRequests settings batch).map RewardedRequest.requestId).idxOf
        row.requestId = index := by
      have atIndex := (lastRequests_nodup settings batch).idxOf_getElem index
        (by rwa [length_map])
      rw [getElem_map, isRequest] at atIndex
      exact atIndex
    rw [Function.comp_apply, place, getD_eq_getElem _ _ (by rwa [length_map]),
      getElem_map, isRequest]
  · rfl

/-! ## The laws -/

/-- What holds of the advantages of consistent batches. -/
structure RequestLaws : Prop where
  /-- Samples in another order have their advantages in this order. -/
  permuted : ∀ {count : ℕ} (rows : Fin count → AdvantageRow F) (order : Equiv.Perm (Fin count)),
    Consistent settings (List.ofFn rows) →
      rowAdvantages sqrt settings (List.ofFn fun index => rows (order index)) =
        (rowAdvantages sqrt settings (List.ofFn rows)).map fun advantages =>
          List.ofFn fun index => advantages.getD (order index) none
  /-- The samples of a request have one advantage. -/
  sameRequest : ∀ {batch : List (AdvantageRow F)} {advantages : List (Option F)},
    Consistent settings batch → rowAdvantages sqrt settings batch = .ok advantages →
      ∀ {index other : ℕ} {row twin : AdvantageRow F}, batch[index]? = some row →
        batch[other]? = some twin → row.requestId = twin.requestId →
          ∃ advantage, advantages[index]? = some advantage ∧ advantages[other]? = some advantage
  /-- Another copy of a sample changes no other advantage. -/
  repeated : ∀ {first rest : List (AdvantageRow F)} {row : AdvantageRow F},
    Consistent settings (first ++ rest) → row ∈ first ++ rest →
      (rowAdvantages sqrt settings (first ++ row :: rest)).map (·.eraseIdx first.length) =
        rowAdvantages sqrt settings (first ++ rest)
  /-- Unless the scale is that of the batch, samples with one reward have one advantage when
  the requests of their prompts have the same rewards, also in two batches. -/
  samePrompt : settings.scaleRewards ≠ .batch →
    ∀ {batch others : List (AdvantageRow F)} {advantages otherAdvantages : List (Option F)},
      Consistent settings batch → Consistent settings others →
      rowAdvantages sqrt settings batch = .ok advantages →
      rowAdvantages sqrt settings others = .ok otherAdvantages →
        ∀ {index other : ℕ} {row twin : AdvantageRow F}, batch[index]? = some row →
          others[other]? = some twin → finalReward settings row = finalReward settings twin →
          (promptRewards (requests settings batch) row.promptId).Perm
            (promptRewards (requests settings others) twin.promptId) →
          ∃ advantage, advantages[index]? = some advantage ∧
            otherAdvantages[other]? = some advantage

theorem requests_perm {others : List (AdvantageRow F)}
    (sameRows : ∀ row, row ∈ batch ↔ row ∈ others) :
    (requests settings batch).Perm (requests settings others) := by
  refine (perm_ext_iff_of_nodup (nodup_dedup _) (nodup_dedup _)).mpr fun request => ?_
  rw [mem_dedup, mem_dedup, mem_map, mem_map]
  exact exists_congr fun row => and_congr_left fun _ => sameRows row

/-- Consistent batches with the same samples have the same advantage for a sample. -/
theorem rowAdvantages_of_sameRows {others : List (AdvantageRow F)}
    (consistent : Consistent settings batch) (sameRows : ∀ row, row ∈ batch ↔ row ∈ others) :
    ∃ advantage : AdvantageRow F → Option F,
      rowAdvantages sqrt settings batch =
        (if settings.numGenerations ∣ (requests settings batch).length then
          .ok (batch.map advantage) else .error .runtimeError) ∧
      rowAdvantages sqrt settings others =
        (if settings.numGenerations ∣ (requests settings batch).length then
          .ok (others.map advantage) else .error .runtimeError) := by
  have consistentOthers : Consistent settings others := fun row isRow other isOther =>
    consistent row ((sameRows row).mpr isRow) other ((sameRows other).mpr isOther)
  have rearranged := requests_perm settings sameRows
  refine ⟨_, rowAdvantages_eq sqrt settings consistent, ?_⟩
  rw [rowAdvantages_eq sqrt settings consistentOthers, rearranged.length_eq,
    requestAdvantage_perm sqrt settings rearranged]

/-- The advantage of the sample at a position. -/
theorem getElem?_rowAdvantages {advantages : List (Option F)}
    (consistent : Consistent settings batch)
    (computes : rowAdvantages sqrt settings batch = .ok advantages) {index : ℕ}
    {row : AdvantageRow F} (isRow : batch[index]? = some row) :
    advantages[index]? = some (requestAdvantage sqrt settings (requests settings batch)
      (requestOf settings row)) := by
  rw [rowAdvantages_eq sqrt settings consistent] at computes
  split at computes
  · cases computes
    rw [getElem?_map, isRow, Option.map_some]
  · cases computes

/-- **Consistent batches satisfy the laws.** -/
theorem requestAware_laws : RequestLaws sqrt settings where
  permuted := by
    intro count rows order consistent
    have sameRows : ∀ row, row ∈ List.ofFn rows ↔ row ∈ List.ofFn fun index => rows (order index) := by
      intro row
      rw [mem_ofFn, mem_ofFn]
      exact order.surjective.exists
    obtain ⟨advantage, ours, permuted⟩ := rowAdvantages_of_sameRows sqrt settings consistent sameRows
    rw [ours, permuted]
    split
    · refine congrArg Except.ok ?_
      rw [map_ofFn, map_ofFn]
      refine congrArg List.ofFn (funext fun index => ?_)
      rw [getD_eq_getElem _ _ (by rw [length_ofFn]; exact (order index).isLt), List.getElem_ofFn]
      rfl
    · rfl
  sameRequest := by
    intro batch advantages consistent computes index other row twin isRow isTwin sameRequest
    have same := consistent row (mem_of_getElem? isRow) twin (mem_of_getElem? isTwin)
      sameRequest
    refine ⟨_, getElem?_rowAdvantages sqrt settings consistent computes isRow, ?_⟩
    rw [same]
    exact getElem?_rowAdvantages sqrt settings consistent computes isTwin
  repeated := by
    intro first rest row consistent isRow
    have sameRows : ∀ other, other ∈ first ++ rest ↔ other ∈ first ++ row :: rest := by
      intro other
      rw [mem_append, mem_append, mem_cons]
      constructor
      · exact Or.imp_right Or.inr
      · rintro (isFirst | rfl | isRest)
        · exact Or.inl isFirst
        · exact mem_append.mp isRow
        · exact Or.inr isRest
    obtain ⟨advantage, ours, repeated⟩ := rowAdvantages_of_sameRows sqrt settings consistent sameRows
    rw [ours, repeated]
    split
    · refine congrArg Except.ok ?_
      have position : (first.map advantage).length = first.length := length_map _
      rw [map_append, map_append, map_cons, ← position]
      dsimp only
      rw [eraseIdx_append_of_length_le (Nat.le_refl _), Nat.sub_self]
      rfl
    · rfl
  samePrompt := by
    intro notBatch batch others advantages otherAdvantages consistent consistentOthers computes
      otherComputes index other row twin isRow isTwin sameReward samePrompt
    have same : requestAdvantage sqrt settings (requests settings batch) (requestOf settings row) =
        requestAdvantage sqrt settings (requests settings others) (requestOf settings twin) :=
      requestAdvantage_local sqrt settings notBatch sameReward samePrompt
    refine ⟨_, getElem?_rowAdvantages sqrt settings consistent computes isRow, ?_⟩
    rw [same]
    exact getElem?_rowAdvantages sqrt settings consistentOthers otherComputes isTwin

end Numbers

theorem gdpoPairs_laws : RequestLaws id gdpoPairs := requestAware_laws id gdpoPairs

end Geobench.Trainers
