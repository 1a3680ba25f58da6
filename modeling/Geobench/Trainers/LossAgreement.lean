import Geobench.Library.ListSlices
import Geobench.Trainers.MegatronLoss

/-!
# Agreement of the two losses
-/

set_option autoImplicit false
set_option linter.unusedSectionVars false

namespace Geobench.Trainers

open Library List

section Numbers

variable {F : Type} [Field F] [LinearOrder F] (fns : Elementwise F) (settings : LossSettings F)

/-! ## What does not depend on the numbers of a batch -/

structure RowLayout where
  completionMask : List Bool
  truncated : Bool
  deriving DecidableEq, Repr

/-- The masks of a batch, and which of its tensors there are. -/
structure LossLayout where
  rows : List RowLayout
  refPresent : Bool
  oldPresent : Bool
  rolloutPresent : Bool
  numItemsInBatch : ℕ
  deriving DecidableEq, Repr

def LossRow.layout (row : LossRow F) : RowLayout where
  completionMask := row.tokens.map LossToken.completionMask
  truncated := row.truncated

def LossInputs.layout (inputs : LossInputs F) : LossLayout where
  rows := inputs.rows.map LossRow.layout
  refPresent := inputs.refPresent
  oldPresent := inputs.oldPresent
  rolloutPresent := inputs.rolloutPresent
  numItemsInBatch := inputs.numItemsInBatch

def RowLayout.completionCount (row : RowLayout) : ℕ := row.completionMask.countP id

def dropsRow (truncated : Bool) : Bool := settings.overlongFilter && truncated

/-- The completion tokens of a row that the overlong filter leaves. -/
def RowLayout.keptCount (row : RowLayout) : ℕ :=
  if dropsRow settings row.truncated then 0 else row.completionCount

def LossLayout.completionCount (layout : LossLayout) : ℕ :=
  (layout.rows.map RowLayout.completionCount).sum

def LossLayout.keptCount (layout : LossLayout) : ℕ :=
  (layout.rows.map (RowLayout.keptCount settings)).sum

/-- Only the tokens with an entropy in a top quantile count. -/
def masksEntropy : Prop := settings.topEntropyQuantile < 1

instance : Decidable (masksEntropy settings) :=
  inferInstanceAs (Decidable (settings.topEntropyQuantile < 1))

/-- There is a loss in a batch, however its tokens fare. -/
def DivisorNonzero (layout : LossLayout) : Prop :=
  match settings.lossType with
  | .grpo | .sapo => layout.rows ≠ []
  | .bnpo => True
  | .drGrpo => layout.rows ≠ [] ∧ settings.maxCompletionLength ≠ 0
  | .cispo | .dapo => layout.numItemsInBatch ≠ 0

/-- What both trainers need to compute a loss. -/
structure BothDefined (layout : LossLayout) : Prop where
  quantile : masksEntropy settings → 0 ≤ settings.topEntropyQuantile
  temperatures : settings.lossType = .sapo → settings.tauPos ≠ 0 ∧ settings.tauNeg ≠ 0
  oldPresent : layout.oldPresent = true
  refPresent : klInLoss settings = true → layout.refPresent = true
  rolloutPresent : settings.rolloutImportanceSamplingMode ≠ none →
    settings.disableRolloutImportanceSampling = false ∧ layout.rolloutPresent = true
  divisor : DivisorNonzero settings layout

/-- The orders of the steps make no difference: the divergence is not there together with
weights, or with a mask that can leave tokens out, and the overlong filter does not take
completion tokens from the entropies. -/
structure OrdersAgree (layout : LossLayout) : Prop where
  weights : klInLoss settings = true → settings.rolloutImportanceSamplingMode = none
  entropies : masksEntropy settings →
    layout.keptCount settings = layout.completionCount ∧
      (klInLoss settings = true → layout.keptCount settings ≤ 1)

/-- Both trainers compute a loss, and the order of their steps makes no difference or no
completion token is left. -/
structure LossesAgree (layout : LossLayout) : Prop where
  defined : BothDefined settings layout
  orders : layout.keptCount settings ≠ 0 → OrdersAgree settings layout

/-! ## The rows as maps -/

/-- A row after the overlong filter. -/
def keptRow (row : LossRow F) : LossRow F :=
  if settings.overlongFilter then row.dropOverlong else row

/-- A row with its entropies filled, if they are computed. -/
def filledRow (row : LossRow F) : LossRow F :=
  if computeEntropy settings then row.fillEntropies else row

variable {row : LossRow F}

theorem LossRow.dropOverlong_of_not_truncated (whole : row.truncated = false) :
    row.dropOverlong = row := by
  obtain ⟨tokens, advantage, truncated⟩ := row
  rw [show truncated = false from whole, LossRow.dropOverlong]
  simp only [Bool.not_false, Bool.and_true, map_id']

theorem keptRow_of_stays (stays : dropsRow settings row.truncated = false) :
    keptRow settings row = row := by
  rw [keptRow]
  split
  next filters =>
    rw [dropsRow, filters, Bool.true_and] at stays
    exact LossRow.dropOverlong_of_not_truncated stays
  next => rfl

variable (rows : List (LossRow F))

theorem overlongFiltered_eq_map : overlongFiltered settings rows = rows.map (keptRow settings) := by
  rw [overlongFiltered]
  split
  next filters =>
    rw [Bool.and_eq_true] at filters
    refine map_congr_left fun row _ => ?_
    rw [keptRow, if_pos filters.1]
  next idle =>
    have stay : ∀ row ∈ rows, keptRow settings row = row := by
      intro row isRow
      refine keptRow_of_stays settings ?_
      by_contra drops
      rw [Bool.not_eq_false, dropsRow, Bool.and_eq_true] at drops
      exact idle (Bool.and_eq_true _ _ |>.mpr ⟨drops.1, any_eq_true.mpr ⟨row, isRow, drops.2⟩⟩)
    exact ((map_congr_left stay).trans (map_id' rows)).symm

theorem map_filledRow :
    (if computeEntropy settings then rows.map LossRow.fillEntropies else rows) =
      rows.map (filledRow settings) := by
  split
  next computes =>
    refine map_congr_left fun row _ => ?_
    rw [filledRow, if_pos computes]
  next idle =>
    refine ((map_congr_left fun row _ => ?_).trans (map_id' rows)).symm
    rw [filledRow, if_neg idle]

/-! ## What the trainers compute -/

variable [FloorSemiring F]

/-- The tokens with an entropy in the top quantile, if only these count. -/
def topMask (rows : List (LossRow F)) : Option (LossToken F → Bool) :=
  if masksEntropy settings then
    some (atLeastThreshold (nanquantile (1 - settings.topEntropyQuantile)
      (rows.flatMap fun row => row.tokens.map LossToken.entropy)))
  else none

theorem entropyMask_eq_ok_iff (mask : Option (LossToken F → Bool)) :
    entropyMask settings rows = .ok mask ↔
      (masksEntropy settings → 0 ≤ settings.topEntropyQuantile) ∧
        topMask settings rows = mask := by
  rw [entropyMask, topMask]
  by_cases masks : masksEntropy settings
  · have low : settings.topEntropyQuantile < 1 := masks
    rw [computeEntropy, decide_eq_true low, Bool.or_true, Bool.and_true, if_pos rfl, if_pos masks]
    by_cases negative : settings.topEntropyQuantile < 0
    · rw [if_pos negative]
      exact iff_of_false nofun fun conditions => absurd (conditions.1 masks) (not_le.mpr negative)
    · rw [if_neg negative, Except.ok.injEq]
      exact ⟨fun same => ⟨fun _ => not_lt.mp negative, same⟩, fun conditions => conditions.2⟩
  · have high : decide (settings.topEntropyQuantile < 1) = false := decide_eq_false masks
    rw [high, Bool.and_false, if_neg masks, if_neg Bool.false_ne_true, Except.ok.injEq]
    exact ⟨fun same => ⟨fun top => absurd top masks, same⟩, fun conditions => conditions.2⟩

theorem checkTemperatures_eq_ok_iff :
    checkTemperatures settings = .ok () ↔
      (settings.lossType = .sapo → settings.tauPos ≠ 0 ∧ settings.tauNeg ≠ 0) := by
  rw [checkTemperatures]
  split
  next zero =>
    refine iff_of_false nofun fun nonzero => ?_
    rcases zero.2 with isZero | isZero
    · exact (nonzero zero.1).1 isZero
    · exact (nonzero zero.1).2 isZero
  next nonzero =>
    refine iff_of_true rfl fun isSapo => ⟨fun isZero => ?_, fun isZero => ?_⟩
    · exact nonzero ⟨isSapo, .inl isZero⟩
    · exact nonzero ⟨isSapo, .inr isZero⟩

def trainerRows (inputs : LossInputs F) : List (MaskedRow F) :=
  inputs.rows.map fun row =>
    maskedRow fns settings inputs (topMask settings (inputs.rows.map (filledRow settings)))
      (keptRow settings (filledRow settings row))

/-- The trainer computes a loss exactly when its settings allow one. -/
theorem computeLossAndMetrics_eq_ok_iff (numProcesses : ℕ) (inputs : LossInputs F)
    (loss : Option F) :
    computeLossAndMetrics fns settings numProcesses inputs = .ok loss ↔
      (masksEntropy settings → 0 ≤ settings.topEntropyQuantile) ∧
      (klInLoss settings = true → inputs.refPresent = true) ∧
      (settings.lossType = .sapo → settings.tauPos ≠ 0 ∧ settings.tauNeg ≠ 0) ∧
      normalizeLoss settings numProcesses inputs.numItemsInBatch
        (trainerRows fns settings inputs) = loss := by
  rw [computeLossAndMetrics, map_filledRow]
  constructor
  · intro isLoss
    obtain ⟨mask, isMask, rest⟩ := bind_eq_ok.mp isLoss
    obtain ⟨quantile, rfl⟩ := (entropyMask_eq_ok_iff settings _ _).mp isMask
    by_cases missing : (klInLoss settings && !inputs.refPresent) = true
    · rw [if_pos missing] at rest
      cases rest
    · rw [if_neg missing] at rest
      obtain ⟨_, isChecked, rest⟩ := bind_eq_ok.mp rest
      refine ⟨quantile, fun inLoss => ?_, (checkTemperatures_eq_ok_iff settings).mp isChecked, ?_⟩
      · by_contra absent
        rw [Bool.not_eq_true] at absent
        exact missing (by rw [inLoss, absent]; rfl)
      · rw [overlongFiltered_eq_map, map_map, map_map] at rest
        exact Except.ok.inj rest
  · rintro ⟨quantile, present, temperatures, isLoss⟩
    refine bind_eq_ok.mpr ⟨_, (entropyMask_eq_ok_iff settings _ _).mpr ⟨quantile, rfl⟩, ?_⟩
    have found : ¬(klInLoss settings && !inputs.refPresent) = true := by
      rw [Bool.and_eq_true]
      rintro ⟨inLoss, absent⟩
      rw [present inLoss] at absent
      cases absent
    rw [if_neg found]
    refine bind_eq_ok.mpr ⟨(), (checkTemperatures_eq_ok_iff settings).mpr temperatures, ?_⟩
    rw [overlongFiltered_eq_map, map_map, map_map]
    exact congrArg Except.ok isLoss

/-- The weights of the rollout in the Megatron trainer, where they are assigned. -/
def megatronWeights (row : LossRow F) : Option (LossToken F → F) :=
  settings.rolloutImportanceSamplingMode.map fun mode =>
    applyRolloutImportanceSampling fns settings mode row fun token =>
      token.oldPerTokenLogp - token.rolloutPerTokenLogp

def megatronRows (inputs : LossInputs F) : List (MaskedRow F) :=
  inputs.rows.map fun row =>
    megatronMaskedRow fns settings inputs
      (topMask settings (inputs.rows.map (filledRow settings ∘ keptRow settings)))
      (megatronWeights fns settings row) (filledRow settings (keptRow settings row))

theorem megatronIsWeights_eq_ok_iff (inputs : LossInputs F)
    (weights : Option (LossRow F → LossToken F → F)) :
    megatronIsWeights fns settings inputs = .ok weights ↔
      (settings.rolloutImportanceSamplingMode ≠ none →
        settings.disableRolloutImportanceSampling = false ∧ inputs.rolloutPresent = true) ∧
      weights = settings.rolloutImportanceSamplingMode.map fun mode row =>
        applyRolloutImportanceSampling fns settings mode row fun token =>
          token.oldPerTokenLogp - token.rolloutPerTokenLogp := by
  rw [megatronIsWeights]
  cases isMode : settings.rolloutImportanceSamplingMode with
  | none =>
    exact ⟨fun isOk => ⟨fun isMode => absurd rfl isMode, (Except.ok.inj isOk).symm⟩,
      fun conditions => congrArg Except.ok conditions.2.symm⟩
  | some mode =>
    by_cases compares : comparesRollout settings inputs = true
    · have both : settings.disableRolloutImportanceSampling = false ∧
          inputs.rolloutPresent = true := by
        rw [comparesRollout, isMode] at compares
        simpa using compares
      dsimp only
      rw [if_pos compares, Except.ok.injEq]
      exact ⟨fun same => ⟨fun _ => both, same.symm⟩, fun conditions => conditions.2.symm⟩
    · have notBoth : ¬(settings.disableRolloutImportanceSampling = false ∧
          inputs.rolloutPresent = true) := by
        rw [comparesRollout, isMode] at compares
        simpa using compares
      dsimp only
      rw [if_neg compares]
      exact iff_of_false nofun fun conditions => notBoth (conditions.1 nofun)

/-- The Megatron trainer computes a loss exactly when its settings allow one and the
weights of the rollout are assigned. -/
theorem lossFunc_eq_ok_iff (microBatchSize dpSize : ℕ) (inputs : LossInputs F)
    (loss : Option F) :
    lossFunc fns settings microBatchSize dpSize inputs = .ok loss ↔
      inputs.oldPresent = true ∧
      (settings.lossType = .sapo → settings.tauPos ≠ 0 ∧ settings.tauNeg ≠ 0) ∧
      (settings.rolloutImportanceSamplingMode ≠ none →
        settings.disableRolloutImportanceSampling = false ∧ inputs.rolloutPresent = true) ∧
      (masksEntropy settings → 0 ≤ settings.topEntropyQuantile) ∧
      megatronNormalizeLoss settings microBatchSize dpSize inputs.numItemsInBatch
        (megatronRows fns settings inputs) = loss := by
  have rowsEq : ∀ mask, zipWith (fun whole row =>
      megatronMaskedRow fns settings inputs mask
        ((settings.rolloutImportanceSamplingMode.map fun mode row =>
          applyRolloutImportanceSampling fns settings mode row fun token =>
            token.oldPerTokenLogp - token.rolloutPerTokenLogp).map (· whole)) row)
      inputs.rows ((inputs.rows.map (keptRow settings)).map (filledRow settings)) =
      inputs.rows.map fun row => megatronMaskedRow fns settings inputs mask
        (megatronWeights fns settings row) (filledRow settings (keptRow settings row)) := by
    intro mask
    rw [map_map, zipWith_map_right, zipWith_self]
    refine map_congr_left fun row _ => ?_
    rw [Option.map_map, megatronWeights]
    rfl
  rw [lossFunc, overlongFiltered_eq_map]
  dsimp only
  rw [map_filledRow]
  by_cases present : inputs.oldPresent = true
  · rw [if_pos present]
    constructor
    · intro isLoss
      obtain ⟨_, isChecked, rest⟩ := bind_eq_ok.mp isLoss
      obtain ⟨weights, isWeights, rest⟩ := bind_eq_ok.mp rest
      obtain ⟨assigned, rfl⟩ := (megatronIsWeights_eq_ok_iff fns settings inputs _).mp isWeights
      obtain ⟨mask, isMask, rest⟩ := bind_eq_ok.mp rest
      obtain ⟨quantile, rfl⟩ := (entropyMask_eq_ok_iff settings _ _).mp isMask
      rw [rowsEq, map_map] at rest
      exact ⟨present, (checkTemperatures_eq_ok_iff settings).mp isChecked, assigned, quantile,
        Except.ok.inj rest⟩
    · rintro ⟨_, temperatures, assigned, quantile, isLoss⟩
      refine bind_eq_ok.mpr ⟨(), (checkTemperatures_eq_ok_iff settings).mpr temperatures, ?_⟩
      refine bind_eq_ok.mpr
        ⟨_, (megatronIsWeights_eq_ok_iff fns settings inputs _).mpr ⟨assigned, rfl⟩, ?_⟩
      refine bind_eq_ok.mpr ⟨_, (entropyMask_eq_ok_iff settings _ _).mpr ⟨quantile, rfl⟩, ?_⟩
      rw [rowsEq, map_map]
      exact congrArg Except.ok isLoss
  · rw [if_neg present]
    exact iff_of_false nofun fun conditions => present conditions.1

/-! ## Entropies -/

def completionEntropies (rows : List (LossRow F)) : List F :=
  rows.flatMap fun row => row.tokens.filterMap fun token =>
    if token.completionMask then token.entropy else none

theorem filterMap_entropies {settings : LossSettings F} (masks : masksEntropy settings)
    (rows : List (LossRow F)) :
    ((rows.map (filledRow settings)).flatMap fun row =>
      row.tokens.map LossToken.entropy).filterMap id = completionEntropies rows := by
  have computes : computeEntropy settings = true := by
    rw [computeEntropy, decide_eq_true (show settings.topEntropyQuantile < 1 from masks),
      Bool.or_true]
  rw [flatMap_map, filterMap_flatMap, completionEntropies]
  refine flatMap_congr fun row _ => ?_
  rw [filledRow, if_pos computes, LossRow.fillEntropies, map_map, filterMap_map]
  rfl

theorem completionCount_layout (row : LossRow F) :
    row.layout.completionCount = row.tokens.countP LossToken.completionMask := by
  rw [RowLayout.completionCount, LossRow.layout, countP_map]
  rfl

theorem length_completionEntropies (inputs : LossInputs F) :
    (completionEntropies inputs.rows).length = inputs.layout.completionCount := by
  rw [completionEntropies, length_flatMap, LossLayout.completionCount, LossInputs.layout, map_map]
  refine congrArg sum (map_congr_left fun row isRow => ?_)
  rw [Function.comp_apply, completionCount_layout, length_filterMap_eq_countP]
  refine countP_congr fun token isToken => ?_
  have isSome := inputs.entropy_isSome row isRow token isToken
  by_cases completes : token.completionMask = true
  · rw [if_pos completes, isSome, completes]
  · rw [if_neg completes]
    exact iff_of_false nofun completes

variable {inputs : LossInputs F} {token : LossToken F}

theorem exists_mem_completionEntropies (isRow : row ∈ inputs.rows) (isToken : token ∈ row.tokens)
    (completes : token.completionMask = true) :
    ∃ entropy, token.entropy = some entropy ∧ entropy ∈ completionEntropies inputs.rows := by
  obtain ⟨entropy, isEntropy⟩ :=
    Option.isSome_iff_exists.mp (inputs.entropy_isSome row isRow token isToken)
  refine ⟨entropy, isEntropy, mem_flatMap.mpr ⟨row, isRow, ?_⟩⟩
  exact mem_filterMap.mpr ⟨token, isToken, by rw [if_pos completes, isEntropy]⟩

/-! ## Rows that the filter drops -/

theorem keptCount_le_completionCount (row : RowLayout) :
    row.keptCount settings ≤ row.completionCount := by
  rw [RowLayout.keptCount]
  split
  · exact Nat.zero_le _
  · exact le_rfl

/-- When the filter keeps as many completion tokens as there are, the rows that it drops
have none. -/
theorem completionCount_eq_zero_of_drops {layout : LossLayout}
    (same : layout.keptCount settings = layout.completionCount) {row : RowLayout}
    (isRow : row ∈ layout.rows) (drops : dropsRow settings row.truncated = true) :
    row.completionCount = 0 := by
  by_contra some
  refine absurd same (Nat.ne_of_lt ?_)
  refine sum_lt_sum _ _ (fun row _ => keptCount_le_completionCount settings row)
    ⟨row, isRow, ?_⟩
  rw [RowLayout.keptCount, if_pos drops]
  exact Nat.pos_of_ne_zero some

theorem keptRow_tokens_of_drops (drops : dropsRow settings row.truncated = true) :
    (keptRow settings row).tokens =
      row.tokens.map fun token => { token with completionMask := false } := by
  rw [dropsRow, Bool.and_eq_true] at drops
  rw [keptRow, if_pos drops.1, LossRow.dropOverlong]
  simp only [drops.2, Bool.not_true, Bool.and_false]

theorem layout_filledRow (row : LossRow F) : (filledRow settings row).layout = row.layout := by
  rw [filledRow]
  split
  · rw [LossRow.layout, LossRow.fillEntropies, map_map]
    rfl
  · rfl

@[simp] theorem truncated_filledRow (row : LossRow F) :
    (filledRow settings row).truncated = row.truncated :=
  congrArg RowLayout.truncated (layout_filledRow settings row)

theorem keptRow_filledRow_of_stays (stays : dropsRow settings row.truncated = false) :
    keptRow settings (filledRow settings row) = filledRow settings row :=
  keptRow_of_stays settings (by rw [truncated_filledRow, stays])

/-- When the filter takes no entropies, both trainers find the same threshold. -/
theorem topMask_keptRow
    (same : masksEntropy settings →
      inputs.layout.keptCount settings = inputs.layout.completionCount) :
    topMask settings (inputs.rows.map (filledRow settings ∘ keptRow settings)) =
      topMask settings (inputs.rows.map (filledRow settings)) := by
  rw [topMask, topMask]
  by_cases masks : masksEntropy settings
  · rw [if_pos masks, if_pos masks, nanquantile, nanquantile, filterMap_entropies masks,
      ← map_map, filterMap_entropies masks]
    have entropies : completionEntropies (inputs.rows.map (keptRow settings)) =
        completionEntropies inputs.rows := by
      rw [completionEntropies, completionEntropies, flatMap_map]
      refine flatMap_congr fun row isRow => ?_
      cases drops : dropsRow settings row.truncated with
      | false => rw [keptRow_of_stays settings drops]
      | true =>
        have none : row.layout.completionCount = 0 :=
          completionCount_eq_zero_of_drops settings (same masks)
            (mem_map_of_mem isRow) drops
        rw [completionCount_layout, countP_eq_zero] at none
        rw [keptRow_tokens_of_drops settings drops, filterMap_map]
        refine filterMap_congr fun token isToken => ?_
        rw [Function.comp_apply, if_neg (none token isToken)]
        rfl
    rw [entropies]
  · rw [if_neg masks, if_neg masks]

/-! ## Normalization -/

section Normalize

variable [IsStrictOrderedRing F]

/-- On one process both trainers normalize alike, unless there are no items. -/
theorem megatronNormalizeLoss_eq {numItemsInBatch : ℕ} (rows : List (MaskedRow F))
    (items : settings.lossType = .cispo ∨ settings.lossType = .dapo → numItemsInBatch ≠ 0) :
    megatronNormalizeLoss settings rows.length 1 numItemsInBatch rows =
      normalizeLoss settings 1 numItemsInBatch rows := by
  have whole : numItemsInBatch ≠ 0 →
      max ((numItemsInBatch : F) / (1 : ℕ)) 1 = (numItemsInBatch : F) / (1 : ℕ) := by
    intro someItem
    rw [Nat.cast_one, div_one]
    exact max_eq_left (Nat.one_le_cast.mpr (Nat.pos_of_ne_zero someItem))
  rw [megatronNormalizeLoss, normalizeLoss]
  cases isType : settings.lossType with
  | grpo | sapo | bnpo | drGrpo => rfl
  | cispo => dsimp only; rw [whole (items (.inl isType))]
  | dapo => dsimp only; rw [whole (items (.inr isType))]

end Normalize

/-! ## One row -/

theorem maskedMean_filledRow (row : LossRow F) {value : LossToken F → F}
    (ignores : ∀ (token : LossToken F) entropy,
      value { token with entropy := entropy } = value token) :
    (filledRow settings row).maskedMean value = row.maskedMean value := by
  rw [filledRow]
  split
  · rw [LossRow.maskedMean, LossRow.maskedMean, LossRow.maskedSum, LossRow.maskedSum,
      LossRow.fillEntropies, map_map, countP_map]
    simp only [Function.comp_def, ignores]
  · rfl

/-- The weights of the rollout do not depend on the entropies. -/
theorem applyRolloutImportanceSampling_filledRow (mode : RolloutSamplingMode) (row : LossRow F)
    {ratio : LossToken F → F}
    (ignores : ∀ (token : LossToken F) entropy,
      ratio { token with entropy := entropy } = ratio token) :
    applyRolloutImportanceSampling fns settings mode (filledRow settings row) ratio =
      applyRolloutImportanceSampling fns settings mode row ratio := by
  have level : computeSequenceLevelRatios fns (filledRow settings row)
      (fun token => fns.exp (clamp (ratio token) (-20) 20)) =
      computeSequenceLevelRatios fns row
        (fun token => fns.exp (clamp (ratio token) (-20) 20)) := by
    rw [computeSequenceLevelRatios, computeSequenceLevelRatios]
    refine congrArg fns.exp (maskedMean_filledRow settings row fun token entropy => ?_)
    rw [ignores]
  cases mode with
  | tokenTruncate | tokenMask => rfl
  | sequenceTruncate | sequenceMask =>
    rw [applyRolloutImportanceSampling, applyRolloutImportanceSampling, level]

theorem keptRow_completionMask_of_drops (drops : dropsRow settings row.truncated = true)
    (isToken : token ∈ (keptRow settings row).tokens) : token.completionMask = false := by
  rw [keptRow_tokens_of_drops settings drops] at isToken
  obtain ⟨original, _, rfl⟩ := mem_map.mp isToken
  rfl

theorem filledRow_completionMask (masked : ∀ token ∈ row.tokens, token.completionMask = false) :
    ∀ token ∈ (filledRow settings row).tokens, token.completionMask = false := by
  rw [filledRow]
  split
  · intro token isToken
    obtain ⟨original, isOriginal, rfl⟩ := mem_map.mp isToken
    exact masked original isOriginal
  · exact masked

theorem mem_of_mem_filledRow (isToken : token ∈ (filledRow settings row).tokens)
    (completes : token.completionMask = true) : token ∈ row.tokens := by
  rw [filledRow] at isToken
  split at isToken
  · obtain ⟨original, isOriginal, rfl⟩ := mem_map.mp isToken
    have whole : original.completionMask = true := completes
    rw [if_pos whole]
    exact isOriginal
  · exact isToken

/-- Where both trainers compute a loss, their weights are the same. -/
theorem rolloutIsWeights_filledRow (defined : BothDefined settings inputs.layout)
    (row : LossRow F) :
    rolloutIsWeights fns settings inputs (filledRow settings row) =
      megatronWeights fns settings row := by
  have old : oldLogp inputs = LossToken.oldPerTokenLogp := by
    funext token
    exact if_pos defined.oldPresent
  rw [rolloutIsWeights, megatronWeights, old]
  cases isMode : settings.rolloutImportanceSamplingMode with
  | none => rw [Option.map_none, ite_self]; rfl
  | some mode =>
    obtain ⟨enabled, present⟩ := defined.rolloutPresent (by rw [isMode]; exact nofun)
    have compares : comparesRollout settings inputs = true := by
      rw [comparesRollout, enabled, isMode, show inputs.rolloutPresent = true from present]
      rfl
    rw [if_pos compares, Option.map_some, Option.map_some,
      applyRolloutImportanceSampling_filledRow fns settings mode row fun _ _ => rfl]

/-- In a row that stays, both trainers mask, weigh and add alike where the orders
agree. -/
theorem maskedRow_eq (defined : BothDefined settings inputs.layout)
    {mask otherMask : Option (LossToken F → Bool)}
    (orders : ∀ token ∈ (filledRow settings row).tokens, token.completionMask = true →
      otherMask = mask ∧
      (klInLoss settings = true → settings.rolloutImportanceSamplingMode = none) ∧
      (klInLoss settings = true → ∀ loss, applyMask mask token loss = loss)) :
    MaskedRow.tokenSum (maskedRow fns settings inputs mask (filledRow settings row)) =
      MaskedRow.tokenSum (megatronMaskedRow fns settings inputs otherMask
        (megatronWeights fns settings row) (filledRow settings row)) := by
  have old : oldLogp inputs = LossToken.oldPerTokenLogp := by
    funext token
    exact if_pos defined.oldPresent
  have weightsEq := rolloutIsWeights_filledRow fns settings defined row
  rw [maskedRow, megatronMaskedRow, weightsEq, old]
  refine MaskedRow.tokenSum_congr fun token isToken masked => ?_
  have completes : token.completionMask = true := (Bool.and_eq_true _ _ |>.mp masked).1
  obtain ⟨rfl, noWeights, noMask⟩ := orders token isToken completes
  generalize perTokenLoss fns settings (filledRow settings row) LossToken.oldPerTokenLogp token
    = loss
  by_cases inLoss : klInLoss settings = true
  · have present : (klInLoss settings && inputs.refPresent) = true := by
      rw [inLoss, show inputs.refPresent = true from defined.refPresent inLoss]
      rfl
    have none : megatronWeights fns settings row = none := by
      rw [megatronWeights, noWeights inLoss, Option.map_none]
    rw [if_pos inLoss, if_pos present, none, noMask inLoss, noMask inLoss]
    rfl
  · have absent : ¬(klInLoss settings && inputs.refPresent) = true := by
      rw [Bool.and_eq_true]
      exact fun both => inLoss both.1
    rw [if_neg inLoss, if_neg absent]
    cases otherMask with
    | none => rfl
    | some mask =>
      cases megatronWeights fns settings row with
      | none => rfl
      | some weights => exact mul_right_comm _ _ _

/-! ## Agreement -/

variable [IsStrictOrderedRing F]

/-- The only completion token of a batch has at least the threshold of entropy. -/
theorem applyMask_topMask_of_single
    (nonneg : masksEntropy settings → 0 ≤ settings.topEntropyQuantile)
    (single : masksEntropy settings → inputs.layout.completionCount ≤ 1) (isRow : row ∈ inputs.rows)
    (isToken : token ∈ (filledRow settings row).tokens) (completes : token.completionMask = true)
    (loss : F) :
    applyMask (topMask settings (inputs.rows.map (filledRow settings))) token loss = loss := by
  rw [topMask]
  by_cases masks : masksEntropy settings
  · obtain ⟨entropy, isEntropy, member⟩ := exists_mem_completionEntropies isRow
      (mem_of_mem_filledRow settings isToken completes) completes
    have length : (completionEntropies inputs.rows).length ≤ 1 := by
      rw [length_completionEntropies]
      exact single masks
    have only : ∀ number ∈ completionEntropies inputs.rows, number ≤ entropy := by
      intro number isNumber
      obtain ⟨place, inside, rfl⟩ := mem_iff_getElem.mp isNumber
      obtain ⟨other, otherInside, rfl⟩ := mem_iff_getElem.mp member
      have same : place = other := by omega
      simp only [same, le_refl]
    have someNumber : completionEntropies inputs.rows ≠ [] := ne_nil_of_mem member
    have bound : quantile (1 - settings.topEntropyQuantile) (completionEntropies inputs.rows) ≤
        entropy := by
      refine quantile_le_of_forall_le ?_ ?_ member only
      · exact sub_nonneg.mpr (le_of_lt masks)
      · exact sub_le_self _ (nonneg masks)
    rw [if_pos masks, nanquantile, filterMap_entropies masks, if_neg someNumber, applyMask]
    have reaches : atLeastThreshold
        (some (quantile (1 - settings.topEntropyQuantile) (completionEntropies inputs.rows)))
        token = true := by
      simp only [atLeastThreshold, isEntropy]
      exact decide_eq_true bound
    rw [reaches, if_pos rfl, mul_one]
  · rw [if_neg masks]
    rfl

theorem exists_normalizeLoss {layout : LossLayout} (divisor : DivisorNonzero settings layout)
    {rows : List (MaskedRow F)} (length : rows.length = layout.rows.length) :
    ∃ loss, normalizeLoss settings 1 layout.numItemsInBatch rows = some loss := by
  have someRow : layout.rows ≠ [] → ((rows.length : ℕ) : F) ≠ 0 := by
    intro nonempty
    rw [length]
    exact Nat.cast_ne_zero.mpr (length_pos_iff.mpr nonempty).ne'
  rw [DivisorNonzero] at divisor
  rw [normalizeLoss]
  cases isType : settings.lossType with
  | grpo | sapo =>
    rw [isType] at divisor
    exact ⟨_, if_neg (someRow divisor)⟩
  | bnpo => exact ⟨_, if_neg (lt_max_of_lt_right one_pos).ne'⟩
  | drGrpo =>
    rw [isType] at divisor
    refine ⟨_, if_neg ?_⟩
    rw [Nat.cast_mul]
    exact mul_ne_zero (someRow divisor.1) (Nat.cast_ne_zero.mpr divisor.2)
  | cispo | dapo =>
    rw [isType] at divisor
    refine ⟨_, if_neg ?_⟩
    rw [Nat.cast_one, div_one]
    exact Nat.cast_ne_zero.mpr divisor

/-- A row that the filter drops has no completion tokens in either trainer. -/
theorem masked_of_drops (drops : dropsRow settings row.truncated = true) (inputs : LossInputs F)
    (mask : Option (LossToken F → Bool)) (weights : Option (LossToken F → F)) :
    (∀ entry ∈ maskedRow fns settings inputs mask (keptRow settings (filledRow settings row)),
      entry.2 = false) ∧
    ∀ entry ∈ megatronMaskedRow fns settings inputs mask weights
      (filledRow settings (keptRow settings row)), entry.2 = false := by
  constructor
  · intro entry isEntry
    obtain ⟨token, isToken, rfl⟩ := mem_map.mp isEntry
    have masked : token.completionMask = false :=
      keptRow_completionMask_of_drops settings
        (by rw [truncated_filledRow]; exact drops) isToken
    dsimp only
    rw [masked, Bool.false_and]
  · intro entry isEntry
    obtain ⟨token, isToken, rfl⟩ := mem_map.mp isEntry
    have masked : token.completionMask = false :=
      filledRow_completionMask settings
        (fun token isToken => keptRow_completionMask_of_drops settings drops isToken) token isToken
    dsimp only
    rw [masked, Bool.false_and]

/-- Rows of both trainers have one mask. -/
theorem tokenCount_rows_eq (present : inputs.oldPresent = true) (row : LossRow F)
    (mask otherMask : Option (LossToken F → Bool)) (weights : Option (LossToken F → F)) :
    MaskedRow.tokenCount (maskedRow fns settings inputs mask
        (keptRow settings (filledRow settings row))) =
      MaskedRow.tokenCount (megatronMaskedRow fns settings inputs otherMask weights
        (filledRow settings (keptRow settings row))) := by
  cases drops : dropsRow settings row.truncated with
  | true =>
    rw [MaskedRow.tokenCount_eq_zero (masked_of_drops fns settings drops inputs mask weights).1,
      MaskedRow.tokenCount_eq_zero
        (masked_of_drops fns settings drops inputs otherMask weights).2]
  | false =>
    have old : oldLogp inputs = LossToken.oldPerTokenLogp := by
      funext token
      exact if_pos present
    rw [keptRow_of_stays settings drops, keptRow_filledRow_of_stays settings drops,
      maskedRow, megatronMaskedRow, old, MaskedRow.tokenCount_map, MaskedRow.tokenCount_map]

/-- A completion token in a row that stays is one that the filter keeps. -/
theorem keptCount_ne_zero (isRow : row ∈ inputs.rows)
    (stays : dropsRow settings row.truncated = false) (isToken : token ∈ row.tokens)
    (completes : token.completionMask = true) : inputs.layout.keptCount settings ≠ 0 := by
  intro none
  have each := sum_eq_zero_iff.mp none (row.layout.keptCount settings)
    (mem_map_of_mem (mem_map_of_mem isRow))
  have notDropped : ¬dropsRow settings row.layout.truncated = true := by
    rw [show row.layout.truncated = row.truncated from rfl, stays]
    exact Bool.false_ne_true
  rw [RowLayout.keptCount, if_neg notDropped, completionCount_layout, countP_eq_zero] at each
  exact each token isToken completes

theorem losses_eq (agree : LossesAgree settings inputs.layout) :
    ∃ loss, computeLossAndMetrics fns settings 1 inputs = .ok (some loss) ∧
      lossFunc fns settings inputs.rows.length 1 inputs = .ok (some loss) := by
  obtain ⟨defined, orders⟩ := agree
  have present : inputs.oldPresent = true := defined.oldPresent
  have length : (trainerRows fns settings inputs).length = inputs.layout.rows.length := by
    rw [trainerRows, length_map, LossInputs.layout, length_map]
  obtain ⟨loss, isLoss⟩ := exists_normalizeLoss settings defined.divisor length
  have same : normalizeLoss settings 1 inputs.numItemsInBatch (megatronRows fns settings inputs) =
      normalizeLoss settings 1 inputs.numItemsInBatch (trainerRows fns settings inputs) := by
    refine (normalizeLoss_congr settings _ _ (fun row isRow => ?_) fun row _ => ?_).symm
    · cases drops : dropsRow settings row.truncated with
      | true =>
        rw [MaskedRow.tokenSum_eq_zero (masked_of_drops fns settings drops inputs _ none).1,
          MaskedRow.tokenSum_eq_zero (masked_of_drops fns settings drops inputs _ _).2]
      | false =>
        rw [keptRow_of_stays settings drops, keptRow_filledRow_of_stays settings drops]
        refine maskedRow_eq fns settings defined fun token isToken completes => ?_
        have agrees := orders (keptCount_ne_zero settings isRow drops
          (mem_of_mem_filledRow settings isToken completes) completes)
        refine ⟨topMask_keptRow settings fun masks => (agrees.entropies masks).1,
          agrees.weights, fun inLoss lossValue => ?_⟩
        refine applyMask_topMask_of_single settings defined.quantile (fun masks => ?_) isRow
          isToken completes lossValue
        rw [← (agrees.entropies masks).1]
        exact (agrees.entropies masks).2 inLoss
    · exact tokenCount_rows_eq fns settings present row _ _ _
  refine ⟨loss, ?_, ?_⟩
  · exact (computeLossAndMetrics_eq_ok_iff fns settings 1 inputs _).mpr
      ⟨defined.quantile, defined.refPresent, defined.temperatures, isLoss⟩
  · refine (lossFunc_eq_ok_iff fns settings _ 1 inputs _).mpr
      ⟨present, defined.temperatures, defined.rolloutPresent, defined.quantile, ?_⟩
    have rowsLength : inputs.rows.length = (megatronRows fns settings inputs).length := by
      rw [megatronRows, length_map]
    rw [rowsLength, megatronNormalizeLoss_eq, same]
    · exact isLoss
    · have divisor := defined.divisor
      rw [DivisorNonzero] at divisor
      rintro (isType | isType) <;> (rw [isType] at divisor; exact divisor)

end Numbers

end Geobench.Trainers
