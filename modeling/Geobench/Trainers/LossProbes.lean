import Geobench.Trainers.LossAgreement

/-!
# Where the two losses differ

A probe is a batch of a given layout whose tokens have one loss and one divergence and
differ in their entropies only. Under constant elementwise functions the losses of its
tokens are known in both trainers, and are ordered when a step of one trainer comes before
a step of the other that it does not commute with. The losses of the batch are then not
one, since the loss is strictly monotone in the losses of its tokens.

With the agreement of the two losses this gives the exact condition
(`losses_agree_iff`).
-/

set_option autoImplicit false
set_option linter.unusedSectionVars false

namespace Geobench.Trainers

open Library List

section Numbers

variable {F : Type} [Field F] [LinearOrder F] (settings : LossSettings F)

/-! ## Probes -/

/-- The numbers of a batch whose tokens differ in their entropies only. The entropy of a
token depends on its place, and on whether the filter drops its row. -/
structure Probe (F : Type) where
  perTokenLogp : F
  refPerTokenLogp : F
  advantage : F
  entropy : Bool → ℕ → F

namespace Probe

variable (probe : Probe F)

def token (dropped completionMask : Bool) (index : ℕ) : LossToken F where
  perTokenLogp := probe.perTokenLogp
  entropy := some (probe.entropy dropped index)
  refPerTokenLogp := probe.refPerTokenLogp
  oldPerTokenLogp := probe.perTokenLogp
  rolloutPerTokenLogp := probe.perTokenLogp
  completionMask := completionMask

/-- The row of a layout, its tokens numbered from a place on. -/
def row (start : ℕ) (layout : RowLayout) : LossRow F where
  tokens := (layout.completionMask.zipIdx start).map fun entry =>
    probe.token (dropsRow settings layout.truncated) entry.1 entry.2
  advantage := probe.advantage
  truncated := layout.truncated

def rows : ℕ → List RowLayout → List (LossRow F)
  | _, [] => []
  | start, layout :: rest =>
    probe.row settings start layout :: rows (start + layout.completionMask.length) rest

theorem layout_row (start : ℕ) (layout : RowLayout) :
    (probe.row settings start layout).layout = layout := by
  rw [LossRow.layout, row, map_map]
  exact congrArg (RowLayout.mk · layout.truncated) (zipIdx_map_fst start _)

theorem map_layout_rows (start : ℕ) (layouts : List RowLayout) :
    (probe.rows settings start layouts).map LossRow.layout = layouts := by
  induction layouts generalizing start with
  | nil => rfl
  | cons layout rest ih => rw [rows, map_cons, layout_row, ih]

/-- What every token of a probe has. -/
theorem eq_of_mem_rows {start : ℕ} {layouts : List RowLayout} {row : LossRow F}
    (isRow : row ∈ probe.rows settings start layouts) :
    row.advantage = probe.advantage ∧ ∀ token ∈ row.tokens,
      ∃ index, token = probe.token (dropsRow settings row.truncated) token.completionMask index := by
  induction layouts generalizing start with
  | nil => exact absurd isRow not_mem_nil
  | cons layout rest ih =>
    rcases mem_cons.mp isRow with rfl | isLater
    · refine ⟨rfl, fun token isToken => ?_⟩
      obtain ⟨entry, _, rfl⟩ := mem_map.mp isToken
      exact ⟨entry.2, rfl⟩
    · exact ih isLater

/-- The batch of a layout with the numbers of a probe. -/
def inputs (layout : LossLayout) : LossInputs F where
  rows := probe.rows settings 0 layout.rows
  entropy_isSome := fun row isRow token isToken => by
    obtain ⟨index, isProbe⟩ := (probe.eq_of_mem_rows settings isRow).2 token isToken
    rw [isProbe]
    rfl
  refPresent := layout.refPresent
  oldPresent := layout.oldPresent
  rolloutPresent := layout.rolloutPresent
  numItemsInBatch := layout.numItemsInBatch

@[simp] theorem layout_inputs (layout : LossLayout) :
    (probe.inputs settings layout).layout = layout := by
  rw [LossInputs.layout, inputs, map_layout_rows]

end Probe

/-! ## The places of the completion tokens -/

def rowIndexes (start : ℕ) (completionMask : List Bool) : List ℕ :=
  ((completionMask.zipIdx start).filter Prod.fst).map Prod.snd

/-- The places of the completion tokens that the filter keeps. -/
def keptIndexes : ℕ → List RowLayout → List ℕ
  | _, [] => []
  | start, layout :: rest =>
    (if dropsRow settings layout.truncated then [] else rowIndexes start layout.completionMask)
      ++ keptIndexes (start + layout.completionMask.length) rest

variable (start : ℕ)

theorem length_rowIndexes (completionMask : List Bool) :
    (rowIndexes start completionMask).length = completionMask.countP id := by
  rw [rowIndexes, length_map, ← countP_eq_length_filter]
  conv_rhs => rw [← zipIdx_map_fst start completionMask, countP_map]
  rfl

variable (layouts : List RowLayout)

theorem length_keptIndexes :
    (keptIndexes settings start layouts).length =
      (layouts.map (RowLayout.keptCount settings)).sum := by
  induction layouts generalizing start with
  | nil => rfl
  | cons layout rest ih =>
    rw [keptIndexes, length_append, ih, map_cons, sum_cons, RowLayout.keptCount]
    split
    · rfl
    · rw [length_rowIndexes, RowLayout.completionCount]

/-- The places increase. -/
theorem keptIndexes_sublist :
    ∃ length, (keptIndexes settings start layouts).Sublist (List.range' start length) := by
  induction layouts generalizing start with
  | nil => exact ⟨0, List.Sublist.refl _⟩
  | cons layout rest ih =>
    obtain ⟨length, isSublist⟩ := ih (start + layout.completionMask.length)
    refine ⟨layout.completionMask.length + length, ?_⟩
    rw [keptIndexes, ← range'_append_1]
    refine List.Sublist.append ?_ isSublist
    split
    · exact nil_sublist _
    · rw [rowIndexes, ← zipIdx_map_snd start layout.completionMask]
      exact filter_sublist.map _

theorem pairwise_keptIndexes : (keptIndexes settings start layouts).Pairwise (· < ·) := by
  obtain ⟨length, isSublist⟩ := keptIndexes_sublist settings start layouts
  exact List.Pairwise.sublist isSublist pairwise_lt_range'

/-! ## The entropies of a probe -/

section Entropies

variable [FloorSemiring F] (probe : Probe F)

theorem completionEntropies_row (start : ℕ) (layout : RowLayout) :
    completionEntropies [probe.row settings start layout] =
      (rowIndexes start layout.completionMask).map
        (probe.entropy (dropsRow settings layout.truncated)) := by
  rw [completionEntropies, flatMap_singleton, Probe.row, rowIndexes, filterMap_map, map_map]
  induction layout.completionMask.zipIdx start with
  | nil => rfl
  | cons entry rest ih =>
    obtain ⟨completes, index⟩ := entry
    cases completes with
    | true => exact congrArg (probe.entropy _ index :: ·) ih
    | false => exact ih

theorem completionEntropies_cons (row : LossRow F) (rows : List (LossRow F)) :
    completionEntropies (row :: rows) =
      completionEntropies [row] ++ completionEntropies rows := by
  rw [completionEntropies, flatMap_cons, completionEntropies, flatMap_singleton]
  rfl

/-- What the filter leaves are the entropies of the places it keeps. -/
theorem completionEntropies_keptRow (start : ℕ) (layouts : List RowLayout) :
    completionEntropies ((probe.rows settings start layouts).map (keptRow settings)) =
      (keptIndexes settings start layouts).map (probe.entropy false) := by
  induction layouts generalizing start with
  | nil => rfl
  | cons layout rest ih =>
    rw [Probe.rows, map_cons, completionEntropies_cons, ih, keptIndexes, map_append]
    refine congrArg (· ++ _) ?_
    cases drops : dropsRow settings layout.truncated with
    | true =>
      rw [if_pos rfl, completionEntropies, flatMap_singleton,
        keptRow_tokens_of_drops settings (show dropsRow settings
          (probe.row settings start layout).truncated = true from drops),
        filterMap_map]
      exact filterMap_eq_nil_iff.mpr fun _ _ => rfl
    | false =>
      rw [if_neg Bool.false_ne_true,
        keptRow_of_stays settings (show dropsRow settings
          (probe.row settings start layout).truncated = false from drops),
        completionEntropies_row, drops]

/-- The entropies of the completion tokens are those of the places that the filter keeps,
and as many more as the filter drops. -/
theorem completionEntropies_perm {entropy : F} (constant : ∀ index, probe.entropy true index = entropy)
    (start : ℕ) (layouts : List RowLayout) :
    ∃ dropped, (completionEntropies (probe.rows settings start layouts)).Perm
      ((keptIndexes settings start layouts).map (probe.entropy false) ++
        replicate dropped entropy) := by
  induction layouts generalizing start with
  | nil => exact ⟨0, List.Perm.refl _⟩
  | cons layout rest ih =>
    obtain ⟨dropped, isPerm⟩ := ih (start + layout.completionMask.length)
    rw [Probe.rows, completionEntropies_cons, completionEntropies_row, keptIndexes]
    cases drops : dropsRow settings layout.truncated with
    | false =>
      refine ⟨dropped, ?_⟩
      rw [if_neg Bool.false_ne_true, map_append, append_assoc]
      exact isPerm.append_left _
    | true =>
      refine ⟨dropped + (rowIndexes start layout.completionMask).length, ?_⟩
      have same : (rowIndexes start layout.completionMask).map (probe.entropy true) =
          replicate (rowIndexes start layout.completionMask).length entropy := by
        rw [← map_const']
        exact map_congr_left fun index _ => constant index
      rw [if_pos rfl, same, nil_append, replicate_add, ← append_assoc]
      exact perm_append_comm.trans (isPerm.append_right _)

end Entropies

/-! ## Losses under constant functions -/

def constantFunctions (exp : F) : Elementwise F where
  exp := fun _ => exp
  log := fun _ => 0
  sigmoid := fun _ => 1

/-- A constant below one and every threshold. -/
def lowConstant : F :=
  min (-1) (min settings.rolloutImportanceSamplingThreshold
    (min settings.epsilonHigh (min (1 - settings.epsilonLow)
      (min (1 + settings.epsilonHigh) (settings.delta.getD (-1))))))

variable [IsStrictOrderedRing F]

theorem lowConstant_bounds :
    lowConstant settings ≤ -1 ∧
      lowConstant settings ≤ settings.rolloutImportanceSamplingThreshold ∧
      lowConstant settings ≤ settings.epsilonHigh ∧
      lowConstant settings ≤ 1 - settings.epsilonLow ∧
      lowConstant settings ≤ 1 + settings.epsilonHigh ∧
      lowConstant settings ≤ settings.delta.getD (-1) := by
  simp [lowConstant]

theorem lowConstant_neg : lowConstant settings < 0 :=
  (lowConstant_bounds settings).1.trans_lt (by linarith [one_pos (α := F)])

/-- A constant below the threshold is its own weight. -/
theorem applyRolloutImportanceSampling_constant (mode : RolloutSamplingMode) (row : LossRow F)
    (ratio : LossToken F → F) (token : LossToken F) :
    applyRolloutImportanceSampling (constantFunctions (lowConstant settings)) settings mode row
      ratio token = lowConstant settings := by
  have below := (lowConstant_bounds settings).2.1
  cases mode with
  | tokenTruncate => exact min_eq_left below
  | tokenMask => exact if_pos below
  | sequenceTruncate => exact min_eq_left below
  | sequenceMask =>
    rw [applyRolloutImportanceSampling]
    dsimp only
    rw [computeSequenceLevelRatios]
    exact (congrArg (lowConstant settings * ·) (if_pos below)).trans (mul_one _)

theorem perTokenLoss_of_advantage_eq_zero (fns : Elementwise F) {row : LossRow F}
    (none : row.advantage = 0) (old : LossToken F → F) (token : LossToken F) :
    perTokenLoss fns settings row old token = 0 := by
  rw [perTokenLoss]
  cases settings.lossType <;> simp [none]

/-- The loss of every token of a row with an advantage of one. -/
def constantLoss : F :=
  match settings.lossType with
  | .cispo => lowConstant settings
  | .sapo => -(4 / settings.tauPos)
  | .grpo | .bnpo | .drGrpo | .dapo => -lowConstant settings

theorem constantLoss_ne_zero (temperatures : settings.lossType = .sapo → settings.tauPos ≠ 0) :
    constantLoss settings ≠ 0 := by
  have negative := lowConstant_neg settings
  rw [constantLoss]
  cases isType : settings.lossType with
  | cispo => exact negative.ne
  | sapo => exact neg_ne_zero.mpr (div_ne_zero four_ne_zero (temperatures isType))
  | grpo | bnpo | drGrpo | dapo => exact neg_ne_zero.mpr negative.ne

theorem perTokenLoss_constant {row : LossRow F} (advantage : row.advantage = 1)
    (old : LossToken F → F) {token : LossToken F} (logp : token.perTokenLogp = -1) :
    perTokenLoss (constantFunctions (lowConstant settings)) settings row old token =
      constantLoss settings := by
  obtain ⟨minusOne, _, epsilonHigh, least, greatest, delta⟩ := lowConstant_bounds settings
  rw [perTokenLoss, constantLoss]
  cases settings.lossType with
  | cispo =>
    dsimp only [constantFunctions]
    rw [min_eq_left epsilonHigh, advantage, logp]
    ring
  | sapo =>
    dsimp only [constantFunctions]
    rw [advantage, if_pos one_pos]
    ring
  | grpo | bnpo | drGrpo | dapo =>
    dsimp only [constantFunctions]
    have clipped : settings.delta.elim (lowConstant settings) (min (lowConstant settings)) =
        lowConstant settings := by
      cases isDelta : settings.delta with
      | none => rfl
      | some bound =>
        rw [isDelta] at delta
        exact min_eq_left delta
    have clamped : lowConstant settings ≤ clamp (lowConstant settings)
        (1 - settings.epsilonLow) (1 + settings.epsilonHigh) :=
      le_min (le_max_left _ _) greatest
    rw [clipped, advantage, mul_one, mul_one, min_eq_left clamped]

/-! ## Losses token by token -/

section Tokens

variable (fns : Elementwise F)

def trainerLoss (inputs : LossInputs F) (mask : Option (LossToken F → Bool)) (row : LossRow F)
    (token : LossToken F) : F :=
  let loss := applyMask mask token (perTokenLoss fns settings row (oldLogp inputs) token)
  let loss := if klInLoss settings then loss + settings.beta * perTokenKl fns token else loss
  applyWeight (rolloutIsWeights fns settings inputs row) token loss

def megatronLoss (inputs : LossInputs F) (mask : Option (LossToken F → Bool))
    (weights : Option (LossToken F → F)) (row : LossRow F) (token : LossToken F) : F :=
  let loss := applyWeight weights token
    (perTokenLoss fns settings row LossToken.oldPerTokenLogp token)
  let loss := if klInLoss settings && inputs.refPresent then
      loss + settings.beta * perTokenKl fns token
    else loss
  applyMask mask token loss

theorem computeOffPolicySequenceMask_of_nonneg {row : LossRow F} (nonneg : 0 ≤ row.advantage)
    (oldPolicy : LossToken F → F) : computeOffPolicySequenceMask settings row oldPolicy = true := by
  rw [computeOffPolicySequenceMask]
  cases settings.offPolicySequenceMaskDelta with
  | none => rfl
  | some delta =>
    dsimp only
    rw [decide_eq_false (not_lt.mpr nonneg), Bool.and_false]
    rfl

theorem maskedRow_of_nonneg {row : LossRow F} (nonneg : 0 ≤ row.advantage)
    (inputs : LossInputs F) (mask : Option (LossToken F → Bool)) :
    maskedRow fns settings inputs mask row = row.tokens.map fun token =>
      (trainerLoss settings fns inputs mask row token, token.completionMask) := by
  rw [maskedRow, computeOffPolicySequenceMask_of_nonneg settings nonneg]
  simp only [Bool.and_true]
  rfl

theorem megatronMaskedRow_of_nonneg {row : LossRow F} (nonneg : 0 ≤ row.advantage)
    (inputs : LossInputs F) (mask : Option (LossToken F → Bool))
    (weights : Option (LossToken F → F)) :
    megatronMaskedRow fns settings inputs mask weights row = row.tokens.map fun token =>
      (megatronLoss settings fns inputs mask weights row token, token.completionMask) := by
  rw [megatronMaskedRow, computeOffPolicySequenceMask_of_nonneg settings nonneg]
  simp only [Bool.and_true]
  rfl

variable [FloorSemiring F]

/-- A completion token of a row that stays. -/
def KeptToken (inputs : LossInputs F) (row : LossRow F) (token : LossToken F) : Prop :=
  row ∈ inputs.rows ∧ dropsRow settings row.truncated = false ∧
    token ∈ (filledRow settings row).tokens ∧ token.completionMask = true

/-- One loss is at most the other on all kept tokens, and less on some. -/
def LessOnKept (inputs : LossInputs F) (value other : LossRow F → LossToken F → F) : Prop :=
  (∀ row token, KeptToken settings inputs row token → value row token ≤ other row token) ∧
    ∃ row token, KeptToken settings inputs row token ∧ value row token < other row token

/-- Rows with the losses of their kept tokens are ordered as these are. -/
theorem normalizeLoss_lt_of_lessOnKept {inputs : LossInputs F}
    {value other : LossRow F → LossToken F → F} (less : LessOnKept settings inputs value other)
    {f g : LossRow F → MaskedRow F}
    (counts : ∀ row ∈ inputs.rows, (f row).tokenCount = (g row).tokenCount)
    (dropped : ∀ row ∈ inputs.rows, dropsRow settings row.truncated = true →
      (f row).tokenSum = 0 ∧ (g row).tokenSum = 0)
    (kept : ∀ row ∈ inputs.rows, dropsRow settings row.truncated = false →
      f row = ((filledRow settings row).tokens.map fun token =>
        (value row token, token.completionMask)) ∧
      g row = ((filledRow settings row).tokens.map fun token =>
        (other row token, token.completionMask)))
    {numProcesses numItemsInBatch : ℕ} {loss otherLoss : F}
    (isLoss : normalizeLoss settings numProcesses numItemsInBatch (inputs.rows.map f) = some loss)
    (isOther : normalizeLoss settings numProcesses numItemsInBatch (inputs.rows.map g) =
      some otherLoss) : loss < otherLoss := by
  obtain ⟨le, lessRow, lessToken, ⟨isRow, stays, isToken, completes⟩, lt⟩ := less
  refine normalizeLoss_lt settings (fun row isRow => ?_) ⟨lessRow, isRow, ?_⟩ counts isLoss isOther
  · cases drops : dropsRow settings row.truncated with
    | true => rw [(dropped row isRow drops).1, (dropped row isRow drops).2]
    | false =>
      rw [(kept row isRow drops).1, (kept row isRow drops).2]
      exact MaskedRow.tokenSum_le fun token isToken completes =>
        le row token ⟨isRow, drops, isToken, completes⟩
  · rw [(kept lessRow isRow stays).1, (kept lessRow isRow stays).2]
    exact MaskedRow.tokenSum_lt
      (fun token isToken completes => le lessRow token ⟨isRow, stays, isToken, completes⟩)
      ⟨lessToken, isToken, completes, lt⟩

abbrev trainerMask (inputs : LossInputs F) : Option (LossToken F → Bool) :=
  topMask settings (inputs.rows.map (filledRow settings))

abbrev megatronMask (inputs : LossInputs F) : Option (LossToken F → Bool) :=
  topMask settings (inputs.rows.map (filledRow settings ∘ keptRow settings))

theorem advantage_filledRow (row : LossRow F) :
    (filledRow settings row).advantage = row.advantage := by
  rw [filledRow]
  split <;> rfl

/-- Where the losses are one, neither trainer has the smaller losses of tokens. -/
theorem not_lessOnKept {inputs : LossInputs F}
    (agree : ∃ loss, computeLossAndMetrics fns settings 1 inputs = .ok (some loss) ∧
      lossFunc fns settings inputs.rows.length 1 inputs = .ok (some loss))
    (defined : BothDefined settings inputs.layout)
    (nonneg : ∀ row ∈ inputs.rows, 0 ≤ row.advantage) :
    ¬LessOnKept settings inputs
        (fun row => trainerLoss settings fns inputs (trainerMask settings inputs)
          (filledRow settings row))
        (fun row => megatronLoss settings fns inputs (megatronMask settings inputs)
          (megatronWeights fns settings row) (filledRow settings row)) ∧
      ¬LessOnKept settings inputs
        (fun row => megatronLoss settings fns inputs (megatronMask settings inputs)
          (megatronWeights fns settings row) (filledRow settings row))
        (fun row => trainerLoss settings fns inputs (trainerMask settings inputs)
          (filledRow settings row)) := by
  obtain ⟨loss, isTrainer, isMegatron⟩ := agree
  have isLoss := ((computeLossAndMetrics_eq_ok_iff fns settings 1 inputs _).mp isTrainer).2.2.2
  have isOther := ((lossFunc_eq_ok_iff fns settings _ 1 inputs _).mp isMegatron).2.2.2.2
  have rowsLength : inputs.rows.length = (megatronRows fns settings inputs).length := by
    rw [megatronRows, length_map]
  have items : settings.lossType = .cispo ∨ settings.lossType = .dapo →
      inputs.numItemsInBatch ≠ 0 := by
    have divisor := defined.divisor
    rw [DivisorNonzero] at divisor
    rintro (isType | isType) <;> (rw [isType] at divisor; exact divisor)
  rw [rowsLength, megatronNormalizeLoss_eq settings _ items] at isOther
  have counts := fun (row : LossRow F) (_ : row ∈ inputs.rows) =>
    tokenCount_rows_eq fns settings defined.oldPresent row (trainerMask settings inputs)
      (megatronMask settings inputs) (megatronWeights fns settings row)
  have dropped := fun (row : LossRow F) (_ : row ∈ inputs.rows)
      (drops : dropsRow settings row.truncated = true) =>
    And.intro
      (MaskedRow.tokenSum_eq_zero
        (masked_of_drops fns settings drops inputs (trainerMask settings inputs) none).1)
      (MaskedRow.tokenSum_eq_zero (masked_of_drops fns settings drops inputs
        (megatronMask settings inputs) (megatronWeights fns settings row)).2)
  have kept : ∀ row ∈ inputs.rows, dropsRow settings row.truncated = false →
      maskedRow fns settings inputs (trainerMask settings inputs)
          (keptRow settings (filledRow settings row)) =
        ((filledRow settings row).tokens.map fun token =>
          (trainerLoss settings fns inputs (trainerMask settings inputs) (filledRow settings row)
            token, token.completionMask)) ∧
      megatronMaskedRow fns settings inputs (megatronMask settings inputs)
          (megatronWeights fns settings row) (filledRow settings (keptRow settings row)) =
        ((filledRow settings row).tokens.map fun token =>
          (megatronLoss settings fns inputs (megatronMask settings inputs)
            (megatronWeights fns settings row) (filledRow settings row) token,
            token.completionMask)) := by
    intro row isRow stays
    have advantage : 0 ≤ (filledRow settings row).advantage := by
      rw [advantage_filledRow]
      exact nonneg row isRow
    rw [keptRow_filledRow_of_stays settings stays, keptRow_of_stays settings stays]
    exact ⟨maskedRow_of_nonneg settings fns advantage inputs _,
      megatronMaskedRow_of_nonneg settings fns advantage inputs _ _⟩
  constructor
  · intro less
    exact lt_irrefl loss
      (normalizeLoss_lt_of_lessOnKept settings less counts dropped kept isLoss isOther)
  · intro less
    exact lt_irrefl loss (normalizeLoss_lt_of_lessOnKept settings less
      (fun row isRow => (counts row isRow).symm) (fun row isRow drops => (dropped row isRow drops).symm)
      (fun row isRow stays => (kept row isRow stays).symm) isOther isLoss)

end Tokens

/-! ## The losses of a probe -/

section Values

variable [FloorSemiring F] (probe : Probe F)

theorem exists_index_of_mem_rows {start : ℕ} {layouts : List RowLayout} {row : LossRow F}
    (isRow : row ∈ probe.rows settings start layouts)
    (stays : dropsRow settings row.truncated = false) {token : LossToken F}
    (isToken : token ∈ row.tokens) (completes : token.completionMask = true) :
    ∃ index ∈ keptIndexes settings start layouts, token = probe.token false true index := by
  induction layouts generalizing start with
  | nil => exact absurd isRow not_mem_nil
  | cons layout rest ih =>
    rcases mem_cons.mp isRow with rfl | isLater
    · obtain ⟨entry, isEntry, rfl⟩ := mem_map.mp isToken
      have stay : dropsRow settings layout.truncated = false := stays
      have complete : entry.1 = true := completes
      refine ⟨entry.2, ?_, by rw [stay, complete]⟩
      rw [keptIndexes, stay]
      apply mem_append_left
      exact mem_map.mpr ⟨entry, mem_filter.mpr ⟨isEntry, complete⟩, rfl⟩
    · obtain ⟨index, isIndex, isProbe⟩ := ih isLater
      exact ⟨index, mem_append_right _ isIndex, isProbe⟩

theorem exists_mem_rows_of_index {start : ℕ} {layouts : List RowLayout} {index : ℕ}
    (isIndex : index ∈ keptIndexes settings start layouts) :
    ∃ row ∈ probe.rows settings start layouts, dropsRow settings row.truncated = false ∧
      probe.token false true index ∈ row.tokens := by
  induction layouts generalizing start with
  | nil => exact absurd isIndex not_mem_nil
  | cons layout rest ih =>
    rcases mem_append.mp isIndex with isFirst | isLater
    · cases drops : dropsRow settings layout.truncated with
      | true =>
        rw [drops] at isFirst
        exact absurd isFirst not_mem_nil
      | false =>
        rw [drops] at isFirst
        obtain ⟨entry, isEntry, rfl⟩ := mem_map.mp isFirst
        obtain ⟨inRow, completes⟩ := mem_filter.mp isEntry
        refine ⟨_, mem_cons_self, drops, mem_map.mpr ⟨entry, inRow, ?_⟩⟩
        rw [drops, completes]
    · obtain ⟨row, isRow, found⟩ := ih isLater
      exact ⟨row, mem_cons_of_mem _ isRow, found⟩

theorem mem_filledRow_of_mem {row : LossRow F} {token : LossToken F} (isToken : token ∈ row.tokens)
    (completes : token.completionMask = true) : token ∈ (filledRow settings row).tokens := by
  rw [filledRow]
  split
  · refine mem_map.mpr ⟨token, isToken, ?_⟩
    rw [if_pos completes]
  · exact isToken

variable {layout : LossLayout}

theorem exists_index_of_keptToken {row : LossRow F} {token : LossToken F}
    (kept : KeptToken settings (probe.inputs settings layout) row token) :
    ∃ index ∈ keptIndexes settings 0 layout.rows, token = probe.token false true index := by
  obtain ⟨isRow, stays, isToken, completes⟩ := kept
  exact exists_index_of_mem_rows settings probe isRow stays
    (mem_of_mem_filledRow settings isToken completes) completes

theorem exists_keptToken_of_index {index : ℕ}
    (isIndex : index ∈ keptIndexes settings 0 layout.rows) :
    ∃ row, KeptToken settings (probe.inputs settings layout) row
      (probe.token false true index) := by
  obtain ⟨row, isRow, stays, isToken⟩ := exists_mem_rows_of_index settings probe isIndex
  exact ⟨row, isRow, stays, mem_filledRow_of_mem settings isToken rfl, rfl⟩

/-- The weight of every token. -/
def weightFactor : F :=
  match settings.rolloutImportanceSamplingMode with
  | none => 1
  | some _ => lowConstant settings

theorem applyWeight_constant (row : LossRow F) (token : LossToken F) (value : F) :
    applyWeight (megatronWeights (constantFunctions (lowConstant settings)) settings row) token
      value = value * weightFactor settings := by
  rw [megatronWeights, weightFactor]
  cases settings.rolloutImportanceSamplingMode with
  | none => exact (mul_one value).symm
  | some mode =>
    simp only [Option.map_some, applyWeight, applyRolloutImportanceSampling_constant]

theorem weightFactor_ne_zero : weightFactor settings ≠ 0 := by
  rw [weightFactor]
  cases settings.rolloutImportanceSamplingMode with
  | none => exact one_ne_zero
  | some mode => exact (lowConstant_neg settings).ne

section Steps

variable {inputs : LossInputs F} (defined : BothDefined settings inputs.layout) (row : LossRow F)
  {token : LossToken F} {loss kl : F}
  (isKl : klInLoss settings = true →
    settings.beta * perTokenKl (constantFunctions (lowConstant settings)) token = kl)

include defined isKl

/-- In the trainer the mask comes before the divergence, the weight after. -/
theorem trainerLoss_eq (mask : Option (LossToken F → Bool))
    (isLoss : perTokenLoss (constantFunctions (lowConstant settings)) settings
      (filledRow settings row) (oldLogp inputs) token = loss) :
    trainerLoss settings (constantFunctions (lowConstant settings)) inputs mask
        (filledRow settings row) token =
      (applyMask mask token loss + if klInLoss settings then kl else 0) *
        weightFactor settings := by
  rw [trainerLoss, isLoss, rolloutIsWeights_filledRow _ settings defined, applyWeight_constant]
  split
  next inLoss => rw [isKl inLoss]
  next => rw [add_zero]

/-- In the Megatron trainer the weight comes before the divergence, the mask after. -/
theorem megatronLoss_eq (mask : Option (LossToken F → Bool))
    (isLoss : perTokenLoss (constantFunctions (lowConstant settings)) settings
      (filledRow settings row) LossToken.oldPerTokenLogp token = loss) :
    megatronLoss settings (constantFunctions (lowConstant settings)) inputs mask
        (megatronWeights (constantFunctions (lowConstant settings)) settings row)
        (filledRow settings row) token =
      applyMask mask token
        (loss * weightFactor settings + if klInLoss settings then kl else 0) := by
  rw [megatronLoss, isLoss, applyWeight_constant]
  by_cases inLoss : klInLoss settings = true
  · have present : (klInLoss settings && inputs.refPresent) = true := by
      rw [inLoss, show inputs.refPresent = true from defined.refPresent inLoss]
      rfl
    rw [if_pos present, if_pos inLoss, isKl inLoss]
  · have absent : ¬(klInLoss settings && inputs.refPresent) = true := by
      rw [Bool.and_eq_true]
      exact fun both => inLoss both.1
    rw [if_neg absent, if_neg inLoss, add_zero]

end Steps

theorem applyMask_zero (mask : Option (LossToken F → Bool)) (token : LossToken F) :
    applyMask mask token 0 = 0 := by
  cases mask with
  | none => rfl
  | some mask => exact zero_mul _

theorem applyMask_nonneg (mask : Option (LossToken F → Bool)) (token : LossToken F) {loss : F}
    (nonneg : 0 ≤ loss) : 0 ≤ applyMask mask token loss := by
  cases mask with
  | none => exact nonneg
  | some mask =>
    refine mul_nonneg nonneg ?_
    split
    · exact zero_le_one
    · exact le_rfl

/-- A token of a probe counts when its entropy reaches the threshold. -/
theorem applyMask_atLeastThreshold (threshold : F) (index : ℕ) (loss : F) :
    applyMask (some (atLeastThreshold (some threshold))) (probe.token false true index) loss =
      loss * if threshold ≤ probe.entropy false index then 1 else 0 := by
  simp only [applyMask, atLeastThreshold, Probe.token, decide_eq_true_eq]

theorem megatronMask_probe (masks : masksEntropy settings)
    (nonempty : keptIndexes settings 0 layout.rows ≠ []) :
    megatronMask settings (probe.inputs settings layout) =
      some (atLeastThreshold (some (quantile (1 - settings.topEntropyQuantile)
        ((keptIndexes settings 0 layout.rows).map (probe.entropy false))))) := by
  have entropies := completionEntropies_keptRow settings probe 0 layout.rows
  have someEntropy : (keptIndexes settings 0 layout.rows).map (probe.entropy false) ≠ [] := by
    simpa using nonempty
  rw [megatronMask, topMask, if_pos masks, nanquantile, ← map_map, filterMap_entropies masks,
    Probe.inputs, entropies, if_neg someEntropy]

theorem trainerMask_probe (masks : masksEntropy settings) {entropies : List F}
    (isPerm : (completionEntropies (probe.rows settings 0 layout.rows)).Perm entropies)
    (nonempty : entropies ≠ []) :
    trainerMask settings (probe.inputs settings layout) =
      some (atLeastThreshold (some (quantile (1 - settings.topEntropyQuantile) entropies))) := by
  have someEntropy : completionEntropies (probe.rows settings 0 layout.rows) ≠ [] := by
    intro none
    rw [none] at isPerm
    exact nonempty isPerm.nil_eq.symm
  rw [trainerMask, topMask, if_pos masks, nanquantile, filterMap_entropies masks, Probe.inputs,
    if_neg someEntropy, quantile_perm isPerm]

end Values

/-! ## Where the orders disagree -/

section Orders

variable [FloorSemiring F] {layout : LossLayout}

/-- Every batch of a layout has one loss in both trainers. -/
def LossesEqual (layout : LossLayout) : Prop :=
  ∀ (fns : Elementwise F) (inputs : LossInputs F), inputs.layout = layout →
    ∃ loss, computeLossAndMetrics fns settings 1 inputs = .ok (some loss) ∧
      lossFunc fns settings inputs.rows.length 1 inputs = .ok (some loss)

theorem divisorNonzero_of_eq_some {rows : List (MaskedRow F)} {loss : F}
    (length : rows.length = layout.rows.length)
    (isLoss : normalizeLoss settings 1 layout.numItemsInBatch rows = some loss) :
    DivisorNonzero settings layout := by
  have nonempty : ((rows.length : ℕ) : F) ≠ 0 → layout.rows ≠ [] := by
    intro someRow none
    rw [length, none] at someRow
    exact someRow Nat.cast_zero
  have divides : ∀ {value divisor : F}, tensorDiv value divisor = some loss → divisor ≠ 0 := by
    intro value divisor isQuotient zero
    rw [tensorDiv, if_pos zero] at isQuotient
    cases isQuotient
  rw [normalizeLoss] at isLoss
  rw [DivisorNonzero]
  cases isType : settings.lossType with
  | grpo | sapo =>
    rw [isType] at isLoss
    exact nonempty (divides isLoss)
  | bnpo => trivial
  | drGrpo =>
    rw [isType] at isLoss
    have product := divides isLoss
    rw [Nat.cast_mul] at product
    exact ⟨nonempty (left_ne_zero_of_mul product),
      Nat.cast_ne_zero.mp (right_ne_zero_of_mul product)⟩
  | cispo | dapo =>
    rw [isType] at isLoss
    have quotient := divides isLoss
    rw [Nat.cast_one, div_one] at quotient
    exact Nat.cast_ne_zero.mp quotient

theorem bothDefined_of_lossesEqual (equal : LossesEqual settings layout) :
    BothDefined settings layout := by
  let probe : Probe F :=
    { perTokenLogp := 0, refPerTokenLogp := 0, advantage := 0, entropy := fun _ _ => 0 }
  obtain ⟨loss, isTrainer, isMegatron⟩ := equal (constantFunctions 0)
    (probe.inputs settings layout) (probe.layout_inputs settings layout)
  obtain ⟨quantile, refPresent, temperatures, isLoss⟩ :=
    (computeLossAndMetrics_eq_ok_iff _ settings 1 _ _).mp isTrainer
  obtain ⟨oldPresent, _, rolloutPresent, _⟩ := (lossFunc_eq_ok_iff _ settings _ 1 _ _).mp isMegatron
  refine ⟨quantile, temperatures, oldPresent, refPresent, rolloutPresent, ?_⟩
  refine divisorNonzero_of_eq_some settings ?_ isLoss
  rw [trainerRows, length_map, Probe.inputs]
  conv_rhs => rw [← probe.map_layout_rows settings 0 layout.rows, length_map]

section Values

variable (probe : Probe F) (layout : LossLayout)

def probeTrainerLoss (row : LossRow F) (token : LossToken F) : F :=
  trainerLoss settings (constantFunctions (lowConstant settings)) (probe.inputs settings layout)
    (trainerMask settings (probe.inputs settings layout)) (filledRow settings row) token

def probeMegatronLoss (row : LossRow F) (token : LossToken F) : F :=
  megatronLoss settings (constantFunctions (lowConstant settings)) (probe.inputs settings layout)
    (megatronMask settings (probe.inputs settings layout))
    (megatronWeights (constantFunctions (lowConstant settings)) settings row)
    (filledRow settings row) token

variable {layout}

/-- Neither trainer may have the smaller losses of the tokens of a probe. -/
theorem not_lessOnKept_probe (equal : LossesEqual settings layout)
    (nonneg : 0 ≤ probe.advantage) :
    ¬LessOnKept settings (probe.inputs settings layout) (probeTrainerLoss settings probe layout)
        (probeMegatronLoss settings probe layout) ∧
      ¬LessOnKept settings (probe.inputs settings layout)
        (probeMegatronLoss settings probe layout) (probeTrainerLoss settings probe layout) := by
  refine not_lessOnKept settings _ (equal _ _ (probe.layout_inputs settings layout)) ?_ ?_
  · rw [probe.layout_inputs]
    exact bothDefined_of_lossesEqual settings equal
  · intro row isRow
    rw [(probe.eq_of_mem_rows settings isRow).1]
    exact nonneg

/-- The losses of the tokens of a probe, from the loss and the divergence that each has. -/
theorem probe_values (defined : BothDefined settings layout) {loss kl : F}
    (isLoss : ∀ (row : LossRow F) (old : LossToken F → F) (token : LossToken F),
      row.advantage = probe.advantage → token.perTokenLogp = probe.perTokenLogp →
        perTokenLoss (constantFunctions (lowConstant settings)) settings row old token = loss)
    (isKl : settings.beta *
      (lowConstant settings - (probe.refPerTokenLogp - probe.perTokenLogp) - 1) = kl)
    {row : LossRow F} {index : ℕ}
    (kept : KeptToken settings (probe.inputs settings layout) row
      (probe.token false true index)) :
    probeTrainerLoss settings probe layout row (probe.token false true index) =
        (applyMask (trainerMask settings (probe.inputs settings layout))
            (probe.token false true index) loss + if klInLoss settings then kl else 0) *
          weightFactor settings ∧
      probeMegatronLoss settings probe layout row (probe.token false true index) =
        applyMask (megatronMask settings (probe.inputs settings layout))
          (probe.token false true index)
          (loss * weightFactor settings + if klInLoss settings then kl else 0) := by
  have inputsDefined : BothDefined settings (probe.inputs settings layout).layout := by
    rw [probe.layout_inputs]
    exact defined
  have advantage : (filledRow settings row).advantage = probe.advantage := by
    rw [advantage_filledRow, (probe.eq_of_mem_rows settings kept.1).1]
  have tokenKl : klInLoss settings = true → settings.beta * perTokenKl
      (constantFunctions (lowConstant settings)) (probe.token false true index) = kl :=
    fun _ => isKl
  constructor
  · exact trainerLoss_eq settings inputsDefined row tokenKl _ (isLoss _ _ _ advantage rfl)
  · exact megatronLoss_eq settings inputsDefined row tokenKl _ (isLoss _ _ _ advantage rfl)

end Values

theorem beta_ne_zero (inLoss : klInLoss settings = true) : settings.beta ≠ 0 :=
  of_decide_eq_true (Bool.and_eq_true _ _ |>.mp inLoss).1

/-- A weight shrinks the divergence in one trainer only. -/
theorem no_weights_of_lossesEqual (equal : LossesEqual settings layout)
    (someKept : keptIndexes settings 0 layout.rows ≠ []) (inLoss : klInLoss settings = true) :
    settings.rolloutImportanceSamplingMode = none := by
  by_contra weighs
  have factor : weightFactor settings = lowConstant settings := by
    rw [weightFactor]
    cases isMode : settings.rolloutImportanceSamplingMode with
    | none => exact absurd isMode weighs
    | some mode => rfl
  let probe : Probe F :=
    { perTokenLogp := 0
      refPerTokenLogp := lowConstant settings - 1 - settings.beta
      advantage := 0
      entropy := fun _ _ => 0 }
  have square : 0 < settings.beta * settings.beta :=
    mul_self_pos.mpr (beta_ne_zero settings inLoss)
  have less : ∀ row token, KeptToken settings (probe.inputs settings layout) row token →
      probeTrainerLoss settings probe layout row token <
        probeMegatronLoss settings probe layout row token := by
    intro row token kept
    obtain ⟨index, _, rfl⟩ := exists_index_of_keptToken settings probe kept
    have isKl : settings.beta * (lowConstant settings -
        (probe.refPerTokenLogp - probe.perTokenLogp) - 1) = settings.beta * settings.beta := by
      simp only [probe]
      ring
    obtain ⟨trainer, megatron⟩ := probe_values settings probe
      (bothDefined_of_lossesEqual settings equal)
      (fun _ old token none _ => perTokenLoss_of_advantage_eq_zero settings _ none old token)
      isKl kept
    rw [trainer, megatron, applyMask_zero, if_pos inLoss, zero_mul, zero_add, factor]
    calc settings.beta * settings.beta * lowConstant settings < 0 :=
          mul_neg_of_pos_of_neg square (lowConstant_neg settings)
      _ ≤ applyMask _ _ (settings.beta * settings.beta) := applyMask_nonneg _ _ square.le
  obtain ⟨index, isIndex⟩ := exists_mem_of_ne_nil _ someKept
  obtain ⟨row, kept⟩ := exists_keptToken_of_index settings probe isIndex
  exact (not_lessOnKept_probe settings probe equal le_rfl).1
    ⟨fun row token kept => (less row token kept).le, row, _, kept, less row _ kept⟩

abbrev placeEntropies (layouts : List RowLayout) : List F :=
  (keptIndexes settings 0 layouts).map Nat.cast

theorem pairwise_placeEntropies (layouts : List RowLayout) :
    (placeEntropies settings layouts).Pairwise (· < ·) := by
  apply pairwise_map.mpr
  exact (pairwise_keptIndexes settings 0 layouts).imp fun less => Nat.cast_lt.mpr less

/-- With the divergence, the mask of one trainer must leave no token out. -/
theorem single_of_lossesEqual (equal : LossesEqual settings layout)
    (inLoss : klInLoss settings = true) (masks : masksEntropy settings) :
    layout.keptCount settings ≤ 1 := by
  by_contra several
  have length : (keptIndexes settings 0 layout.rows).length = layout.keptCount settings :=
    length_keptIndexes settings 0 layout.rows
  have someKept : keptIndexes settings 0 layout.rows ≠ [] := by
    intro none
    rw [none, length_nil] at length
    omega
  have noWeights := no_weights_of_lossesEqual settings equal someKept inLoss
  have factor : weightFactor settings = 1 := by rw [weightFactor, noWeights]
  let probe : Probe F :=
    { perTokenLogp := 0
      refPerTokenLogp := lowConstant settings - 1 + settings.beta
      advantage := 0
      entropy := fun _ index => index }
  have defined : BothDefined settings layout := bothDefined_of_lossesEqual settings equal
  have square : 0 < settings.beta * settings.beta :=
    mul_self_pos.mpr (beta_ne_zero settings inLoss)
  have inside : 0 < (placeEntropies (F := F) settings layout.rows).length := by
    rw [length_map]
    omega
  -- the first kept place has less entropy than the threshold
  have missed : (placeEntropies (F := F) settings layout.rows)[0] <
      quantile (1 - settings.topEntropyQuantile) (placeEntropies settings layout.rows) := by
    have positive : 0 < 1 - settings.topEntropyQuantile := sub_pos.mpr masks
    have counts : (0 : F) < ((layout.keptCount settings - 1 : ℕ) : F) :=
      Nat.cast_pos.mpr (by omega)
    have product := mul_pos positive counts
    apply not_le.mp
    rw [quantile_le_iff positive.le (sub_le_self _ (defined.quantile masks))
        (getElem_mem inside),
      countP_le_getElem (pairwise_placeEntropies settings layout.rows) inside, length_map,
      length]
    push_cast
    linarith
  have values : ∀ row index, KeptToken settings (probe.inputs settings layout) row
      (probe.token false true index) →
      probeTrainerLoss settings probe layout row (probe.token false true index) =
          -(settings.beta * settings.beta) ∧
        probeMegatronLoss settings probe layout row (probe.token false true index) =
          -(settings.beta * settings.beta) * if quantile (1 - settings.topEntropyQuantile)
            (placeEntropies settings layout.rows) ≤ (index : F) then 1 else 0 := by
    intro row index kept
    have isKl : settings.beta * (lowConstant settings -
        (probe.refPerTokenLogp - probe.perTokenLogp) - 1) =
        -(settings.beta * settings.beta) := by
      simp only [probe]
      ring
    obtain ⟨trainer, megatron⟩ := probe_values settings probe defined
      (fun _ old token none _ => perTokenLoss_of_advantage_eq_zero settings _ none old token)
      isKl kept
    rw [applyMask_zero, if_pos inLoss, zero_add, factor, mul_one] at trainer
    rw [megatronMask_probe settings probe masks someKept, applyMask_atLeastThreshold,
      if_pos inLoss, zero_mul, zero_add] at megatron
    exact ⟨trainer, megatron⟩
  apply (not_lessOnKept_probe settings probe equal le_rfl).1
  constructor
  · intro row token kept
    obtain ⟨index, _, rfl⟩ := exists_index_of_keptToken settings probe kept
    rw [(values row index kept).1, (values row index kept).2]
    split
    · rw [mul_one]
    · rw [mul_zero]
      exact neg_nonpos.mpr square.le
  · obtain ⟨index, isIndex, isFirst⟩ := mem_map.mp (getElem_mem inside)
    obtain ⟨row, kept⟩ := exists_keptToken_of_index settings probe isIndex
    refine ⟨row, _, kept, ?_⟩
    rw [(values row index kept).1, (values row index kept).2, isFirst,
      if_neg (not_le.mpr missed), mul_zero]
    exact neg_neg_of_pos square

/-- Losses masked by thresholds on both sides of a place are ordered. -/
theorem lessOnKept_of_thresholds (probe : Probe F) {value other : LossRow F → LossToken F → F}
    {low high scale entry : F} (isEntry : entry ∈ placeEntropies settings layout.rows)
    (reached : low ≤ entry) (missed : entry < high) (nonzero : scale ≠ 0)
    (values : ∀ row index,
      KeptToken settings (probe.inputs settings layout) row (probe.token false true index) →
      value row (probe.token false true index) = scale * (if high ≤ (index : F) then 1 else 0) ∧
        other row (probe.token false true index) =
          scale * if low ≤ (index : F) then 1 else 0) :
    LessOnKept settings (probe.inputs settings layout) value other ∨
      LessOnKept settings (probe.inputs settings layout) other value := by
  have fewer : ∀ index : ℕ, (if high ≤ (index : F) then (1 : F) else 0) ≤
      if low ≤ (index : F) then 1 else 0 := by
    intro index
    by_cases reaches : high ≤ (index : F)
    · rw [if_pos reaches, if_pos (reached.trans (missed.le.trans reaches))]
    · rw [if_neg reaches]
      split
      · exact zero_le_one
      · exact le_rfl
  obtain ⟨index, isIndex, rfl⟩ := mem_map.mp isEntry
  obtain ⟨row, kept⟩ := exists_keptToken_of_index settings probe isIndex
  have strict := values row index kept
  rw [if_neg (not_le.mpr missed), if_pos reached, mul_zero, mul_one] at strict
  rcases lt_or_gt_of_ne nonzero with negative | positive
  · refine .inr ⟨?_, row, _, kept, ?_⟩
    · intro row token kept
      obtain ⟨index, _, rfl⟩ := exists_index_of_keptToken settings probe kept
      rw [(values row index kept).1, (values row index kept).2]
      exact mul_le_mul_of_nonpos_left (fewer index) negative.le
    · rw [strict.1, strict.2]
      exact negative
  · refine .inl ⟨?_, row, _, kept, ?_⟩
    · intro row token kept
      obtain ⟨index, _, rfl⟩ := exists_index_of_keptToken settings probe kept
      rw [(values row index kept).1, (values row index kept).2]
      exact mul_le_mul_of_nonneg_left (fewer index) positive.le
    · rw [strict.1, strict.2]
      exact positive

/-- Entropies of tokens that the filter drops move the threshold of one trainer. -/
theorem whole_of_lossesEqual (equal : LossesEqual settings layout)
    (someKept : keptIndexes settings 0 layout.rows ≠ []) (masks : masksEntropy settings) :
    layout.keptCount settings = layout.completionCount := by
  have defined : BothDefined settings layout := bothDefined_of_lossesEqual settings equal
  have length : (keptIndexes settings 0 layout.rows).length = layout.keptCount settings :=
    length_keptIndexes settings 0 layout.rows
  have someEntropy : placeEntropies (F := F) settings layout.rows ≠ [] := by
    simpa using someKept
  by_contra drops
  have le : layout.keptCount settings ≤ layout.completionCount :=
    sum_le_sum fun row _ => keptCount_le_completionCount settings row
  obtain ⟨entry, isEntry, other, moved⟩ := exists_quantile_append (sub_pos.mpr masks)
    (sub_le_self (1 : F) (defined.quantile masks))
    (pairwise_placeEntropies settings layout.rows) someEntropy
    (Nat.sub_pos_of_lt (lt_of_le_of_ne le drops))
  let probe : Probe F :=
    { perTokenLogp := -1
      refPerTokenLogp := lowConstant settings - 2
      advantage := 1
      entropy := fun dropped index => bif dropped then other else index }
  have places : probe.entropy false = (Nat.cast : ℕ → F) := rfl
  obtain ⟨dropped, isPerm⟩ := completionEntropies_perm settings probe
    (show ∀ index, probe.entropy true index = other from fun _ => rfl) 0 layout.rows
  have count : dropped = layout.completionCount - layout.keptCount settings := by
    have total := length_completionEntropies (probe.inputs settings layout)
    rw [probe.layout_inputs, Probe.inputs, isPerm.length_eq, length_append,
      length_map, length_replicate, length] at total
    omega
  rw [places, count] at isPerm
  have trainerMaskEq := trainerMask_probe settings probe masks isPerm
    (append_ne_nil_of_left_ne_nil someEntropy _)
  have megatronMaskEq := megatronMask_probe settings probe masks someKept
  rw [places] at megatronMaskEq
  have isKl : settings.beta * (lowConstant settings -
      (probe.refPerTokenLogp - probe.perTokenLogp) - 1) = 0 := by
    simp only [probe]
    ring
  have values : ∀ row index,
      KeptToken settings (probe.inputs settings layout) row (probe.token false true index) →
      probeTrainerLoss settings probe layout row (probe.token false true index) =
          constantLoss settings * weightFactor settings *
            (if quantile (1 - settings.topEntropyQuantile) (placeEntropies settings layout.rows ++
              replicate (layout.completionCount - layout.keptCount settings) other) ≤
              (index : F) then 1 else 0) ∧
        probeMegatronLoss settings probe layout row (probe.token false true index) =
          constantLoss settings * weightFactor settings *
            if quantile (1 - settings.topEntropyQuantile) (placeEntropies settings layout.rows) ≤
              (index : F) then 1 else 0 := by
    intro row index kept
    obtain ⟨trainer, megatron⟩ := probe_values settings probe defined
      (fun _ old _ advantage logp => perTokenLoss_constant settings advantage old logp) isKl kept
    rw [trainerMaskEq, applyMask_atLeastThreshold, places, ite_self, add_zero,
      mul_right_comm] at trainer
    rw [megatronMaskEq, applyMask_atLeastThreshold, places, ite_self, add_zero] at megatron
    exact ⟨trainer, megatron⟩
  have nonzero : constantLoss settings * weightFactor settings ≠ 0 :=
    mul_ne_zero (constantLoss_ne_zero settings fun isType => (defined.temperatures isType).1)
      (weightFactor_ne_zero settings)
  have notLess := not_lessOnKept_probe settings probe equal zero_le_one
  rcases moved with ⟨reached, missed⟩ | ⟨reached, missed⟩
  · rcases lessOnKept_of_thresholds settings probe isEntry reached missed nonzero values with
      less | less
    · exact notLess.1 less
    · exact notLess.2 less
  · rcases lessOnKept_of_thresholds settings probe isEntry reached missed nonzero
      (fun row index kept => (values row index kept).symm) with less | less
    · exact notLess.2 less
    · exact notLess.1 less

end Orders

/-! ## The exact condition -/

/-- **Both trainers compute one loss of every batch of a layout exactly when both compute
a loss, and the order of their steps makes no difference or no completion token is
left.** -/
theorem losses_agree_iff [FloorSemiring F] (layout : LossLayout) :
    LossesEqual settings layout ↔ LossesAgree settings layout := by
  constructor
  · intro equal
    refine ⟨bothDefined_of_lossesEqual settings equal, fun someKept => ?_⟩
    have length : (keptIndexes settings 0 layout.rows).length = layout.keptCount settings :=
      length_keptIndexes settings 0 layout.rows
    have someIndex : keptIndexes settings 0 layout.rows ≠ [] := by
      intro none
      rw [none] at length
      exact someKept length.symm
    refine ⟨no_weights_of_lossesEqual settings equal someIndex, fun masks => ?_⟩
    exact ⟨whole_of_lossesEqual settings equal someIndex masks,
      fun inLoss => single_of_lossesEqual settings equal inLoss masks⟩
  · intro agree fns inputs isLayout
    subst isLayout
    exact losses_eq fns settings agree

end Numbers

def twoCompletions : LossLayout where
  rows := List.replicate 2 { completionMask := [true, true], truncated := false }
  refPresent := true
  oldPresent := true
  rolloutPresent := false
  numItemsInBatch := 4

/-- With the defaults both trainers compute one loss. -/
theorem default_losses_equal : LossesEqual defaultLossSettings twoCompletions := by
  refine (losses_agree_iff defaultLossSettings twoCompletions).mpr ⟨?_, fun _ => ?_⟩
  · have idle : ¬masksEntropy defaultLossSettings := by decide
    exact ⟨fun masks => absurd masks idle, nofun, rfl, fun _ => rfl,
      fun weighs => absurd rfl weighs, nofun⟩
  · have idle : ¬masksEntropy defaultLossSettings := by decide
    exact ⟨fun _ => rfl, fun masks => absurd masks idle⟩

/-- The defaults, with weights of the rollout. -/
def truncatedWeights : LossSettings ℚ :=
  { defaultLossSettings with rolloutImportanceSamplingMode := some .tokenTruncate }

/-- A function like the exponential below zero. -/
def fallingFunctions : Elementwise ℚ where
  exp := fun number => 1 / (1 - number)
  log := fun number => number - 1
  sigmoid := fun _ => 1 / 2

/-- A completion of one token, less likely under the policy than in the rollout. -/
def oneToken (rolloutPresent : Bool) : LossInputs ℚ where
  rows := [{
    tokens := [{
      perTokenLogp := -2
      entropy := some 1
      refPerTokenLogp := -3
      oldPerTokenLogp := -2
      rolloutPerTokenLogp := -1
      completionMask := true }]
    advantage := 1
    truncated := false }]
  entropy_isSome := by simp
  refPresent := true
  oldPresent := true
  rolloutPresent := rolloutPresent
  numItemsInBatch := 1

/-- Without log probabilities of the rollout the Megatron trainer has no weights to apply.
With them it weighs the loss but not the divergence. -/
theorem weights_break_agreement :
    (computeLossAndMetrics fallingFunctions truncatedWeights 1 (oneToken false) =
        .ok (some (-49 / 50)) ∧
      lossFunc fallingFunctions truncatedWeights 1 1 (oneToken false) =
        .error .unboundLocalError) ∧
    computeLossAndMetrics fallingFunctions truncatedWeights 1 (oneToken true) =
        .ok (some (-49 / 100)) ∧
      lossFunc fallingFunctions truncatedWeights 1 1 (oneToken true) =
        .ok (some (-48 / 100)) := by
  refine ⟨⟨?_, ?_⟩, ?_, ?_⟩ <;> decide +kernel

end Geobench.Trainers
