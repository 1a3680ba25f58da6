import Geobench.Trainers.GrpoLoss

/-!
# The loss of the Megatron trainer

The Megatron trainer has a copy of the loss, with an order of its own. It weighs a token
by the rollout before it adds the divergence, and masks it by its entropy after; it takes
the entropies, and not the weights, from what the overlong filter leaves.
-/

set_option autoImplicit false
set_option linter.unusedSectionVars false

namespace Geobench.Trainers

open Library

section Numbers

variable {F : Type} [Field F] [LinearOrder F] (fns : Elementwise F) (settings : LossSettings F)

/-! ## The trainer -/

/-- The loss of a micro batch from the losses of its tokens. A batch without items counts
as one item. -/
def megatronNormalizeLoss (microBatchSize dpSize numItemsInBatch : ℕ)
    (rows : List (MaskedRow F)) : Option F :=
  let total := (rows.map MaskedRow.tokenSum).sum
  let completionCount : ℕ := (rows.map MaskedRow.tokenCount).sum
  match settings.lossType with
  | .grpo | .sapo =>
    let means := rows.map fun row => row.tokenSum / max (row.tokenCount : F) 1
    tensorDiv means.sum rows.length
  | .bnpo => tensorDiv total (max (completionCount : F) 1)
  | .drGrpo => tensorDiv total ((microBatchSize * settings.maxCompletionLength : ℕ) : F)
  | .cispo | .dapo => tensorDiv total (max ((numItemsInBatch : F) / dpSize) 1)

/-- The weights of the rollout for a row, over the whole of its completion. They are a
local variable that not every branch assigns. -/
def megatronIsWeights (inputs : LossInputs F) :
    Except LossError (Option (LossRow F → LossToken F → F)) :=
  match settings.rolloutImportanceSamplingMode with
  | none => .ok none
  | some mode =>
    if comparesRollout settings inputs then
      .ok (some fun row => applyRolloutImportanceSampling fns settings mode row fun token =>
        token.oldPerTokenLogp - token.rolloutPerTokenLogp)
    else .error .unboundLocalError

/-- The losses of the tokens of a row: the weights of the rollout come first, then the
divergence, then the mask of the entropies. -/
def megatronMaskedRow (inputs : LossInputs F) (mask : Option (LossToken F → Bool))
    (weights : Option (LossToken F → F)) (row : LossRow F) : MaskedRow F :=
  let keep := computeOffPolicySequenceMask settings row
    (offPolicyLogp inputs LossToken.oldPerTokenLogp)
  row.tokens.map fun token =>
    let loss := perTokenLoss fns settings row LossToken.oldPerTokenLogp token
    let loss := applyWeight weights token loss
    let loss := if klInLoss settings && inputs.refPresent then
        loss + settings.beta * perTokenKl fns token
      else loss
    let loss := applyMask mask token loss
    (loss, token.completionMask && keep)

def lossFunc [FloorSemiring F] (microBatchSize dpSize : ℕ) (inputs : LossInputs F) :
    Except LossError (Option F) :=
  if inputs.oldPresent then do
    let rows := overlongFiltered settings inputs.rows
    checkTemperatures settings
    let weights ← megatronIsWeights fns settings inputs
    let filled := if computeEntropy settings then rows.map LossRow.fillEntropies else rows
    let mask ← entropyMask settings filled
    .ok (megatronNormalizeLoss settings microBatchSize dpSize inputs.numItemsInBatch
      (List.zipWith (fun whole row =>
        megatronMaskedRow fns settings inputs mask (weights.map (· whole)) row)
        inputs.rows filled))
  else .error .typeError

end Numbers

end Geobench.Trainers
