import Geobench.Library.Deviation
import Geobench.Library.Quantile

/-!
# The loss of the trainer

The loss of a batch, from the log probabilities of its completion tokens under the policy
and under the reference, old and rollout policies. What an elementwise function of the
tensor library computes is left open.

The tensors of a batch have one shape, so that they are kept row by row and token by
token. A tensor that the trainer may not have has a flag, and its entries are not read
then. An entropy that is not a number is `none`, and so is a loss that is none.

The loss type decides how the losses of the tokens become one number (`normalizeLoss`).
Up to there a row is treated on its own, but for the entropy threshold.
-/

set_option autoImplicit false
set_option linter.unusedSectionVars false

namespace Geobench.Trainers

open Library List

/-! ## Settings -/

inductive LossType where
  | grpo
  | sapo
  | bnpo
  | drGrpo
  | cispo
  | dapo
  deriving DecidableEq, Repr

inductive ImportanceSamplingLevel where
  | token
  | sequence
  | sequenceToken
  deriving DecidableEq, Repr

inductive RolloutSamplingMode where
  | tokenTruncate
  | tokenMask
  | sequenceTruncate
  | sequenceMask
  deriving DecidableEq, Repr

/-- The settings of a trainer that the loss depends on. -/
structure LossSettings (F : Type) where
  lossType : LossType
  importanceSamplingLevel : ImportanceSamplingLevel
  beta : F
  klInReward : Bool
  epsilonLow : F
  epsilonHigh : F
  delta : Option F
  tauPos : F
  tauNeg : F
  logEntropy : Bool
  topEntropyQuantile : F
  overlongFilter : Bool
  rolloutImportanceSamplingMode : Option RolloutSamplingMode
  rolloutImportanceSamplingThreshold : F
  logRolloutOffpolicyMetrics : Bool
  disableRolloutImportanceSampling : Bool
  offPolicySequenceMaskDelta : Option F
  maxCompletionLength : ℕ

def defaultLossSettings : LossSettings ℚ where
  lossType := .grpo
  importanceSamplingLevel := .token
  beta := 1 / 25
  klInReward := false
  epsilonLow := 1 / 5
  epsilonHigh := 1 / 5
  delta := none
  tauPos := 1
  tauNeg := 21 / 20
  logEntropy := false
  topEntropyQuantile := 1
  overlongFilter := false
  rolloutImportanceSamplingMode := none
  rolloutImportanceSamplingThreshold := 2
  logRolloutOffpolicyMetrics := false
  disableRolloutImportanceSampling := false
  offPolicySequenceMaskDelta := none
  maxCompletionLength := 512

/-- The elementwise functions of the tensor library. -/
structure Elementwise (F : Type) where
  exp : F → F
  log : F → F
  sigmoid : F → F

/-- The exceptions that computing a loss raises. -/
inductive LossError where
  | keyError
  | runtimeError
  | typeError
  | unboundLocalError
  | zeroDivisionError
  deriving DecidableEq, Repr

/-! ## Batches -/

/-- The entries of the tensors of a batch for one token. -/
structure LossToken (F : Type) where
  perTokenLogp : F
  entropy : Option F
  refPerTokenLogp : F
  oldPerTokenLogp : F
  rolloutPerTokenLogp : F
  completionMask : Bool
  deriving DecidableEq

structure LossRow (F : Type) where
  tokens : List (LossToken F)
  advantage : F
  truncated : Bool
  deriving DecidableEq

/-- The tensors of a batch. The forward pass gives every token an entropy. -/
structure LossInputs (F : Type) where
  rows : List (LossRow F)
  entropy_isSome : ∀ row ∈ rows, ∀ token ∈ row.tokens, token.entropy.isSome = true
  refPresent : Bool
  oldPresent : Bool
  rolloutPresent : Bool
  numItemsInBatch : ℕ

section Numbers

variable {F : Type} [Field F] [LinearOrder F] (fns : Elementwise F) (settings : LossSettings F)

namespace LossRow

def maskedSum (row : LossRow F) (value : LossToken F → F) : F :=
  (row.tokens.map fun token => if token.completionMask then value token else 0).sum

def maskedMean (row : LossRow F) (value : LossToken F → F) : F :=
  row.maskedSum value / max ((row.tokens.countP LossToken.completionMask : ℕ) : F) 1

/-- Entropies outside of the completion are no numbers. -/
def fillEntropies (row : LossRow F) : LossRow F :=
  { row with tokens := row.tokens.map fun token =>
      { token with entropy := if token.completionMask then token.entropy else none } }

/-- No token of a truncated completion counts. -/
def dropOverlong (row : LossRow F) : LossRow F :=
  { row with tokens := row.tokens.map fun token =>
      { token with completionMask := token.completionMask && !row.truncated } }

end LossRow

/-! ## Steps that both trainers take -/

/-- Entropies are computed to log them or to mask tokens. -/
def computeEntropy : Bool :=
  settings.logEntropy || decide (settings.topEntropyQuantile < 1)

/-- Is the divergence from the reference policy part of the loss? -/
def klInLoss : Bool := decide (settings.beta ≠ 0) && !settings.klInReward

/-- Are the log probabilities of the rollout compared with those of the old policy? -/
def comparesRollout (inputs : LossInputs F) : Bool :=
  !settings.disableRolloutImportanceSampling &&
    ((settings.rolloutImportanceSamplingMode.isSome || settings.logRolloutOffpolicyMetrics) &&
      inputs.rolloutPresent)

def clamp (value least greatest : F) : F := min (max value least) greatest

def perTokenKl (token : LossToken F) : F :=
  fns.exp (token.refPerTokenLogp - token.perTokenLogp) -
    (token.refPerTokenLogp - token.perTokenLogp) - 1

def computeSequenceLevelRatios (row : LossRow F) (isRatio : LossToken F → F) : F :=
  fns.exp (row.maskedMean fun token => fns.log (max (isRatio token) (1 / 10 ^ 10)))

/-- The weights of the tokens of a row, from how their log ratios to the rollout compare
with the threshold. -/
def applyRolloutImportanceSampling (mode : RolloutSamplingMode) (row : LossRow F)
    (rolloutLogRatio : LossToken F → F) : LossToken F → F :=
  let threshold := settings.rolloutImportanceSamplingThreshold
  let isRatio token := fns.exp (clamp (rolloutLogRatio token) (-20) 20)
  match mode with
  | .tokenTruncate => fun token => min (isRatio token) threshold
  | .tokenMask => fun token => if isRatio token ≤ threshold then isRatio token else 0
  | .sequenceTruncate => fun _ => min (computeSequenceLevelRatios fns row isRatio) threshold
  | .sequenceMask => fun token =>
    isRatio token * if computeSequenceLevelRatios fns row isRatio ≤ threshold then 1 else 0

/-- Does a row stay, its policy near enough to the old one or its advantage not negative? -/
def computeOffPolicySequenceMask (row : LossRow F) (oldPolicyPerTokenLogp : LossToken F → F) :
    Bool :=
  match settings.offPolicySequenceMaskDelta with
  | none => true
  | some delta =>
    !(decide (delta < row.maskedMean fun token =>
        oldPolicyPerTokenLogp token - token.perTokenLogp) && decide (row.advantage < 0))

def logImportanceWeight (row : LossRow F) (oldPerTokenLogp : LossToken F → F)
    (token : LossToken F) : F :=
  let logRatio token := token.perTokenLogp - oldPerTokenLogp token
  match settings.importanceSamplingLevel with
  | .token => logRatio token
  | .sequence => row.maskedMean logRatio
  | .sequenceToken => token.perTokenLogp - token.perTokenLogp + row.maskedMean logRatio

/-- The loss of a token, before masks, weights and the divergence. -/
def perTokenLoss (row : LossRow F) (oldPerTokenLogp : LossToken F → F) (token : LossToken F) :
    F :=
  let coef1 := fns.exp (logImportanceWeight settings row oldPerTokenLogp token)
  match settings.lossType with
  | .grpo | .bnpo | .drGrpo | .dapo =>
    let coef2 := clamp coef1 (1 - settings.epsilonLow) (1 + settings.epsilonHigh)
    let coef1 := settings.delta.elim coef1 (min coef1)
    let perTokenLoss1 := coef1 * row.advantage
    let perTokenLoss2 := coef2 * row.advantage
    (-min perTokenLoss1 perTokenLoss2)
  | .cispo => -min coef1 settings.epsilonHigh * row.advantage * token.perTokenLogp
  | .sapo =>
    let gatePos := fns.sigmoid (settings.tauPos * (coef1 - 1)) * (4 / settings.tauPos)
    let gateNeg := fns.sigmoid (settings.tauNeg * (coef1 - 1)) * (4 / settings.tauNeg)
    let softGate := if 0 < row.advantage then gatePos else gateNeg
    (-softGate) * row.advantage

/-- The temperatures of `sapo` divide. -/
def checkTemperatures : Except LossError Unit :=
  if settings.lossType = .sapo ∧ (settings.tauPos = 0 ∨ settings.tauNeg = 0) then
    .error .zeroDivisionError
  else .ok ()

def overlongFiltered (rows : List (LossRow F)) : List (LossRow F) :=
  if settings.overlongFilter && rows.any LossRow.truncated then rows.map LossRow.dropOverlong
  else rows

/-- Does a token have at least the threshold of entropy? A comparison with what is no
number does not hold. -/
def atLeastThreshold (threshold : Option F) (token : LossToken F) : Bool :=
  match token.entropy, threshold with
  | some entropy, some threshold => decide (threshold ≤ entropy)
  | _, _ => false

/-- The tokens with an entropy in the top quantile of the batch, if only these count. -/
def entropyMask [FloorSemiring F] (rows : List (LossRow F)) :
    Except LossError (Option (LossToken F → Bool)) :=
  if computeEntropy settings && decide (settings.topEntropyQuantile < 1) then
    if settings.topEntropyQuantile < 0 then .error .runtimeError
    else
      let entropies := rows.flatMap fun row => row.tokens.map LossToken.entropy
      .ok (some (atLeastThreshold (nanquantile (1 - settings.topEntropyQuantile) entropies)))
  else .ok none

def applyMask (mask : Option (LossToken F → Bool)) (token : LossToken F) (loss : F) : F :=
  match mask with
  | some mask => loss * if mask token then 1 else 0
  | none => loss

def applyWeight (weights : Option (LossToken F → F)) (token : LossToken F) (loss : F) : F :=
  match weights with
  | some weights => loss * weights token
  | none => loss

/-- The losses of the tokens of a row, with the mask that is left of its completion. -/
abbrev MaskedRow (F : Type) := List (F × Bool)

namespace MaskedRow

def tokenSum (row : MaskedRow F) : F :=
  (row.map fun entry => if entry.2 then entry.1 else 0).sum

def tokenCount (row : MaskedRow F) : ℕ := row.countP Prod.snd

end MaskedRow

/-! ## The trainer -/

/-- A quotient of tensors, no number where the divisor is zero. -/
def tensorDiv (value divisor : F) : Option F :=
  if divisor = 0 then none else some (value / divisor)

/-- The loss of a batch from the losses of its tokens, on one of several processes. -/
def normalizeLoss (numProcesses numItemsInBatch : ℕ) (rows : List (MaskedRow F)) : Option F :=
  let total := (rows.map MaskedRow.tokenSum).sum
  let completionCount : ℕ := (rows.map MaskedRow.tokenCount).sum
  match settings.lossType with
  | .grpo | .sapo =>
    let means := rows.map fun row => row.tokenSum / max (row.tokenCount : F) 1
    tensorDiv means.sum rows.length
  | .bnpo => tensorDiv total (max (completionCount : F) 1)
  | .drGrpo => tensorDiv total ((rows.length * settings.maxCompletionLength : ℕ) : F)
  | .cispo | .dapo => tensorDiv total ((numItemsInBatch : F) / numProcesses)

/-- The old policy is the policy itself when its log probabilities are not kept. -/
def oldLogp (inputs : LossInputs F) (token : LossToken F) : F :=
  if inputs.oldPresent then token.oldPerTokenLogp else token.perTokenLogp

/-- What a rollout is off, by its own log probabilities where there are some. -/
def offPolicyLogp (inputs : LossInputs F) (oldPerTokenLogp : LossToken F → F)
    (token : LossToken F) : F :=
  if inputs.rolloutPresent then token.rolloutPerTokenLogp else oldPerTokenLogp token

/-- The weights that bring the rollout policy back to the old one, where they apply. -/
def rolloutIsWeights (inputs : LossInputs F) (row : LossRow F) : Option (LossToken F → F) :=
  if comparesRollout settings inputs then
    settings.rolloutImportanceSamplingMode.map fun mode =>
      applyRolloutImportanceSampling fns settings mode row fun token =>
        oldLogp inputs token - token.rolloutPerTokenLogp
  else none

/-- The losses of the tokens of a row: the mask of the entropies comes first, then the
divergence, then the weights of the rollout. -/
def maskedRow (inputs : LossInputs F) (mask : Option (LossToken F → Bool)) (row : LossRow F) :
    MaskedRow F :=
  let keep := computeOffPolicySequenceMask settings row
    (offPolicyLogp inputs (oldLogp inputs))
  row.tokens.map fun token =>
    let loss := perTokenLoss fns settings row (oldLogp inputs) token
    let loss := applyMask mask token loss
    let loss := if klInLoss settings then loss + settings.beta * perTokenKl fns token else loss
    let loss := applyWeight (rolloutIsWeights fns settings inputs row) token loss
    (loss, token.completionMask && keep)

def computeLossAndMetrics [FloorSemiring F] (numProcesses : ℕ) (inputs : LossInputs F) :
    Except LossError (Option F) := do
  let filled := if computeEntropy settings then inputs.rows.map LossRow.fillEntropies
    else inputs.rows
  let mask ← entropyMask settings filled
  let rows := overlongFiltered settings filled
  if klInLoss settings && !inputs.refPresent then .error .typeError
  else
    checkTemperatures settings
    .ok (normalizeLoss settings numProcesses inputs.numItemsInBatch
      (rows.map (maskedRow fns settings inputs mask)))

/-! ## Losses of masked rows -/

namespace MaskedRow

theorem tokenSum_eq_zero {row : MaskedRow F} (masked : ∀ entry ∈ row, entry.2 = false) :
    row.tokenSum = 0 := by
  rw [tokenSum]
  refine sum_eq_zero fun value member => ?_
  obtain ⟨entry, isEntry, rfl⟩ := mem_map.mp member
  rw [masked entry isEntry]
  rfl

theorem tokenCount_eq_zero {row : MaskedRow F}
    (masked : ∀ entry ∈ row, entry.2 = false) : row.tokenCount = 0 :=
  countP_eq_zero.mpr fun entry isEntry => by rw [masked entry isEntry]; exact nofun

theorem tokenSum_map {γ : Type} (tokens : List γ) (value : γ → F) (mask : γ → Bool) :
    tokenSum (tokens.map fun token => (value token, mask token)) =
      (tokens.map fun token => if mask token then value token else 0).sum := by
  rw [tokenSum, map_map]
  rfl

theorem tokenCount_map {γ : Type} (tokens : List γ) (value : γ → F)
    (mask : γ → Bool) :
    tokenCount (tokens.map fun token => (value token, mask token)) =
      tokens.countP mask := by
  rw [tokenCount, countP_map]
  rfl

/-- Rows of one mask have one sum when the tokens in the mask have one loss. -/
theorem tokenSum_congr {γ : Type} {tokens : List γ} {value other : γ → F}
    {mask : γ → Bool}
    (same : ∀ token ∈ tokens, mask token = true → value token = other token) :
    tokenSum (tokens.map fun token => (value token, mask token)) =
      tokenSum (tokens.map fun token => (other token, mask token)) := by
  rw [tokenSum_map, tokenSum_map]
  refine congrArg sum (map_congr_left fun token isToken => ?_)
  split
  next masked => exact same token isToken masked
  next => rfl

variable [IsStrictOrderedRing F]

theorem tokenSum_le {γ : Type} {tokens : List γ} {value other : γ → F}
    {mask : γ → Bool} (le : ∀ token ∈ tokens, mask token = true → value token ≤ other token) :
    tokenSum (tokens.map fun token => (value token, mask token)) ≤
      tokenSum (tokens.map fun token => (other token, mask token)) := by
  rw [tokenSum_map, tokenSum_map]
  refine sum_le_sum fun token isToken => ?_
  split
  next masked => exact le token isToken masked
  next => exact le_rfl

theorem tokenSum_lt {γ : Type} {tokens : List γ} {value other : γ → F}
    {mask : γ → Bool} (le : ∀ token ∈ tokens, mask token = true → value token ≤ other token)
    (lt : ∃ token ∈ tokens, mask token = true ∧ value token < other token) :
    tokenSum (tokens.map fun token => (value token, mask token)) <
      tokenSum (tokens.map fun token => (other token, mask token)) := by
  rw [tokenSum_map, tokenSum_map]
  refine sum_lt_sum _ _ (fun token isToken => ?_) ?_
  · split
    next masked => exact le token isToken masked
    next => exact le_rfl
  · obtain ⟨token, isToken, masked, less⟩ := lt
    refine ⟨token, isToken, ?_⟩
    rw [if_pos masked, if_pos masked]
    exact less

end MaskedRow

section Normalize

variable {γ : Type} {f g : γ → MaskedRow F} {items : List γ}

/-- The loss depends on the sums and counts of the rows. -/
theorem normalizeLoss_congr (numProcesses numItemsInBatch : ℕ)
    (sums : ∀ item ∈ items, (f item).tokenSum = (g item).tokenSum)
    (counts : ∀ item ∈ items, (f item).tokenCount = (g item).tokenCount) :
    normalizeLoss settings numProcesses numItemsInBatch (items.map f) =
      normalizeLoss settings numProcesses numItemsInBatch (items.map g) := by
  have sumsEq : (items.map f).map MaskedRow.tokenSum = (items.map g).map MaskedRow.tokenSum := by
    rw [map_map, map_map]
    exact map_congr_left sums
  have countsEq :
      (items.map f).map MaskedRow.tokenCount = (items.map g).map MaskedRow.tokenCount := by
    rw [map_map, map_map]
    exact map_congr_left counts
  have meansEq : ((items.map f).map fun row => row.tokenSum / max (row.tokenCount : F) 1) =
      (items.map g).map fun row => row.tokenSum / max (row.tokenCount : F) 1 := by
    rw [map_map, map_map]
    refine map_congr_left fun item member => ?_
    rw [Function.comp_apply, Function.comp_apply, sums item member, counts item member]
  rw [normalizeLoss, normalizeLoss, sumsEq, countsEq, meansEq, length_map, length_map]

variable [IsStrictOrderedRing F]

theorem tensorDiv_lt {value other divisor : F} (less : value < other) (nonneg : 0 ≤ divisor)
    {quotient otherQuotient : F} (isQuotient : tensorDiv value divisor = some quotient)
    (isOther : tensorDiv other divisor = some otherQuotient) : quotient < otherQuotient := by
  rw [tensorDiv] at isQuotient isOther
  by_cases zero : divisor = 0
  · rw [if_pos zero] at isQuotient
    cases isQuotient
  · rw [if_neg zero] at isQuotient isOther
    rw [← Option.some.inj isQuotient, ← Option.some.inj isOther]
    exact (div_lt_div_iff_of_pos_right (lt_of_le_of_ne nonneg (Ne.symm zero))).mpr less

/-- The loss is strictly monotone in the sums of the rows. -/
theorem normalizeLoss_lt {numProcesses numItemsInBatch : ℕ}
    (sums : ∀ item ∈ items, (f item).tokenSum ≤ (g item).tokenSum)
    (strict : ∃ item ∈ items, (f item).tokenSum < (g item).tokenSum)
    (counts : ∀ item ∈ items, (f item).tokenCount = (g item).tokenCount) {loss other : F}
    (isLoss : normalizeLoss settings numProcesses numItemsInBatch (items.map f) = some loss)
    (isOther : normalizeLoss settings numProcesses numItemsInBatch (items.map g) = some other) :
    loss < other := by
  have total : ((items.map f).map MaskedRow.tokenSum).sum <
      ((items.map g).map MaskedRow.tokenSum).sum := by
    rw [map_map, map_map]
    exact sum_lt_sum _ _ sums strict
  have means : ((items.map f).map fun row => row.tokenSum / max (row.tokenCount : F) 1).sum <
      ((items.map g).map fun row => row.tokenSum / max (row.tokenCount : F) 1).sum := by
    have positive : ∀ count : ℕ, (0 : F) < max (count : F) 1 := fun count =>
      lt_max_of_lt_right one_pos
    rw [map_map, map_map]
    refine sum_lt_sum _ _ (fun item member => ?_) ?_
    · rw [Function.comp_apply, Function.comp_apply, counts item member]
      exact (div_le_div_iff_of_pos_right (positive _)).mpr (sums item member)
    · obtain ⟨item, member, less⟩ := strict
      refine ⟨item, member, ?_⟩
      rw [Function.comp_apply, Function.comp_apply, counts item member]
      exact (div_lt_div_iff_of_pos_right (positive _)).mpr less
  have countsEq : ((items.map f).map MaskedRow.tokenCount) =
      (items.map g).map MaskedRow.tokenCount := by
    rw [map_map, map_map]
    exact map_congr_left counts
  rw [normalizeLoss] at isLoss isOther
  rw [countsEq, length_map] at isLoss
  rw [length_map] at isOther
  cases isType : settings.lossType with
  | grpo | sapo =>
    rw [isType] at isLoss isOther
    exact tensorDiv_lt means (Nat.cast_nonneg _) isLoss isOther
  | bnpo =>
    rw [isType] at isLoss isOther
    exact tensorDiv_lt total (le_max_of_le_right zero_le_one) isLoss isOther
  | drGrpo =>
    rw [isType] at isLoss isOther
    exact tensorDiv_lt total (Nat.cast_nonneg _) isLoss isOther
  | cispo | dapo =>
    rw [isType] at isLoss isOther
    exact tensorDiv_lt total (div_nonneg (Nat.cast_nonneg _) (Nat.cast_nonneg _)) isLoss
      isOther

end Normalize

end Numbers

end Geobench.Trainers
