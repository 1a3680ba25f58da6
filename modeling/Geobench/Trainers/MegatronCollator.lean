import Geobench.Trainers.ContextParallel
import Mathlib.Algebra.Order.Ring.Rat

/-!
# Batches that are padded for parallel training

`_data_collator` pads twice. Each sample is padded to a multiple of twice the context-parallel size
(`handleMegatronCp`), and the rows are padded to a multiple of `getPaddingTo`, which has other
factors. Of packed rows with context parallelism the positions are not padded, they are extended
by whole segments (`extendPositionIds`).

The columns of a batch are padded in the same way: **`padRows_eq`** has for each row of a column
what is added to it. `AddsIgnored` says of tokens and labels that whatever was added is not learned.
-/

namespace Geobench.Trainers

open Library List

/-! ## Settings -/

inductive Fp8Format where
  | e4m3
  | hybrid
  deriving DecidableEq, Repr

inductive Fp8Recipe where
  | tensorwise
  | delayed
  | mxfp8
  | blockwise
  deriving DecidableEq, Repr

/-- What a collator is set to. The comparison of the attention backend with the text `fused` is
taken as it turns out. -/
structure CollatorSettings where
  tensorModelParallelSize : ℕ
  contextParallelSize : ℕ
  sequenceParallel : Bool
  fp8Format : Option Fp8Format
  fp8Recipe : Fp8Recipe
  attentionIsFused : Bool
  paddingFree : Bool
  isTraining : Bool
  paddingSideRight : Bool
  padTokenId : ℤ
  tensor_pos : 0 < tensorModelParallelSize
  context_pos : 0 < contextParallelSize

namespace CollatorSettings

variable (settings : CollatorSettings)

/-- What the parallel sizes alone ask for. -/
def originPaddingTo : Option ℕ :=
  let paddingTo :=
    if 1 < settings.tensorModelParallelSize ∧ settings.sequenceParallel = true then
      some settings.tensorModelParallelSize
    else none
  if 1 < settings.contextParallelSize then
    some (paddingTo.getD 1 * settings.contextParallelSize)
  else paddingTo

/-- What the number format asks for. -/
def fp8PaddingTo : Option ℕ :=
  if settings.fp8Recipe = .blockwise then some (settings.originPaddingTo.getD 1 * 128)
  else if settings.fp8Format.isSome then some (max (settings.originPaddingTo.getD 1 * 8) 16)
  else settings.originPaddingTo

/-- `get_padding_to`. -/
def getPaddingTo : Option ℕ :=
  if settings.attentionIsFused = true then
    some (max (settings.fp8PaddingTo.getD 1) (settings.originPaddingTo.getD 1 * 64))
  else settings.fp8PaddingTo

def group : CpGroup := ⟨settings.contextParallelSize, settings.context_pos⟩

def paddingRight : Bool := settings.isTraining && settings.paddingSideRight

/-- `_get_megatron_cp_length`. -/
def getMegatronCpLength (length : ℕ) : ℕ :=
  if settings.contextParallelSize = 1 then length
  else roundUp (settings.contextParallelSize * 2) length

end CollatorSettings

/-! ## Samples -/

/-- An encoded sample. A key without a value is not there. -/
structure Encoded where
  inputIds : List ℤ
  labels : Option (List ℤ)
  lossScale : Option (List ℚ)
  length : ℕ

/-- A sample as it is encoded: it has tokens, and a label and a scale for each of them. -/
structure Encoded.WellFormed (sample : Encoded) : Prop where
  someToken : sample.inputIds ≠ []
  labels : ∀ labels ∈ sample.labels, labels.length = sample.inputIds.length
  lossScale : ∀ lossScale ∈ sample.lossScale, lossScale.length = sample.inputIds.length
  length : sample.length = sample.inputIds.length

/-- The samples of a batch, which an encoder has given the same keys. -/
structure EncodedSamples where
  samples : List Encoded
  someSample : samples ≠ []
  wellFormed : ∀ sample ∈ samples, sample.WellFormed
  sameLabels : ∀ first ∈ samples, ∀ second ∈ samples, first.labels.isSome = second.labels.isSome
  sameLossScale : ∀ first ∈ samples, ∀ second ∈ samples,
    first.lossScale.isSome = second.lossScale.isSome

/-! ## The collator -/

section Rows

variable {α : Type}

def padSide (right : Bool) (count : ℕ) (padValue : α) (row : List α) : List α :=
  if right then row ++ List.replicate count padValue
  else List.replicate count padValue ++ row

/-- `_pad_sequence`: rows padded to the longest. -/
def padSequence (right : Bool) (padValue : α) (rows : List (List α)) : List (List α) :=
  let maxLen := (rows.map List.length).foldr max 0
  rows.map fun row => padSide right (maxLen - row.length) padValue row

/-- A column padded: the first row to the length that is asked for, and all rows to the longest. -/
def padRows (right : Bool) (paddingTo : Option ℕ) (firstLen : ℕ) (padValue : α) :
    List (List α) → List (List α)
  | [] => []
  | first :: rest =>
    let first := match paddingTo with
      | some paddingTo => padSide right (paddingTo - firstLen) padValue first
      | none => first
    padSequence right padValue (first :: rest)

/-- The column of a key: one row of all samples, or a row for each sample that has the key. -/
def columnOf (paddingFree : Bool) (values : List (Option (List α))) : Option (List (List α)) :=
  let rows := values.filterMap id
  if rows = [] then none
  else if paddingFree then some [rows.flatten]
  else some rows

end Rows

structure Collated where
  inputIds : List (List ℤ)
  labels : Option (List (List ℤ))
  lossScale : Option (List (List ℚ))
  positionIds : List (List ℤ)

namespace CollatorSettings

variable (settings : CollatorSettings)

/-- `_handle_megatron_cp`, which raises where a sample has no labels. -/
def handleMegatronCp (sample : Encoded) : Option Encoded :=
  if settings.contextParallelSize = 1 then some sample
  else
    let paddingLen :=
      roundUp (settings.contextParallelSize * 2) sample.inputIds.length - sample.inputIds.length
    sample.labels.map fun labels =>
      { inputIds := sample.inputIds ++ List.replicate paddingLen settings.padTokenId
        labels := some (labels ++ List.replicate paddingLen (-100))
        lossScale := sample.lossScale.map fun lossScale =>
          lossScale ++ List.replicate paddingLen 0
        length := sample.length + paddingLen }

def positionRows (samples : List Encoded) (seqLens : List ℕ) : List (List ℤ) :=
  if settings.paddingFree then [packedPositionIds (samples.map Encoded.length)]
  else if settings.isTraining && !settings.paddingSideRight then seqLens.map positionsOf
  else samples.map fun sample => positionsOf (sample.labels.getD sample.inputIds).length

/-- The positions with those of the padding behind them, which raises where the length of the row is
not known. -/
def extendPositionIds (paddingTo : Option ℕ) (seqLen : ℕ) (rows : List (List ℤ)) :
    Option (List (List ℤ)) :=
  paddingTo.map fun paddingTo =>
    let chunks := settings.contextParallelSize * 2
    [rows.flatten ++ (List.replicate ((paddingTo - seqLen) / chunks) (positionsOf chunks)).flatten]

/-- `_data_collator`. A batch without samples gives no tokens. -/
def dataCollator (paddingTo : Option ℕ) (batch : List Encoded) : Option Collated := do
  let samples ← batch.mapM settings.handleMegatronCp
  let inputIds ← columnOf settings.paddingFree (samples.map fun sample => some sample.inputIds)
  let seqLens := inputIds.map List.length
  let firstLen := seqLens.headD 0
  let paddingTo := paddingTo.map fun unit => roundUp unit (seqLens.foldr max 0)
  let pad {α : Type} (padValue : α) (rows : List (List α)) : List (List α) :=
    padRows settings.paddingRight paddingTo firstLen padValue rows
  let positionIds ←
    if settings.paddingFree = true ∧ 1 < settings.contextParallelSize then
      settings.extendPositionIds paddingTo firstLen (settings.positionRows samples seqLens)
    else some (pad 0 (settings.positionRows samples seqLens))
  return {
    inputIds := pad settings.padTokenId inputIds
    labels := (columnOf settings.paddingFree (samples.map Encoded.labels)).map (pad (-100))
    lossScale := (columnOf settings.paddingFree (samples.map Encoded.lossScale)).map (pad 0)
    positionIds := positionIds }

end CollatorSettings

/-! ## What is added to a row -/

section Padding

variable {α : Type}

@[simp] theorem length_padSide (right : Bool) (count : ℕ) (padValue : α) (row : List α) :
    (padSide right count padValue row).length = row.length + count := by
  cases right <;> simp [padSide, Nat.add_comm]

theorem padSide_padSide (right : Bool) (count more : ℕ) (padValue : α) (row : List α) :
    padSide right more padValue (padSide right count padValue row) =
      padSide right (count + more) padValue row := by
  cases right with
  | true => simp [padSide]
  | false => simp [padSide, ← append_assoc, Nat.add_comm count more]

def paddedLength (paddingTo : Option ℕ) (lengths : List ℕ) : ℕ :=
  match paddingTo with
  | some paddingTo => paddingTo
  | none => lengths.foldr max 0

theorem padRows_eq (right : Bool) {paddingTo : Option ℕ} {firstLen : ℕ} (padValue : α)
    {rows : List (List α)} (isFirst : (rows.map length).headD firstLen = firstLen)
    (longest : ∀ target ∈ paddingTo, ∀ row ∈ rows, row.length ≤ target) :
    padRows right paddingTo firstLen padValue rows =
      rows.map fun row =>
        padSide right (paddedLength paddingTo (rows.map length) - row.length) padValue
          row := by
  cases rows with
  | nil => rfl
  | cons first rest =>
    cases paddingTo with
    | none => rfl
    | some target =>
      have isFirstLen : first.length = firstLen := isFirst
      have below := longest target rfl
      rw [forall_mem_cons, isFirstLen] at below
      have restBelow : (rest.map length).foldr max 0 ≤ target :=
        foldr_max_le (forall_mem_map.mpr below.2)
      have whole : firstLen + (target - firstLen) = target := Nat.add_sub_cancel' below.1
      have maxLen : ((padSide right (target - firstLen) padValue first :: rest).map
          length).foldr max 0 = target := by
        rw [map_cons, length_padSide, isFirstLen, whole, foldr_cons, Nat.max_eq_left restBelow]
      rw [padRows, padSequence, maxLen, map_cons, map_cons, padSide_padSide,
        length_padSide, isFirstLen, whole, Nat.sub_self, Nat.add_zero]
      rfl

end Padding

/-! ## What is added is ignored -/

/-- A row of tokens with labels where each position is one of the original or was added with the
label that is ignored. -/
inductive AddsIgnored : List ℤ → List ℤ → List ℤ → List ℤ → Prop where
  | nil : AddsIgnored [] [] [] []
  | keep {tokens labels row rowLabels : List ℤ} (token label : ℤ) :
      AddsIgnored tokens labels row rowLabels →
        AddsIgnored (token :: tokens) (label :: labels) (token :: row) (label :: rowLabels)
  | add {tokens labels row rowLabels : List ℤ} (token : ℤ) :
      AddsIgnored tokens labels row rowLabels →
        AddsIgnored tokens labels (token :: row) (-100 :: rowLabels)

namespace AddsIgnored

variable {tokens labels row rowLabels : List ℤ}

theorem append {tokens' labels' row' rowLabels' : List ℤ}
    (first : AddsIgnored tokens labels row rowLabels)
    (second : AddsIgnored tokens' labels' row' rowLabels') :
    AddsIgnored (tokens ++ tokens') (labels ++ labels') (row ++ row')
      (rowLabels ++ rowLabels') := by
  induction first with
  | nil => exact second
  | keep token label _ ih => exact .keep token label ih
  | add token _ ih => exact .add token ih

theorem replicate (count : ℕ) (token : ℤ) :
    AddsIgnored [] [] (replicate count token) (replicate count (-100)) := by
  induction count with
  | zero => exact .nil
  | succ count ih => exact .add token ih

/-- Nothing is added. -/
theorem refl (same : labels.length = tokens.length) : AddsIgnored tokens labels tokens labels := by
  induction tokens generalizing labels with
  | nil =>
    rw [length_eq_zero_iff.mp same]
    exact .nil
  | cons token tokens ih =>
    cases labels with
    | nil => cases same
    | cons label labels => exact .keep token label (ih (Nat.succ_injective same))

theorem length_eq (adds : AddsIgnored tokens labels row rowLabels) :
    rowLabels.length = row.length := by
  induction adds with
  | nil => rfl
  | keep _ _ _ ih => rw [length_cons, length_cons, ih]
  | add _ _ ih => rw [length_cons, length_cons, ih]

theorem padSide (adds : AddsIgnored tokens labels row rowLabels) (right : Bool) (count : ℕ)
    (padTokenId : ℤ) :
    AddsIgnored tokens labels (padSide right count padTokenId row)
      (Trainers.padSide right count (-100) rowLabels) := by
  cases right with
  | true => simpa [Trainers.padSide] using adds.append (replicate count padTokenId)
  | false => simpa [Trainers.padSide] using (replicate count padTokenId).append adds

theorem flatten {originals rows : List (List ℤ × List ℤ)}
    (each : List.Forall₂ (fun original row => AddsIgnored original.1 original.2 row.1 row.2)
      originals rows) :
    AddsIgnored (originals.flatMap Prod.fst) (originals.flatMap Prod.snd) (rows.flatMap Prod.fst)
      (rows.flatMap Prod.snd) := by
  induction each with
  | nil => exact .nil
  | cons adds _ ih => exact adds.append ih

end AddsIgnored

end Geobench.Trainers
