import Geobench.Trainers.Chunking
import Mathlib.Tactic.LinearCombination

/-!
# The loss of a batch in chunks

The trainer weighs the loss of a chunk with its samples, and compares the mean with what
the whole batch gives. The losses of a batch are sums over its rows with a divisor
(`normalizeLoss_eq`), so that the chunks agree with the batch for all losses of tokens if
and only if a chunk with tokens has as large a share of the divisor as of the samples
(`weighedLosses_eq_iff`).
-/

set_option autoImplicit false
set_option linter.unusedSectionVars false

namespace Geobench.Trainers

open Library List

/-! ## The trainer -/

section Trainer

variable {F : Type} [Field F] [LinearOrder F] {α : Type}

/-- The sum of losses, no number when one of them is none. -/
def sumLosses (losses : List (Option F)) : Option F := (losses.mapM id).map List.sum

/-- The loss of a chunk, times its samples. A dummy counts for nothing. -/
def weighLoss (run : ChunkRun α) (loss : Option F) : Option F :=
  loss.map fun chunkLoss => if run.isDummy then chunkLoss * 0 else chunkLoss * run.weight

def computeLossChunked (computeLoss : List α → Except LossError (Option F)) (items : List α)
    (chunkSize : ℕ) (batchSizes : List ℕ) : Except LossError (Option F) := do
  let runs ← chunkRuns (lossHasSamples items.length) (slice items) items.length chunkSize
    batchSizes
  let losses ← runs.mapM fun run => do
    let chunkLoss ← computeLoss run.chunkInputs
    .ok (weighLoss run chunkLoss)
  let totalWeight := (runs.map ChunkRun.weight).sum
  let total := sumLosses losses
  .ok (if 0 < totalWeight then total.map fun loss => loss / (totalWeight : F) else total)

end Trainer

/-! ## Loss types as sums with a divisor -/

section Sums

variable {F : Type} [Field F] [LinearOrder F] (settings : LossSettings F)

def rowLoss (row : MaskedRow F) : F :=
  match settings.lossType with
  | .grpo | .sapo => row.tokenSum / max (row.tokenCount : F) 1
  | .bnpo | .drGrpo | .cispo | .dapo => row.tokenSum

/-- What the sum over a number of rows with a number of tokens is divided by. -/
def lossDivisor (numProcesses numItemsInBatch rows tokens : ℕ) : F :=
  match settings.lossType with
  | .grpo | .sapo => rows
  | .bnpo => max (tokens : F) 1
  | .drGrpo => ((rows * settings.maxCompletionLength : ℕ) : F)
  | .cispo | .dapo => (numItemsInBatch : F) / numProcesses

/-- The loss as a quotient, whether or not its divisor is zero. -/
def lossQuotient (numProcesses numItemsInBatch : ℕ) (rows : List (MaskedRow F)) : F :=
  (rows.map (rowLoss settings)).sum / lossDivisor settings numProcesses numItemsInBatch
    rows.length (rows.map MaskedRow.tokenCount).sum

/-- The settings under which no batch has a loss. -/
def NoLoss (numProcesses numItemsInBatch : ℕ) : Prop :=
  match settings.lossType with
  | .grpo | .sapo | .bnpo => False
  | .drGrpo => settings.maxCompletionLength = 0
  | .cispo | .dapo => numItemsInBatch = 0 ∨ numProcesses = 0

theorem normalizeLoss_eq_tensorDiv (numProcesses numItemsInBatch : ℕ)
    (rows : List (MaskedRow F)) :
    normalizeLoss settings numProcesses numItemsInBatch rows =
      tensorDiv (rows.map (rowLoss settings)).sum (lossDivisor settings numProcesses
        numItemsInBatch rows.length (rows.map MaskedRow.tokenCount).sum) := by
  have sums : settings.lossType ≠ .grpo → settings.lossType ≠ .sapo →
      rows.map (rowLoss settings) = rows.map MaskedRow.tokenSum := by
    intro notGrpo notSapo
    apply map_congr_left
    intro row isRow
    cases isType : settings.lossType <;> simp_all [rowLoss]
  cases isType : settings.lossType with
  | grpo | sapo =>
    simp only [normalizeLoss, lossDivisor, isType]
    congr 2
    apply map_congr_left
    intro row isRow
    simp only [rowLoss, isType]
  | bnpo | drGrpo | cispo | dapo =>
    rw [sums (by simp [isType]) (by simp [isType])]
    simp only [normalizeLoss, lossDivisor, isType]

variable [IsStrictOrderedRing F]

theorem lossDivisor_eq_zero_iff {numProcesses numItemsInBatch rows tokens : ℕ}
    (someRow : 0 < rows) :
    lossDivisor settings numProcesses numItemsInBatch rows tokens = 0 ↔
      NoLoss settings numProcesses numItemsInBatch := by
  cases isType : settings.lossType with
  | grpo | sapo => simp [lossDivisor, NoLoss, isType, someRow.ne']
  | bnpo =>
    have positive : (0 : F) < max (tokens : F) 1 := lt_max_of_lt_right one_pos
    simp [lossDivisor, NoLoss, isType, positive.ne']
  | drGrpo => simp [lossDivisor, NoLoss, isType, someRow.ne']
  | cispo | dapo => simp [lossDivisor, NoLoss, isType]

variable {rows : List (MaskedRow F)}

theorem normalizeLoss_eq {numProcesses numItemsInBatch : ℕ} (nonempty : rows ≠ [])
    (someLoss : ¬NoLoss settings numProcesses numItemsInBatch) :
    normalizeLoss settings numProcesses numItemsInBatch rows =
      some (lossQuotient settings numProcesses numItemsInBatch rows) := by
  rw [normalizeLoss_eq_tensorDiv, tensorDiv]
  apply if_neg
  intro zero
  exact someLoss ((lossDivisor_eq_zero_iff settings (length_pos_iff.mpr nonempty)).mp zero)

theorem normalizeLoss_eq_none {numProcesses numItemsInBatch : ℕ} (nonempty : rows ≠ [])
    (noLoss : NoLoss settings numProcesses numItemsInBatch) :
    normalizeLoss settings numProcesses numItemsInBatch rows = none := by
  rw [normalizeLoss_eq_tensorDiv, tensorDiv]
  exact if_pos ((lossDivisor_eq_zero_iff settings (length_pos_iff.mpr nonempty)).mpr noLoss)

/-! ## The chunks together -/

variable {numProcesses numItemsInBatch chunkSize chunks size : ℕ} {batchSizes : List ℕ}

def weighedLosses (numProcesses numItemsInBatch size chunks : ℕ) (rows : List (MaskedRow F)) :
    F :=
  ((cutAt (· * size) chunks rows).map fun chunk =>
    lossQuotient settings numProcesses numItemsInBatch chunk * (chunk.length : F)).sum

theorem sumLosses_map_some {γ : Type} (items : List γ) (loss : γ → F) :
    sumLosses (items.map fun item => some (loss item)) = some (items.map loss).sum := by
  have all : (items.map fun item => some (loss item)).mapM id = some (items.map loss) := by
    induction items with
    | nil => rfl
    | cons item items ih =>
      rw [map_cons, mapM_cons, ih]
      rfl
  rw [sumLosses, all, Option.map_some]

theorem sumLosses_eq_none {losses : List (Option F)} (isNone : none ∈ losses) :
    sumLosses losses = none := by
  have fails : losses.mapM id = none := by
    induction losses with
    | nil => exact absurd isNone not_mem_nil
    | cons loss losses ih =>
      rw [mapM_cons]
      cases loss with
      | none => rfl
      | some loss =>
        rw [ih (by simpa using isNone)]
        rfl
  rw [sumLosses, fails, Option.map_none]

/-- A pass has the weight of the samples that are new in it. -/
theorem weight_plannedRun {α : Type} (items : List α) (size chunkIdx : ℕ) :
    (plannedRun (slice items) items.length size chunkIdx).weight =
      (slice items (chunkIdx * size) ((chunkIdx + 1) * size)).length := by
  rw [length_slice, Nat.succ_mul]
  rfl

theorem sum_weight_plannedRun {α : Type} {items : List α}
    (plan : ChunkPlan items.length chunkSize chunks size) :
    (((range chunks).map (plannedRun (slice items) items.length size)).map
      ChunkRun.weight).sum = items.length := by
  have weights : ((range chunks).map (plannedRun (slice items) items.length size)).map
      ChunkRun.weight = (cutAt (· * size) chunks items).map length := by
    rw [cutAt, map_map, map_map]
    apply map_congr_left
    intro chunkIdx isChunk
    exact weight_plannedRun items size chunkIdx
  rw [weights, ← length_flatten, flatten_cutAt_mul plan.covers]

theorem computeLossChunked_eq (isChunks : maxChunks chunkSize batchSizes = .ok chunks)
    (someRow : 0 < rows.length) (plan : ChunkPlan rows.length chunkSize chunks size)
    (someLoss : ¬NoLoss settings numProcesses numItemsInBatch) :
    computeLossChunked (fun rows =>
        .ok (normalizeLoss settings numProcesses numItemsInBatch rows)) rows chunkSize batchSizes =
      .ok (some (weighedLosses settings numProcesses numItemsInBatch size chunks rows /
        (rows.length : F))) := by
  have losses : ((range chunks).map (plannedRun (slice rows) rows.length size)).mapM
      (fun run => ((.ok (normalizeLoss settings numProcesses numItemsInBatch run.chunkInputs) :
        Except LossError (Option F)) >>= fun chunkLoss => .ok (weighLoss run chunkLoss))) =
      .ok ((cutAt (· * size) chunks rows).map fun chunk =>
        some (lossQuotient settings numProcesses numItemsInBatch chunk * (chunk.length : F))) := by
    rw [mapM_map, cutAt, map_map]
    apply mapM_eq_ok_map
    intro chunkIdx isChunk
    have nonempty := chunkInputs_plannedRun_ne_nil plan.size_pos someRow chunkIdx
    refine congrArg Except.ok ?_
    rw [normalizeLoss_eq settings nonempty someLoss, Function.comp_apply,
      ← weight_plannedRun rows size chunkIdx]
    by_cases inside : chunkIdx * size < rows.length
    · rw [chunkInputs_plannedRun plan.size_pos inside]
      simp [weighLoss, plannedRun, not_le.mpr inside]
    · have weightless : min (chunkIdx * size + size) rows.length - chunkIdx * size = 0 := by omega
      simp [weighLoss, plannedRun, not_lt.mp inside, weightless]
  refine bind_eq_ok.mpr ⟨_, chunkRuns_eq (isRealTest_loss rows.length) isChunks someRow plan,
    bind_eq_ok.mpr ⟨_, losses, ?_⟩⟩
  rw [sum_weight_plannedRun plan, sumLosses_map_some]
  dsimp only
  rw [if_pos someRow]
  rfl

theorem computeLossChunked_eq_none (isChunks : maxChunks chunkSize batchSizes = .ok chunks)
    (someRow : 0 < rows.length) (plan : ChunkPlan rows.length chunkSize chunks size)
    (noLoss : NoLoss settings numProcesses numItemsInBatch) :
    computeLossChunked (fun rows =>
        .ok (normalizeLoss settings numProcesses numItemsInBatch rows)) rows chunkSize batchSizes =
      .ok none := by
  have losses : ((range chunks).map (plannedRun (slice rows) rows.length size)).mapM
      (fun run => ((.ok (normalizeLoss settings numProcesses numItemsInBatch run.chunkInputs) :
        Except LossError (Option F)) >>= fun chunkLoss => .ok (weighLoss run chunkLoss))) =
      .ok ((range chunks).map fun _ => none) := by
    rw [mapM_map]
    apply mapM_eq_ok_map
    intro chunkIdx isChunk
    have nonempty := chunkInputs_plannedRun_ne_nil plan.size_pos someRow chunkIdx
    refine congrArg Except.ok ?_
    rw [normalizeLoss_eq_none settings nonempty noLoss, weighLoss, Option.map_none]
  refine bind_eq_ok.mpr ⟨_, chunkRuns_eq (isRealTest_loss rows.length) isChunks someRow plan,
    bind_eq_ok.mpr ⟨_, losses, ?_⟩⟩
  have isNone : none ∈ (range chunks).map fun _ => (none : Option F) :=
    mem_map.mpr ⟨0, mem_range.mpr plan.chunks_pos, rfl⟩
  rw [sumLosses_eq_none isNone]
  dsimp only
  rw [Option.map_none, ite_self]

end Sums

/-! ## Batches with any losses -/

section Batches

/-- A sample of a batch, and the mask that is left of its completion. -/
structure BatchSample where
  row : EncodedRow
  completionMask : List Bool
  deriving DecidableEq

def keptTokens (samples : List BatchSample) : ℕ :=
  (samples.map fun sample => sample.completionMask.count true).sum

variable {F : Type} [Field F] [LinearOrder F]

def lossRows (perTokenLoss : ℕ → ℕ → F) (samples : List (BatchSample × ℕ)) :
    List (MaskedRow F) :=
  samples.map fun sample => sample.1.completionMask.zipIdx.map fun token =>
    (perTokenLoss sample.2 token.2, token.1)

def batchRows (perTokenLoss : ℕ → ℕ → F) (batch : List BatchSample) : List (MaskedRow F) :=
  lossRows perTokenLoss batch.zipIdx

/-- When the chunks have the loss of the batch: only a loss type that divides by tokens
needs something of them. -/
def ChunksHaveLoss (settings : LossSettings F) (numItemsInBatch chunkSize : ℕ)
    (batchSizes : List ℕ) (batch : List BatchSample) : Prop :=
  match settings.lossType with
  | .grpo | .sapo | .drGrpo => True
  | .bnpo => ∀ chunk ∈ chunksOf chunkSize batchSizes batch, keptTokens chunk ≠ 0 →
      chunk.length * keptTokens batch = batch.length * keptTokens chunk
  | .cispo | .dapo => numItemsInBatch = 0 ∨ keptTokens batch = 0 ∨ batch.length = 1 ∨
      ∀ size ∈ batchSizes, size ≤ chunkSize

/-! ## Losses of the chunks -/

/-- A sample in a slice has a number between the ends of the slice. -/
theorem div_of_mem_slice_zipIdx {α : Type} {items : List α} {size chunkIdx index : ℕ} {item : α}
    (member : (item, index) ∈ slice items.zipIdx (chunkIdx * size) ((chunkIdx + 1) * size)) :
    index / size = chunkIdx := by
  obtain ⟨place, isPlace⟩ := mem_iff_getElem?.mp member
  rw [slice, getElem?_drop] at isPlace
  by_cases before : chunkIdx * size + place < (chunkIdx + 1) * size
  · rw [getElem?_take_of_lt before, getElem?_zipIdx, Nat.zero_add] at isPlace
    obtain ⟨found, _, isPair⟩ := Option.map_eq_some_iff.mp isPlace
    obtain ⟨rfl, rfl⟩ := Prod.mk.inj isPair
    exact Nat.div_eq_of_lt_le (Nat.le_add_right _ _) before
  · rw [getElem?_take_eq_none (not_lt.mp before)] at isPlace
    cases isPlace

theorem sum_map_range_single {number count : ℕ} {value : ℕ → F} (inside : number < count)
    (others : ∀ other, other ≠ number → value other = 0) :
    ((range count).map value).sum = value number := by
  have one : (range count).count number = 1 :=
    count_eq_one_of_mem nodup_range (mem_range.mpr inside)
  rw [sum_map_eq_nsmul_single number value fun other distinct _ => others other distinct,
    one, one_nsmul]

variable (settings : LossSettings F)

theorem tokenCount_lossRow (loss : ℕ → F) (mask : List Bool) :
    MaskedRow.tokenCount (mask.zipIdx.map fun token => (loss token.2, token.1)) =
      mask.count true := by
  have kept : mask.zipIdx.countP Prod.fst = (mask.zipIdx.map Prod.fst).countP id := by
    rw [countP_map]
    rfl
  rw [MaskedRow.tokenCount_map, kept, zipIdx_map_fst, List.count]
  congr 1
  funext kept
  cases kept <;> rfl

variable (perTokenLoss : ℕ → ℕ → F)

theorem sum_tokenCount_lossRows (samples : List (BatchSample × ℕ)) :
    ((lossRows perTokenLoss samples).map MaskedRow.tokenCount).sum =
      keptTokens (samples.map Prod.fst) := by
  rw [lossRows, keptTokens, map_map, map_map]
  congr 1
  apply map_congr_left
  intro sample isSample
  exact tokenCount_lossRow (perTokenLoss sample.2) sample.1.completionMask

theorem rowLoss_eq_zero {row : MaskedRow F} (noTokens : row.tokenCount = 0) :
    rowLoss settings row = 0 := by
  have masked : ∀ entry ∈ row, entry.2 = false := by
    intro entry isEntry
    exact eq_false_of_ne_true (countP_eq_zero.mp noTokens entry isEntry)
  have zero := MaskedRow.tokenSum_eq_zero masked
  cases isType : settings.lossType <;> simp [rowLoss, isType, zero]

theorem sum_rowLoss_eq_zero {samples : List (BatchSample × ℕ)}
    (noTokens : keptTokens (samples.map Prod.fst) = 0) :
    ((lossRows perTokenLoss samples).map (rowLoss settings)).sum = 0 := by
  rw [← sum_tokenCount_lossRows perTokenLoss] at noTokens
  apply sum_eq_zero
  intro value isValue
  obtain ⟨row, isRow, rfl⟩ := mem_map.mp isValue
  apply rowLoss_eq_zero
  exact sum_eq_zero_iff.mp noTokens _ (mem_map_of_mem isRow)

/-- What a row of ones adds to the loss. -/
def rowGain (tokens : ℕ) : F :=
  match settings.lossType with
  | .grpo | .sapo => tokens / max (tokens : F) 1
  | .bnpo | .drGrpo | .cispo | .dapo => tokens

theorem tokenSum_const (value : F) (mask : List Bool) :
    MaskedRow.tokenSum (mask.zipIdx.map fun token => (value, token.1)) =
      value * (mask.count true : F) := by
  have entries : (mask.zipIdx.map fun token => if token.1 = true then value else 0) =
      (mask.zipIdx.map Prod.fst).map fun kept => if kept = true then value else 0 := by
    rw [map_map]
    rfl
  rw [MaskedRow.tokenSum_map mask.zipIdx (fun _ => value) Prod.fst, entries, zipIdx_map_fst]
  clear entries
  induction mask with
  | nil => simp
  | cons kept mask ih =>
    cases kept with
    | true =>
      rw [map_cons, sum_cons, ih, if_pos rfl]
      rw [count_cons_self, Nat.cast_succ]
      ring
    | false =>
      rw [map_cons, sum_cons, ih]
      simp

theorem rowLoss_const (value : F) (mask : List Bool) :
    rowLoss settings (mask.zipIdx.map fun token => (value, token.1)) =
      value * rowGain settings (mask.count true) := by
  have count := tokenCount_lossRow (fun _ => value) mask
  have sum := tokenSum_const value mask
  cases isType : settings.lossType <;> simp only [rowLoss, rowGain, isType, sum, count]
  all_goals rw [mul_div_assoc]

variable [IsStrictOrderedRing F]

theorem rowGain_nonneg (tokens : ℕ) : 0 ≤ rowGain settings tokens := by
  cases isType : settings.lossType <;> simp only [rowGain, isType] <;> positivity

theorem rowGain_pos {tokens : ℕ} (some : tokens ≠ 0) : 0 < rowGain settings tokens := by
  have positive : (0 : F) < tokens := Nat.cast_pos.mpr (Nat.pos_of_ne_zero some)
  cases isType : settings.lossType <;> simp only [rowGain, isType] <;> positivity

def chunkLosses (size chunkIdx index _place : ℕ) : F := if index / size = chunkIdx then 1 else 0

theorem sum_rowLoss_chunkLosses {batch : List BatchSample} {size : ℕ} (chunkIdx other : ℕ) :
    ((lossRows (F := F) (chunkLosses size chunkIdx)
        (slice batch.zipIdx (other * size) ((other + 1) * size))).map (rowLoss settings)).sum =
      if other = chunkIdx then
        ((slice batch (other * size) ((other + 1) * size)).map fun sample =>
          rowGain settings (sample.completionMask.count true)).sum
      else 0 := by
  have rows : (lossRows (F := F) (chunkLosses size chunkIdx)
      (slice batch.zipIdx (other * size) ((other + 1) * size))).map (rowLoss settings) =
      (slice batch.zipIdx (other * size) ((other + 1) * size)).map fun sample =>
        (if other = chunkIdx then 1 else 0) *
          rowGain settings (sample.1.completionMask.count true) := by
    rw [lossRows, map_map]
    apply map_congr_left
    rintro ⟨sample, index⟩ isSample
    rw [Function.comp_apply, ← div_of_mem_slice_zipIdx isSample]
    exact rowLoss_const settings _ sample.completionMask
  have samples : (slice batch.zipIdx (other * size) ((other + 1) * size)).map Prod.fst =
      slice batch (other * size) ((other + 1) * size) := by
    rw [map_slice, zipIdx_map_fst]
  rw [rows, sum_map_mul_left, ← samples, map_map]
  split
  · rw [one_mul]
    rfl
  · exact zero_mul _

theorem sum_rowGain_pos {samples : List BatchSample} (some : keptTokens samples ≠ 0) :
    0 < (samples.map fun sample => rowGain settings (sample.completionMask.count true)).sum := by
  obtain ⟨count, isCount, nonzero⟩ : ∃ count ∈ samples.map fun sample =>
      sample.completionMask.count true, count ≠ 0 := by
    by_contra none
    push Not at none
    exact some (sum_eq_zero none)
  obtain ⟨sample, isSample, rfl⟩ := mem_map.mp isCount
  have nonneg : ∀ value ∈ samples.map fun sample =>
      rowGain settings (sample.completionMask.count true), (0 : F) ≤ value := by
    intro value isValue
    obtain ⟨other, _, rfl⟩ := mem_map.mp isValue
    exact rowGain_nonneg settings _
  exact (rowGain_pos settings nonzero).trans_le
    (single_le_sum nonneg _ (mem_map.mpr ⟨sample, isSample, rfl⟩))

variable {numProcesses numItemsInBatch chunkSize chunks size : ℕ} {batchSizes : List ℕ}
  {batch : List BatchSample}

theorem cutAt_batchRows (size chunks : ℕ) :
    cutAt (· * size) chunks (batchRows perTokenLoss batch) = (range chunks).map fun chunkIdx =>
      lossRows perTokenLoss
        (slice batch.zipIdx (chunkIdx * size) ((chunkIdx + 1) * size)) := by
  rw [cutAt]
  apply map_congr_left
  intro chunkIdx isChunk
  rw [batchRows, lossRows, lossRows, map_slice]

theorem length_lossRows (samples : List (BatchSample × ℕ)) :
    (lossRows perTokenLoss samples).length = samples.length :=
  length_map _

theorem sum_rowLoss_batchRows (covers : batch.length ≤ chunks * size) :
    ((batchRows perTokenLoss batch).map (rowLoss settings)).sum =
      ((range chunks).map fun chunkIdx =>
        ((lossRows perTokenLoss (slice batch.zipIdx (chunkIdx * size) ((chunkIdx + 1) * size))).map
          (rowLoss settings)).sum).sum := by
  have rowsCovered : (batchRows perTokenLoss batch).length ≤ chunks * size := by
    rw [batchRows, length_lossRows, length_zipIdx]
    exact covers
  conv_lhs => rw [← flatten_cutAt_mul rowsCovered]
  rw [map_flatten, sum_flatten, cutAt_batchRows, map_map, map_map]
  rfl

def chunkSum (perTokenLoss : ℕ → ℕ → F) (batch : List BatchSample) (size chunkIdx : ℕ) : F :=
  ((lossRows perTokenLoss (slice batch.zipIdx (chunkIdx * size) ((chunkIdx + 1) * size))).map
    (rowLoss settings)).sum

theorem weighedLosses_batchRows (size chunks : ℕ) :
    weighedLosses settings numProcesses numItemsInBatch size chunks
        (batchRows perTokenLoss batch) =
      ((range chunks).map fun chunkIdx =>
        let chunk := slice batch (chunkIdx * size) ((chunkIdx + 1) * size)
        chunkSum settings perTokenLoss batch size chunkIdx /
          lossDivisor settings numProcesses numItemsInBatch chunk.length (keptTokens chunk) *
            (chunk.length : F)).sum := by
  rw [weighedLosses, cutAt_batchRows, map_map]
  congr 1
  apply map_congr_left
  intro chunkIdx isChunk
  have samples : (slice batch.zipIdx (chunkIdx * size) ((chunkIdx + 1) * size)).map Prod.fst =
      slice batch (chunkIdx * size) ((chunkIdx + 1) * size) := by
    rw [map_slice, zipIdx_map_fst]
  rw [Function.comp_apply, lossQuotient, sum_tokenCount_lossRows, length_lossRows, ← samples]
  dsimp only
  rw [length_map]
  rfl

theorem lossQuotient_batchRows (covers : batch.length ≤ chunks * size) :
    lossQuotient settings numProcesses numItemsInBatch (batchRows perTokenLoss batch) =
      ((range chunks).map (chunkSum settings perTokenLoss batch size)).sum /
        lossDivisor settings numProcesses numItemsInBatch batch.length (keptTokens batch) := by
  rw [lossQuotient, sum_rowLoss_batchRows settings perTokenLoss covers, batchRows,
    sum_tokenCount_lossRows, length_lossRows, length_zipIdx, zipIdx_map_fst]
  rfl

/-- A chunk without tokens adds nothing. -/
theorem chunkSum_eq_zero {chunkIdx : ℕ}
    (noTokens : keptTokens (slice batch (chunkIdx * size) ((chunkIdx + 1) * size)) = 0) :
    chunkSum settings perTokenLoss batch size chunkIdx = 0 := by
  apply sum_rowLoss_eq_zero
  rw [map_slice, zipIdx_map_fst]
  exact noTokens

theorem keptTokens_ne_zero {samples : List BatchSample} (some : keptTokens samples ≠ 0) :
    0 < samples.length := by
  apply length_pos_iff.mpr
  rintro rfl
  exact some rfl

/-- The chunks have the loss of the batch, whatever its tokens lose, if and only if a
chunk with tokens has as large a share of the divisor as of the samples. -/
theorem weighedLosses_eq_iff (someSample : 0 < batch.length)
    (plan : ChunkPlan batch.length chunkSize chunks size)
    (someLoss : ¬NoLoss settings numProcesses numItemsInBatch) :
    (∀ perTokenLoss, weighedLosses settings numProcesses numItemsInBatch size chunks
        (batchRows perTokenLoss batch) / (batch.length : F) =
      lossQuotient settings numProcesses numItemsInBatch (batchRows perTokenLoss batch)) ↔
    ∀ chunk ∈ cutAt (· * size) chunks batch, keptTokens chunk ≠ 0 →
      (chunk.length : F) *
          lossDivisor settings numProcesses numItemsInBatch batch.length (keptTokens batch) =
        batch.length *
          lossDivisor settings numProcesses numItemsInBatch chunk.length (keptTokens chunk) := by
  have batchNonzero : (batch.length : F) ≠ 0 := Nat.cast_ne_zero.mpr someSample.ne'
  have divisorNonzero : lossDivisor settings numProcesses numItemsInBatch batch.length
      (keptTokens batch) ≠ 0 :=
    mt (lossDivisor_eq_zero_iff settings someSample).mp someLoss
  have chunkNonzero : ∀ {chunk : List BatchSample}, keptTokens chunk ≠ 0 →
      lossDivisor settings numProcesses numItemsInBatch chunk.length (keptTokens chunk) ≠ 0 :=
    fun some => mt (lossDivisor_eq_zero_iff settings (keptTokens_ne_zero some)).mp someLoss
  constructor
  · intro agree chunk isChunk some
    obtain ⟨chunkIdx, isIndex, rfl⟩ := mem_map.mp isChunk
    -- with losses in this chunk only, its sum is what is divided on both sides
    have others : ∀ other, other ≠ chunkIdx →
        chunkSum (F := F) settings (chunkLosses size chunkIdx) batch size other = 0 := by
      intro other distinct
      rw [chunkSum, sum_rowLoss_chunkLosses, if_neg distinct]
    have own : 0 < chunkSum (F := F) settings (chunkLosses size chunkIdx) batch size chunkIdx := by
      rw [chunkSum, sum_rowLoss_chunkLosses, if_pos rfl]
      exact sum_rowGain_pos settings some
    have equal := agree (chunkLosses size chunkIdx)
    rw [weighedLosses_batchRows, lossQuotient_batchRows settings _ plan.covers,
      sum_map_range_single (mem_range.mp isIndex) others,
      sum_map_range_single (mem_range.mp isIndex)
        (fun other distinct => by simp [others other distinct])] at equal
    have divided := chunkNonzero some
    field_simp at equal
    linarith
  · intro shares perTokenLoss
    rw [weighedLosses_batchRows, lossQuotient_batchRows settings _ plan.covers,
      div_eq_div_iff batchNonzero divisorNonzero, ← sum_map_mul_right, ← sum_map_mul_right]
    congr 1
    apply map_congr_left
    intro chunkIdx isIndex
    by_cases some : keptTokens (slice batch (chunkIdx * size) ((chunkIdx + 1) * size)) = 0
    · simp [chunkSum_eq_zero settings perTokenLoss some]
    · have share := shares _ (mem_map.mpr ⟨chunkIdx, isIndex, rfl⟩) some
      have divided := chunkNonzero some
      field_simp
      linear_combination chunkSum settings perTokenLoss batch size chunkIdx * share

/-! ## Shares by loss type -/

theorem keptTokens_cutAt {items : List BatchSample} (covers : items.length ≤ chunks * size) :
    ((cutAt (· * size) chunks items).map keptTokens).sum = keptTokens items := by
  conv_rhs => rw [← flatten_cutAt_mul covers]
  rw [keptTokens, map_flatten, sum_flatten, map_map]
  rfl

theorem keptTokens_le {items chunk : List BatchSample} (covers : items.length ≤ chunks * size)
    (isChunk : chunk ∈ cutAt (· * size) chunks items) : keptTokens chunk ≤ keptTokens items := by
  rw [← keptTokens_cutAt covers]
  exact single_le_sum (fun _ _ => Nat.zero_le _) _ (mem_map_of_mem isChunk)

/-- The condition of a loss type says that the shares are equal. -/
theorem chunksHaveLoss_iff (positive : 0 < chunkSize) (isSize : batch.length ∈ batchSizes)
    (someSample : 0 < batch.length)
    (someLoss : ¬NoLoss settings batchSizes.length numItemsInBatch) :
    (∀ chunk ∈ chunksOf chunkSize batchSizes batch, keptTokens chunk ≠ 0 →
      (chunk.length : F) *
          lossDivisor settings batchSizes.length numItemsInBatch batch.length (keptTokens batch) =
        batch.length *
          lossDivisor settings batchSizes.length numItemsInBatch chunk.length
            (keptTokens chunk)) ↔
      ChunksHaveLoss settings numItemsInBatch chunkSize batchSizes batch := by
  have plan := chunkPlan_samplesPerPass positive isSize someSample
  cases isType : settings.lossType with
  | grpo | sapo =>
    simp only [lossDivisor, ChunksHaveLoss, isType, iff_true]
    intro chunk isChunk some
    exact mul_comm _ _
  | drGrpo =>
    simp only [lossDivisor, ChunksHaveLoss, isType, iff_true]
    intro chunk isChunk some
    push_cast
    ring
  | bnpo =>
    simp only [lossDivisor, ChunksHaveLoss, isType]
    apply forall₃_congr
    intro chunk isChunk some
    have le := keptTokens_le plan.covers isChunk
    have asTokens : ∀ {count : ℕ}, 0 < count → max (count : F) 1 = (count : F) :=
      fun counted => max_eq_left (Nat.one_le_cast.mpr counted)
    rw [asTokens (by omega), asTokens (by omega)]
    exact_mod_cast Iff.rfl
  | cispo | dapo =>
    have divisor : (numItemsInBatch : F) / (batchSizes.length : F) ≠ 0 := by
      simp only [NoLoss, isType, not_or] at someLoss
      exact div_ne_zero (Nat.cast_ne_zero.mpr someLoss.1) (Nat.cast_ne_zero.mpr someLoss.2)
    have someItems : numItemsInBatch ≠ 0 := by
      simp only [NoLoss, isType, not_or] at someLoss
      exact someLoss.1
    have onlyChunk := le_samplesPerPass_iff positive isSize someSample
    simp only [lossDivisor, ChunksHaveLoss, isType, someItems, false_or, ← onlyChunk,
      mul_left_inj' divisor, Nat.cast_inj]
    constructor
    · intro whole
      by_cases noTokens : keptTokens batch = 0
      · exact Or.inl noTokens
      · rw [← keptTokens_cutAt plan.covers, sum_eq_zero_iff] at noTokens
        push Not at noTokens
        obtain ⟨count, isCount, some⟩ := noTokens
        obtain ⟨chunk, isChunk, rfl⟩ := mem_map.mp isCount
        exact Or.inr ((whole chunk isChunk some).ge.trans (length_le_of_mem_cutAt isChunk).1)
    · rintro (noTokens | covered) chunk isChunk some
      · have le := keptTokens_le plan.covers isChunk
        omega
      · obtain ⟨chunkIdx, _, rfl⟩ := mem_map.mp isChunk
        have nonempty := keptTokens_ne_zero some
        rw [length_slice] at nonempty ⊢
        have first : chunkIdx = 0 := by
          by_contra later
          have beyond := Nat.mul_le_mul_right
            (samplesPerPass chunkSize batchSizes batch.length) (Nat.pos_of_ne_zero later)
          dsimp only at nonempty
          omega
        subst first
        dsimp only
        omega

/-- The chunks give the loss of the batch for every loss of its tokens, or not. -/
theorem computeLossChunked_eq_iff (positive : 0 < chunkSize) (isSize : batch.length ∈ batchSizes)
    (someSample : 0 < batch.length) :
    (∀ perTokenLoss, computeLossChunked (fun rows =>
          .ok (normalizeLoss settings batchSizes.length numItemsInBatch rows))
        (batchRows perTokenLoss batch) chunkSize batchSizes =
      .ok (normalizeLoss settings batchSizes.length numItemsInBatch
        (batchRows perTokenLoss batch))) ↔
      ChunksHaveLoss settings numItemsInBatch chunkSize batchSizes batch := by
  have length : ∀ perTokenLoss : ℕ → ℕ → F,
      (batchRows perTokenLoss batch).length = batch.length := by
    intro perTokenLoss
    rw [batchRows, length_lossRows, length_zipIdx]
  have someRow : ∀ perTokenLoss : ℕ → ℕ → F, 0 < (batchRows perTokenLoss batch).length := by
    intro perTokenLoss
    rw [length]
    exact someSample
  have isChunks := maxChunks_eq_passCount positive batchSizes
  have plan := chunkPlan_samplesPerPass positive isSize someSample
  have rowPlan : ∀ perTokenLoss : ℕ → ℕ → F, ChunkPlan (batchRows perTokenLoss batch).length
      chunkSize (passCount chunkSize batchSizes)
      (samplesPerPass chunkSize batchSizes batch.length) := by
    intro perTokenLoss
    rw [length]
    exact plan
  by_cases noLoss : NoLoss settings batchSizes.length numItemsInBatch
  · constructor
    · intro agree
      have someProcess : batchSizes.length ≠ 0 := by
        intro none
        rw [length_eq_zero_iff.mp none] at isSize
        cases isSize
      cases isType : settings.lossType <;> simp_all [ChunksHaveLoss, NoLoss]
    · intro condition perTokenLoss
      rw [computeLossChunked_eq_none settings isChunks (someRow _) (rowPlan _) noLoss,
        normalizeLoss_eq_none settings (length_pos_iff.mp (someRow _)) noLoss]
  · rw [← chunksHaveLoss_iff settings positive isSize someSample noLoss, chunksOf,
      ← weighedLosses_eq_iff settings someSample plan noLoss]
    apply forall_congr'
    intro perTokenLoss
    rw [computeLossChunked_eq settings isChunks (someRow _) (rowPlan _) noLoss,
      normalizeLoss_eq settings (length_pos_iff.mp (someRow _)) noLoss, length,
      Except.ok.injEq, Option.some.injEq]

end Batches

end Geobench.Trainers
