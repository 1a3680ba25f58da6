import Geobench.Dataset.BatchShards

/-!
# The random sampler of Megatron

The data-parallel ranks share the indexes of a dataset. With `data_sharding` each has a bucket of
its own and shuffles it; otherwise each takes every so many indexes of one permutation, or of the
indexes in order. A sampler starts behind the samples that were consumed in its epoch.

A rank yields the batches of the epoch behind those that were consumed (`iter_eq`), and the number
of batches depends on the rank where the indexes are not those of whole global batches
(`length_epochBatches`). **`samplesAgree_iff`** says for which sizes the ranks yield as many.
-/

namespace Geobench.Trainers

open Library Dataset List

/-! ## The sampler -/

/-- What the samplers of all ranks are made with. The constructor rejects other sizes, and grouping
by length without shuffling. -/
structure SamplerArguments where
  totalSamples : ℕ
  microBatchSize : ℕ
  dataParallelSize : ℕ
  dataSharding : Bool
  shuffle : Bool
  groupByLength : Bool
  lengths : List SampleLength
  some_sample : 0 < microBatchSize
  some_rank : 0 < dataParallelSize
  fills : microBatchSize * dataParallelSize ≤ totalSamples
  shuffled : groupByLength = true → shuffle = true
  all_lengths : groupByLength = true → lengths.length = totalSamples

/-- `range(start, stop, step)` -/
def rangeStep (start stop step : ℕ) : List ℕ :=
  (List.range ((stop - start + (step - 1)) / step)).map fun place => start + place * step

namespace SamplerArguments

variable (arguments : SamplerArguments)

/-- `group_by_length` turns `data_sharding` off. -/
def sharding : Bool := arguments.dataSharding && !arguments.groupByLength

def microBatchTimesDataParallelSize : ℕ := arguments.microBatchSize * arguments.dataParallelSize

def lastBatchSize : ℕ := arguments.totalSamples % arguments.microBatchTimesDataParallelSize

def activeTotalSamples : ℕ := arguments.totalSamples - arguments.lastBatchSize

def bucketSize : ℕ :=
  arguments.totalSamples / arguments.microBatchTimesDataParallelSize * arguments.microBatchSize

def fullBucketSize : ℕ :=
  arguments.totalSamples / arguments.microBatchSize * arguments.microBatchSize

end SamplerArguments

structure MegatronPretrainingRandomSampler where
  arguments : SamplerArguments
  dataParallelRank : ℕ
  consumedSamples : ℕ

namespace MegatronPretrainingRandomSampler

variable (sampler : MegatronPretrainingRandomSampler) (permutations : Permutations)

/-- The indexes of a rank behind so many samples of an epoch. -/
def idxRange (epoch currentEpochSamples : ℕ) : Except SamplerError (List ℕ) :=
  let arguments := sampler.arguments
  if arguments.shuffle = true then
    if arguments.sharding = true then
      let bucketOffset := currentEpochSamples / arguments.dataParallelSize
      let startIdx := sampler.dataParallelRank * arguments.bucketSize
      let randomIdx := permutations.randperm arguments.bucketSize epoch
      .ok ((randomIdx.drop bucketOffset).map fun x => startIdx + x)
    else
      let idxRangeTotal :=
        if arguments.groupByLength = true then
          permutations.getLengthGroupedIndices (arguments.lengths.map SampleLength.value)
            arguments.microBatchTimesDataParallelSize epoch
        else .ok (permutations.randperm arguments.fullBucketSize epoch)
      idxRangeTotal.map fun idxRangeTotal =>
        stride sampler.dataParallelRank arguments.dataParallelSize
          (idxRangeTotal.drop currentEpochSamples)
  else
    .ok (rangeStep (currentEpochSamples + sampler.dataParallelRank) arguments.fullBucketSize
      arguments.dataParallelSize)

/-- The batches that `__iter__` yields, and the sampler behind them. Nothing is yielded where the
consumed samples are no whole global batches. -/
def iter : Option (List (List ℕ) × MegatronPretrainingRandomSampler) :=
  let arguments := sampler.arguments
  let epoch := sampler.consumedSamples / arguments.activeTotalSamples
  let currentEpochSamples := sampler.consumedSamples % arguments.activeTotalSamples
  if currentEpochSamples % arguments.microBatchTimesDataParallelSize = 0 then
    match sampler.idxRange permutations epoch currentEpochSamples with
    | .ok idxRange =>
      let batches := takeBatches arguments.microBatchSize true [] idxRange
      some (batches, { sampler with
        consumedSamples := sampler.consumedSamples +
          batches.length * arguments.microBatchTimesDataParallelSize })
    | .error _ => none
  else none

/-- The batches of so many passes, one after the other. -/
def passes (sampler : MegatronPretrainingRandomSampler) : ℕ → Option (List (List ℕ))
  | 0 => some []
  | count + 1 => do
      let (batches, sampler) ← sampler.iter permutations
      let rest ← sampler.passes count
      some (batches ++ rest)

end MegatronPretrainingRandomSampler

/-! ## What the ranks have in common -/

section Samples

variable (permutations : Permutations) (arguments : SamplerArguments)

/-- The batches of the ranks that start behind the same samples: they are as many, all are of the
micro batch size, and no sample is in two of them. A sampler yields what one without the restart
yields behind these samples, over any number of passes. -/
structure RanksAgree (consumed : ℕ) (batches : ℕ → List (List ℕ)) : Prop where
  yields : ∀ rank < arguments.dataParallelSize, ∃ after,
    MegatronPretrainingRandomSampler.iter ⟨arguments, rank, consumed⟩ permutations =
      some (batches rank, after)
  asMany : ∀ rank < arguments.dataParallelSize, ∀ other < arguments.dataParallelSize,
    (batches rank).length = (batches other).length
  sized : ∀ rank < arguments.dataParallelSize, ∀ batch ∈ batches rank,
    batch.length = arguments.microBatchSize
  once : ((List.range arguments.dataParallelSize).flatMap fun rank =>
    (batches rank).flatten).Nodup
  resumes : ∀ rank < arguments.dataParallelSize, ∀ count, ∃ uninterrupted,
    MegatronPretrainingRandomSampler.passes permutations ⟨arguments, rank, 0⟩
        (consumed / arguments.activeTotalSamples + count) = some uninterrupted ∧
      MegatronPretrainingRandomSampler.passes permutations ⟨arguments, rank, consumed⟩ count =
        some (uninterrupted.drop (consumed / arguments.microBatchTimesDataParallelSize))

/-- This holds wherever the samplers start behind whole global batches. -/
def SamplesAgree : Prop :=
  ∀ consumed, arguments.microBatchTimesDataParallelSize ∣ consumed →
    ∃ batches, RanksAgree permutations arguments consumed batches

/-- The samples that are over when the indexes are put into global batches. -/
def remainder : ℕ :=
  if arguments.groupByLength = true then
    arguments.totalSamples % arguments.microBatchTimesDataParallelSize
  else arguments.microBatchSize *
    (arguments.totalSamples / arguments.microBatchSize % arguments.dataParallelSize)

/-- The samples that are over do not fill a batch of the first rank. -/
def RemainderShared : Prop :=
  (arguments.shuffle = true ∧ arguments.sharding = true) ∨
    remainder arguments ≤ (arguments.microBatchSize - 1) * arguments.dataParallelSize

end Samples

/-! ## Whole batches -/

section Batches

variable {size : ℕ}

variable {batch rest : List ℕ}

theorem takeBatches_of_short (short : batch.length + rest.length < size) :
    takeBatches size true batch rest = [] := by
  have notFull : batch.length < size := by omega
  have none := length_takeBatches_dropLast notFull rest
  rw [Nat.div_eq_of_lt short] at none
  exact length_eq_zero_iff.mp none

/-- The first batch has as many of the indexes as it lacks. -/
theorem takeBatches_of_enough (notFull : batch.length < size)
    (enough : size ≤ batch.length + rest.length) :
    takeBatches size true batch rest = (batch ++ rest.take (size - batch.length)) ::
      takeBatches size true [] (rest.drop (size - batch.length)) := by
  induction rest generalizing batch with
  | nil =>
    rw [length_nil] at enough
    omega
  | cons idx rest inductionHypothesis =>
    have next : (batch ++ [idx]).length = batch.length + 1 := length_append
    rw [takeBatches]
    by_cases full : (batch ++ [idx]).length = size
    · have one : size - batch.length = 1 := by omega
      simp [full, one]
    · rw [if_neg full, inductionHypothesis (by omega) (by rw [length_cons] at enough; omega), next]
      have lacks : size - batch.length = size - (batch.length + 1) + 1 := by omega
      simp [lacks]

theorem takeBatches_cons (positive : 0 < size) {items : List ℕ} (enough : size ≤ items.length) :
    takeBatches size true [] items =
      items.take size :: takeBatches size true [] (items.drop size) := by
  have begun : ([] : List ℕ).length < size := positive
  simpa using takeBatches_of_enough begun (by simpa using enough)

theorem takeBatches_drop (positive : 0 < size) (items : List ℕ) (count : ℕ) :
    takeBatches size true [] (items.drop (size * count)) =
      (takeBatches size true [] items).drop count := by
  induction count generalizing items with
  | zero => simp
  | succ count inductionHypothesis =>
    by_cases enough : size ≤ items.length
    · rw [takeBatches_cons positive enough, drop_succ_cons, ← inductionHypothesis,
        drop_drop, Nat.mul_succ, Nat.add_comm]
    · have short : items.length < size := by omega
      have dropped : items.drop (size * (count + 1)) = [] := by
        refine drop_eq_nil_of_le (short.le.trans ?_)
        exact Nat.le_mul_of_pos_right size (Nat.succ_pos count)
      have noBatch : takeBatches size true [] items = [] :=
        takeBatches_of_short (by simpa using short)
      rw [dropped, noBatch, drop_nil]
      exact takeBatches_of_short (by simpa using positive)

theorem length_of_mem_takeBatches {other : List ℕ}
    (isBatch : other ∈ takeBatches size true batch rest) : other.length = size := by
  induction rest generalizing batch with
  | nil => simp [takeBatches] at isBatch
  | cons idx rest inductionHypothesis =>
    rw [takeBatches] at isBatch
    split at isBatch
    · rename_i full
      rcases mem_cons.mp isBatch with rfl | later
      · exact full
      · exact inductionHypothesis later
    · exact inductionHypothesis isBatch

end Batches

theorem rangeStep_eq_stride {step : ℕ} (positive : 0 < step) (offset rank count : ℕ) :
    rangeStep (offset + rank) count step = stride rank step ((range count).drop offset) := by
  refine ext_getElem? fun index => ?_
  rw [getElem?_stride positive, getElem?_drop, rangeStep, getElem?_map]
  by_cases inside : index < (count - (offset + rank) + (step - 1)) / step
  · have within : offset + (rank + index * step) < count := by
      rw [Nat.lt_div_iff_mul_lt positive] at inside
      omega
    simp [inside, within, Nat.add_assoc]
  · have beyond : count ≤ offset + (rank + index * step) := by
      rw [Nat.lt_div_iff_mul_lt positive] at inside
      omega
    simp [inside, beyond]

/-! ## The indexes of an epoch -/

namespace SamplerArguments

variable (arguments : SamplerArguments) (permutations : Permutations)

/-- How many batches every rank has of whole global batches. -/
def globalBatches : ℕ := arguments.totalSamples / arguments.microBatchTimesDataParallelSize

theorem globalBatch_pos : 0 < arguments.microBatchTimesDataParallelSize :=
  Nat.mul_pos arguments.some_sample arguments.some_rank

theorem globalBatches_pos : 0 < arguments.globalBatches :=
  Nat.div_pos arguments.fills arguments.globalBatch_pos

theorem activeTotalSamples_eq : arguments.activeTotalSamples =
    arguments.microBatchTimesDataParallelSize * arguments.globalBatches := by
  have parts := Nat.div_add_mod arguments.totalSamples arguments.microBatchTimesDataParallelSize
  rw [activeTotalSamples, lastBatchSize, globalBatches]
  omega

/-- How many indexes the ranks share. -/
def sharedSamples : ℕ :=
  if arguments.groupByLength = true then arguments.totalSamples else arguments.fullBucketSize

theorem sharedSamples_div : arguments.sharedSamples / arguments.microBatchTimesDataParallelSize =
    arguments.globalBatches := by
  rw [sharedSamples, globalBatches]
  split
  · rfl
  · rw [fullBucketSize, microBatchTimesDataParallelSize, Nat.mul_comm,
      Nat.mul_div_mul_left _ _ arguments.some_sample, Nat.div_div_eq_div_mul]

theorem sharedSamples_mod : arguments.sharedSamples % arguments.microBatchTimesDataParallelSize =
    remainder arguments := by
  rw [sharedSamples, remainder]
  split
  · rfl
  · rw [fullBucketSize, microBatchTimesDataParallelSize, Nat.mul_comm, Nat.mul_mod_mul_left]

/-- Without buckets of their own, the ranks share one list of indexes. -/
theorem exists_shared (notSharded : ¬(arguments.shuffle = true ∧ arguments.sharding = true))
    (epoch : ℕ) :
    ∃ total : List ℕ, total.Perm (range arguments.sharedSamples) ∧
      ∀ rank consumed current, MegatronPretrainingRandomSampler.idxRange
        ⟨arguments, rank, consumed⟩ permutations epoch current =
          .ok (stride rank arguments.dataParallelSize (total.drop current)) := by
  by_cases shuffled : arguments.shuffle = true
  · have whole : arguments.sharding = false := by simpa [shuffled] using notSharded
    by_cases grouped : arguments.groupByLength = true
    · have count : (arguments.lengths.map SampleLength.value).length = arguments.totalSamples := by
        rw [length_map, arguments.all_lengths grouped]
      have someLength : arguments.lengths.map SampleLength.value ≠ [] := by
        intro none
        rw [none, length_nil] at count
        have fills := arguments.fills.trans_eq count.symm
        exact absurd arguments.globalBatch_pos (Nat.not_lt.mpr fills)
      obtain ⟨total, isTotal, perm⟩ := permutations.grouped_perm _ _ epoch someLength
        arguments.globalBatch_pos
      rw [count] at perm
      refine ⟨total, by rwa [sharedSamples, if_pos grouped], fun rank consumed current => ?_⟩
      simp [MegatronPretrainingRandomSampler.idxRange, shuffled, whole, grouped, isTotal,
        Except.map]
    · refine ⟨permutations.randperm arguments.fullBucketSize epoch, ?_,
        fun rank consumed current => ?_⟩
      · rw [sharedSamples, if_neg grouped]
        exact permutations.randperm_perm _ _
      · simp [MegatronPretrainingRandomSampler.idxRange, shuffled, whole, grouped, Except.map]
  · have notGrouped : ¬arguments.groupByLength = true :=
      fun grouped => shuffled (arguments.shuffled grouped)
    refine ⟨range arguments.fullBucketSize, ?_, fun rank consumed current => ?_⟩
    · rw [sharedSamples, if_neg notGrouped]
    · simp [MegatronPretrainingRandomSampler.idxRange, shuffled,
        rangeStep_eq_stride arguments.some_rank]

/-- The indexes of a rank behind whole global batches of an epoch. -/
theorem exists_idxRange (epoch rank : ℕ) :
    ∃ indexes : List ℕ, ∀ consumed count,
      MegatronPretrainingRandomSampler.idxRange ⟨arguments, rank, consumed⟩ permutations epoch
        (arguments.microBatchTimesDataParallelSize * count) =
          .ok (indexes.drop (arguments.microBatchSize * count)) := by
  by_cases sharded : arguments.shuffle = true ∧ arguments.sharding = true
  · refine ⟨(permutations.randperm arguments.bucketSize epoch).map
      fun x => rank * arguments.bucketSize + x, fun consumed count => ?_⟩
    have offset : arguments.microBatchTimesDataParallelSize * count / arguments.dataParallelSize =
        arguments.microBatchSize * count := by
      rw [microBatchTimesDataParallelSize, Nat.mul_assoc, Nat.mul_left_comm,
        Nat.mul_div_cancel_left _ arguments.some_rank]
    simp [MegatronPretrainingRandomSampler.idxRange, sharded, offset, map_drop]
  · obtain ⟨total, -, isRange⟩ := arguments.exists_shared permutations sharded epoch
    refine ⟨stride rank arguments.dataParallelSize total, fun consumed count => ?_⟩
    have steps : arguments.microBatchTimesDataParallelSize * count =
        arguments.dataParallelSize * (arguments.microBatchSize * count) := by
      rw [microBatchTimesDataParallelSize, Nat.mul_comm arguments.microBatchSize, Nat.mul_assoc]
    rw [isRange, steps, stride_drop arguments.some_rank]

def epochIndexes (epoch rank : ℕ) : List ℕ :=
  match MegatronPretrainingRandomSampler.idxRange ⟨arguments, rank, 0⟩ permutations epoch 0 with
  | .ok indexes => indexes
  | .error _ => []

def epochBatches (epoch rank : ℕ) : List (List ℕ) :=
  takeBatches arguments.microBatchSize true [] (arguments.epochIndexes permutations epoch rank)

theorem idxRange_eq (epoch rank consumed count : ℕ) :
    MegatronPretrainingRandomSampler.idxRange ⟨arguments, rank, consumed⟩ permutations epoch
      (arguments.microBatchTimesDataParallelSize * count) =
        .ok ((arguments.epochIndexes permutations epoch rank).drop
          (arguments.microBatchSize * count)) := by
  obtain ⟨indexes, isRange⟩ := arguments.exists_idxRange permutations epoch rank
  have atStart : arguments.epochIndexes permutations epoch rank = indexes := by
    have first := isRange 0 0
    rw [Nat.mul_zero, Nat.mul_zero, drop_zero] at first
    rw [epochIndexes, first]
  rw [atStart]
  exact isRange consumed count

/-! ## One pass and many -/

/-- A rank yields the batches of the epoch behind the consumed samples. -/
theorem iter_eq (rank count : ℕ) :
    MegatronPretrainingRandomSampler.iter
        ⟨arguments, rank, arguments.microBatchTimesDataParallelSize * count⟩ permutations =
      some ((arguments.epochBatches permutations (count / arguments.globalBatches) rank).drop
          (count % arguments.globalBatches),
        ⟨arguments, rank, arguments.microBatchTimesDataParallelSize *
          (count + ((arguments.epochBatches permutations (count / arguments.globalBatches)
            rank).length - count % arguments.globalBatches))⟩) := by
  have epoch : arguments.microBatchTimesDataParallelSize * count / arguments.activeTotalSamples =
      count / arguments.globalBatches := by
    rw [activeTotalSamples_eq, Nat.mul_div_mul_left _ _ arguments.globalBatch_pos]
  have current : arguments.microBatchTimesDataParallelSize * count % arguments.activeTotalSamples =
      arguments.microBatchTimesDataParallelSize * (count % arguments.globalBatches) := by
    rw [activeTotalSamples_eq, Nat.mul_mod_mul_left]
  rw [MegatronPretrainingRandomSampler.iter]
  simp only [epoch, current, Nat.mul_mod_right, if_true, idxRange_eq,
    takeBatches_drop arguments.some_sample]
  rw [epochBatches, length_drop, Nat.mul_add, Nat.mul_comm (_ - _)]

variable {permutations}

variable {rank : ℕ}

/-- Where a rank has the same number of batches in every epoch, a pass behind the batches of some
epochs goes on with the next ones. -/
theorem passes_eq
    (uniform : ∀ epoch, (arguments.epochBatches permutations epoch rank).length =
      arguments.globalBatches) (count passed : ℕ) :
    MegatronPretrainingRandomSampler.passes permutations
        ⟨arguments, rank, arguments.microBatchTimesDataParallelSize * passed⟩ count =
      some (((range count).flatMap fun next => arguments.epochBatches permutations
        (passed / arguments.globalBatches + next) rank).drop
          (passed % arguments.globalBatches)) := by
  induction count generalizing passed with
  | zero => simp [MegatronPretrainingRandomSampler.passes]
  | succ count inductionHypothesis =>
    have inside := Nat.mod_lt passed arguments.globalBatches_pos
    have behind : passed + (arguments.globalBatches - passed % arguments.globalBatches) =
        arguments.globalBatches * (passed / arguments.globalBatches + 1) := by
      have parts := Nat.div_add_mod passed arguments.globalBatches
      rw [Nat.mul_succ]
      omega
    rw [MegatronPretrainingRandomSampler.passes, iter_eq]
    simp only [Option.bind_eq_bind, Option.bind_some, uniform, behind, inductionHypothesis,
      Nat.mul_mod_right, Nat.mul_div_cancel_left _ arguments.globalBatches_pos, drop_zero]
    rw [range_succ_eq_map, flatMap_cons, flatMap_map,
      drop_append_of_le_length (by simpa [uniform] using inside.le)]
    simp [Nat.add_assoc, Nat.add_comm 1]

/-- Dropping some parts of the same size, and some of the next one. -/
theorem drop_flatMap_range {α : Type} {f : ℕ → List α} {size : ℕ}
    (uniform : ∀ item, (f item).length = size) (first count more : ℕ) :
    ((range (first + count)).flatMap f).drop (first * size + more) =
      ((range count).flatMap fun next => f (first + next)).drop more := by
  rw [← drop_drop, drop_flatMap_uniform uniform, range_add, drop_left' (by simp), flatMap_map]

/-- A sampler that starts behind some batches yields what follows them. -/
theorem resumes_of_uniform
    (uniform : ∀ epoch, (arguments.epochBatches permutations epoch rank).length =
      arguments.globalBatches) (passed count : ℕ) :
    ∃ uninterrupted,
      MegatronPretrainingRandomSampler.passes permutations ⟨arguments, rank, 0⟩
          (passed / arguments.globalBatches + count) = some uninterrupted ∧
        MegatronPretrainingRandomSampler.passes permutations
            ⟨arguments, rank, arguments.microBatchTimesDataParallelSize * passed⟩ count =
          some (uninterrupted.drop passed) := by
  have start := arguments.passes_eq uniform (passed / arguments.globalBatches + count) 0
  simp only [Nat.mul_zero, Nat.zero_div, Nat.zero_add, Nat.zero_mod, drop_zero] at start
  refine ⟨_, start, ?_⟩
  rw [arguments.passes_eq uniform count passed]
  have dropped : passed / arguments.globalBatches * arguments.globalBatches +
      passed % arguments.globalBatches = passed := Nat.div_add_mod' _ _
  have later := drop_flatMap_range uniform (passed / arguments.globalBatches) count
    (passed % arguments.globalBatches)
  rw [dropped] at later
  rw [later]

/-! ## How many batches -/

/-- How many whole batches a rank has of the indexes that the ranks share. -/
theorem stride_batches {size ranks : ℕ} (someSample : 0 < size) (inside : rank < ranks)
    (count : ℕ) :
    (count / ranks + if rank < count % ranks then 1 else 0) / size =
      count / (size * ranks) +
        if (size - 1) * ranks + rank < count % (size * ranks) then 1 else 0 := by
  have someRank : 0 < ranks := Nat.zero_lt_of_lt inside
  have globalPos : 0 < size * ranks := Nat.mul_pos someSample someRank
  have whole := Nat.div_add_mod count (size * ranks)
  have small := Nat.mod_lt count globalPos
  generalize count / (size * ranks) = quotient at whole ⊢
  generalize count % (size * ranks) = remaining at whole small ⊢
  have shares : count / ranks = size * quotient + remaining / ranks := by
    rw [← whole, Nat.mul_comm size ranks, Nat.mul_assoc, Nat.mul_add_div someRank]
  have left : count % ranks = remaining % ranks := by
    rw [← whole, Nat.mul_comm size ranks, Nat.mul_assoc, Nat.mul_add_mod]
  have few : remaining / ranks < size := by
    rw [Nat.div_lt_iff_lt_mul someRank]
    exact small
  have parts := Nat.div_add_mod remaining ranks
  rw [shares, left, Nat.add_assoc, Nat.mul_add_div someSample]
  congr 1
  by_cases last : remaining / ranks = size - 1
  · have begin' : remaining = (size - 1) * ranks + remaining % ranks := by
      rw [Nat.mul_comm, ← last]
      exact parts.symm
    by_cases extra : rank < remaining % ranks
    · have full : size - 1 + 1 = size := by omega
      rw [if_pos extra, if_pos (by omega), last, full, Nat.div_self someSample]
    · rw [if_neg extra, if_neg (by omega), last, Nat.div_eq_of_lt (by omega)]
  · have fewer : remaining / ranks + 1 < size := by omega
    have short : remaining < (size - 1) * ranks := by
      rw [← Nat.div_lt_iff_lt_mul someRank]
      omega
    have notExtra : ¬(size - 1) * ranks + rank < remaining := by omega
    rw [if_neg notExtra]
    refine Nat.div_eq_of_lt ?_
    split <;> omega

variable (permutations)

theorem length_epochBatches (notSharded : ¬(arguments.shuffle = true ∧ arguments.sharding = true))
    (inside : rank < arguments.dataParallelSize) (epoch : ℕ) :
    (arguments.epochBatches permutations epoch rank).length = arguments.globalBatches +
      if (arguments.microBatchSize - 1) * arguments.dataParallelSize + rank < remainder arguments
        then 1 else 0 := by
  obtain ⟨total, perm, isRange⟩ := arguments.exists_shared permutations notSharded epoch
  have begun : ([] : List ℕ).length < arguments.microBatchSize := arguments.some_sample
  have indexes : arguments.epochIndexes permutations epoch rank =
      stride rank arguments.dataParallelSize total := by
    rw [epochIndexes, isRange, drop_zero]
  have count : total.length = arguments.sharedSamples := by
    rw [perm.length_eq, length_range]
  rw [epochBatches, length_takeBatches_dropLast begun, indexes, length_stride_rank inside, count,
    length_nil, Nat.zero_add, stride_batches arguments.some_sample inside]
  rw [← sharedSamples_div, ← sharedSamples_mod, microBatchTimesDataParallelSize]

/-- Buckets of their own are of whole batches. -/
theorem length_epochBatches_sharded
    (sharded : arguments.shuffle = true ∧ arguments.sharding = true) (epoch rank : ℕ) :
    (arguments.epochBatches permutations epoch rank).length = arguments.globalBatches := by
  have begun : ([] : List ℕ).length < arguments.microBatchSize := arguments.some_sample
  rw [epochBatches, length_takeBatches_dropLast begun, epochIndexes]
  simp [MegatronPretrainingRandomSampler.idxRange, sharded, (permutations.randperm_perm _ _).length_eq,
    bucketSize, globalBatches, Nat.mul_div_cancel _ arguments.some_sample]

/-- Where the samples that are over are shared, every rank has the same number of batches. -/
theorem length_epochBatches_of_shared (shared : RemainderShared arguments)
    (inside : rank < arguments.dataParallelSize) (epoch : ℕ) :
    (arguments.epochBatches permutations epoch rank).length = arguments.globalBatches := by
  by_cases sharded : arguments.shuffle = true ∧ arguments.sharding = true
  · exact arguments.length_epochBatches_sharded permutations sharded epoch rank
  · have fits := shared.resolve_left sharded
    rw [arguments.length_epochBatches permutations sharded inside, if_neg (by omega), Nat.add_zero]

/-- The remainder is less than a global batch. -/
theorem remainder_lt : remainder arguments <
    (arguments.microBatchSize - 1) * arguments.dataParallelSize + arguments.dataParallelSize := by
  have small := Nat.mod_lt arguments.sharedSamples arguments.globalBatch_pos
  rw [sharedSamples_mod, microBatchTimesDataParallelSize] at small
  have whole : arguments.microBatchSize - 1 + 1 = arguments.microBatchSize := by
    have positive := arguments.some_sample
    omega
  rwa [← Nat.succ_mul, Nat.succ_eq_add_one, whole]

/-! ## No sample twice -/

theorem nodup_epochBatches (epoch : ℕ) :
    ((range arguments.dataParallelSize).flatMap fun rank =>
      (arguments.epochBatches permutations epoch rank).flatten).Nodup := by
  by_cases sharded : arguments.shuffle = true ∧ arguments.sharding = true
  · have indexes : ∀ rank, arguments.epochIndexes permutations epoch rank =
        (permutations.randperm arguments.bucketSize epoch).map
          fun x => rank * arguments.bucketSize + x := by
      intro rank
      simp [epochIndexes, MegatronPretrainingRandomSampler.idxRange, sharded]
    have perm := permutations.randperm_perm arguments.bucketSize epoch
    have buckets : ((range arguments.dataParallelSize).flatMap fun rank =>
        arguments.epochIndexes permutations epoch rank).Nodup := by
      simp only [indexes]
      rw [nodup_flatMap]
      constructor
      · intro rank _
        refine (perm.nodup_iff.mpr nodup_range).map fun first second same => ?_
        exact Nat.add_left_cancel same
      · refine List.Pairwise.imp_of_mem (fun {rank other} _ _ different => ?_) nodup_range
        refine disjoint_left.mpr ?_
        intro index inFirst inSecond
        obtain ⟨x, isX, rfl⟩ := mem_map.mp inFirst
        obtain ⟨y, isY, same⟩ := mem_map.mp inSecond
        have xSmall := mem_range.mp (perm.mem_iff.mp isX)
        have ySmall := mem_range.mp (perm.mem_iff.mp isY)
        have sameRank := congrArg (· / arguments.bucketSize) same
        simp only [Nat.mul_comm _ arguments.bucketSize, Nat.mul_add_div (Nat.zero_lt_of_lt xSmall),
          Nat.div_eq_of_lt xSmall, Nat.div_eq_of_lt ySmall, Nat.add_zero] at sameRank
        exact different sameRank.symm
    refine List.Nodup.sublist ?_ buckets
    apply List.Sublist.flatMap_right
    intro rank _
    exact (takeBatches_in_order [] _).sublist
  · obtain ⟨total, perm, isRange⟩ := arguments.exists_shared permutations sharded epoch
    have nodup := nodup_shards (perm.nodup_iff.mpr nodup_range) arguments.microBatchSize true
      arguments.dataParallelSize
    simpa [epochBatches, epochIndexes, isRange] using nodup

end SamplerArguments

/-! ## All ranks -/

section Ranks

variable (permutations : Permutations) (arguments : SamplerArguments)

theorem ranksAgree_of_shared (shared : RemainderShared arguments) (passed : ℕ) :
    RanksAgree permutations arguments (arguments.microBatchTimesDataParallelSize * passed)
      fun rank => (arguments.epochBatches permutations (passed / arguments.globalBatches)
        rank).drop (passed % arguments.globalBatches) := by
  have uniform : ∀ rank < arguments.dataParallelSize, ∀ epoch,
      (arguments.epochBatches permutations epoch rank).length = arguments.globalBatches :=
    fun rank inside epoch => arguments.length_epochBatches_of_shared permutations shared inside epoch
  have epoch : arguments.microBatchTimesDataParallelSize * passed / arguments.activeTotalSamples =
      passed / arguments.globalBatches := by
    rw [arguments.activeTotalSamples_eq, Nat.mul_div_mul_left _ _ arguments.globalBatch_pos]
  constructor
  · intro rank _
    exact ⟨_, arguments.iter_eq permutations rank passed⟩
  · intro rank inside other alsoInside
    simp only [length_drop, uniform rank inside, uniform other alsoInside]
  · intro rank _ batch isBatch
    exact length_of_mem_takeBatches (mem_of_mem_drop isBatch)
  · refine List.Nodup.sublist ?_
      (arguments.nodup_epochBatches permutations (passed / arguments.globalBatches))
    apply List.Sublist.flatMap_right
    intro rank _
    exact (drop_sublist _ _).flatten
  · intro rank inside count
    rw [epoch, Nat.mul_div_cancel_left _ arguments.globalBatch_pos]
    exact arguments.resumes_of_uniform (uniform rank inside) passed count

/-- **The samplers of all ranks agree, and go on where they were, exactly where each rank shuffles
a bucket of its own, or the samples that are over do not fill a batch of the first rank.** -/
theorem samplesAgree_iff :
    SamplesAgree permutations arguments ↔ RemainderShared arguments := by
  constructor
  · intro agree
    by_cases sharded : arguments.shuffle = true ∧ arguments.sharding = true
    · exact .inl sharded
    · obtain ⟨batches, ranks⟩ := agree 0 (Nat.dvd_zero _)
      have first : ∀ rank < arguments.dataParallelSize,
          batches rank = arguments.epochBatches permutations 0 rank := by
        intro rank inside
        obtain ⟨after, yields⟩ := ranks.yields rank inside
        have start := arguments.iter_eq permutations rank 0
        rw [Nat.mul_zero, yields] at start
        simpa using congrArg Prod.fst (Option.some.inj start)
      have last : arguments.dataParallelSize - 1 < arguments.dataParallelSize :=
        Nat.sub_lt arguments.some_rank Nat.one_pos
      have same := ranks.asMany 0 arguments.some_rank _ last
      rw [first 0 arguments.some_rank, first _ last,
        arguments.length_epochBatches permutations sharded arguments.some_rank,
        arguments.length_epochBatches permutations sharded last] at same
      have small := arguments.remainder_lt
      refine .inr (Nat.le_of_not_lt fun overfull => ?_)
      rw [if_pos (by omega), if_neg (by omega)] at same
      omega
  · rintro shared consumed ⟨passed, rfl⟩
    exact ⟨_, ranksAgree_of_shared permutations arguments shared passed⟩

end Ranks

/-- Three samples for two ranks, one sample a batch. -/
def threeSamples : SamplerArguments where
  totalSamples := 3
  microBatchSize := 1
  dataParallelSize := 2
  dataSharding := false
  shuffle := true
  groupByLength := false
  lengths := []
  some_sample := Nat.one_pos
  some_rank := Nat.two_pos
  fills := by decide
  shuffled := by decide
  all_lengths := by decide

theorem not_samplesAgree_threeSamples : ¬ SamplesAgree permutationsInOrder threeSamples := by
  rw [samplesAgree_iff]
  rintro (⟨_, sharded⟩ | fits)
  · revert sharded
    decide
  · revert fits
    decide

end Geobench.Trainers
