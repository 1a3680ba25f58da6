import Geobench.Library.ListSlices
import Mathlib.Data.List.Flatten

/-!
# Batches of the ranks of a world

Every rank takes one index out of as many as there are ranks, from a permutation of the
indexes or from the indexes in order, and puts its indexes into batches. No index is in two
batches of an epoch, whatever the permutation is (`nodup_shards`). How many batches a rank
has depends on the permutation: the number of samples that a batch sampler counts is a
multiple of the number of ranks, and indexes grouped by length are those of all samples.

**`shards_agree_iff`** says when every rank has as many batches as the sampler counts.
-/

namespace Geobench.Dataset

open Library List

/-! ## The sampler -/

inductive SampleLength where
  | single (length : ℕ)
  | parts (first : ℕ) (rest : List ℕ)
  deriving DecidableEq, Repr

/-- The longest part of a sample. -/
def SampleLength.value : SampleLength → ℕ
  | .single length => length
  | .parts first rest => rest.foldl max first

inductive SamplerError where
  | indexError
  | zeroDivisionError
  deriving DecidableEq, Repr

/-- A batch sampler. Indexes are grouped by length only when they are shuffled, by the
lengths of all samples. -/
structure BatchSamplerShard where
  numSamples : ℕ
  worldSize : ℕ
  batchSize : ℕ
  shuffle : Bool
  dropLast : Bool
  baseSeed : ℕ
  groupByLength : Bool
  lengths : List SampleLength
  some_rank : 0 < worldSize
  shuffled : groupByLength = true → shuffle = true
  all_lengths : groupByLength = true → lengths.length = numSamples

/-- Permutations of indexes from a seed. Those grouped by length do not exist for no index. -/
structure Permutations where
  randperm : ℕ → ℕ → List ℕ
  getLengthGroupedIndices : List ℕ → ℕ → ℕ → Except SamplerError (List ℕ)
  randperm_perm : ∀ count seed, (randperm count seed).Perm (List.range count)
  grouped_perm : ∀ lengths batchSize seed, lengths ≠ [] → 0 < batchSize →
    ∃ indices, getLengthGroupedIndices lengths batchSize seed = .ok indices ∧
      indices.Perm (List.range lengths.length)
  grouped_empty : ∀ batchSize seed, 0 < batchSize →
    getLengthGroupedIndices [] batchSize seed = .error .indexError

/-- Indexes put into batches, behind those of the batch that is not complete yet. -/
def takeBatches (batchSize : ℕ) (dropLast : Bool) : List ℕ → List ℕ → List (List ℕ)
  | batch, [] => if dropLast = false ∧ 0 < batch.length then [batch] else []
  | batch, idx :: rest =>
    let batch := batch ++ [idx]
    if batch.length = batchSize then batch :: takeBatches batchSize dropLast [] rest
    else takeBatches batchSize dropLast batch rest

namespace BatchSamplerShard

variable (sampler : BatchSamplerShard)

def totalSamples : ℕ := sampler.numSamples / sampler.worldSize

/-- The indexes that the ranks share in an epoch. -/
def sharedIdx (permutations : Permutations) (epoch : ℕ) : Except SamplerError (List ℕ) :=
  let currSeed := sampler.baseSeed + epoch
  if sampler.shuffle = true then
    if sampler.groupByLength = true then
      permutations.getLengthGroupedIndices (sampler.lengths.map SampleLength.value)
        (sampler.batchSize * sampler.worldSize) currSeed
    else .ok (permutations.randperm (sampler.totalSamples * sampler.worldSize) currSeed)
  else .ok (List.range (sampler.totalSamples * sampler.worldSize))

def iter (permutations : Permutations) (epoch rank : ℕ) :
    Except SamplerError (List (List ℕ)) := do
  let totalIdx ← sampler.sharedIdx permutations epoch
  .ok (takeBatches sampler.batchSize sampler.dropLast [] (stride rank sampler.worldSize totalIdx))

/-- How many batches a rank is said to have. -/
def len : Except SamplerError ℕ :=
  if sampler.batchSize = 0 then .error .zeroDivisionError
  else if sampler.dropLast = true then .ok (sampler.totalSamples / sampler.batchSize)
  else .ok ((sampler.totalSamples + sampler.batchSize - 1) / sampler.batchSize)

end BatchSamplerShard

/-- The batches of the ranks in an epoch: every rank has as many as the sampler counts,
those of a round have no index in common, and no index is in two batches. -/
structure ShardsAgree (sampler : BatchSamplerShard) (permutations : Permutations)
    (epoch : ℕ) (shards : ℕ → List (List ℕ)) : Prop where
  iterated : ∀ rank < sampler.worldSize, sampler.iter permutations epoch rank = .ok (shards rank)
  counted : ∀ rank < sampler.worldSize, sampler.len = .ok (shards rank).length
  rounds_disjoint : ∀ rank < sampler.worldSize, ∀ other < sampler.worldSize, rank ≠ other →
    ∀ (round : ℕ) (batch batch' : List ℕ), (shards rank)[round]? = some batch →
      (shards other)[round]? = some batch' → batch.Disjoint batch'
  once : ((List.range sampler.worldSize).flatMap fun rank => (shards rank).flatten).Nodup

/-- When grouping by length leaves every rank with its number of batches: no sample is
over when they are shared out, or no batch is begun with the one that is. -/
def RemainderFits (sampler : BatchSamplerShard) : Prop :=
  sampler.worldSize ∣ sampler.numSamples ∨
    if sampler.dropLast = true then ¬sampler.batchSize ∣ sampler.totalSamples + 1
    else ¬sampler.batchSize ∣ sampler.totalSamples

/-! ## Batches of indexes -/

section Batches

variable {batchSize : ℕ} {dropLast : Bool}

/-- The batches are the indexes in their order, up to some that are dropped at the end. -/
theorem takeBatches_in_order (batch rest : List ℕ) :
    (takeBatches batchSize dropLast batch rest).flatten <+: batch ++ rest := by
  induction rest generalizing batch with
  | nil =>
    rw [takeBatches]
    split <;> simp
  | cons idx rest ih =>
    rw [takeBatches]
    split
    · obtain ⟨dropped, isRest⟩ := ih []
      rw [nil_append] at isRest
      refine ⟨dropped, ?_⟩
      rw [flatten_cons, append_assoc, isRest, append_assoc]
      rfl
    · have shifted := ih (batch ++ [idx])
      rw [append_assoc] at shifted
      exact shifted

theorem length_takeBatches_dropLast {batch : List ℕ} (notFull : batch.length < batchSize)
    (rest : List ℕ) :
    (takeBatches batchSize true batch rest).length = (batch.length + rest.length) / batchSize := by
  induction rest generalizing batch with
  | nil => simp [takeBatches, Nat.div_eq_of_lt notFull]
  | cons idx rest ih =>
    have next : (batch ++ [idx]).length = batch.length + 1 := length_append
    rw [takeBatches, length_cons]
    by_cases full : (batch ++ [idx]).length = batchSize
    · have positive : 0 < batchSize := Nat.zero_lt_of_lt notFull
      have begun : ([] : List ℕ).length < batchSize := positive
      rw [if_pos full, length_cons, ih begun, length_nil, Nat.zero_add,
        ← Nat.add_div_right _ positive]
      congr 1
      omega
    · rw [if_neg full, ih (by omega), next]
      congr 1
      omega

/-- How many batches there are when the last one is kept. -/
theorem length_takeBatches_keepLast {batch : List ℕ} (notFull : batch.length < batchSize)
    (rest : List ℕ) :
    (takeBatches batchSize false batch rest).length =
      (batch.length + rest.length + batchSize - 1) / batchSize := by
  induction rest generalizing batch with
  | nil =>
    have positive : 0 < batchSize := Nat.zero_lt_of_lt notFull
    rw [takeBatches, length_nil, Nat.add_zero]
    by_cases some : 0 < batch.length
    · have one : (batch.length + batchSize - 1) / batchSize = 1 := by
        apply Nat.div_eq_of_lt_le <;> omega
      rw [if_pos ⟨rfl, some⟩, one, length_singleton]
    · have none : (batch.length + batchSize - 1) / batchSize = 0 := by
        apply Nat.div_eq_of_lt
        omega
      rw [if_neg fun kept => some kept.2, none, length_nil]
  | cons idx rest ih =>
    have next : (batch ++ [idx]).length = batch.length + 1 := length_append
    rw [takeBatches, length_cons]
    by_cases full : (batch ++ [idx]).length = batchSize
    · have positive : 0 < batchSize := Nat.zero_lt_of_lt notFull
      have begun : ([] : List ℕ).length < batchSize := positive
      rw [if_pos full, length_cons, ih begun, length_nil, Nat.zero_add,
        ← Nat.add_div_right _ positive]
      congr 1
      omega
    · rw [if_neg full, ih (by omega), next]
      congr 1
      omega

end Batches

/-! ## The shards of the ranks -/

section Shards

variable {sampler : BatchSamplerShard} {permutations : Permutations} {epoch : ℕ}

/-- How many indexes the ranks share. -/
def sharedCount (sampler : BatchSamplerShard) : ℕ :=
  if sampler.groupByLength = true then sampler.numSamples
  else sampler.totalSamples * sampler.worldSize

/-- The ranks share a permutation of as many indexes. -/
theorem exists_sharedIdx (positive : 0 < sampler.batchSize)
    (some : sampler.groupByLength = true → sampler.numSamples ≠ 0) :
    ∃ totalIdx, sampler.sharedIdx permutations epoch = .ok totalIdx ∧
      totalIdx.Perm (range (sharedCount sampler)) := by
  rw [BatchSamplerShard.sharedIdx, sharedCount]
  by_cases grouped : sampler.groupByLength = true
  · have count : (sampler.lengths.map SampleLength.value).length = sampler.numSamples := by
      rw [length_map, sampler.all_lengths grouped]
    have someLength : sampler.lengths.map SampleLength.value ≠ [] := by
      intro none
      rw [none] at count
      exact some grouped count.symm
    obtain ⟨indices, isIndices, perm⟩ := permutations.grouped_perm _ _
      (sampler.baseSeed + epoch) someLength (Nat.mul_pos positive sampler.some_rank)
    rw [count] at perm
    refine ⟨indices, ?_, ?_⟩
    · simp only [if_pos grouped, if_pos (sampler.shuffled grouped), isIndices]
    · rw [if_pos grouped]
      exact perm
  · rw [if_neg grouped]
    simp only [if_neg grouped]
    split
    · exact ⟨_, rfl, permutations.randperm_perm _ _⟩
    · exact ⟨_, rfl, List.Perm.refl _⟩

variable {totalIdx : List ℕ}

/-- No index is in two batches of an epoch, over all ranks. -/
theorem nodup_shards (nodup : totalIdx.Nodup) (batchSize : ℕ) (dropLast : Bool) (worldSize : ℕ) :
    ((range worldSize).flatMap fun rank =>
      (takeBatches batchSize dropLast [] (stride rank worldSize totalIdx)).flatten).Nodup := by
  have strides : ((range worldSize).flatMap fun rank =>
      stride rank worldSize totalIdx).Nodup := nodup_flatMap_stride nodup
  refine List.Nodup.sublist ?_ strides
  apply List.Sublist.flatMap_right
  intro rank _
  exact (takeBatches_in_order [] (stride rank worldSize totalIdx)).sublist

variable {rank : ℕ}

theorem length_stride_rank {worldSize : ℕ} (inWorld : rank < worldSize) (items : List ℕ) :
    (stride rank worldSize items).length =
      items.length / worldSize + (if rank < items.length % worldSize then 1 else 0) := by
  have positive : 0 < worldSize := Nat.zero_lt_of_lt inWorld
  have parts := Nat.div_add_mod items.length worldSize
  have small := Nat.mod_lt items.length positive
  rw [length_stride positive]
  generalize items.length / worldSize = quotient at parts ⊢
  generalize items.length % worldSize = remainder at parts small ⊢
  rw [← parts]
  split
  · apply Nat.div_eq_of_lt_le
    · rw [Nat.add_mul, Nat.mul_comm quotient]
      omega
    · rw [Nat.add_mul, Nat.add_mul, Nat.mul_comm quotient]
      omega
  · apply Nat.div_eq_of_lt_le
    · rw [Nat.add_zero, Nat.mul_comm quotient]
      omega
    · rw [Nat.add_zero, Nat.add_mul, Nat.mul_comm quotient]
      omega

/-- How many batches as many indexes make. -/
def batchCount (sampler : BatchSamplerShard) (count : ℕ) : ℕ :=
  if sampler.dropLast = true then count / sampler.batchSize
  else (count + sampler.batchSize - 1) / sampler.batchSize

theorem length_takeBatches (positive : 0 < sampler.batchSize) (indices : List ℕ) :
    (takeBatches sampler.batchSize sampler.dropLast [] indices).length =
      batchCount sampler indices.length := by
  have begun : ([] : List ℕ).length < sampler.batchSize := positive
  rw [batchCount]
  cases sampler.dropLast with
  | true => simp [length_takeBatches_dropLast begun]
  | false => simp [length_takeBatches_keepLast begun]

theorem len_eq_ok (positive : 0 < sampler.batchSize) :
    sampler.len = .ok (batchCount sampler sampler.totalSamples) := by
  rw [BatchSamplerShard.len, if_neg positive.ne', batchCount]
  split <;> rfl

/-- One more index does not make one more batch. -/
theorem batchCount_succ_eq_iff (positive : 0 < sampler.batchSize) (count : ℕ) :
    batchCount sampler (count + 1) = batchCount sampler count ↔
      if sampler.dropLast = true then ¬sampler.batchSize ∣ count + 1
      else ¬sampler.batchSize ∣ count := by
  rw [batchCount, batchCount]
  split
  · rw [Nat.succ_div]
    split <;> simp_all
  · have shifted : count + 1 + sampler.batchSize - 1 = count + sampler.batchSize - 1 + 1 := by
      omega
    have whole : count + sampler.batchSize - 1 + 1 = count + sampler.batchSize := by omega
    rw [shifted, Nat.succ_div]
    simp only [whole, Nat.dvd_add_self_right]
    split <;> simp_all

/-- The batches of a rank, once the ranks share their indexes. -/
theorem iter_eq_ok (isShared : sampler.sharedIdx permutations epoch = .ok totalIdx) (rank : ℕ) :
    sampler.iter permutations epoch rank =
      .ok (takeBatches sampler.batchSize sampler.dropLast []
        (stride rank sampler.worldSize totalIdx)) :=
  bind_eq_ok.mpr ⟨totalIdx, isShared, rfl⟩

/-- How many indexes a rank has. -/
theorem length_stride_shared (perm : totalIdx.Perm (range (sharedCount sampler)))
    (inWorld : rank < sampler.worldSize) :
    (stride rank sampler.worldSize totalIdx).length = sampler.totalSamples +
      if sampler.groupByLength = true ∧ rank < sampler.numSamples % sampler.worldSize then 1
      else 0 := by
  have count : totalIdx.length = sharedCount sampler := by
    rw [perm.length_eq, length_range]
  rw [length_stride_rank inWorld, count, sharedCount]
  by_cases grouped : sampler.groupByLength = true
  · simp [grouped, BatchSamplerShard.totalSamples]
  · simp [grouped, Nat.mul_div_left _ sampler.some_rank]

theorem batchCount_shared_eq (positive : 0 < sampler.batchSize)
    (fits : sampler.groupByLength = true → RemainderFits sampler) (rank : ℕ) :
    batchCount sampler (sampler.totalSamples +
      if sampler.groupByLength = true ∧ rank < sampler.numSamples % sampler.worldSize then 1
      else 0) = batchCount sampler sampler.totalSamples := by
  split
  case isFalse => rfl
  case isTrue more =>
    rcases fits more.1 with divides | notBegun
    · have none : sampler.numSamples % sampler.worldSize = 0 := Nat.mod_eq_zero_of_dvd divides
      omega
    · exact (batchCount_succ_eq_iff positive _).mpr notBegun

/-- The number of batches of the first rank says whether the remainder fits. -/
theorem remainderFits_of_batchCount (positive : 0 < sampler.batchSize)
    (grouped : sampler.groupByLength = true)
    (counted : batchCount sampler (sampler.totalSamples +
      if sampler.groupByLength = true ∧ 0 < sampler.numSamples % sampler.worldSize then 1
      else 0) = batchCount sampler sampler.totalSamples) :
    RemainderFits sampler := by
  by_cases divides : sampler.worldSize ∣ sampler.numSamples
  · exact .inl divides
  · have uneven : 0 < sampler.numSamples % sampler.worldSize :=
      Nat.pos_of_ne_zero fun none => divides (Nat.dvd_of_mod_eq_zero none)
    rw [if_pos ⟨grouped, uneven⟩] at counted
    exact .inr ((batchCount_succ_eq_iff positive _).mp counted)

/-- No batches of two ranks have an index in common, as no index is in two batches. -/
theorem rounds_disjoint_of_nodup {shards : ℕ → List (List ℕ)} {worldSize : ℕ}
    (nodup : ((range worldSize).flatMap fun rank => (shards rank).flatten).Nodup) {other : ℕ}
    (inWorld : rank < worldSize) (otherInWorld : other < worldSize) (different : rank ≠ other)
    {batch batch' : List ℕ} (isBatch : batch ∈ shards rank) (isOther : batch' ∈ shards other) :
    batch.Disjoint batch' := by
  have pairwise := (nodup_flatMap.mp nodup).2
  have disjoint : (shards rank).flatten.Disjoint (shards other).flatten := by
    rcases Nat.lt_or_gt_of_ne different with before | after
    · have at_ := pairwise_iff_getElem.mp pairwise rank other (by simpa using inWorld)
        (by simpa using otherInWorld) before
      simpa using at_
    · have at_ := pairwise_iff_getElem.mp pairwise other rank (by simpa using otherInWorld)
        (by simpa using inWorld) after
      exact List.disjoint_comm.mp (by simpa using at_)
  intro idx inBatch inOther
  exact disjoint (mem_flatten_of_mem isBatch inBatch)
    (mem_flatten_of_mem isOther inOther)

end Shards

/-! ## When the shards agree -/

section Agreement

variable (sampler : BatchSamplerShard) (permutations : Permutations) (epoch : ℕ)

/-- **When every rank has as many batches as the sampler counts**: a batch has a size, and where
indexes are grouped by length there is one and the remainder of the samples fits. -/
theorem shards_agree_iff :
    (∃ shards, ShardsAgree sampler permutations epoch shards) ↔
      0 < sampler.batchSize ∧
        (sampler.groupByLength = true → sampler.numSamples ≠ 0 ∧ RemainderFits sampler) := by
  constructor
  · rintro ⟨shards, agree⟩
    have isIter := agree.iterated 0 sampler.some_rank
    have isLen := agree.counted 0 sampler.some_rank
    have positive : 0 < sampler.batchSize := by
      apply Nat.pos_of_ne_zero
      intro none
      rw [BatchSamplerShard.len, if_pos none] at isLen
      cases isLen
    refine ⟨positive, fun grouped => ?_⟩
    have some : sampler.numSamples ≠ 0 := by
      intro none
      have noLength : sampler.lengths.map SampleLength.value = [] := by
        rw [map_eq_nil_iff, ← length_eq_zero_iff, sampler.all_lengths grouped, none]
      have failed : sampler.sharedIdx permutations epoch = .error .indexError := by
        simp only [BatchSamplerShard.sharedIdx, if_pos grouped, if_pos (sampler.shuffled grouped),
          noLength]
        exact permutations.grouped_empty _ _ (Nat.mul_pos positive sampler.some_rank)
      obtain ⟨totalIdx, isShared, _⟩ := bind_eq_ok.mp isIter
      rw [failed] at isShared
      cases isShared
    refine ⟨some, ?_⟩
    obtain ⟨totalIdx, isShared, perm⟩ := exists_sharedIdx positive fun _ => some
    rw [iter_eq_ok isShared, Except.ok.injEq] at isIter
    rw [len_eq_ok positive, Except.ok.injEq, ← isIter, length_takeBatches positive,
      length_stride_shared perm sampler.some_rank] at isLen
    exact remainderFits_of_batchCount positive grouped isLen.symm
  · rintro ⟨positive, fits⟩
    obtain ⟨totalIdx, isShared, perm⟩ := exists_sharedIdx positive fun grouped => (fits grouped).1
    have nodup : totalIdx.Nodup := perm.nodup_iff.mpr nodup_range
    have once := nodup_shards nodup sampler.batchSize sampler.dropLast sampler.worldSize
    refine ⟨fun rank => takeBatches sampler.batchSize sampler.dropLast []
      (stride rank sampler.worldSize totalIdx), ?_, ?_, ?_, once⟩
    · intro rank _
      exact iter_eq_ok isShared rank
    · intro rank inWorld
      rw [len_eq_ok positive, length_takeBatches positive, length_stride_shared perm inWorld,
        batchCount_shared_eq positive (fun grouped => (fits grouped).2) rank]
    · intro rank inWorld other otherInWorld different round batch batch' isBatch isOther
      exact rounds_disjoint_of_nodup once inWorld otherInWorld different
        (mem_of_getElem? isBatch) (mem_of_getElem? isOther)

def permutationsInOrder : Permutations where
  randperm count _ := List.range count
  getLengthGroupedIndices lengths _ _ :=
    if lengths = [] then .error .indexError else .ok (List.range lengths.length)
  randperm_perm _ _ := .refl _
  grouped_perm _ _ _ some _ := ⟨_, if_neg some, .refl _⟩
  grouped_empty _ _ _ := rfl

def threeSamples : BatchSamplerShard where
  numSamples := 3
  worldSize := 2
  batchSize := 1
  shuffle := true
  dropLast := true
  baseSeed := 0
  groupByLength := true
  lengths := [.single 1, .single 1, .single 1]
  some_rank := Nat.two_pos
  shuffled := by simp
  all_lengths := by simp

/-- Two ranks with one batch each, as counted, of which the first has a second one. -/
theorem threeSamples_disagree :
    threeSamples.len = .ok 1 ∧ threeSamples.iter permutationsInOrder 0 0 = .ok [[0], [2]] ∧
      threeSamples.iter permutationsInOrder 0 1 = .ok [[1]] ∧
        ¬∃ shards, ShardsAgree threeSamples permutationsInOrder 0 shards := by
  have isLen : threeSamples.len = .ok 1 := by decide
  have isFirst : threeSamples.iter permutationsInOrder 0 0 = .ok [[0], [2]] := by decide
  have isSecond : threeSamples.iter permutationsInOrder 0 1 = .ok [[1]] := by decide
  refine ⟨isLen, isFirst, isSecond, ?_⟩
  rintro ⟨shards, agree⟩
  have iterated := agree.iterated 0 threeSamples.some_rank
  have counted := agree.counted 0 threeSamples.some_rank
  rw [isFirst, Except.ok.injEq] at iterated
  rw [isLen, ← iterated] at counted
  simp at counted

end Agreement

end Geobench.Dataset
