import Mathlib.Algebra.GroupWithZero.Nat
import Mathlib.Algebra.Order.Ring.Unbundled.Rat
import Mathlib.Data.List.Nodup
import Mathlib.Data.List.Perm.Basic
import Mathlib.Data.List.Range

/-!
# Samples and splits of a dataset

`sample_dataset` selects whole repetitions of the rows and, for what remains, the beginning of a
permutation. `DatasetLoader.post_process` splits off a validation set whose size is a part of the
rows or of the requested sample, whichever are fewer, and samples the training set up to the request
again. A streamed dataset is not sampled: its first rows are taken, so that there may be fewer.

Rows are selected by their positions. The random state permutes positions, the split of the
`datasets` library gives each position to one of its sides, and the part that a ratio takes of a
count is any function, so that nothing depends on rounding.

**`samples_and_splits`**: a sample of a dataset that has rows contains each of them equally often, up
to one, and the sides of a split come from different rows, of which the validation set repeats none.
-/

namespace Geobench.Dataset

open List

/-! ## The sampled rows -/

inductive SampleError where
  | zeroDivisionError
  | assertionError
  | valueError
  deriving DecidableEq, Repr

/-- A random state of `numpy`. -/
structure RandomState where
  permutation : ℕ → List ℕ
  permutation_perm : ∀ length, (permutation length).Perm (List.range length)
  shuffle : List ℕ → List ℕ
  shuffle_perm : ∀ items, (shuffle items).Perm items

/-- `dataset.select(idx)` -/
def selectRows {α : Type} (rows : List α) (idx : List ℕ) : List α := idx.filterMap (rows[·]?)

/-- The positions that `sample_dataset` selects. -/
def sampleIdx (random : RandomState) (shuffle shuffleAll : Bool) (length datasetSample : ℕ) :
    List ℕ :=
  let nRepeatSample := datasetSample / length
  let nRemainSample := datasetSample % length
  let idx := (List.replicate nRepeatSample (List.range length)).flatten
  let idxRemain :=
    if shuffle = true then (random.permutation length).take nRemainSample
    else List.range nRemainSample
  let idx := if 1 ≤ nRemainSample then idx ++ idxRemain else idx
  if 1 ≤ nRepeatSample ∧ shuffle = true ∧ shuffleAll = true then random.shuffle idx else idx

def sampleDataset {α : Type} (random : RandomState) (shuffle shuffleAll : Bool) (rows : List α) :
    Option ℕ → Except SampleError (List α)
  | none => .ok rows
  | some datasetSample =>
    if rows.length = 0 then .error .zeroDivisionError
    else .ok (selectRows rows (sampleIdx random shuffle shuffleAll rows.length datasetSample))

/-! ## The split -/

/-- `train_test_split` of a dataset, by positions. -/
structure TrainTestSplit where
  split : Bool → ℕ → ℕ → List ℕ × List ℕ
  split_perm : ∀ shuffle {length testSize}, testSize ≤ length →
    ((split shuffle length testSize).1 ++ (split shuffle length testSize).2).Perm
      (List.range length)
  length_test : ∀ shuffle {length testSize}, testSize ≤ length →
    (split shuffle length testSize).2.length = testSize

structure PostProcessArgs where
  datasetSample : Option ℕ
  splitDatasetRatio : ℚ
  streaming : Bool
  shuffle : Bool

section PostProcess

variable {α : Type} (random : RandomState) (trainTestSplit : TrainTestSplit) (part : ℕ → ℕ)

/-- A streamed dataset. `part` is `int(count * split_dataset_ratio)`. -/
def streamProcess (args : PostProcessArgs) (rows : List α) :
    Except SampleError (Option (List α) × Option (List α)) :=
  match args.datasetSample with
  | none =>
    if args.splitDatasetRatio = 0 then .ok (some rows, none)
    else if args.splitDatasetRatio = 1 then .ok (none, some rows)
    else .error .valueError
  | some datasetSample =>
    let trainDataset := rows.take datasetSample
    let valSample := part datasetSample
    if valSample = 0 then .ok (some trainDataset, none)
    else .ok (some (trainDataset.drop valSample), some (trainDataset.take valSample))

def splitProcess (args : PostProcessArgs) (datasetSample : ℕ) (rows : List α) :
    Except SampleError (Option (List α) × Option (List α)) := do
  let trainLen := min rows.length datasetSample
  let valSample := max (part trainLen) 1
  if datasetSample ≤ valSample then .error .assertionError
  else if rows.length ≤ valSample then .error .valueError
  else
    let sides := trainTestSplit.split args.shuffle rows.length valSample
    let trainDataset ← sampleDataset random args.shuffle false (selectRows rows sides.1)
      (some (datasetSample - valSample))
    .ok (some trainDataset, some (selectRows rows sides.2))

def postProcess (args : PostProcessArgs) (rows : List α) :
    Except SampleError (Option (List α) × Option (List α)) :=
  if args.datasetSample = some 0 ∨ ¬ (0 ≤ args.splitDatasetRatio ∧ args.splitDatasetRatio ≤ 1) then
    .error .assertionError
  else if args.streaming = true then streamProcess part args rows
  else
    let datasetSample := args.datasetSample.getD rows.length
    if args.splitDatasetRatio = 0 then do
      let trainDataset ← sampleDataset random args.shuffle false rows (some datasetSample)
      .ok (some trainDataset, none)
    else if args.splitDatasetRatio = 1 then
      if rows.length < datasetSample then .error .assertionError
      else do
        let valDataset ← sampleDataset random args.shuffle false rows (some datasetSample)
        .ok (none, some valDataset)
    else splitProcess random trainTestSplit part args datasetSample rows

end PostProcess

/-! ## Even samples -/

/-- As many positions as are asked for, each position as often as any other, up to one. -/
structure SamplesEvenly (length datasetSample : ℕ) (idx : List ℕ) : Prop where
  length_eq : idx.length = datasetSample
  inside : ∀ place ∈ idx, place < length
  counts : ∀ place < length, idx.count place = datasetSample / length ∨
    idx.count place = (datasetSample + length - 1) / length

variable {length : ℕ}

theorem count_tile {place : ℕ} (inside : place < length) (times : ℕ) :
    (List.replicate times (List.range length)).flatten.count place = times := by
  rw [count_flatten, map_replicate, sum_replicate_nat,
    count_eq_one_of_mem nodup_range (mem_range.mpr inside), Nat.mul_one]

theorem length_tile (length times : ℕ) :
    (List.replicate times (List.range length)).flatten.length = times * length := by
  rw [length_flatten, map_replicate, sum_replicate_nat, length_range]

/-- Positions below a length that do not repeat. -/
structure SomePlaces (length count : ℕ) (places : List ℕ) : Prop where
  length_eq : places.length = count
  inside : ∀ place ∈ places, place < length
  nodup : places.Nodup

theorem somePlaces_range {count : ℕ} (le : count ≤ length) :
    SomePlaces length count (List.range count) where
  length_eq := length_range
  inside _ isIn := Nat.lt_of_lt_of_le (mem_range.mp isIn) le
  nodup := nodup_range

theorem somePlaces_permutation (random : RandomState) {count : ℕ} (le : count ≤ length) :
    SomePlaces length count ((random.permutation length).take count) where
  length_eq := by
    rw [length_take, (random.permutation_perm length).length_eq, length_range, Nat.min_eq_left le]
  inside _ isIn :=
    mem_range.mp ((random.permutation_perm length).mem_iff.mp (mem_of_mem_take isIn))
  nodup := ((random.permutation_perm length).nodup_iff.mpr nodup_range).sublist
    (take_sublist _ _)

/-- Whole repetitions and some places more are an even sample. -/
theorem samplesEvenly_append {datasetSample : ℕ} (positive : 0 < length) {places : List ℕ}
    (some : SomePlaces length (datasetSample % length) places) :
    SamplesEvenly length datasetSample
      ((List.replicate (datasetSample / length) (List.range length)).flatten ++ places) where
  length_eq := by
    rw [length_append, length_tile, some.length_eq, Nat.mul_comm, Nat.div_add_mod]
  inside place isIn := by
    rcases mem_append.mp isIn with isIn | isIn
    · obtain ⟨range, isRange, isIn⟩ := List.mem_flatten.mp isIn
      rw [eq_of_mem_replicate isRange] at isIn
      exact mem_range.mp isIn
    · exact some.inside place isIn
  counts place inside := by
    rw [count_append, count_tile inside]
    by_cases isIn : place ∈ places
    · have remains : 0 < datasetSample % length := by
        rw [← some.length_eq]
        exact length_pos_of_mem isIn
      have above : (datasetSample + length - 1) / length = datasetSample / length + 1 := by
        have whole := Nat.div_add_mod datasetSample length
        have less := Nat.mod_lt datasetSample positive
        have isSum : datasetSample + length - 1 =
            length * (datasetSample / length + 1) + (datasetSample % length - 1) := by
          rw [Nat.mul_add, Nat.mul_one]
          omega
        have rest : datasetSample % length - 1 < length := by omega
        rw [isSum, Nat.mul_add_div positive, Nat.div_eq_of_lt rest, Nat.add_zero]
      rw [count_eq_one_of_mem some.nodup isIn, above]
      exact .inr rfl
    · rw [count_eq_zero_of_not_mem isIn]
      exact .inl rfl

theorem SamplesEvenly.of_perm {datasetSample : ℕ} {idx other : List ℕ}
    (even : SamplesEvenly length datasetSample idx) (perm : other.Perm idx) :
    SamplesEvenly length datasetSample other where
  length_eq := perm.length_eq.trans even.length_eq
  inside place isIn := even.inside place (perm.mem_iff.mp isIn)
  counts place inside := by
    rw [perm.count_eq]
    exact even.counts place inside

theorem samplesEvenly_sampleIdx (random : RandomState) (shuffle shuffleAll : Bool)
    (positive : 0 < length) (datasetSample : ℕ) :
    SamplesEvenly length datasetSample
      (sampleIdx random shuffle shuffleAll length datasetSample) := by
  have le : datasetSample % length ≤ length := Nat.le_of_lt (Nat.mod_lt _ positive)
  have even : SamplesEvenly length datasetSample
      (if 1 ≤ datasetSample % length then
        (List.replicate (datasetSample / length) (List.range length)).flatten ++
          (if shuffle = true then (random.permutation length).take (datasetSample % length)
            else List.range (datasetSample % length))
      else (List.replicate (datasetSample / length) (List.range length)).flatten) := by
    split
    · refine samplesEvenly_append positive ?_
      split
      · exact somePlaces_permutation random le
      · exact somePlaces_range le
    · rename_i none
      have isZero : datasetSample % length = 0 := by omega
      have noPlaces : SomePlaces length (datasetSample % length) [] :=
        ⟨isZero.symm, by simp, nodup_nil⟩
      simpa using samplesEvenly_append positive noPlaces
  rw [sampleIdx]
  split
  · exact even.of_perm (random.shuffle_perm _)
  · exact even

/-! ## The sides of a split -/

section Sides

variable {α : Type}

variable {rows : List α} {idx : List ℕ}

theorem length_selectRows (inside : ∀ place ∈ idx, place < rows.length) :
    (selectRows rows idx).length = idx.length := by
  induction idx with
  | nil => rfl
  | cons place idx ih =>
    rw [forall_mem_cons] at inside
    rw [selectRows, filterMap_cons_some (getElem?_eq_getElem inside.1), length_cons, length_cons]
    exact congrArg (· + 1) (ih inside.2)

theorem selectRows_cons {place : ℕ} (inside : place < rows.length) (idx : List ℕ) :
    selectRows rows (place :: idx) = rows[place] :: selectRows rows idx :=
  filterMap_cons_some (getElem?_eq_getElem inside)

theorem getElem?_selectRows (inside : ∀ place ∈ idx, place < rows.length) (place : ℕ) :
    (selectRows rows idx)[place]? = idx[place]?.bind (rows[·]?) := by
  induction idx generalizing place with
  | nil => rfl
  | cons first idx ih =>
    rw [forall_mem_cons] at inside
    rw [selectRows_cons inside.1]
    cases place with
    | zero => exact (getElem?_eq_getElem inside.1).symm
    | succ place => exact ih inside.2 place

theorem selectRows_selectRows (inside : ∀ place ∈ idx, place < rows.length) (places : List ℕ) :
    selectRows (selectRows rows idx) places = selectRows rows (selectRows idx places) := by
  show places.filterMap ((selectRows rows idx)[·]?) =
    (places.filterMap (idx[·]?)).filterMap (rows[·]?)
  rw [filterMap_filterMap]
  exact filterMap_congr fun place _ => getElem?_selectRows inside place

theorem mem_of_mem_selectRows {row : α} (isIn : row ∈ selectRows rows idx) : row ∈ rows := by
  obtain ⟨place, -, isRow⟩ := mem_filterMap.mp isIn
  exact mem_of_getElem? isRow

theorem selectRows_range (rows : List α) : selectRows rows (List.range rows.length) = rows := by
  refine ext_getElem? fun place => ?_
  rw [getElem?_selectRows fun place isIn => mem_range.mp isIn]
  by_cases inside : place < rows.length
  · rw [getElem?_range inside]
    rfl
  · rw [getElem?_eq_none (by simpa using inside), getElem?_eq_none (by simpa using inside)]
    rfl

theorem selectRows_take (inside : ∀ place ∈ idx, place < rows.length) (count : ℕ) :
    selectRows rows (idx.take count) = (selectRows rows idx).take count ∧
      selectRows rows (idx.drop count) = (selectRows rows idx).drop count := by
  induction idx generalizing count with
  | nil => simp [selectRows]
  | cons first idx ih =>
    rw [forall_mem_cons] at inside
    cases count with
    | zero => exact ⟨rfl, rfl⟩
    | succ count =>
      obtain ⟨taken, dropped⟩ := ih inside.2 count
      rw [take_succ_cons, drop_succ_cons, selectRows_cons inside.1,
        selectRows_cons inside.1, take_succ_cons, drop_succ_cons, taken, dropped]
      exact ⟨rfl, rfl⟩

/-- Both sides of a split, with so many rows together: the rows of different positions, of which
those of the validation set do not repeat. -/
def SplitsRows (rows : List α) (total : ℕ) (train val : List α) : Prop :=
  ∃ trainIdx valIdx, train = selectRows rows trainIdx ∧ val = selectRows rows valIdx ∧
    (∀ place ∈ trainIdx ++ valIdx, place < rows.length) ∧ trainIdx.Disjoint valIdx ∧
    valIdx.Nodup ∧ trainIdx.length + valIdx.length = total

/-- How many rows both sides have together. -/
def PostProcessArgs.total (args : PostProcessArgs) (rows : List α) : ℕ :=
  let datasetSample := args.datasetSample.getD rows.length
  if args.streaming = true then min rows.length datasetSample else datasetSample

theorem splitsRows_stream (rows : List α) (taken cut : ℕ) :
    SplitsRows rows (min rows.length taken) ((rows.take taken).drop cut)
      ((rows.take taken).take cut) := by
  have range : ∀ place ∈ List.range rows.length, place < rows.length := fun place isIn =>
    mem_range.mp isIn
  have few : ∀ place ∈ (List.range rows.length).take taken, place < rows.length :=
    fun place isIn => range place (mem_of_mem_take isIn)
  have isTaken := (selectRows_take range taken).1
  rw [selectRows_range] at isTaken
  refine ⟨((List.range rows.length).take taken).drop cut,
    ((List.range rows.length).take taken).take cut, ?_, ?_, fun place isIn => ?_, ?_, ?_, ?_⟩
  · rw [(selectRows_take few cut).2, isTaken]
  · rw [(selectRows_take few cut).1, isTaken]
  · rcases mem_append.mp isIn with isIn | isIn
    · exact few place (mem_of_mem_drop isIn)
    · exact few place (mem_of_mem_take isIn)
  · exact fun place isTrain isVal => disjoint_take_drop
      (nodup_range.sublist (take_sublist _ _)) (Nat.le_refl cut) isVal isTrain
  · exact (nodup_range.sublist (take_sublist _ _)).sublist (take_sublist _ _)
  · rw [Nat.add_comm, ← length_append, take_append_drop, length_take, length_range, Nat.min_comm]

theorem sampleDataset_eq (random : RandomState) (shuffle shuffleAll : Bool) (some : 0 < rows.length)
    (datasetSample : ℕ) :
    sampleDataset random shuffle shuffleAll rows (.some datasetSample) = .ok (selectRows rows
      (sampleIdx random shuffle shuffleAll rows.length datasetSample)) := by
  rw [sampleDataset, if_neg (Nat.ne_of_gt some)]

theorem splitsRows_split (random : RandomState) (trainTestSplit : TrainTestSplit) (part : ℕ → ℕ)
    {args : PostProcessArgs} {datasetSample : ℕ} {result : Option (List α) × Option (List α)}
    (succeeds : splitProcess random trainTestSplit part args datasetSample rows = .ok result) :
    SplitsRows rows datasetSample (result.1.getD []) (result.2.getD []) := by
  rw [splitProcess] at succeeds
  dsimp only at succeeds
  generalize max (part (min rows.length datasetSample)) 1 = valSample at succeeds
  split at succeeds
  · cases succeeds
  · split at succeeds
    · cases succeeds
    · rename_i someTrain someRows
      have le : valSample ≤ rows.length := by omega
      have perm := trainTestSplit.split_perm args.shuffle le
      have length := trainTestSplit.length_test args.shuffle le
      generalize trainTestSplit.split args.shuffle rows.length valSample = sides
        at succeeds perm length
      have inside : ∀ place ∈ sides.1 ++ sides.2, place < rows.length := fun place isIn =>
        mem_range.mp (perm.mem_iff.mp isIn)
      obtain ⟨-, valNodup, apart⟩ := nodup_append'.mp (perm.nodup_iff.mpr nodup_range)
      rw [forall_mem_append] at inside
      have trainLength := perm.length_eq
      rw [length_append, length, length_range] at trainLength
      have selected := length_selectRows inside.1
      have isSome : 0 < (selectRows rows sides.1).length := by omega
      rw [sampleDataset_eq random args.shuffle false isSome, selected] at succeeds
      have even := samplesEvenly_sampleIdx random args.shuffle false
        (show 0 < sides.1.length by omega) (datasetSample - valSample)
      generalize sampleIdx random args.shuffle false sides.1.length (datasetSample - valSample) = idx
        at succeeds even
      cases succeeds
      refine ⟨selectRows sides.1 idx, sides.2, selectRows_selectRows inside.1 idx, rfl,
        fun place isIn => ?_, fun place isTrain isVal => ?_, valNodup, ?_⟩
      · rcases mem_append.mp isIn with isIn | isIn
        · exact inside.1 place (mem_of_mem_selectRows isIn)
        · exact inside.2 place isIn
      · exact apart (mem_of_mem_selectRows isTrain) isVal
      · rw [length_selectRows even.inside, even.length_eq, length]
        omega

/-- **Samples are even, and the sides of a split come from different rows.** -/
theorem samples_and_splits (random : RandomState) (trainTestSplit : TrainTestSplit) (part : ℕ → ℕ)
    (rows : List α) :
    (rows ≠ [] → ∀ shuffle shuffleAll datasetSample, ∃ idx,
      sampleDataset random shuffle shuffleAll rows (some datasetSample) =
          .ok (selectRows rows idx) ∧
        (selectRows rows idx).length = datasetSample ∧
        SamplesEvenly rows.length datasetSample idx) ∧
    ∀ (args : PostProcessArgs) (result : Option (List α) × Option (List α)),
      0 < args.splitDatasetRatio → args.splitDatasetRatio < 1 →
      postProcess random trainTestSplit part args rows = .ok result →
      SplitsRows rows (args.total rows) (result.1.getD []) (result.2.getD []) := by
  refine ⟨fun isSome shuffle shuffleAll datasetSample => ?_,
    fun args result positive less succeeds => ?_⟩
  · have positive := length_pos_of_ne_nil isSome
    have even := samplesEvenly_sampleIdx random shuffle shuffleAll positive datasetSample
    refine ⟨_, sampleDataset_eq random shuffle shuffleAll positive datasetSample, ?_, even⟩
    rw [length_selectRows even.inside, even.length_eq]
  · have notZero : args.splitDatasetRatio ≠ 0 := ne_of_gt positive
    have notOne : args.splitDatasetRatio ≠ 1 := ne_of_lt less
    rw [postProcess] at succeeds
    split at succeeds
    · cases succeeds
    · rw [PostProcessArgs.total]
      split at succeeds
      · rename_i streams
        rw [if_pos streams]
        rw [streamProcess] at succeeds
        split at succeeds
        · rw [if_neg notZero, if_neg notOne] at succeeds
          cases succeeds
        · rename_i datasetSample isSample
          rw [isSample, Option.getD_some]
          dsimp only at succeeds
          split at succeeds
          · cases succeeds
            simpa using splitsRows_stream rows datasetSample 0
          · cases succeeds
            exact splitsRows_stream rows datasetSample _
      · rename_i whole
        rw [if_neg whole]
        dsimp only at succeeds ⊢
        exact splitsRows_split random trainTestSplit part succeeds

def orderedState : RandomState where
  permutation := List.range
  permutation_perm _ := .refl _
  shuffle items := items
  shuffle_perm _ := .refl _

def lastRows : TrainTestSplit where
  split _ length testSize :=
    (List.range (length - testSize), (List.range length).drop (length - testSize))
  split_perm _ {length} {testSize} le := by
    have taken : List.range (length - testSize) = (List.range length).take (length - testSize) := by
      rw [take_range, Nat.min_eq_left (Nat.sub_le _ _)]
    rw [taken, take_append_drop]
  length_test _ {length} {testSize} le := by
    rw [length_drop, length_range]
    omega

/-- Half of the rows are the validation set. -/
def halved (datasetSample : Option ℕ) (streaming : Bool) : PostProcessArgs :=
  ⟨datasetSample, 1 / 2, streaming, false⟩

theorem samples_and_splits_halved :
    (∃ idx, sampleDataset orderedState false false ['a', 'b'] (some 5) =
          .ok (selectRows ['a', 'b'] idx) ∧ (selectRows ['a', 'b'] idx).length = 5 ∧
        SamplesEvenly 2 5 idx) ∧
      SplitsRows ['a', 'b', 'c'] 5 ['a', 'b', 'a', 'b'] ['c'] :=
  ⟨(samples_and_splits orderedState lastRows (· / 2) ['a', 'b']).1 (by decide) false false 5,
    (samples_and_splits orderedState lastRows (· / 2) ['a', 'b', 'c']).2
      (halved (some 5) false) (some ['a', 'b', 'a', 'b'], some ['c'])
      (by decide +kernel) (by decide +kernel) (by decide +kernel)⟩

/-- A stream of one row gives less than what is asked for. -/
theorem not_splitsRows_short :
    postProcess orderedState lastRows (· / 2) (halved (some 3) true) ['a'] =
        .ok (some [], some ['a']) ∧
      ¬ SplitsRows ['a'] 3 [] ['a'] := by
  refine ⟨by decide +kernel, ?_⟩
  rintro ⟨trainIdx, valIdx, isTrain, isVal, inside, -, -, total⟩
  rw [forall_mem_append] at inside
  have trainLength := length_selectRows inside.1
  have valLength := length_selectRows inside.2
  rw [← isTrain] at trainLength
  rw [← isVal] at valLength
  simp at trainLength valLength
  omega

end Sides

end Geobench.Dataset
