import Geobench.Trainers.GrpoLoss
import Geobench.Trainers.KeptWindow

/-!
# Chunks of a batch

When the processes have batches of different sizes, the trainer cuts its batch into
chunks. Every process takes the number of chunks from the sizes of all of them, so that it
takes as many passes as the others; a process whose samples are used up runs its last
chunk again, as a dummy (`chunkRuns_eq`).
-/

namespace Geobench.Trainers

open Library List

variable {α : Type}

/-! ## The loop -/

/-- How many chunks every process runs. -/
def maxChunks (chunkSize : ℕ) (batchSizes : List ℕ) : Except LossError ℕ :=
  if chunkSize = 0 then .error .zeroDivisionError
  else .ok ((batchSizes.map fun size => (size + chunkSize - 1) / chunkSize).foldr max 0)

/-- The size of the chunks, so that as many of them cover the batch. -/
def newChunkSize (batchSize maxChunks : ℕ) : Except LossError ℕ :=
  if maxChunks = 0 then .error .zeroDivisionError
  else .ok ((batchSize + maxChunks - 1) / maxChunks)

/-- A pass of the loop: what the model reads, and how many new samples that is. -/
structure ChunkRun (α : Type) where
  chunkInputs : List α
  isDummy : Bool
  weight : ℕ

/-- The variables of the loop. Before the first chunk there are no inputs, not even an
empty batch. -/
structure ChunkState (α : Type) where
  chunkInputs : Option (List α)
  runs : List (ChunkRun α)

/-- One pass. `isReal` is the test for new samples between two ends, and
`getChunkedInputs` gives these. -/
def chunkStep (isReal : ℕ → ℕ → Bool) (getChunkedInputs : ℕ → ℕ → List α)
    (batchSize chunkSize : ℕ) (state : ChunkState α) (chunkIdx : ℕ) :
    Except LossError (ChunkState α) :=
  let startIdx := chunkIdx * chunkSize
  let endIdx := min (startIdx + chunkSize) batchSize
  let isDummy := !isReal startIdx endIdx
  let chunkInputs :=
    if isDummy then state.chunkInputs else some (getChunkedInputs startIdx endIdx)
  match chunkInputs with
  | none => .error .keyError
  | some inputs => .ok
      { chunkInputs := some inputs
        runs := state.runs ++ [{
          chunkInputs := inputs
          isDummy := isDummy
          weight := if isDummy then 0 else endIdx - startIdx }] }

/-- The passes of a process with a batch of a size. -/
def chunkRuns (isReal : ℕ → ℕ → Bool) (getChunkedInputs : ℕ → ℕ → List α)
    (batchSize chunkSize : ℕ) (batchSizes : List ℕ) : Except LossError (List (ChunkRun α)) := do
  let chunks ← maxChunks chunkSize batchSizes
  let size ← newChunkSize batchSize chunks
  let state ← (List.range chunks).foldlM (chunkStep isReal getChunkedInputs batchSize size)
    { chunkInputs := none, runs := [] }
  .ok state.runs

/-! ## The passes -/

/-- The pass over a chunk, the last one with samples when it has none. -/
def plannedRun (getChunkedInputs : ℕ → ℕ → List α) (batchSize chunkSize chunkIdx : ℕ) :
    ChunkRun α :=
  let last := min chunkIdx ((batchSize - 1) / chunkSize)
  { chunkInputs :=
      getChunkedInputs (last * chunkSize) (min (last * chunkSize + chunkSize) batchSize)
    isDummy := decide (batchSize ≤ chunkIdx * chunkSize)
    weight := min (chunkIdx * chunkSize + chunkSize) batchSize - chunkIdx * chunkSize }

variable {chunkIdx : ℕ}

theorem lt_iff_le_last {batchSize chunkSize : ℕ} (someSample : 0 < batchSize)
    (positive : 0 < chunkSize) :
    chunkIdx * chunkSize < batchSize ↔ chunkIdx ≤ (batchSize - 1) / chunkSize := by
  rw [Nat.le_div_iff_mul_le positive]
  omega

variable {isReal : ℕ → ℕ → Bool} {getChunkedInputs : ℕ → ℕ → List α} {batchSize chunkSize : ℕ}

/-- A pass takes the state that the passes before it left to the next one. -/
theorem chunkStep_planned
    (tests : ∀ chunkIdx, isReal (chunkIdx * chunkSize)
      (min (chunkIdx * chunkSize + chunkSize) batchSize) =
        decide (chunkIdx * chunkSize < batchSize))
    (someSample : 0 < batchSize) (positive : 0 < chunkSize) (runs : List (ChunkRun α))
    (chunkIdx : ℕ) :
    chunkStep isReal getChunkedInputs batchSize chunkSize
        { chunkInputs := match chunkIdx with
            | 0 => none
            | before + 1 =>
              some (plannedRun getChunkedInputs batchSize chunkSize before).chunkInputs
          runs := runs } chunkIdx =
      .ok
        { chunkInputs :=
            some (plannedRun getChunkedInputs batchSize chunkSize chunkIdx).chunkInputs
          runs := runs ++ [plannedRun getChunkedInputs batchSize chunkSize chunkIdx] } := by
  rw [chunkStep]
  simp only [tests]
  by_cases inside : chunkIdx * chunkSize < batchSize
  · have last : min chunkIdx ((batchSize - 1) / chunkSize) = chunkIdx :=
      Nat.min_eq_left ((lt_iff_le_last someSample positive).mp inside)
    simp [inside, plannedRun, last, not_le.mpr inside]
  · have beyond : ¬chunkIdx ≤ (batchSize - 1) / chunkSize := fun le =>
      inside ((lt_iff_le_last someSample positive).mpr le)
    cases chunkIdx with
    | zero => exact absurd (by simpa using someSample) inside
    | succ before =>
      have same : min (before + 1) ((batchSize - 1) / chunkSize) =
          min before ((batchSize - 1) / chunkSize) := by omega
      have none : min ((before + 1) * chunkSize + chunkSize) batchSize -
          (before + 1) * chunkSize = 0 := by omega
      simp [inside, plannedRun, same, none, not_lt.mp inside]

/-- The state after any number of passes. -/
theorem foldlM_chunkStep
    (tests : ∀ chunkIdx, isReal (chunkIdx * chunkSize)
      (min (chunkIdx * chunkSize + chunkSize) batchSize) =
        decide (chunkIdx * chunkSize < batchSize))
    (someSample : 0 < batchSize) (positive : 0 < chunkSize) (chunks : ℕ) :
    (range chunks).foldlM (chunkStep isReal getChunkedInputs batchSize chunkSize)
        { chunkInputs := none, runs := [] } =
      .ok
        { chunkInputs := match chunks with
            | 0 => none
            | before + 1 =>
              some (plannedRun getChunkedInputs batchSize chunkSize before).chunkInputs
          runs := (range chunks).map
            (plannedRun getChunkedInputs batchSize chunkSize) } := by
  induction chunks with
  | zero => rfl
  | succ chunks ih =>
    rw [range_succ, foldlM_append, ih, map_append]
    exact bind_eq_ok.mpr ⟨_, rfl,
      bind_eq_ok.mpr ⟨_, chunkStep_planned tests someSample positive _ chunks, rfl⟩⟩

/-- The sizes that the loop runs with. -/
theorem maxChunks_eq {chunkSize : ℕ} (positive : 0 < chunkSize) (batchSizes : List ℕ) :
    maxChunks chunkSize batchSizes =
      .ok ((batchSizes.map fun size => (size + chunkSize - 1) / chunkSize).foldr max 0) :=
  if_neg positive.ne'

theorem maxChunks_covers {chunkSize chunks : ℕ} {batchSizes : List ℕ}
    (isChunks : maxChunks chunkSize batchSizes = .ok chunks) {batchSize : ℕ}
    (isSize : batchSize ∈ batchSizes) : 0 < chunkSize ∧ batchSize ≤ chunks * chunkSize := by
  rw [maxChunks] at isChunks
  split at isChunks
  · cases isChunks
  next nonzero =>
    have positive := Nat.pos_of_ne_zero nonzero
    refine ⟨positive, ?_⟩
    rw [← Except.ok.inj isChunks, ← ceilDiv_le_iff positive]
    exact le_foldr_max (mem_map.mpr ⟨batchSize, isSize, rfl⟩)

/-- The size of the chunks of a batch: as many cover it, and none is too large. -/
structure ChunkPlan (batchSize chunkSize chunks size : ℕ) : Prop where
  chunks_pos : 0 < chunks
  size_pos : 0 < size
  size_le : size ≤ chunkSize
  covers : batchSize ≤ chunks * size
  newChunkSize : newChunkSize batchSize chunks = .ok size

theorem exists_chunkPlan {chunkSize chunks : ℕ} {batchSizes : List ℕ}
    (isChunks : maxChunks chunkSize batchSizes = .ok chunks) {batchSize : ℕ}
    (isSize : batchSize ∈ batchSizes) (someSample : 0 < batchSize) :
    ∃ size, ChunkPlan batchSize chunkSize chunks size := by
  obtain ⟨positive, covers⟩ := maxChunks_covers isChunks isSize
  have chunksPos : 0 < chunks := by
    apply Nat.pos_of_ne_zero
    rintro rfl
    omega
  refine ⟨(batchSize + chunks - 1) / chunks, chunksPos, ?_, ?_, ?_, if_neg chunksPos.ne'⟩
  · exact Nat.div_pos (by omega) chunksPos
  · rw [ceilDiv_le_iff chunksPos, Nat.mul_comm]
    exact covers
  · rw [Nat.mul_comm]
    exact le_ceilDiv_mul batchSize chunksPos

/-- Both loops test for new samples. -/
def IsRealTest (isReal : ℕ → ℕ → Bool) (batchSize : ℕ) : Prop :=
  ∀ start size, 0 < size →
    isReal start (min (start + size) batchSize) = decide (start < batchSize)

/-- A process with samples runs the planned passes. -/
theorem chunkRuns_eq (tests : IsRealTest isReal batchSize) {batchSizes : List ℕ} {chunks size : ℕ}
    (isChunks : maxChunks chunkSize batchSizes = .ok chunks) (someSample : 0 < batchSize)
    (plan : ChunkPlan batchSize chunkSize chunks size) :
    chunkRuns isReal getChunkedInputs batchSize chunkSize batchSizes =
      .ok ((range chunks).map (plannedRun getChunkedInputs batchSize size)) := by
  refine bind_eq_ok.mpr ⟨chunks, isChunks, bind_eq_ok.mpr ⟨size, plan.newChunkSize, ?_⟩⟩
  exact bind_eq_ok.mpr ⟨_, foldlM_chunkStep
    (fun chunkIdx => tests (chunkIdx * size) size plan.size_pos) someSample plan.size_pos chunks,
    rfl⟩

/-- A process without samples fails in its first pass, or has no pass to take. -/
theorem chunkRuns_of_no_samples (tests : IsRealTest isReal 0) (chunkSize : ℕ)
    (batchSizes : List ℕ) (runs : List (ChunkRun α)) :
    chunkRuns isReal getChunkedInputs 0 chunkSize batchSizes ≠ .ok runs := by
  intro isOk
  obtain ⟨chunks, _, rest⟩ := bind_eq_ok.mp isOk
  obtain ⟨size, isSize, rest⟩ := bind_eq_ok.mp rest
  obtain ⟨state, isState, _⟩ := bind_eq_ok.mp rest
  rw [newChunkSize] at isSize
  split at isSize
  · cases isSize
  next some =>
    obtain ⟨others, rfl⟩ := Nat.exists_eq_succ_of_ne_zero some
    have zero : size = 0 := by
      rw [← Except.ok.inj isSize]
      exact Nat.div_eq_of_lt (by omega)
    rw [range_succ_eq_map, foldlM_cons] at isState
    obtain ⟨first, isFirst, _⟩ := bind_eq_ok.mp isState
    have dummy : isReal (0 * size) (min (0 * size + size) 0) = false := by
      have test := tests 0 1 one_pos
      simpa [zero] using test
    rw [chunkStep, dummy] at isFirst
    cases isFirst

/-! ## New samples -/

/-- The test of the loop over losses. -/
def lossHasSamples (batchSize startIdx _endIdx : ℕ) : Bool := decide (startIdx < batchSize)

/-- The test of the loop over log probabilities. -/
def logpsHasSamples (startIdx endIdx : ℕ) : Bool := decide (startIdx < endIdx)

theorem isRealTest_loss (batchSize : ℕ) : IsRealTest (lossHasSamples batchSize) batchSize := by
  intro start size positive
  rfl

theorem isRealTest_logps (batchSize : ℕ) : IsRealTest logpsHasSamples batchSize := by
  intro start size positive
  rw [logpsHasSamples, decide_eq_decide]
  omega

/-- What the passes that are no dummies read. -/
def realInputs (runs : List (ChunkRun α)) : List (List α) :=
  (runs.filter fun run => !run.isDummy).map ChunkRun.chunkInputs

def realChunks (batchSize chunkSize chunks : ℕ) : List ℕ :=
  (List.range chunks).filter fun chunkIdx => chunkIdx * chunkSize < batchSize

theorem plannedRun_real (someSample : 0 < batchSize) (positive : 0 < chunkSize)
    (inside : chunkIdx * chunkSize < batchSize) :
    (plannedRun getChunkedInputs batchSize chunkSize chunkIdx).chunkInputs =
      getChunkedInputs (chunkIdx * chunkSize)
        (min (chunkIdx * chunkSize + chunkSize) batchSize) := by
  have last : min chunkIdx ((batchSize - 1) / chunkSize) = chunkIdx :=
    Nat.min_eq_left ((lt_iff_le_last someSample positive).mp inside)
  simp only [plannedRun, last]

/-- Every pass reads what a chunk with samples reads. -/
theorem exists_chunkInputs_plannedRun (getChunkedInputs : ℕ → ℕ → List α) (someSample : 0 < batchSize) (positive : 0 < chunkSize)
    (chunkIdx : ℕ) :
    ∃ real, real * chunkSize < batchSize ∧ real ≤ chunkIdx ∧
      (plannedRun getChunkedInputs batchSize chunkSize chunkIdx).chunkInputs =
        getChunkedInputs (real * chunkSize) (min (real * chunkSize + chunkSize) batchSize) :=
  ⟨min chunkIdx ((batchSize - 1) / chunkSize),
    (lt_iff_le_last someSample positive).mpr (Nat.min_le_right _ _), Nat.min_le_left _ _, rfl⟩

theorem realInputs_planned (getChunkedInputs : ℕ → ℕ → List α) (someSample : 0 < batchSize)
    (positive : 0 < chunkSize) (chunks : ℕ) :
    realInputs ((range chunks).map (plannedRun getChunkedInputs batchSize chunkSize)) =
      (realChunks batchSize chunkSize chunks).map fun chunkIdx =>
        getChunkedInputs (chunkIdx * chunkSize)
          (min (chunkIdx * chunkSize + chunkSize) batchSize) := by
  rw [realInputs, filter_map, map_map, realChunks]
  have test : ((fun run : ChunkRun α => !run.isDummy) ∘
      plannedRun getChunkedInputs batchSize chunkSize) =
      fun chunkIdx => decide (chunkIdx * chunkSize < batchSize) := by
    funext chunkIdx
    rw [Function.comp_apply, plannedRun, ← decide_not]
    simp only [not_le]
  rw [test]
  apply map_congr_left
  intro chunkIdx isReal
  exact plannedRun_real someSample positive (of_decide_eq_true (mem_filter.mp isReal).2)

variable (items : List α)

theorem slice_min_length (chunkIdx size : ℕ) :
    slice items (chunkIdx * size) (min (chunkIdx * size + size) items.length) =
      slice items (chunkIdx * size) ((chunkIdx + 1) * size) := by
  rw [slice, slice, Nat.succ_mul, ← take_take, take_length]

/-- The slices with samples, put together, are all slices put together. -/
theorem flatten_realChunks (chunkSize : ℕ) (indexes : List ℕ) :
    ((indexes.filter fun chunkIdx => chunkIdx * chunkSize < items.length).map fun chunkIdx =>
        slice items (chunkIdx * chunkSize)
          (min (chunkIdx * chunkSize + chunkSize) items.length)).flatten =
      (indexes.map fun chunkIdx =>
        slice items (chunkIdx * chunkSize) ((chunkIdx + 1) * chunkSize)).flatten := by
  induction indexes with
  | nil => rfl
  | cons chunkIdx rest ih =>
    by_cases inside : chunkIdx * chunkSize < items.length
    · rw [filter_cons_of_pos (by simpa using inside), map_cons, flatten_cons, ih,
        map_cons, flatten_cons, slice_min_length]
    · have none : slice items (chunkIdx * chunkSize) ((chunkIdx + 1) * chunkSize) = [] :=
        slice_eq_nil items (by omega)
      rw [filter_cons_of_neg (by simpa using inside), ih, map_cons, flatten_cons, none, nil_append]

/-- What a pass reads is nothing but its chunk when the chunk has samples. -/
theorem chunkInputs_plannedRun {items : List α} {size : ℕ} (positive : 0 < size)
    (inside : chunkIdx * size < items.length) :
    (plannedRun (slice items) items.length size chunkIdx).chunkInputs =
      slice items (chunkIdx * size) ((chunkIdx + 1) * size) := by
  rw [plannedRun_real (Nat.zero_lt_of_lt inside) positive inside, slice_min_length]

theorem chunkInputs_plannedRun_ne_nil {items : List α} {size : ℕ} (positive : 0 < size)
    (someSample : 0 < items.length) (chunkIdx : ℕ) :
    (plannedRun (slice items) items.length size chunkIdx).chunkInputs ≠ [] := by
  intro empty
  have noLength := congrArg length empty
  have last := (lt_iff_le_last someSample positive).mpr
    (Nat.min_le_right chunkIdx ((items.length - 1) / size))
  rw [plannedRun, length_slice, length_nil] at noLength
  omega

/-- Every sample of a process is in exactly one chunk that is no dummy. -/
theorem flatten_realInputs {chunkSize chunks size : ℕ}
    (plan : ChunkPlan items.length chunkSize chunks size) (someSample : 0 < items.length) :
    (realInputs ((range chunks).map
      (plannedRun (slice items) items.length size))).flatten = items := by
  rw [realInputs_planned _ someSample plan.size_pos, realChunks, flatten_realChunks]
  exact flatten_cutAt_mul plan.covers

/-! ## The chunks of a batch -/

/-- How many passes every process takes. -/
def passCount (chunkSize : ℕ) (batchSizes : List ℕ) : ℕ :=
  (batchSizes.map fun size => (size + chunkSize - 1) / chunkSize).foldr max 0

def samplesPerPass (chunkSize : ℕ) (batchSizes : List ℕ) (batchSize : ℕ) : ℕ :=
  (batchSize + passCount chunkSize batchSizes - 1) / passCount chunkSize batchSizes

def chunksOf {α : Type} (chunkSize : ℕ) (batchSizes : List ℕ) (batch : List α) :
    List (List α) :=
  cutAt (· * samplesPerPass chunkSize batchSizes batch.length) (passCount chunkSize batchSizes)
    batch

variable {batchSizes : List ℕ} {size chunks : ℕ}

theorem length_le_of_mem_cutAt {α : Type} {items chunk : List α}
    (isChunk : chunk ∈ cutAt (· * size) chunks items) :
    chunk.length ≤ size ∧ chunk.length ≤ items.length := by
  obtain ⟨chunkIdx, _, rfl⟩ := mem_map.mp isChunk
  have next : (chunkIdx + 1) * size = chunkIdx * size + size := Nat.succ_mul chunkIdx size
  dsimp only
  rw [length_slice, next]
  omega

/-- A batch of more than one sample is in one chunk only if no process needs two. -/
theorem le_samplesPerPass_iff {batchSizes : List ℕ} {batchSize : ℕ} (positive : 0 < chunkSize)
    (isSize : batchSize ∈ batchSizes) (someSample : 0 < batchSize) :
    batchSize ≤ samplesPerPass chunkSize batchSizes batchSize ↔
      batchSize = 1 ∨ ∀ size ∈ batchSizes, size ≤ chunkSize := by
  have passesPos : 0 < passCount chunkSize batchSizes := by
    have own : (batchSize + chunkSize - 1) / chunkSize ≤ passCount chunkSize batchSizes :=
      le_foldr_max (mem_map.mpr ⟨batchSize, isSize, rfl⟩)
    exact (Nat.div_pos (by omega) positive).trans_le own
  have onePass : passCount chunkSize batchSizes ≤ 1 ↔ ∀ size ∈ batchSizes, size ≤ chunkSize := by
    constructor
    · intro few size isOther
      have own : (size + chunkSize - 1) / chunkSize ≤ 1 :=
        (le_foldr_max (mem_map.mpr ⟨size, isOther, rfl⟩)).trans few
      rw [ceilDiv_le_iff positive, one_mul] at own
      exact own
    · intro small
      apply foldr_max_le
      intro count isCount
      obtain ⟨size, isOther, rfl⟩ := mem_map.mp isCount
      rw [ceilDiv_le_iff positive, one_mul]
      exact small size isOther
  rw [← onePass]
  constructor
  · intro covered
    by_contra several
    have two : 2 ≤ batchSize := by omega
    have twoPasses : 2 ≤ passCount chunkSize batchSizes := by omega
    have less : samplesPerPass chunkSize batchSizes batchSize ≤ batchSize - 1 := by
      rw [samplesPerPass, ceilDiv_le_iff passesPos]
      calc batchSize ≤ (batchSize - 1) * 2 := by omega
        _ ≤ (batchSize - 1) * passCount chunkSize batchSizes :=
          Nat.mul_le_mul_left _ twoPasses
    omega
  · rintro (rfl | few)
    · exact Nat.div_pos (by omega) passesPos
    · have one : passCount chunkSize batchSizes = 1 := by omega
      rw [samplesPerPass, one]
      omega

theorem maxChunks_eq_passCount (positive : 0 < chunkSize) (batchSizes : List ℕ) :
    maxChunks chunkSize batchSizes = .ok (passCount chunkSize batchSizes) :=
  maxChunks_eq positive batchSizes

theorem chunkPlan_samplesPerPass {batchSize : ℕ} (positive : 0 < chunkSize)
    (isSize : batchSize ∈ batchSizes) (someSample : 0 < batchSize) :
    ChunkPlan batchSize chunkSize (passCount chunkSize batchSizes)
      (samplesPerPass chunkSize batchSizes batchSize) := by
  obtain ⟨size, plan⟩ := exists_chunkPlan (maxChunks_eq_passCount positive batchSizes) isSize someSample
  have isSize := plan.newChunkSize
  rw [newChunkSize, if_neg plan.chunks_pos.ne'] at isSize
  have same : samplesPerPass chunkSize batchSizes batchSize = size := Except.ok.inj isSize
  rw [same]
  exact plan

/-! ## Passes of the model -/

/-- How often the model runs for the log probabilities of the chunks that the processes
hold: once, unless one is too large. -/
def logpsForwards (chunkSize : ℕ) (sizes : List ℕ) : Except LossError ℕ :=
  if sizes.any (chunkSize < ·) then maxChunks chunkSize sizes else .ok 1

/-- How often the model runs in every process, which all go from one chunk to the next
together. -/
def lossForwards (chunkSize : ℕ) (batchSizes : List ℕ) : Except LossError (List ℕ) := do
  let runs ← batchSizes.mapM fun batchSize =>
    chunkRuns (lossHasSamples batchSize) (slice (List.range batchSize)) batchSize chunkSize
      batchSizes
  runs.mapM fun processRuns => do
    let forwards ← (List.range processRuns.length).mapM fun chunkIdx =>
      logpsForwards chunkSize (runs.map fun others =>
        (others[chunkIdx]?.map fun run => run.chunkInputs.length).getD 0)
    .ok forwards.sum

theorem length_plannedRun_le (chunkSize chunkIdx : ℕ) :
    (plannedRun (slice items) items.length chunkSize chunkIdx).chunkInputs.length ≤
      chunkSize := by
  rw [plannedRun, length_slice]
  omega

/-- Every process with samples runs the model once for every chunk. -/
theorem lossForwards_eq {chunkSize chunks : ℕ} {batchSizes : List ℕ}
    (isChunks : maxChunks chunkSize batchSizes = .ok chunks)
    (someSamples : ∀ batchSize ∈ batchSizes, 0 < batchSize) :
    lossForwards chunkSize batchSizes = .ok (batchSizes.map fun _ => chunks) := by
  have plans : ∀ batchSize ∈ batchSizes, ∃ size, ChunkPlan batchSize chunkSize chunks size :=
    fun batchSize isSize => exists_chunkPlan isChunks isSize (someSamples batchSize isSize)
  choose! size plan using plans
  have runs : (batchSizes.mapM fun batchSize =>
      chunkRuns (lossHasSamples batchSize) (slice (range batchSize)) batchSize chunkSize
        batchSizes) =
      .ok (batchSizes.map fun batchSize => (range chunks).map
        (plannedRun (slice (range batchSize)) batchSize (size batchSize))) := by
    apply mapM_eq_ok_map
    intro batchSize isSize
    exact chunkRuns_eq (isRealTest_loss batchSize) isChunks (someSamples batchSize isSize)
      (plan batchSize isSize)
  refine bind_eq_ok.mpr ⟨_, runs, ?_⟩
  rw [mapM_map]
  apply mapM_eq_ok_map
  intro batchSize isSize
  -- no chunk is larger than the trainer allows, so that none is cut again
  have once : ∀ chunkIdx ∈ range chunks, logpsForwards chunkSize
      ((batchSizes.map fun batchSize => (range chunks).map
        (plannedRun (slice (range batchSize)) batchSize (size batchSize))).map fun others =>
          (others[chunkIdx]?.map fun run => run.chunkInputs.length).getD 0) = .ok 1 := by
    intro chunkIdx isChunk
    apply if_neg
    rw [any_eq_true]
    rintro ⟨length, isLength, tooLong⟩
    rw [map_map] at isLength
    obtain ⟨other, isOther, rfl⟩ := mem_map.mp isLength
    have bound := length_plannedRun_le (range other) (size other) chunkIdx
    rw [length_range] at bound
    have small := (plan other isOther).size_le
    rw [Function.comp_apply, getElem?_map, getElem?_range (mem_range.mp isChunk)]
      at tooLong
    simp only [Option.map_some, Option.getD_some, decide_eq_true_eq] at tooLong
    omega
  refine bind_eq_ok.mpr ⟨(range chunks).map fun _ => 1, ?_, ?_⟩
  · rw [length_map, length_range]
    exact mapM_eq_ok_map once
  · simp

end Geobench.Trainers
