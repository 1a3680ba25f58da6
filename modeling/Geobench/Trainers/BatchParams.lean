import Geobench.Library.ListSlices

/-!
# Batch sizes of a generation

`checkBatchParams` derives the steps of a generation or its batch size, and checks that the
prompts of a generation are shared by the data-parallel ranks in whole micro batches. It divides
by the number of generations and by the number of ranks without a check, and leaves the global
batch size to the trainer.

**`generates_iff`** says when the sizes that are accepted divide as this needs.
-/

namespace Geobench.Trainers

open Library

/-! ## The check of the arguments -/

/-- The sizes that are given. All ranks of the world are those of a data-parallel and a
model-parallel size, both positive. -/
structure BatchArguments where
  globalBatchSize : ℕ
  generationBatchSize : Option ℕ
  stepsPerGeneration : Option ℕ
  numGenerations : ℕ
  microBatchSize : ℕ
  dpSize : ℕ
  rolloutGroupSize : ℕ
  some_rank : 0 < dpSize
  some_member : 0 < rolloutGroupSize

/-- The sizes after the check. -/
structure BatchParams where
  stepsPerGeneration : ℕ
  generationBatchSize : ℕ
  perDeviceGenerationBatchSize : ℕ
  deriving DecidableEq, Repr

namespace BatchArguments

variable (arguments : BatchArguments)

def worldSize : ℕ := arguments.dpSize * arguments.rolloutGroupSize

/-- The steps of a generation and its batch size, of which at most one is given. -/
def deriveSizes : Option (ℕ × ℕ) :=
  match arguments.generationBatchSize, arguments.stepsPerGeneration with
  | none, none => some (1, arguments.globalBatchSize * 1)
  | some _, some _ => none
  | some generation, none =>
    if arguments.globalBatchSize = 0 ∨ generation % arguments.globalBatchSize ≠ 0 then none
    else some (generation / arguments.globalBatchSize, generation)
  | none, some steps => some (steps, arguments.globalBatchSize * steps)

/-- `_check_batch_params`. An exception is `none`, that of a division by zero as well. -/
def checkBatchParams : Option BatchParams := do
  let (steps, generation) ← arguments.deriveSizes
  if arguments.numGenerations = 0 then none
  let numRolloutPrompt := generation / arguments.numGenerations
  if numRolloutPrompt % arguments.dpSize ≠ 0 then none
  let perDeviceNumRolloutPrompt := numRolloutPrompt / arguments.dpSize
  if perDeviceNumRolloutPrompt < 1 then none
  if arguments.microBatchSize = 0 ∨
      perDeviceNumRolloutPrompt % arguments.microBatchSize ≠ 0 then none
  let perDeviceGeneration := generation / arguments.worldSize
  if perDeviceGeneration < 1 then none
  some ⟨steps, generation, perDeviceGeneration⟩

end BatchArguments

/-! ## A generation -/

/-- `[items[i:i + size] for i in range(0, len(items), size)]`, which raises where the size is
zero. -/
def chunksOfSize {α : Type} (size : ℕ) (items : List α) : Option (List (List α)) :=
  if size = 0 then none
  else some (cutAt (· * size) ((items.length + size - 1) / size) items)

section Trainer

variable (arguments : BatchArguments) (params : BatchParams)

/-- How many micro batches the training takes in a step. -/
def numMicrobatches : ℕ :=
  arguments.globalBatchSize / arguments.dpSize / arguments.microBatchSize

/-- `get_num_iters_per_step` while training -/
def getNumItersPerStep : Option ℕ :=
  let completionsToRollout := params.generationBatchSize / arguments.dpSize
  let promptsToRollout := completionsToRollout / arguments.numGenerations
  let numItersPerStep := promptsToRollout / arguments.microBatchSize
  if 0 < numItersPerStep then some numItersPerStep else none

variable {α : Type}

/-- Each prompt as often as there are generations. -/
def globalRolloutBatch (batch : List α) : List α :=
  batch.flatMap fun item => List.replicate arguments.numGenerations item

def getLocalRolloutBatch (batch : List α) (rolloutRank : ℕ) : Option (List α) :=
  let perDeviceBatchSize := params.perDeviceGenerationBatchSize
  if arguments.rolloutGroupSize * perDeviceBatchSize =
      (globalRolloutBatch arguments batch).length then
    some (slice (globalRolloutBatch arguments batch) (rolloutRank * perDeviceBatchSize)
      ((rolloutRank + 1) * perDeviceBatchSize))
  else none

/-- The slices of the ranks of a rollout group. -/
def localBatches (batch : List α) : Option (List (List α)) :=
  (List.range arguments.rolloutGroupSize).mapM (getLocalRolloutBatch arguments params batch)

/-- The micro batches of what the ranks of a group gather, one completion for each item. -/
def generateAndScoreCompletions (batch : List α) : Option (List (List α)) := do
  let locals ← localBatches arguments params batch
  chunksOfSize arguments.microBatchSize locals.flatten

/-- The prompts of a data-parallel rank, of which the data iterator gives a micro batch at once. -/
def rolloutBatch (dataIterator : ℕ → List α) : Option (List α) := do
  let numItersPerStep ← getNumItersPerStep arguments params
  some ((List.range numItersPerStep).flatMap dataIterator)

/-- `_replace_data_iterator`: the micro batches of each step of a generation. -/
def replaceDataIterator (dataIterator : ℕ → List α) : Option (List (List (List α))) := do
  let batch ← rolloutBatch arguments params dataIterator
  let microBatchData ← generateAndScoreCompletions arguments params batch
  let numMiniBatch := arguments.globalBatchSize / (arguments.microBatchSize * arguments.dpSize)
  let miniBatchData ← chunksOfSize numMiniBatch microBatchData
  if miniBatchData.length = params.stepsPerGeneration then some miniBatchData else none

/-! ## What a generation needs -/

/-- Every prompt is repeated over the ranks of the group, all ranks generate the generation batch
together, and each step has as many whole micro batches as the training takes, of the global batch
together, with every sample in one of them. -/
structure Generates (dataIterator : ℕ → List α) : Prop where
  prompts : ∃ batch locals, rolloutBatch arguments params dataIterator = some batch ∧
    localBatches arguments params batch = some locals ∧
      locals.flatten = globalRolloutBatch arguments batch ∧
        arguments.dpSize * locals.flatten.length = params.generationBatchSize
  steps : ∃ batch miniBatches, rolloutBatch arguments params dataIterator = some batch ∧
    replaceDataIterator arguments params dataIterator = some miniBatches ∧
      miniBatches.length = params.stepsPerGeneration ∧
        (∀ miniBatch ∈ miniBatches,
          miniBatch.length = numMicrobatches arguments ∧
            ∀ microBatch ∈ miniBatch, microBatch.length = arguments.microBatchSize) ∧
          miniBatches.flatten.flatten = globalRolloutBatch arguments batch
  global : arguments.dpSize * (numMicrobatches arguments * arguments.microBatchSize) =
    arguments.globalBatchSize

/-- The generations of all data-parallel ranks, whatever prompts they have. -/
def AlwaysGenerates : Prop :=
  ∀ dataIterator : ℕ → List ℕ, (∀ next, (dataIterator next).length = arguments.microBatchSize) →
    Generates arguments params dataIterator

end Trainer

/-! ## The sizes that are accepted -/

/-- What the check gives. -/
structure Accepted (arguments : BatchArguments) (params : BatchParams) : Prop where
  generation : params.generationBatchSize = arguments.globalBatchSize * params.stepsPerGeneration
  perDevice : params.perDeviceGenerationBatchSize =
    params.generationBatchSize / arguments.worldSize
  someDevice : 0 < params.perDeviceGenerationBatchSize
  someGeneration : 0 < arguments.numGenerations
  someSample : 0 < arguments.microBatchSize
  prompts : ∃ iters, 0 < iters ∧ params.generationBatchSize / arguments.numGenerations =
    arguments.dpSize * (arguments.microBatchSize * iters)

theorem deriveSizes_eq {arguments : BatchArguments} {steps generation : ℕ}
    (derives : arguments.deriveSizes = some (steps, generation)) :
    generation = arguments.globalBatchSize * steps := by
  unfold BatchArguments.deriveSizes at derives
  split at derives
  · cases derives
    rfl
  · cases derives
  · split at derives
    · cases derives
    · rename_i given
      push Not at given
      cases derives
      exact (Nat.mul_div_cancel' (Nat.dvd_of_mod_eq_zero given.2)).symm
  · cases derives
    rfl

theorem accepted_of_check {arguments : BatchArguments} {params : BatchParams}
    (checks : arguments.checkBatchParams = some params) : Accepted arguments params := by
  unfold BatchArguments.checkBatchParams at checks
  obtain ⟨⟨steps, generation⟩, derives, checks⟩ := Option.bind_eq_some_iff.mp checks
  by_cases noGeneration : arguments.numGenerations = 0
  · simp [noGeneration] at checks
  by_cases shared : generation / arguments.numGenerations % arguments.dpSize = 0
  swap
  · simp [noGeneration, shared] at checks
  by_cases few : generation / arguments.numGenerations / arguments.dpSize < 1
  · simp [noGeneration, shared, few] at checks
  by_cases whole : arguments.microBatchSize = 0 ∨
      generation / arguments.numGenerations / arguments.dpSize % arguments.microBatchSize ≠ 0
  · simp [noGeneration, shared, few, whole] at checks
  by_cases none : generation / arguments.worldSize < 1
  · simp [noGeneration, shared, few, whole, none] at checks
  simp only [noGeneration, shared, few, whole, none, ne_eq, not_true, if_false, Option.bind_eq_bind,
    Option.some.injEq] at checks
  subst checks
  push Not at whole few none
  obtain ⟨someSample, divides⟩ := whole
  refine ⟨deriveSizes_eq derives, rfl, none, Nat.pos_of_ne_zero noGeneration,
    Nat.pos_of_ne_zero someSample,
    generation / arguments.numGenerations / arguments.dpSize / arguments.microBatchSize, ?_, ?_⟩
  · exact Nat.div_pos (Nat.le_of_dvd few (Nat.dvd_of_mod_eq_zero divides))
      (Nat.pos_of_ne_zero someSample)
  · rw [Nat.mul_div_cancel' (Nat.dvd_of_mod_eq_zero divides),
      Nat.mul_div_cancel' (Nat.dvd_of_mod_eq_zero shared)]

/-! ## Parts of one size -/

theorem chunksOfSize_of_whole {α : Type} {size count : ℕ} (positive : 0 < size) {items : List α}
    (length : items.length = size * count) :
    ∃ chunks, chunksOfSize size items = some chunks ∧ chunks.length = count ∧
      chunks.flatten = items ∧ ∀ chunk ∈ chunks, chunk.length = size := by
  have parts : (items.length + size - 1) / size = count := by
    rw [length, Nat.add_sub_assoc positive, Nat.mul_add_div positive,
      Nat.div_eq_of_lt (Nat.sub_lt positive Nat.one_pos), Nat.add_zero]
  refine ⟨cutAt (· * size) count items, by rw [chunksOfSize, if_neg positive.ne', parts],
    length_cutAt _ _ _, flatten_cutAt_mul (by rw [length, Nat.mul_comm]), fun chunk isChunk => ?_⟩
  obtain ⟨index, isIndex, rfl⟩ := List.mem_map.mp isChunk
  have inside : (index + 1) * size ≤ items.length := by
    rw [length, Nat.mul_comm size]
    exact Nat.mul_le_mul_right size (List.mem_range.mp isIndex)
  rw [length_slice, Nat.min_eq_left inside, Nat.succ_mul, Nat.add_sub_cancel_left]

theorem length_globalRolloutBatch {α : Type} (arguments : BatchArguments) (batch : List α) :
    (globalRolloutBatch arguments batch).length = batch.length * arguments.numGenerations := by
  simp [globalRolloutBatch]

/-- The slices of the ranks of a group are all of the batch. -/
theorem localBatches_eq {α : Type} {arguments : BatchArguments} {params : BatchParams}
    {batch : List α} (covers : arguments.rolloutGroupSize * params.perDeviceGenerationBatchSize =
      (globalRolloutBatch arguments batch).length) :
    localBatches arguments params batch =
      some (cutAt (· * params.perDeviceGenerationBatchSize) arguments.rolloutGroupSize
        (globalRolloutBatch arguments batch)) := by
  have each : ∀ ranks : List ℕ, ranks.mapM (getLocalRolloutBatch arguments params batch) =
      some (ranks.map fun rank => slice (globalRolloutBatch arguments batch)
        (rank * params.perDeviceGenerationBatchSize)
          ((rank + 1) * params.perDeviceGenerationBatchSize)) := by
    intro ranks
    induction ranks with
    | nil => rfl
    | cons rank ranks inductionHypothesis =>
      rw [List.mapM_cons, inductionHypothesis, getLocalRolloutBatch]
      simp [covers]
  rw [localBatches, each, cutAt]

theorem flatten_localBatches {α : Type} {arguments : BatchArguments} {params : BatchParams}
    {batch : List α} (covers : arguments.rolloutGroupSize * params.perDeviceGenerationBatchSize =
      (globalRolloutBatch arguments batch).length) :
    (cutAt (· * params.perDeviceGenerationBatchSize) arguments.rolloutGroupSize
      (globalRolloutBatch arguments batch)).flatten = globalRolloutBatch arguments batch :=
  flatten_cutAt_mul covers.ge

/-- A rank only takes its slice where the slices cover the batch. -/
theorem covers_of_localBatches {α : Type} {arguments : BatchArguments} {params : BatchParams}
    {batch : List α} {locals : List (List α)}
    (slices : localBatches arguments params batch = some locals) :
    arguments.rolloutGroupSize * params.perDeviceGenerationBatchSize =
      (globalRolloutBatch arguments batch).length := by
  obtain ⟨rest, isRest⟩ := Nat.exists_eq_succ_of_ne_zero arguments.some_member.ne'
  rw [localBatches, isRest, List.range_succ_eq_map, List.mapM_cons] at slices
  obtain ⟨first, takes, -⟩ := Option.bind_eq_some_iff.mp slices
  rw [getLocalRolloutBatch] at takes
  by_contra differs
  simp [differs] at takes

/-! ## Sizes that divide -/

section Divides

variable {arguments : BatchArguments} {params : BatchParams}

/-- The prompts of a data-parallel rank are whole micro batches. -/
theorem getNumItersPerStep_eq (accepted : Accepted arguments params) {iters : ℕ}
    (positive : 0 < iters) (prompts : params.generationBatchSize / arguments.numGenerations =
      arguments.dpSize * (arguments.microBatchSize * iters)) :
    getNumItersPerStep arguments params = some iters := by
  have each : params.generationBatchSize / arguments.dpSize / arguments.numGenerations /
      arguments.microBatchSize = iters := by
    rw [Nat.div_right_comm params.generationBatchSize, prompts,
      Nat.mul_div_cancel_left _ arguments.some_rank, Nat.mul_div_cancel_left _ accepted.someSample]
  rw [getNumItersPerStep]
  simp only [each, if_pos positive]

theorem length_flatMap_iterator {α : Type} {size : ℕ} {dataIterator : ℕ → List α}
    (micro : ∀ next, (dataIterator next).length = size) (iters : ℕ) :
    ((List.range iters).flatMap dataIterator).length = size * iters := by
  simp [List.length_flatMap, micro, Nat.mul_comm]

theorem generates_of_divides (accepted : Accepted arguments params)
    (generations : arguments.numGenerations ∣ params.generationBatchSize)
    (world : arguments.worldSize ∣ params.generationBatchSize)
    (global : arguments.microBatchSize * arguments.dpSize ∣ arguments.globalBatchSize)
    {α : Type} {dataIterator : ℕ → List α}
    (micro : ∀ next, (dataIterator next).length = arguments.microBatchSize) :
    Generates arguments params dataIterator := by
  obtain ⟨iters, positive, prompts⟩ := accepted.prompts
  obtain ⟨miniBatches, isGlobal⟩ := global
  have rankPos := arguments.some_rank
  have samplePos := accepted.someSample
  have perStep : numMicrobatches arguments = miniBatches := by
    rw [numMicrobatches, isGlobal, Nat.mul_comm arguments.microBatchSize, Nat.mul_assoc,
      Nat.mul_div_cancel_left _ rankPos, Nat.mul_div_cancel_left _ samplePos]
  have whole : params.generationBatchSize =
      arguments.dpSize * (arguments.microBatchSize * iters * arguments.numGenerations) := by
    rw [← Nat.mul_assoc, ← prompts, Nat.div_mul_cancel generations]
  have batchLength := length_flatMap_iterator micro iters
  have rollout : rolloutBatch arguments params dataIterator =
      some ((List.range iters).flatMap dataIterator) := by
    rw [rolloutBatch, getNumItersPerStep_eq accepted positive prompts]
    rfl
  generalize (List.range iters).flatMap dataIterator = batch at batchLength rollout
  have total : (globalRolloutBatch arguments batch).length =
      arguments.microBatchSize * iters * arguments.numGenerations := by
    rw [length_globalRolloutBatch, batchLength]
  have covers : arguments.rolloutGroupSize * params.perDeviceGenerationBatchSize =
      (globalRolloutBatch arguments batch).length := by
    refine Nat.eq_of_mul_eq_mul_left rankPos ?_
    rw [total, ← whole, ← Nat.mul_assoc, accepted.perDevice]
    exact Nat.mul_div_cancel' world
  have slices := localBatches_eq covers
  have gathered := flatten_localBatches covers
  -- the micro batches of a rank are those of all its steps
  have counts : iters * arguments.numGenerations = miniBatches * params.stepsPerGeneration := by
    have same := whole.symm.trans accepted.generation
    rw [isGlobal] at same
    refine Nat.eq_of_mul_eq_mul_left (Nat.mul_pos rankPos samplePos) ?_
    calc arguments.dpSize * arguments.microBatchSize * (iters * arguments.numGenerations)
        = arguments.dpSize * (arguments.microBatchSize * iters * arguments.numGenerations) := by
          ac_rfl
      _ = arguments.microBatchSize * arguments.dpSize * miniBatches *
            params.stepsPerGeneration := same
      _ = arguments.dpSize * arguments.microBatchSize *
            (miniBatches * params.stepsPerGeneration) := by ac_rfl
  have miniPos : 0 < miniBatches := by
    refine Nat.pos_of_ne_zero fun none => ?_
    rw [none, Nat.zero_mul] at counts
    exact (Nat.mul_pos positive accepted.someGeneration).ne' counts
  obtain ⟨micros, isMicros, microCount, microAll, microSize⟩ :=
    chunksOfSize_of_whole samplePos (total.trans (Nat.mul_assoc _ _ _))
  obtain ⟨minis, isMinis, miniCount, miniAll, miniSize⟩ :=
    chunksOfSize_of_whole miniPos (microCount.trans counts)
  have perRank : arguments.globalBatchSize / (arguments.microBatchSize * arguments.dpSize) =
      miniBatches := by
    rw [isGlobal, Nat.mul_div_cancel_left _ (Nat.mul_pos samplePos rankPos)]
  have replaced : replaceDataIterator arguments params dataIterator = some minis := by
    simp [replaceDataIterator, rollout, generateAndScoreCompletions, slices, gathered, isMicros,
      perRank, isMinis, miniCount]
  refine ⟨⟨batch, _, rollout, slices, gathered, ?_⟩,
    ⟨batch, minis, rollout, replaced, miniCount, fun mini isMini => ⟨?_, fun micro isMicro => ?_⟩,
      ?_⟩, ?_⟩
  · rw [gathered, total, whole]
  · rw [perStep, miniSize mini isMini]
  · exact microSize micro (miniAll ▸ List.mem_flatten_of_mem isMini isMicro)
  · rw [miniAll, microAll]
  · rw [perStep, isGlobal]
    ac_rfl

theorem divides_of_generates {α : Type}
    {dataIterator : ℕ → List α} (generates : Generates arguments params dataIterator) :
    arguments.numGenerations ∣ params.generationBatchSize ∧
      arguments.worldSize ∣ params.generationBatchSize ∧
        arguments.microBatchSize * arguments.dpSize ∣ arguments.globalBatchSize := by
  obtain ⟨batch, locals, -, slices, gathered, whole⟩ := generates.prompts
  rw [gathered] at whole
  refine ⟨?_, ?_, ?_⟩
  · rw [← whole, length_globalRolloutBatch]
    exact Dvd.intro_left _ (Nat.mul_assoc _ _ _)
  · rw [← whole, ← covers_of_localBatches slices, ← Nat.mul_assoc]
    exact Dvd.intro _ rfl
  · refine ⟨numMicrobatches arguments, ?_⟩
    rw [← generates.global]
    ac_rfl

end Divides

/-- **Sizes that are accepted serve every generation exactly where the number of generations and
the world size divide the generation batch, and the micro batches of all ranks the global one.** -/
theorem generates_iff {arguments : BatchArguments} {params : BatchParams}
    (checks : arguments.checkBatchParams = some params) :
    AlwaysGenerates arguments params ↔
      arguments.numGenerations ∣ params.generationBatchSize ∧
        arguments.worldSize ∣ params.generationBatchSize ∧
          arguments.microBatchSize * arguments.dpSize ∣ arguments.globalBatchSize := by
  constructor
  · intro always
    exact divides_of_generates
      (always (fun _ => List.replicate arguments.microBatchSize 0) (by simp))
  · rintro ⟨generations, world, global⟩ dataIterator micro
    exact generates_of_divides (accepted_of_check checks) generations world global micro

/-- Two generations of four prompts on two ranks. -/
def fourPrompts : BatchArguments where
  globalBatchSize := 8
  generationBatchSize := none
  stepsPerGeneration := none
  numGenerations := 2
  microBatchSize := 2
  dpSize := 2
  rolloutGroupSize := 1
  some_rank := Nat.two_pos
  some_member := Nat.one_pos

theorem generates_fourPrompts : AlwaysGenerates fourPrompts ⟨1, 8, 4⟩ ↔
    2 ∣ 8 ∧ fourPrompts.worldSize ∣ 8 ∧ 2 * 2 ∣ 8 :=
  generates_iff (by decide)

/-- Three generations for a batch of eight, which are whole for two prompts only. -/
def threeGenerations : BatchArguments where
  globalBatchSize := 8
  generationBatchSize := none
  stepsPerGeneration := none
  numGenerations := 3
  microBatchSize := 1
  dpSize := 1
  rolloutGroupSize := 1
  some_rank := Nat.one_pos
  some_member := Nat.one_pos

theorem not_generates_threeGenerations :
    ¬ ∀ (arguments : BatchArguments) (params : BatchParams),
      arguments.checkBatchParams = some params → AlwaysGenerates arguments params := by
  intro always
  have checks : threeGenerations.checkBatchParams = some ⟨1, 8, 8⟩ := by decide
  have generates := always threeGenerations _ checks (fun _ => [0]) (fun _ => rfl)
  have divides := (divides_of_generates generates).1
  revert divides
  decide

end Geobench.Trainers
