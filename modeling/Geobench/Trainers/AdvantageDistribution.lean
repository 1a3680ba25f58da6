import Geobench.Trainers.RequestAdvantages

/-!
# Advantages of the processes

After a rollout the samples are scored, and resampled when the trainer does so. Every
process computes the advantages of all samples and keeps its even share of them, which must
have the length of its own samples. Then the samples are split into mini batches, and the
advantages of a mini batch are those in its samples.

Dynamic sampling cuts the samples by the lengths of its last round, so the trainer attaches to every
sample its own advantage exactly when that round has as many samples as the batch, or one process has
all of them (`distributes_iff`).
-/

namespace Geobench.Trainers

open Library List

/-! ## The trainer -/

structure ScoredSample where
  sample : Sample
  advantage : Option ℚ
  deriving DecidableEq, Repr

/-- The encoded samples of a mini batch with their stacked advantages. -/
structure MiniBatch where
  rows : List Sample
  advantages : List (Option ℚ)
  deriving DecidableEq, Repr

inductive ScoringError where
  | notViewed
  | advantages (error : AdvantageError)
  | assertionError
  deriving DecidableEq, Repr

/-- The parts of a trainer that scoring uses. A process gathers the samples of the processes
of its groups when sequences are split. -/
structure ScoringTrainer extends DynamicSampler where
  settings : AdvantageSettings ℚ
  sqrt : ℚ → ℚ
  divergence : Sample → ℚ
  training : Bool
  dynamicSample : Bool
  stepsPerGeneration : ℕ
  perDeviceEvalBatchSize : ℕ
  sequenceParallelSize : ℕ
  spGroup : ℕ → List ℕ
  rpGroup : ℕ → List ℕ

namespace ScoringTrainer

variable (trainer : ScoringTrainer)

def scoreCompletions (rounds : ℕ → Round trainer.numProcesses) : Option SamplingOutcome :=
  if trainer.dynamicSample && trainer.training then trainer.dynamicSampling rounds
  else some {
    inputs := (rounds 0).inputs
    rewardsPerFunc := (rounds 0).rewardsPerFunc
    dynamicNumSamples := (rounds 0).dynamicNumSamples }

def totalAdvantages (samples : List Sample) (rewardsPerFunc : List RewardRow)
    (dynamicNumSamples : Bool) : Except AdvantageError (List (Option ℚ)) :=
  computeAdvantages trainer.sqrt trainer.settings dynamicNumSamples (samples.map Sample.promptId)
    (samples.map Sample.requestId) rewardsPerFunc (samples.map trainer.divergence)

def attachAdvantages (totalAdvantages : List (Option ℚ)) (processIndex : ℕ)
    (inputs : List Sample) : Except ScoringError (List ScoredSample) :=
  let localAdvantages := getEvenProcessData trainer.numProcesses processIndex totalAdvantages
  if localAdvantages.length = inputs.length then
    .ok (List.zipWith ScoredSample.mk inputs localAdvantages)
  else .error .assertionError

def splitByMiniBatches {α : Type} (inputs : List (List α)) (processIndex : ℕ) :
    List (List α) :=
  if trainer.sequenceParallelSize = 1 then
    spgChunks (if trainer.training then trainer.stepsPerGeneration else 1)
      (inputs.getD processIndex [])
  else
    let gathered := (trainer.rpGroup processIndex).flatMap fun other =>
      (trainer.spGroup other).flatMap fun another => inputs.getD another []
    if trainer.training then
      spgChunks (trainer.stepsPerGeneration *
        ((trainer.spGroup processIndex).length * (trainer.rpGroup processIndex).length)) gathered
    else spgChunks 1 (gathered.take trainer.perDeviceEvalBatchSize)

/-- The mini batches of a process with their advantages. They were encoded before the
advantages were attached. -/
def stackAdvantages (inputs : List (List Sample)) (scored : List (List ScoredSample))
    (processIndex : ℕ) : Except ScoringError (List MiniBatch) :=
  let encoded := trainer.splitByMiniBatches inputs processIndex
  let gasChunks := trainer.splitByMiniBatches scored processIndex
  if gasChunks.length = encoded.length then
    .ok (List.zipWith (fun rows chunk => ⟨rows, chunk.map ScoredSample.advantage⟩)
      encoded gasChunks)
  else .error .assertionError

/-- What the processes have after scoring. -/
structure Scoring where
  inputs : List (List ScoredSample)
  batches : List (List MiniBatch)
  deriving DecidableEq, Repr

/-- Score the completions of the processes and attach the advantages. -/
def generateAndScore (rounds : ℕ → Round trainer.numProcesses) :
    Except ScoringError Scoring :=
  match trainer.scoreCompletions rounds with
  | none => .error .notViewed
  | some outcome =>
    match trainer.totalAdvantages (gatherObject outcome.inputs) outcome.rewardsPerFunc
        outcome.dynamicNumSamples with
    | .error error => .error (.advantages error)
    | .ok totalAdvantages => do
        let scored ← (List.range trainer.numProcesses).mapM fun processIndex =>
          trainer.attachAdvantages totalAdvantages processIndex
            (outcome.inputs.getD processIndex [])
        let batches ← (List.range trainer.numProcesses).mapM
          (trainer.stackAdvantages outcome.inputs scored)
        return ⟨scored, batches⟩

/-! ## The samples that the rewards are of -/

/-- The samples whose rewards the trainer has, in the order of the rewards: those of the
first round as they were gathered, or the batch that dynamic sampling collected. -/
inductive Rewarded (rounds : ℕ → Round trainer.numProcesses) :
    List Sample → List RewardRow → Bool → Prop
  | scored (off : (trainer.dynamicSample && trainer.training) = false) :
      Rewarded rounds (rounds 0).samples (rounds 0).rewardsPerFunc (rounds 0).dynamicNumSamples
  | kept (on : (trainer.dynamicSample && trainer.training) = true)
      (none : ∀ last, ¬trainer.Collects rounds last) {outcome : SamplingOutcome}
      (isOutcome : trainer.dynamicSampling rounds = some outcome) :
      Rewarded rounds (rounds 0).samples (rounds 0).rewardsPerFunc outcome.dynamicNumSamples
  | collected (on : (trainer.dynamicSample && trainer.training) = true) {last : ℕ}
      (collects : trainer.Collects rounds last) :
      Rewarded rounds
        (((trainer.collected rounds (last + 1)).take trainer.generationBatchSize).map
          Entry.sample)
        (((trainer.collected rounds (last + 1)).take trainer.generationBatchSize).map
          Entry.rewards)
        (rounds last).dynamicNumSamples

/-- The trainer attaches to the samples of the processes the advantages at their positions
among the samples that the rewards are of, and every mini batch has the advantages of its
samples. -/
def Distributes (rounds : ℕ → Round trainer.numProcesses) : Prop :=
  ∀ samples rewardsPerFunc dynamicNumSamples,
    trainer.Rewarded rounds samples rewardsPerFunc dynamicNumSamples →
      ∃ outcome totalAdvantages scoring,
        trainer.scoreCompletions rounds = some outcome ∧
        trainer.totalAdvantages samples rewardsPerFunc dynamicNumSamples = .ok totalAdvantages ∧
        totalAdvantages.length = samples.length ∧
        trainer.generateAndScore rounds = .ok scoring ∧
        scoring.inputs.map (List.map ScoredSample.sample) = outcome.inputs ∧
        gatherObject scoring.inputs = List.zipWith ScoredSample.mk samples totalAdvantages ∧
        scoring.batches = (List.range trainer.numProcesses).map fun processIndex =>
          (trainer.splitByMiniBatches scoring.inputs processIndex).map fun chunk =>
            ⟨chunk.map ScoredSample.sample, chunk.map ScoredSample.advantage⟩

/-! ## Mini batches -/

variable {α : Type}

theorem map_spgChunks {β : Type} (f : α → β) (spg : ℕ) (inputs : List α) :
    spgChunks spg (inputs.map f) = (spgChunks spg inputs).map (map f) := by
  rw [spgChunks_eq, spgChunks_eq, map_evenShares]

/-- Items are split like what is attached to them. -/
theorem splitByMiniBatches_map {β : Type} (f : α → β) (inputs : List (List α)) (processIndex : ℕ) :
    trainer.splitByMiniBatches (inputs.map (map f)) processIndex =
      (trainer.splitByMiniBatches inputs processIndex).map (map f) := by
  have own : ∀ other, (inputs.map (map f)).getD other [] = (inputs.getD other []).map f :=
    fun _ => getD_map inputs [] (map f)
  have gathered : ((trainer.rpGroup processIndex).flatMap fun other =>
        (trainer.spGroup other).flatMap fun another => (inputs.map (map f)).getD another []) =
      ((trainer.rpGroup processIndex).flatMap fun other =>
        (trainer.spGroup other).flatMap fun another => inputs.getD another []).map f := by
    simp only [own, map_flatMap]
  rw [splitByMiniBatches, splitByMiniBatches, own]
  dsimp only
  rw [gathered, ← map_take]
  split
  · exact map_spgChunks f _ _
  · split <;> exact map_spgChunks f _ _

/-- The mini batches have the advantages of their samples. -/
theorem stackAdvantages_eq (scored : List (List ScoredSample)) (processIndex : ℕ) :
    trainer.stackAdvantages (scored.map (map ScoredSample.sample)) scored processIndex =
      .ok ((trainer.splitByMiniBatches scored processIndex).map fun chunk =>
        ⟨chunk.map ScoredSample.sample, chunk.map ScoredSample.advantage⟩) := by
  rw [stackAdvantages, splitByMiniBatches_map]
  rw [if_pos (length_map _).symm, zipWith_map_left, zipWith_self]

/-! ## Attaching the advantages -/

variable {samples : List Sample}

theorem attach_of_evenly_shared {totalAdvantages : List (Option ℚ)}
    (length : totalAdvantages.length = samples.length) :
    (range trainer.numProcesses).mapM (fun processIndex =>
        trainer.attachAdvantages totalAdvantages processIndex
          ((evenShares trainer.numProcesses samples).getD processIndex [])) =
      .ok (evenShares trainer.numProcesses
        (zipWith ScoredSample.mk samples totalAdvantages)) := by
  refine mapM_eq_ok_iff.mpr (forall₂_map_right_iff.mpr (forall₂_same.mpr ?_))
  intro processIndex isProcess
  have inside : processIndex < (evenShares trainer.numProcesses samples).length := by
    rw [length_evenShares]
    exact mem_range.mp isProcess
  have both : (zipWith ScoredSample.mk samples totalAdvantages).length = samples.length := by
    rw [length_zipWith, length, Nat.min_self]
  rw [attachAdvantages, getD_eq_getElem _ _ inside, getElem_evenShares,
    getEvenProcessData_eq, length]
  rw [if_pos (by rw [length_slice, length_slice, length]), ← slice_zipWith, both]

/-! ## The lengths -/

variable {dynamicNumSamples : Bool} {rewardsPerFunc : List RewardRow}

theorem length_computeAdvantages {promptIds requestIds : List String} {kl : List ℚ}
    {advantages : List (Option ℚ)} (scored : rewardsPerFunc.length = requestIds.length)
    (measured : kl.length = rewardsPerFunc.length)
    (computes : computeAdvantages trainer.sqrt trainer.settings dynamicNumSamples promptIds
      requestIds rewardsPerFunc kl = .ok advantages) :
    advantages.length = rewardsPerFunc.length := by
  obtain ⟨rewards, length, isRewards⟩ := exists_totalRewards trainer.settings measured
  rw [computeAdvantages, isRewards] at computes
  dsimp only at computes
  split at computes
  · split at computes
    · rename_i full
      by_cases uses : trainer.settings.UsesGdpo
      · rw [groupedAdvantages_of_gdpo trainer.sqrt uses] at computes
        cases computes
        rw [whiten, length_map, length_weightedColumns]
      · obtain ⟨numbers, lengthNumbers, isNumbers⟩ :=
          groupedAdvantages_of_not_gdpo trainer.sqrt uses full
        rw [isNumbers] at computes
        cases computes
        rw [length_map, lengthNumbers, length]
    · cases computes
  · rw [requestAwareAdvantages] at computes
    split at computes
    · dsimp only at computes
      split at computes
      · split at computes
        · cases computes
          rw [length_map, scored]
        · cases computes
      · cases computes
    · cases computes

theorem length_eq_of_rewarded {rounds : ℕ → Round trainer.numProcesses}
    (rewarded : trainer.Rewarded rounds samples rewardsPerFunc dynamicNumSamples) :
    rewardsPerFunc.length = samples.length := by
  cases rewarded with
  | scored off => exact (rounds 0).scored
  | kept on none isOutcome => exact (rounds 0).scored
  | collected on collects => rw [length_map, length_map]

theorem length_totalAdvantages {totalAdvantages : List (Option ℚ)}
    (scored : rewardsPerFunc.length = samples.length)
    (computes : trainer.totalAdvantages samples rewardsPerFunc dynamicNumSamples =
      .ok totalAdvantages) : totalAdvantages.length = samples.length := by
  refine (trainer.length_computeAdvantages ?_ ?_ computes).trans scored
  · rw [length_map, scored]
  · rw [length_map, scored]

/-! ## When the samples are evenly shared -/

/-- Evenly shared samples get their own advantages. -/
theorem generateAndScore_of_evenly_shared {rounds : ℕ → Round trainer.numProcesses}
    {totalAdvantages : List (Option ℚ)}
    (isOutcome : trainer.scoreCompletions rounds =
      some ⟨evenShares trainer.numProcesses samples, rewardsPerFunc, dynamicNumSamples⟩)
    (scored : rewardsPerFunc.length = samples.length)
    (computes : trainer.totalAdvantages samples rewardsPerFunc dynamicNumSamples =
      .ok totalAdvantages) :
    ∃ outcome totalAdvantages scoring,
      trainer.scoreCompletions rounds = some outcome ∧
      trainer.totalAdvantages samples rewardsPerFunc dynamicNumSamples = .ok totalAdvantages ∧
      totalAdvantages.length = samples.length ∧
      trainer.generateAndScore rounds = .ok scoring ∧
      scoring.inputs.map (map ScoredSample.sample) = outcome.inputs ∧
      gatherObject scoring.inputs = zipWith ScoredSample.mk samples totalAdvantages ∧
      scoring.batches = (range trainer.numProcesses).map fun processIndex =>
        (trainer.splitByMiniBatches scoring.inputs processIndex).map fun chunk =>
          ⟨chunk.map ScoredSample.sample, chunk.map ScoredSample.advantage⟩ := by
  have length := trainer.length_totalAdvantages scored computes
  let attached := evenShares trainer.numProcesses
    (zipWith ScoredSample.mk samples totalAdvantages)
  have gathered : gatherObject attached = zipWith ScoredSample.mk samples totalAdvantages :=
    flatten_evenShares trainer.numProcesses_pos _
  have isSamples : attached.map (map ScoredSample.sample) =
      evenShares trainer.numProcesses samples := by
    have first : (zipWith ScoredSample.mk samples totalAdvantages).map ScoredSample.sample =
        samples := by
      rw [← map_uncurry_zip_eq_zipWith, map_map]
      exact map_fst_zip (Nat.le_of_eq length.symm)
    rw [← map_evenShares, first]
  let batches := (range trainer.numProcesses).map fun processIndex =>
    (trainer.splitByMiniBatches attached processIndex).map fun chunk =>
      (⟨chunk.map ScoredSample.sample, chunk.map ScoredSample.advantage⟩ : MiniBatch)
  have stacked : (range trainer.numProcesses).mapM (trainer.stackAdvantages
      (evenShares trainer.numProcesses samples) attached) = .ok batches := by
    refine mapM_eq_ok_iff.mpr (forall₂_map_right_iff.mpr (forall₂_same.mpr ?_))
    intro processIndex _
    rw [← isSamples]
    exact trainer.stackAdvantages_eq attached processIndex
  have together : gatherObject (evenShares trainer.numProcesses samples) = samples :=
    flatten_evenShares trainer.numProcesses_pos samples
  refine ⟨_, totalAdvantages, ⟨attached, batches⟩, isOutcome, computes, length, ?_, isSamples,
    gathered, rfl⟩
  rw [generateAndScore, isOutcome]
  dsimp only
  rw [together, computes]
  dsimp only
  rw [trainer.attach_of_evenly_shared length]
  exact bind_eq_ok.mpr ⟨_, rfl, bind_eq_ok.mpr ⟨_, stacked, rfl⟩⟩

/-! ## After dynamic sampling -/

/-- The samples are cut into even shares when the last round has as many as the batch, or
when one process has all of them. -/
theorem ownSlices_of_fits {numProcesses total : ℕ} {batch : List α}
    (divides : numProcesses ∣ batch.length)
    (fits : total = batch.length ∨ numProcesses = 1 ∧ batch.length ≤ total) :
    ownSlices numProcesses total batch = evenShares numProcesses batch := by
  rcases fits with rfl | ⟨rfl, covers⟩
  · refine map_congr_left fun processIndex _ => ?_
    rw [shareLength, evenCut, evenCut, Nat.mod_eq_zero_of_dvd divides,
      if_neg (Nat.not_lt_zero _), Nat.min_zero, Nat.min_zero]
    simp only [Nat.add_zero]
  · have whole : evenShares 1 batch = [batch] := by
      have parts := flatten_evenShares Nat.one_pos batch
      obtain ⟨only, isOnly⟩ := length_eq_one_iff.mp (length_evenShares 1 batch)
      rw [isOnly, flatten_singleton] at parts
      rw [isOnly, parts]
    have share : shareLength 1 total 0 = total := by
      rw [shareLength, Nat.div_one, Nat.mod_one, if_neg (Nat.lt_irrefl 0), Nat.add_zero]
    rw [whole, ownSlices, range_one, map_singleton, share, Nat.zero_mul, Nat.zero_add,
      Nat.one_mul, slice_zero batch covers]

/-- Slices as long as the even shares come from a round with as many samples as the batch, or
from one process. -/
theorem fits_of_length_ownSlices {numProcesses total : ℕ} {batch : List α}
    (positive : 0 < numProcesses) (someSample : 0 < batch.length)
    (divides : numProcesses ∣ batch.length)
    (lengths : ∀ processIndex < numProcesses,
      ((ownSlices numProcesses total batch).getD processIndex []).length =
        batch.length / numProcesses) :
    total = batch.length ∨ numProcesses = 1 ∧ batch.length ≤ total := by
  obtain ⟨share, isShare⟩ := divides
  have someShare : 0 < share := Nat.pos_of_mul_pos_left (isShare ▸ someSample)
  have length : ∀ processIndex < numProcesses,
      min ((processIndex + 1) * shareLength numProcesses total processIndex) batch.length -
        processIndex * shareLength numProcesses total processIndex = share := by
    intro processIndex isProcess
    have inside : processIndex < (ownSlices numProcesses total batch).length := by
      rwa [ownSlices, length_map, length_range]
    have own := lengths processIndex isProcess
    rw [getD_eq_getElem _ _ inside, isShare, Nat.mul_div_cancel_left _ positive] at own
    rw [← length_slice]
    refine Eq.trans (congrArg length ?_) own
    simp only [ownSlices, getElem_map, getElem_range]
  have isTotal := Nat.div_add_mod total numProcesses
  have fewer := Nat.mod_lt total positive
  have first := length 0 positive
  rw [Nat.zero_mul, Nat.sub_zero, Nat.zero_add, Nat.one_mul] at first
  rcases Nat.eq_or_lt_of_le positive with rfl | several
  · rw [shareLength, Nat.div_one, Nat.mod_one, if_neg (Nat.lt_irrefl 0), Nat.add_zero] at first
    rw [Nat.one_mul] at isShare
    exact Or.inr ⟨rfl, by omega⟩
  · left
    have wider : share < numProcesses * share := lt_mul_of_one_lt_left someShare several
    rcases Nat.eq_zero_or_pos (total % numProcesses) with even | uneven
    · rw [shareLength, even, if_neg (Nat.lt_irrefl 0), Nat.add_zero, isShare] at first
      have same : total / numProcesses = share := by omega
      rw [even, Nat.add_zero, same] at isTotal
      exact isTotal.symm.trans isShare.symm
    · -- The last process has one sample less than the first.
      have last := length (numProcesses - 1) (Nat.sub_lt positive Nat.one_pos)
      rw [shareLength, if_pos uneven, isShare] at first
      rw [shareLength, if_neg (by omega), Nat.add_zero, Nat.succ_mul] at last
      omega

theorem length_of_attachAdvantages {totalAdvantages : List (Option ℚ)} {processIndex : ℕ}
    {inputs : List Sample} {scored : List ScoredSample}
    (attached : trainer.attachAdvantages totalAdvantages processIndex inputs = .ok scored) :
    inputs.length =
      (getEvenProcessData trainer.numProcesses processIndex totalAdvantages).length := by
  rw [attachAdvantages] at attached
  split at attached
  · rename_i same
    exact same.symm
  · cases attached

theorem attached_of_generateAndScore {rounds : ℕ → Round trainer.numProcesses}
    {outcome : SamplingOutcome} {scoring : Scoring}
    (isOutcome : trainer.scoreCompletions rounds = some outcome)
    (generates : trainer.generateAndScore rounds = .ok scoring) :
    ∃ totalAdvantages, trainer.totalAdvantages (gatherObject outcome.inputs)
        outcome.rewardsPerFunc outcome.dynamicNumSamples = .ok totalAdvantages ∧
      (range trainer.numProcesses).mapM (fun processIndex =>
        trainer.attachAdvantages totalAdvantages processIndex
          (outcome.inputs.getD processIndex [])) = .ok scoring.inputs := by
  rw [generateAndScore, isOutcome] at generates
  dsimp only at generates
  split at generates
  · cases generates
  · rename_i totalAdvantages computes
    obtain ⟨scored, attached, rest⟩ := bind_eq_ok.mp generates
    obtain ⟨batches, -, isScoring⟩ := bind_eq_ok.mp rest
    cases isScoring
    exact ⟨totalAdvantages, computes, attached⟩

variable {trainer}

/-- Advantages are attached after dynamic sampling only when its last round fits. -/
theorem fits_of_distributes {rounds : ℕ → Round trainer.numProcesses}
    (distributes : trainer.Distributes rounds)
    (on : (trainer.dynamicSample && trainer.training) = true) {last : ℕ}
    (collects : trainer.Collects rounds last) :
    (rounds last).samples.length = trainer.generationBatchSize ∨
      trainer.numProcesses = 1 ∧ trainer.generationBatchSize ≤ (rounds last).samples.length := by
  obtain ⟨outcome, totalAdvantages, scoring, isOutcome, computes, length, generates, isInputs,
    gathered, -⟩ := distributes _ _ _ (.collected on collects)
  let batch := ((trainer.collected rounds (last + 1)).take trainer.generationBatchSize).map
    Entry.sample
  have lengthBatch : batch.length = trainer.generationBatchSize := by
    rw [length_map, collects.length_batch]
  rw [scoreCompletions, if_pos on, DynamicSampler.dynamicSampling_of_collects collects] at isOutcome
  cases isOutcome
  -- The samples of the processes are those the rewards are of.
  have isSlices : scoring.inputs.map (map ScoredSample.sample) =
      ownSlices trainer.numProcesses (rounds last).samples.length batch := isInputs
  have isBatch : gatherObject (ownSlices trainer.numProcesses (rounds last).samples.length batch) =
      batch := by
    rw [← isSlices, gatherObject, ← map_flatten]
    refine (congrArg (map ScoredSample.sample) gathered).trans ?_
    rw [← map_uncurry_zip_eq_zipWith, map_map]
    exact map_fst_zip (Nat.le_of_eq length.symm)
  rw [← lengthBatch]
  refine fits_of_length_ownSlices trainer.numProcesses_pos ?_ ?_ fun processIndex isProcess => ?_
  · rw [lengthBatch]
    exact trainer.generationBatchSize_pos
  · rw [lengthBatch]
    exact trainer.numProcesses_dvd
  · obtain ⟨attachedAdvantages, computesAttached, attached⟩ :=
      trainer.attached_of_generateAndScore (by
        rw [scoreCompletions, if_pos on, DynamicSampler.dynamicSampling_of_collects collects])
        generates
    dsimp only at computesAttached attached
    rw [isBatch, computes] at computesAttached
    cases computesAttached
    obtain ⟨own, isOwn⟩ := succeeds_of_mapM_eq_ok attached (mem_range.mpr isProcess)
    have inside : processIndex < (evenShares trainer.numProcesses totalAdvantages).length := by
      rwa [length_evenShares]
    rw [trainer.length_of_attachAdvantages isOwn, getEvenProcessData_eq_getElem _ inside,
      length_getElem_evenShares, length, lengthBatch,
      Nat.mod_eq_zero_of_dvd trainer.numProcesses_dvd]
    rfl

def scoringPrompts (dynamicSample : Bool) : ScoringTrainer where
  toDynamicSampler := DynamicSampler.twoPrompts
  settings := {
    advantageEstimator := .grpo
    scaleRewards := .none
    numGenerations := 2
    numGenerations_pos := Nat.two_pos
    rewardWeights := [1]
    klInReward := false
    beta := 0
    gdpo_kl := nofun }
  sqrt := id
  divergence := fun _ => 0
  training := true
  dynamicSample := dynamicSample
  stepsPerGeneration := 1
  perDeviceEvalBatchSize := 1
  sequenceParallelSize := 1
  spGroup := fun processIndex => [processIndex]
  rpGroup := fun processIndex => [processIndex]

end ScoringTrainer

end Geobench.Trainers
