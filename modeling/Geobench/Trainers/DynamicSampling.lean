import Geobench.Library.Deviation
import Geobench.Trainers.ServerRollout

/-!
# Dynamic sampling

Dynamic sampling replaces the samples of groups in which all rewards are equal. Round
after round it gathers the samples of all processes, keeps those of groups whose rewards
have a positive standard deviation, and stops when it has a generation batch of them, or
after a number of rounds. Every process then cuts its part out of the batch, with the
length of its own samples of the last round.

Samples are grouped by their position, `num_generations` at a time. When a multi-turn
server returned another number of samples than requests, they are grouped by the id of
their prompt, and a request that has several samples counts with the reward of the last.

`dynamicSampling_conserves_iff` says exactly when the processes hold the batch: the lengths must fit
(`Fits`), and the end of the batch must not cut a group of the last round (`Cuts`). In the Megatron
trainer a process cuts out an even share, and they always do (`megatronSampling_conserves`).
-/

namespace Geobench.Trainers

open Library List

/-! ## Samples and rounds -/

/-- A sample. `object` is the identity of its dictionary. -/
structure Sample where
  object : ℕ
  promptId : String
  requestId : String
  deriving DecidableEq, Repr

/-- The rewards of a sample, one for each reward function, where `none` is `nan`. -/
abbrev RewardRow := List (Option ℚ)

/-- What generating and scoring gives: the samples of every process and the rewards of
all, in the order of the processes. Every process has an even share of the samples. -/
structure Round (numProcesses : ℕ) where
  dynamicNumSamples : Bool
  inputs : List (List Sample)
  rewardsPerFunc : List RewardRow
  evenlyShared : inputs = evenShares numProcesses (gatherObject inputs)
  scored : rewardsPerFunc.length = (gatherObject inputs).length

variable {numProcesses : ℕ}

def Round.samples (round : Round numProcesses) : List Sample := gatherObject round.inputs

/-- The weighted sum of the rewards of a sample, where `nan` counts as zero. -/
def weightedReward (rewardWeights : List ℚ) (row : RewardRow) : ℚ :=
  ((row.zip rewardWeights).map fun (reward, weight) =>
    match reward with
    | none => 0
    | some reward => reward * weight).sum

/-! ## The deviation of the rewards -/

/-- The request ids in the order of their first samples, each with its last position. -/
def lastSeen : List (String × ℕ) → List (String × ℕ) → List (String × ℕ)
  | seen, [] => seen
  | seen, (requestId, i) :: rest =>
    if requestId ∈ seen.map Prod.fst then
      lastSeen (seen.map fun entry => if entry.1 = requestId then (requestId, i) else entry) rest
    else
      lastSeen (seen ++ [(requestId, i)]) rest

def getLastIndices (requestIds : List String) : List ℕ :=
  (lastSeen [] requestIds.zipIdx).map Prod.snd

/-- The prompts of the requests, each with its reward. -/
structure RequestTable where
  requestIds : List String
  promptIds : List String
  rewards : List ℚ

/-- The requests of a batch, each with the prompt and the reward of its last sample. -/
def requestTable (samples : List Sample) (rewards : List ℚ) : RequestTable :=
  let promptIds := samples.map Sample.promptId
  let requestIds := samples.map Sample.requestId
  let uniqueIndices := getLastIndices requestIds
  { requestIds := uniqueIndices.map (requestIds.getD · "")
    promptIds := uniqueIndices.map (promptIds.getD · "")
    rewards := uniqueIndices.map (rewards.getD · 0) }

def RequestTable.promptRewards (table : RequestTable) (promptId : String) : List ℚ :=
  ((table.promptIds.zip table.rewards).filter (·.1 = promptId)).map Prod.snd

def RequestTable.promptOf (table : RequestTable) (requestId : String) : String :=
  table.promptIds.getD (table.requestIds.idxOf requestId) ""

/-- The variance of the rewards of a group. A group of one has none. -/
def spread (rewards : List ℚ) : ℚ :=
  if 1 < rewards.length then sampleVariance rewards else 0

/-- The parts of a trainer that dynamic sampling uses. The generation batch is a multiple
of the number of processes and of the number of generations of a prompt. -/
structure DynamicSampler where
  numProcesses : ℕ
  numProcesses_pos : 0 < numProcesses
  generationBatchSize : ℕ
  generationBatchSize_pos : 0 < generationBatchSize
  numProcesses_dvd : numProcesses ∣ generationBatchSize
  numGenerations : ℕ
  numGenerations_pos : 0 < numGenerations
  numGenerations_dvd : numGenerations ∣ generationBatchSize
  maxResampleTimes : ℕ
  rewardWeights : List ℚ

namespace DynamicSampler

variable (sampler : DynamicSampler)

def rewards (round : Round numProcesses) : List ℚ :=
  round.rewardsPerFunc.map (weightedReward sampler.rewardWeights)

/-- The squares of the standard deviations, for every sample that of its group. The
rewards can be viewed in groups only when the groups are full. -/
def computeStd (round : Round numProcesses) : Option (List ℚ) :=
  let rewards := sampler.rewards round
  if round.dynamicNumSamples = false then
    if sampler.numGenerations ∣ rewards.length then
      let groupedRewards :=
        cutAt (· * sampler.numGenerations) (rewards.length / sampler.numGenerations) rewards
      some (groupedRewards.flatMap fun group =>
        List.replicate sampler.numGenerations (spread group))
    else none
  else
    let table := requestTable round.samples rewards
    let promptStds := table.promptIds.map fun promptId => spread (table.promptRewards promptId)
    some (round.samples.map fun sample =>
      promptStds.getD (table.requestIds.idxOf sample.requestId) 0)

end DynamicSampler

/-! ## The rounds -/

def keepMasked {α : Type} (items : List α) (mask : List Bool) : List α :=
  ((items.zip mask).filter (·.2)).map Prod.fst

/-- The current round, and what has been collected. -/
structure SamplingState (numProcesses : ℕ) where
  round : Round numProcesses
  validSamples : List Sample
  validRewardsPerFunc : List (List RewardRow)

def SamplingState.collect (state : SamplingState numProcesses) (validMask : List Bool) :
    SamplingState numProcesses where
  round := state.round
  validSamples := state.validSamples ++ keepMasked (gatherObject state.round.inputs) validMask
  validRewardsPerFunc :=
    state.validRewardsPerFunc ++ [keepMasked state.round.rewardsPerFunc validMask]

/-- What a process group has after dynamic sampling: the samples of every process and the
rewards of all. -/
structure SamplingOutcome where
  inputs : List (List Sample)
  rewardsPerFunc : List RewardRow
  dynamicNumSamples : Bool

/-- The rounds a trainer can draw, the one it starts with first. All samples are
dictionaries of their own. -/
structure Rounds (numProcesses : ℕ) where
  round : ℕ → Round numProcesses
  distinct : ∀ {first second position other : ℕ} {sample twin : Sample},
    (round first).samples[position]? = some sample →
    (round second).samples[other]? = some twin →
    sample.object = twin.object → first = second ∧ position = other

namespace DynamicSampler

variable (sampler : DynamicSampler)

/-- Collect valid samples from round after round, for some more rounds. -/
def sampleRounds (rounds : ℕ → Round numProcesses) :
    ℕ → ℕ → SamplingState numProcesses → Option (SamplingState numProcesses)
  | 0, _, state => some state
  | remaining + 1, resampleCount, state =>
    match sampler.computeStd state.round with
    | none => none
    | some rewardsStd =>
      let state := state.collect (rewardsStd.map fun std => decide (0 < std))
      if sampler.generationBatchSize ≤ state.validSamples.length then
        some state
      else
        sampleRounds rounds remaining (resampleCount + 1)
          { state with round := rounds (resampleCount + 1) }

/-- The part of the batch that a process cuts out. -/
def processSamples (round : Round numProcesses) (validSamples : List Sample)
    (processIndex : ℕ) : List Sample :=
  let length := (round.inputs.getD processIndex []).length
  slice (validSamples.take sampler.generationBatchSize) (processIndex * length)
    ((processIndex + 1) * length)

/-- Replace the samples of groups with equal rewards. -/
def dynamicSampling (rounds : ℕ → Round sampler.numProcesses) : Option SamplingOutcome :=
  match sampler.sampleRounds rounds sampler.maxResampleTimes 0 ⟨rounds 0, [], []⟩ with
  | none => none
  | some state =>
    if sampler.generationBatchSize ≤ state.validSamples.length then
      some {
        inputs := (List.range sampler.numProcesses).map
          (sampler.processSamples state.round state.validSamples)
        rewardsPerFunc := state.validRewardsPerFunc.flatten.take sampler.generationBatchSize
        dynamicNumSamples := state.round.dynamicNumSamples }
    else
      some {
        inputs := (rounds 0).inputs
        rewardsPerFunc := (rounds 0).rewardsPerFunc
        dynamicNumSamples := state.round.dynamicNumSamples }

end DynamicSampler

/-! ## The groups of a round -/

/-- A group of samples: some consecutive ones, or those of a prompt. -/
inductive Group where
  | rows (index : ℕ)
  | prompt (promptId : String)
  deriving DecidableEq, Repr

namespace DynamicSampler

variable (sampler : DynamicSampler)

def groupOf (round : Round numProcesses) (position : ℕ) : Group :=
  if round.dynamicNumSamples = false then
    .rows (position / sampler.numGenerations)
  else
    .prompt ((requestTable round.samples (sampler.rewards round)).promptOf
      ((round.samples.map Sample.requestId).getD position ""))

def groupRewards (round : Round numProcesses) : Group → List ℚ
  | .rows index => slice (sampler.rewards round) (index * sampler.numGenerations)
      ((index + 1) * sampler.numGenerations)
  | .prompt promptId =>
    (requestTable round.samples (sampler.rewards round)).promptRewards promptId

/-- The rewards of the group of a sample differ. -/
def Valid (round : Round numProcesses) (position : ℕ) : Prop :=
  0 < spread (sampler.groupRewards round (sampler.groupOf round position))

instance (round : Round numProcesses) : DecidablePred (sampler.Valid round) :=
  fun _ => inferInstanceAs (Decidable (_ < _))

end DynamicSampler

theorem spread_pos_iff (rewards : List ℚ) : 0 < spread rewards ↔ 0 < sampleStd rewards := by
  rw [sampleStd_pos_iff, spread]
  split
  · exact Iff.rfl
  · rename_i few
    constructor
    · exact fun positive => absurd positive (lt_irrefl 0)
    · intro positive
      obtain ⟨first, isFirst, second, isSecond, different⟩ :=
        (sampleVariance_pos_iff rewards).mp positive
      exact absurd (one_lt_length_of_ne isFirst isSecond different) few

/-! ## The requests of a round -/

variable (seen : List (String × ℕ))

theorem lastSeen_subset (entries : List (String × ℕ)) :
    ∀ entry ∈ lastSeen seen entries, entry ∈ seen ∨ entry ∈ entries := by
  induction entries generalizing seen with
  | nil => exact fun entry member => .inl member
  | cons head entries ih =>
    intro entry member
    rw [lastSeen] at member
    split at member
    · rcases ih _ entry member with updated | later
      · obtain ⟨old, isOld, isEntry⟩ := mem_map.mp updated
        split at isEntry
        · exact .inr (mem_cons.mpr (.inl isEntry.symm))
        · exact .inl (isEntry ▸ isOld)
      · exact .inr (mem_cons_of_mem _ later)
    · rcases ih _ entry member with added | later
      · rcases mem_append.mp added with old | new
        · exact .inl old
        · exact .inr (mem_cons.mpr (.inl (mem_singleton.mp new)))
      · exact .inr (mem_cons_of_mem _ later)

/-- A later position does not change which requests have been seen. -/
theorem map_fst_update (requestId : String) (i : ℕ) :
    (seen.map fun entry => if entry.1 = requestId then (requestId, i) else entry).map Prod.fst =
      seen.map Prod.fst := by
  rw [map_map]
  refine map_congr_left fun entry _ => ?_
  rw [Function.comp_apply]
  split
  · rename_i isRequest
    exact isRequest.symm
  · rfl

theorem mem_lastSeen (entries : List (String × ℕ)) (requestId : String)
    (occurs : requestId ∈ seen.map Prod.fst ∨ requestId ∈ entries.map Prod.fst) :
    requestId ∈ (lastSeen seen entries).map Prod.fst := by
  induction entries generalizing seen with
  | nil => exact occurs.resolve_right not_mem_nil
  | cons head entries ih =>
    rw [lastSeen]
    split
    · rename_i known
      refine ih _ ?_
      rw [map_fst_update]
      rcases occurs with old | new
      · exact .inl old
      · rcases mem_cons.mp new with rfl | later
        · exact .inl known
        · exact .inr later
    · refine ih _ ?_
      rw [map_append]
      rcases occurs with old | new
      · exact .inl (mem_append_left _ old)
      · rcases mem_cons.mp new with rfl | later
        · exact .inl (mem_append_right _ (mem_singleton.mpr rfl))
        · exact .inr later

theorem length_requestTable (samples : List Sample) (rewards : List ℚ) :
    (requestTable samples rewards).requestIds.length =
      (requestTable samples rewards).promptIds.length := by
  rw [requestTable, length_map, length_map]

theorem mem_requestTable {samples : List Sample} (rewards : List ℚ) {sample : Sample}
    (member : sample ∈ samples) : sample.requestId ∈ (requestTable samples rewards).requestIds := by
  have seen := mem_lastSeen [] (samples.map Sample.requestId).zipIdx sample.requestId
    (.inr (by rw [zipIdx_map_fst]; exact mem_map_of_mem member))
  obtain ⟨⟨requestId, index⟩, isEntry, isRequest⟩ := mem_map.mp seen
  have place := (lastSeen_subset _ _ _ isEntry).resolve_left not_mem_nil
  rw [mem_zipIdx_iff_getElem?] at place
  refine mem_map.mpr ⟨index, mem_map.mpr ⟨_, isEntry, rfl⟩, ?_⟩
  rw [getD_eq_getElem?_getD, place]
  exact isRequest

namespace DynamicSampler

variable (sampler : DynamicSampler)

theorem length_rewards (round : Round numProcesses) :
    (sampler.rewards round).length = round.samples.length := by
  rw [rewards, length_map, round.scored, Round.samples]

/-- The deviation of a sample is that of the rewards of its group. -/
theorem computeStd_eq {round : Round numProcesses} {stds : List ℚ}
    (computed : sampler.computeStd round = some stds) :
    stds = (range round.samples.length).map fun position =>
      spread (sampler.groupRewards round (sampler.groupOf round position)) := by
  rw [computeStd] at computed
  dsimp only at computed
  split at computed
  · rename_i grouped
    split at computed
    · rename_i full
      obtain ⟨groups, isGroups⟩ := full
      cases computed
      rw [length_rewards] at isGroups
      have positions : (fun position =>
            spread (sampler.groupRewards round (sampler.groupOf round position))) =
          fun position => spread (slice (sampler.rewards round)
            (position / sampler.numGenerations * sampler.numGenerations)
            ((position / sampler.numGenerations + 1) * sampler.numGenerations)) := by
        funext position
        rw [groupOf, if_pos grouped, groupRewards]
      rw [positions, isGroups, length_rewards, isGroups, Nat.mul_comm,
        Nat.mul_div_cancel _ sampler.numGenerations_pos, cutAt, flatMap_map,
        map_range_div fun block => spread (slice (sampler.rewards round)
          (block * sampler.numGenerations) ((block + 1) * sampler.numGenerations))]
    · cases computed
  · rename_i requestAware
    cases computed
    refine ext_getElem (by rw [length_map, length_map, length_range]) ?_
    intro position inside _
    rw [length_map] at inside
    rw [getElem_map, getElem_map, getElem_range, groupOf, if_neg requestAware,
      groupRewards, RequestTable.promptOf, getD_eq_getElem?_getD (l := round.samples.map _),
      getElem?_map, getElem?_eq_getElem inside, Option.map_some, Option.getD_some]
    have known := idxOf_lt_length_of_mem
      (mem_requestTable (sampler.rewards round) (getElem_mem inside))
    rw [length_requestTable] at known
    rw [getD_eq_getElem?_getD, getElem?_map, getD_eq_getElem?_getD, getElem?_eq_getElem known]
    rfl

end DynamicSampler

/-! ## What is collected -/

/-- A sample that is collected: where it was gathered, and its rewards. -/
structure Entry where
  round : ℕ
  position : ℕ
  sample : Sample
  rewards : RewardRow

variable {α : Type}

/-- A mask made from the positions keeps the items at these positions. -/
theorem keepMasked_map {β : Type} (f : α → β) (items : List α) (keep : ℕ → Bool) :
    keepMasked (items.map f) ((range items.length).map keep) =
      (items.zipIdx.filter fun pair => keep pair.2).map fun pair => f pair.1 := by
  have zipped : (items.map f).zip ((range items.length).map keep) =
      items.zipIdx.map fun pair => (f pair.1, keep pair.2) := by
    rw [zipIdx_eq_zip_range', ← range_eq_range', zip_map]
    rfl
  rw [keepMasked, zipped, filter_map, map_map]
  rfl

namespace DynamicSampler

variable (sampler : DynamicSampler)

/-- The samples of a round whose groups have differing rewards. -/
def validEntries (round : Round numProcesses) (index : ℕ) : List Entry :=
  ((round.samples.zip round.rewardsPerFunc).zipIdx.filter fun pair =>
    decide (sampler.Valid round pair.2)).map fun pair => ⟨index, pair.2, pair.1.1, pair.1.2⟩

def collected (rounds : ℕ → Round numProcesses) (count : ℕ) : List Entry :=
  (List.range count).flatMap fun index => sampler.validEntries (rounds index) index

theorem collected_succ (rounds : ℕ → Round numProcesses) (count : ℕ) :
    sampler.collected rounds (count + 1) =
      sampler.collected rounds count ++ sampler.validEntries (rounds count) count := by
  rw [collected, range_succ, flatMap_append, flatMap_singleton]
  rfl

theorem collected_length_mono (rounds : ℕ → Round numProcesses) :
    Monotone fun count => (sampler.collected rounds count).length := by
  refine monotone_nat_of_le_succ fun count => ?_
  rw [collected_succ, length_append]
  exact Nat.le_add_right _ _

theorem keepMasked_round {round : Round numProcesses} {stds : List ℚ}
    (computed : sampler.computeStd round = some stds) (index : ℕ) :
    keepMasked round.samples (stds.map fun std => decide (0 < std)) =
        (sampler.validEntries round index).map Entry.sample ∧
      keepMasked round.rewardsPerFunc (stds.map fun std => decide (0 < std)) =
        (sampler.validEntries round index).map Entry.rewards := by
  have lengths : round.samples.length = round.rewardsPerFunc.length := round.scored.symm
  have pairs : (round.samples.zip round.rewardsPerFunc).length = round.samples.length := by
    rw [length_zip, ← lengths, Nat.min_self]
  have mask : stds.map (fun std => decide (0 < std)) =
      (range (round.samples.zip round.rewardsPerFunc).length).map
        fun position => decide (sampler.Valid round position) := by
    rw [sampler.computeStd_eq computed, map_map, pairs]
    rfl
  have samples := keepMasked_map Prod.fst (round.samples.zip round.rewardsPerFunc)
    fun position => decide (sampler.Valid round position)
  have rewards := keepMasked_map Prod.snd (round.samples.zip round.rewardsPerFunc)
    fun position => decide (sampler.Valid round position)
  rw [map_fst_zip (Nat.le_of_eq lengths)] at samples
  rw [map_snd_zip (Nat.le_of_eq lengths.symm)] at rewards
  rw [mask, samples, rewards, validEntries, map_map, map_map]
  exact ⟨rfl, rfl⟩

/-- The rounds give a batch of valid samples, the last of them in the round `last`. -/
structure Collects (rounds : ℕ → Round numProcesses) (last : ℕ) : Prop where
  within : last < sampler.maxResampleTimes
  viewed : ∀ index ≤ last, sampler.computeStd (rounds index) ≠ none
  before : (sampler.collected rounds last).length < sampler.generationBatchSize
  enough : sampler.generationBatchSize ≤ (sampler.collected rounds (last + 1)).length

/-- A state holds a round and what is collected from the first rounds. -/
structure StateAt (rounds : ℕ → Round numProcesses) (current count : ℕ)
    (state : SamplingState numProcesses) : Prop where
  round_eq : state.round = rounds current
  samples_eq : state.validSamples = (sampler.collected rounds count).map Entry.sample
  rewards_eq : state.validRewardsPerFunc.flatten =
    (sampler.collected rounds count).map Entry.rewards

variable {sampler}

variable {state : SamplingState numProcesses}

theorem StateAt.collect {rounds : ℕ → Round numProcesses} {current : ℕ}
    (stateAt : sampler.StateAt rounds current current state) {stds : List ℚ}
    (computed : sampler.computeStd (rounds current) = some stds) :
    sampler.StateAt rounds current (current + 1)
      (state.collect (stds.map fun std => decide (0 < std))) := by
  obtain ⟨samples, rewards⟩ := sampler.keepMasked_round computed current
  rw [← stateAt.round_eq] at samples rewards
  constructor
  · exact stateAt.round_eq
  · rw [SamplingState.collect, collected_succ, map_append, ← stateAt.samples_eq,
      ← stateAt.round_eq, ← samples, Round.samples]
  · rw [SamplingState.collect, collected_succ, map_append, ← stateAt.rewards_eq,
      ← stateAt.round_eq, ← rewards, flatten_append, flatten_singleton]

theorem StateAt.length_samples {rounds : ℕ → Round numProcesses} {current count : ℕ}
    (stateAt : sampler.StateAt rounds current count state) :
    state.validSamples.length = (sampler.collected rounds count).length := by
  rw [stateAt.samples_eq, length_map]

/-- The loop ends in the round that completes a batch. -/
theorem sampleRounds_of_collects {rounds : ℕ → Round numProcesses} {last : ℕ}
    (collects : sampler.Collects rounds last) (remaining current : ℕ) (reached : current ≤ last)
    (within : last < current + remaining) (stateAt : sampler.StateAt rounds current current state) :
    ∃ final, sampler.sampleRounds rounds remaining current state = some final ∧
      sampler.StateAt rounds last (last + 1) final := by
  induction remaining generalizing current state with
  | zero => omega
  | succ remaining ih =>
    obtain ⟨stds, computed⟩ := Option.ne_none_iff_exists'.mp (collects.viewed current reached)
    have added := stateAt.collect computed
    rw [sampleRounds, stateAt.round_eq, computed]
    dsimp only
    rcases Nat.eq_or_lt_of_le reached with rfl | earlier
    · rw [if_pos (added.length_samples ▸ collects.enough)]
      exact ⟨_, rfl, added⟩
    · have few : ¬sampler.generationBatchSize ≤
          (state.collect (stds.map fun std => decide (0 < std))).validSamples.length := by
        rw [added.length_samples, Nat.not_le]
        exact Nat.lt_of_le_of_lt (sampler.collected_length_mono rounds earlier) collects.before
      rw [if_neg few]
      exact ih (current + 1) earlier (by omega) ⟨rfl, added.samples_eq, added.rewards_eq⟩

/-- A loop that ends with a batch ends in a round that completes it. -/
theorem collects_of_sampleRounds {rounds : ℕ → Round numProcesses} (remaining current : ℕ)
    {final : SamplingState numProcesses} (stateAt : sampler.StateAt rounds current current state)
    (before : (sampler.collected rounds current).length < sampler.generationBatchSize)
    (viewed : ∀ index < current, sampler.computeStd (rounds index) ≠ none)
    (within : current + remaining ≤ sampler.maxResampleTimes)
    (ends : sampler.sampleRounds rounds remaining current state = some final)
    (enough : sampler.generationBatchSize ≤ final.validSamples.length) :
    ∃ last, sampler.Collects rounds last := by
  induction remaining generalizing current state with
  | zero =>
    cases ends
    rw [stateAt.length_samples] at enough
    omega
  | succ remaining ih =>
    rw [sampleRounds, stateAt.round_eq] at ends
    cases computed : sampler.computeStd (rounds current) with
    | none =>
      rw [computed] at ends
      cases ends
    | some stds =>
      rw [computed] at ends
      dsimp only at ends
      have added := stateAt.collect computed
      have viewedHere : ∀ index < current + 1, sampler.computeStd (rounds index) ≠ none := by
        intro index earlier
        rcases Nat.eq_or_lt_of_le (Nat.le_of_lt_succ earlier) with rfl | before
        · rw [computed]
          exact nofun
        · exact viewed index before
      split at ends
      · rename_i full
        rw [added.length_samples] at full
        exact ⟨current, by omega, fun index before => viewedHere index (by omega), before,
          full⟩
      · rename_i notFull
        rw [added.length_samples, Nat.not_le] at notFull
        have next : sampler.StateAt rounds (current + 1) (current + 1)
            { state.collect (stds.map fun std => decide (0 < std)) with
              round := rounds (current + 1) } :=
          ⟨rfl, added.samples_eq, added.rewards_eq⟩
        exact ih (current + 1) next notFull viewedHere (by omega) ends

end DynamicSampler

/-! ## Slices of the batch -/

/-- The number of samples that a process has of a round. -/
def shareLength (numProcesses total processIndex : ℕ) : ℕ :=
  total / numProcesses + if processIndex < total % numProcesses then 1 else 0

/-- The slices of a batch, each cut out with the number of samples of the process. -/
def ownSlices {α : Type} (numProcesses total : ℕ) (batch : List α) : List (List α) :=
  (List.range numProcesses).map fun processIndex =>
    slice batch (processIndex * shareLength numProcesses total processIndex)
      ((processIndex + 1) * shareLength numProcesses total processIndex)

/-- A batch is cut without loss when all processes have the same number of samples, and at
least the batch, or when the processes that have one sample more cover the batch. -/
def Fits (numProcesses total batch : ℕ) : Prop :=
  (total % numProcesses = 0 ∧ batch ≤ total) ∨
    batch ≤ total % numProcesses * (total / numProcesses)

instance (numProcesses total batch : ℕ) : Decidable (Fits numProcesses total batch) :=
  inferInstanceAs (Decidable (_ ∨ _))

/-- The slices of the processes with one sample more, and of the others, follow each other
without a gap. -/
theorem flatten_ownSlices (total : ℕ) (batch : List α) (positive : 0 < numProcesses) :
    (ownSlices numProcesses total batch).flatten =
      slice batch 0 (total % numProcesses * (total / numProcesses + 1)) ++
        slice batch (total % numProcesses * (total / numProcesses))
          (numProcesses * (total / numProcesses)) := by
  have split : numProcesses = total % numProcesses + (numProcesses - total % numProcesses) :=
    (Nat.add_sub_cancel' (Nat.le_of_lt (Nat.mod_lt total positive))).symm
  have first : (range (total % numProcesses)).map (fun processIndex =>
        slice batch (processIndex * shareLength numProcesses total processIndex)
          ((processIndex + 1) * shareLength numProcesses total processIndex)) =
      cutAt (· * (total / numProcesses + 1)) (total % numProcesses) batch := by
    refine map_congr_left fun processIndex isFirst => ?_
    rw [shareLength, if_pos (mem_range.mp isFirst)]
  have second : ((range (numProcesses - total % numProcesses)).map
        (total % numProcesses + ·)).map (fun processIndex =>
        slice batch (processIndex * shareLength numProcesses total processIndex)
          ((processIndex + 1) * shareLength numProcesses total processIndex)) =
      cutAt (fun index => (total % numProcesses + index) * (total / numProcesses))
        (numProcesses - total % numProcesses) batch := by
    rw [map_map]
    refine map_congr_left fun index _ => ?_
    rw [Function.comp_apply, shareLength, if_neg (Nat.not_lt.mpr (Nat.le_add_right _ _)),
      Nat.add_zero, Nat.add_assoc]
  have range : range numProcesses = range (total % numProcesses) ++
      (range (numProcesses - total % numProcesses)).map (total % numProcesses + ·) := by
    rw [← range_add, ← split]
  have increasing : Monotone fun index =>
      (total % numProcesses + index) * (total / numProcesses) :=
    fun _ _ before => Nat.mul_le_mul_right _ (Nat.add_le_add_left before _)
  rw [ownSlices, range, map_append, first, second, flatten_append,
    flatten_cutAt_eq_slice (fun _ _ before => Nat.mul_le_mul_right _ before),
    flatten_cutAt_eq_slice increasing, Nat.zero_mul, ← split]
  rfl

/-- The processes hold the batch exactly when the lengths fit. -/
theorem flatten_ownSlices_eq_iff {batch : List α} (distinct : batch.Nodup) (total : ℕ)
    (positive : 0 < numProcesses) (divides : numProcesses ∣ batch.length) :
    (ownSlices numProcesses total batch).flatten = batch ↔
      Fits numProcesses total batch.length := by
  have fewer : total % numProcesses < numProcesses := Nat.mod_lt total positive
  have isTotal : numProcesses * (total / numProcesses) + total % numProcesses = total :=
    Nat.div_add_mod total numProcesses
  rw [flatten_ownSlices total batch positive, Fits]
  generalize total % numProcesses = rest at *
  generalize total / numProcesses = share at *
  constructor
  · intro same
    have lengths := congrArg length same
    rw [length_append, length_slice, length_slice] at lengths
    rcases Nat.eq_zero_or_pos rest with rfl | someRest
    · rw [Nat.zero_mul, Nat.zero_mul] at lengths
      exact .inl ⟨rfl, by omega⟩
    · refine .inr (Nat.le_of_not_lt fun beyond => ?_)
      rcases Nat.eq_zero_or_pos share with rfl | someShare
      · -- Fewer samples than processes are fewer than a batch.
        have atLeast := Nat.le_of_dvd (Nat.zero_lt_of_lt beyond) divides
        rw [Nat.zero_add, Nat.mul_one, Nat.mul_zero, Nat.mul_zero] at lengths
        omega
      · -- The first sample of the other processes is also cut out by one of the first.
        have inFirst : batch[rest * share] ∈ slice batch 0 (rest * (share + 1)) :=
          getElem_mem_slice batch (Nat.zero_le _)
            (Nat.mul_lt_mul_of_pos_left (Nat.lt_succ_self share) someRest) beyond
        have inSecond : batch[rest * share] ∈ slice batch (rest * share) (numProcesses * share) :=
          getElem_mem_slice batch (Nat.le_refl _) (Nat.mul_lt_mul_of_pos_right fewer someShare)
            beyond
        rw [← same, nodup_append] at distinct
        exact distinct.2.2 _ inFirst _ inSecond rfl
  · rintro (⟨rfl, covers⟩ | covers)
    · rw [Nat.zero_mul, Nat.zero_mul, slice_eq_nil batch (Nat.min_le_left _ _), nil_append,
        slice_zero batch (by omega)]
    · have wider : rest * share ≤ rest * (share + 1) := Nat.mul_le_mul_left _ (Nat.le_succ _)
      rw [slice_zero batch (Nat.le_trans covers wider),
        slice_eq_nil batch (Nat.le_trans (Nat.min_le_right _ _) covers), append_nil]

namespace DynamicSampler

variable (sampler : DynamicSampler)

/-! ## Where the collected samples come from -/

theorem mem_validEntries {round : Round numProcesses} {index : ℕ} {entry : Entry} :
    entry ∈ sampler.validEntries round index ↔
      entry.round = index ∧ round.samples[entry.position]? = some entry.sample ∧
        round.rewardsPerFunc[entry.position]? = some entry.rewards ∧
        sampler.Valid round entry.position := by
  rw [validEntries, mem_map]
  constructor
  · rintro ⟨⟨⟨sample, rewards⟩, position⟩, member, rfl⟩
    obtain ⟨place, valid⟩ := mem_filter.mp member
    rw [mem_zipIdx_iff_getElem?, getElem?_zip_eq_some] at place
    exact ⟨rfl, place.1, place.2, of_decide_eq_true valid⟩
  · rintro ⟨rfl, isSample, isRewards, valid⟩
    refine ⟨((entry.sample, entry.rewards), entry.position), ?_, rfl⟩
    refine mem_filter.mpr ⟨?_, decide_eq_true valid⟩
    rw [mem_zipIdx_iff_getElem?, getElem?_zip_eq_some]
    exact ⟨isSample, isRewards⟩

theorem mem_collected {rounds : ℕ → Round numProcesses} {count : ℕ} {entry : Entry} :
    entry ∈ sampler.collected rounds count ↔
      entry.round < count ∧ entry ∈ sampler.validEntries (rounds entry.round) entry.round := by
  rw [collected, mem_flatMap]
  constructor
  · rintro ⟨index, isRound, member⟩
    obtain ⟨rfl, -⟩ := sampler.mem_validEntries.mp member
    exact ⟨mem_range.mp isRound, member⟩
  · rintro ⟨early, member⟩
    exact ⟨entry.round, mem_range.mpr early, member⟩

def validPositions (round : Round numProcesses) : List ℕ :=
  (List.range round.samples.length).filter fun position => decide (sampler.Valid round position)

variable (round : Round numProcesses)

theorem map_position_validEntries (index : ℕ) :
    (sampler.validEntries round index).map Entry.position = sampler.validPositions round := by
  have lengths : (round.samples.zip round.rewardsPerFunc).length = round.samples.length := by
    rw [length_zip, round.scored, Round.samples, Nat.min_self]
  have positions : (round.samples.zip round.rewardsPerFunc).zipIdx.map Prod.snd =
      range round.samples.length := by
    rw [zipIdx_map_snd, lengths, range_eq_range']
  rw [validEntries, map_map, validPositions, ← positions, filter_map]
  rfl

theorem validPositions_nodup : (sampler.validPositions round).Nodup :=
  nodup_range.filter _

theorem exists_validEntry {round : Round numProcesses} {position : ℕ}
    (inside : position < round.samples.length) (valid : sampler.Valid round position)
    (index : ℕ) :
    ∃ entry ∈ sampler.validEntries round index, entry.position = position := by
  have member : position ∈ (sampler.validEntries round index).map Entry.position := by
    rw [map_position_validEntries]
    exact mem_filter.mpr ⟨mem_range.mpr inside, decide_eq_true valid⟩
  exact mem_map.mp member

theorem collected_nodup (rounds : ℕ → Round numProcesses) (count : ℕ) :
    (sampler.collected rounds count).Nodup := by
  rw [collected, nodup_flatMap]
  constructor
  · intro index _
    refine List.Nodup.of_map Entry.position ?_
    rw [map_position_validEntries]
    exact sampler.validPositions_nodup _
  · refine nodup_range.imp_of_mem ?_
    intro first second _ _ different entry inFirst inSecond
    exact different ((sampler.mem_validEntries.mp inFirst).1.symm.trans
      (sampler.mem_validEntries.mp inSecond).1)

theorem collected_samples_nodup (rounds : Rounds numProcesses) (count : ℕ) :
    ((sampler.collected rounds.round count).map Entry.sample).Nodup := by
  refine (sampler.collected_nodup rounds.round count).map_on ?_
  intro first isFirst second isSecond same
  obtain ⟨-, inFirst⟩ := sampler.mem_collected.mp isFirst
  obtain ⟨-, inSecond⟩ := sampler.mem_collected.mp isSecond
  obtain ⟨-, firstSample, firstRewards, -⟩ := sampler.mem_validEntries.mp inFirst
  obtain ⟨-, secondSample, secondRewards, -⟩ := sampler.mem_validEntries.mp inSecond
  obtain ⟨sameRound, samePosition⟩ :=
    rounds.distinct firstSample secondSample (congrArg Sample.object same)
  rw [sameRound, samePosition, secondRewards] at firstRewards
  cases first
  cases second
  simp_all

/-! ## Groups at the end of the batch -/

/-- The end of the batch, after some valid samples of the round, cuts a group. -/
def Cuts (round : Round numProcesses) (count : ℕ) : Prop :=
  ∃ kept ∈ (sampler.validPositions round).take count,
    ∃ lost ∈ (sampler.validPositions round).drop count,
      sampler.groupOf round kept = sampler.groupOf round lost

instance (round : Round numProcesses) (count : ℕ) : Decidable (sampler.Cuts round count) :=
  inferInstanceAs (Decidable (∃ _ ∈ _, _))

/-- All samples of the groups in the batch are in the batch. -/
def Whole (rounds : ℕ → Round numProcesses) (batch : List Entry) : Prop :=
  ∀ entry ∈ batch, ∀ position < (rounds entry.round).samples.length,
    sampler.groupOf (rounds entry.round) position =
      sampler.groupOf (rounds entry.round) entry.position →
    ∃ other ∈ batch, other.round = entry.round ∧ other.position = position

variable {sampler}

variable {last : ℕ}

theorem Collects.take_batch {rounds : ℕ → Round numProcesses}
    (collects : sampler.Collects rounds last) :
    (sampler.collected rounds (last + 1)).take sampler.generationBatchSize =
      sampler.collected rounds last ++ (sampler.validEntries (rounds last) last).take
        (sampler.generationBatchSize - (sampler.collected rounds last).length) := by
  rw [collected_succ, take_append, take_of_length_le (Nat.le_of_lt collects.before)]

/-- The batch has whole groups exactly when its end cuts none of the last round. -/
theorem Collects.whole_iff {rounds : ℕ → Round numProcesses}
    (collects : sampler.Collects rounds last) :
    sampler.Whole rounds
        ((sampler.collected rounds (last + 1)).take sampler.generationBatchSize) ↔
      ¬sampler.Cuts (rounds last)
        (sampler.generationBatchSize - (sampler.collected rounds last).length) := by
  rw [collects.take_batch]
  constructor
  · rintro whole ⟨kept, isKept, lost, isLost, sameGroup⟩
    rw [← sampler.map_position_validEntries (rounds last) last, ← map_take] at isKept
    obtain ⟨entry, isEntry, rfl⟩ := mem_map.mp isKept
    obtain ⟨isRound, -⟩ := sampler.mem_validEntries.mp (mem_of_mem_take isEntry)
    have inRound : lost < (rounds last).samples.length :=
      mem_range.mp (mem_filter.mp (mem_of_mem_drop isLost)).1
    obtain ⟨other, isOther, otherRound, rfl⟩ := whole entry (mem_append_right _ isEntry) lost
      (isRound ▸ inRound) (by rw [isRound]; exact sameGroup.symm)
    rcases mem_append.mp isOther with earlier | isTaken
    · have early := (sampler.mem_collected.mp earlier).1
      omega
    · have again : other.position ∈ (sampler.validPositions (rounds last)).take
          (sampler.generationBatchSize - (sampler.collected rounds last).length) := by
        rw [← sampler.map_position_validEntries (rounds last) last, ← map_take]
        exact mem_map_of_mem isTaken
      exact disjoint_take_drop (sampler.validPositions_nodup _) (Nat.le_refl _) again isLost
  · intro notCut entry isEntry position inRound sameGroup
    have member : entry ∈ sampler.collected rounds (last + 1) := by
      rw [← collects.take_batch] at isEntry
      exact mem_of_mem_take isEntry
    obtain ⟨early, inEntries⟩ := sampler.mem_collected.mp member
    have valid : sampler.Valid (rounds entry.round) position := by
      rw [Valid, sameGroup]
      exact (sampler.mem_validEntries.mp inEntries).2.2.2
    obtain ⟨other, isOther, rfl⟩ := sampler.exists_validEntry inRound valid entry.round
    have otherRound := (sampler.mem_validEntries.mp isOther).1
    refine ⟨other, ?_, otherRound, rfl⟩
    rcases Nat.eq_or_lt_of_le (Nat.le_of_lt_succ early) with isLast | earlier
    · rw [isLast] at isOther
      have taken : entry ∈ (sampler.validEntries (rounds last) last).take
          (sampler.generationBatchSize - (sampler.collected rounds last).length) := by
        refine (mem_append.mp isEntry).resolve_left fun earlier => ?_
        exact absurd isLast (Nat.ne_of_lt (sampler.mem_collected.mp earlier).1)
      rw [← take_append_drop (sampler.generationBatchSize -
        (sampler.collected rounds last).length) (sampler.validEntries (rounds last) last)] at isOther
      refine mem_append_right _ ((mem_append.mp isOther).resolve_right fun dropped => ?_)
      refine notCut ⟨entry.position, ?_, other.position, ?_, ?_⟩
      · rw [← sampler.map_position_validEntries (rounds last) last, ← map_take]
        exact mem_map_of_mem taken
      · rw [← sampler.map_position_validEntries (rounds last) last, ← map_drop]
        exact mem_map_of_mem dropped
      · rw [← isLast]
        exact sameGroup.symm
    · refine mem_append_left _ (sampler.mem_collected.mpr ⟨otherRound ▸ earlier, ?_⟩)
      rw [otherRound]
      exact isOther

/-! ## The result of dynamic sampling -/

variable (sampler) in
/-- The processes hold the batch: the first valid samples that were collected, of whole
groups whose rewards deviate, each with its own rewards. -/
structure Conserved (rounds : ℕ → Round numProcesses) (batch : List Entry)
    (outcome : SamplingOutcome) : Prop where
  samples : gatherObject outcome.inputs = batch.map Entry.sample
  deviates : ∀ entry ∈ batch, 0 < sampleStd
    (sampler.groupRewards (rounds entry.round) (sampler.groupOf (rounds entry.round) entry.position))
  whole : sampler.Whole rounds batch
  rewards : outcome.rewardsPerFunc = batch.map Entry.rewards

variable (sampler) in
/-- When a batch is collected the processes hold it, and otherwise what they started
with. -/
def Conserves (rounds : Rounds sampler.numProcesses) : Prop :=
  (∀ last, sampler.Collects rounds.round last →
    ∃ outcome, sampler.dynamicSampling rounds.round = some outcome ∧
      sampler.Conserved rounds.round
        ((sampler.collected rounds.round (last + 1)).take sampler.generationBatchSize) outcome) ∧
  ((∀ last, ¬sampler.Collects rounds.round last) →
    ∀ outcome, sampler.dynamicSampling rounds.round = some outcome →
      outcome.inputs = (rounds.round 0).inputs ∧
        outcome.rewardsPerFunc = (rounds.round 0).rewardsPerFunc)

theorem length_inputs {processIndex : ℕ} (isProcess : processIndex < numProcesses) :
    (round.inputs.getD processIndex []).length =
      shareLength numProcesses round.samples.length processIndex := by
  have inside : processIndex < (evenShares numProcesses round.samples).length := by
    rwa [length_evenShares]
  rw [getD_eq_getElem?_getD, round.evenlyShared]
  rw [Round.samples] at inside
  rw [getElem?_eq_getElem inside, Option.getD_some, length_getElem_evenShares]
  rfl

theorem stateAt_start (rounds : ℕ → Round numProcesses) :
    sampler.StateAt rounds 0 0 ⟨rounds 0, [], []⟩ :=
  ⟨rfl, rfl, rfl⟩

/-- When a batch is collected, the processes cut it out by the lengths of the last round. -/
theorem dynamicSampling_of_collects {rounds : ℕ → Round sampler.numProcesses}
    (collects : sampler.Collects rounds last) :
    sampler.dynamicSampling rounds = some {
      inputs := ownSlices sampler.numProcesses (rounds last).samples.length
        (((sampler.collected rounds (last + 1)).take sampler.generationBatchSize).map Entry.sample)
      rewardsPerFunc :=
        ((sampler.collected rounds (last + 1)).take sampler.generationBatchSize).map Entry.rewards
      dynamicNumSamples := (rounds last).dynamicNumSamples } := by
  obtain ⟨final, isFinal, stateAt⟩ := sampleRounds_of_collects collects sampler.maxResampleTimes 0
    (Nat.zero_le _) (by rw [Nat.zero_add]; exact collects.within) (stateAt_start rounds)
  have slices : (range sampler.numProcesses).map
        (sampler.processSamples final.round final.validSamples) =
      ownSlices sampler.numProcesses (rounds last).samples.length
        (((sampler.collected rounds (last + 1)).take sampler.generationBatchSize).map
          Entry.sample) := by
    refine map_congr_left fun processIndex isProcess => ?_
    rw [processSamples, stateAt.round_eq, stateAt.samples_eq, ← map_take,
      length_inputs _ (mem_range.mp isProcess)]
  rw [dynamicSampling, isFinal]
  dsimp only
  rw [if_pos (stateAt.length_samples ▸ collects.enough), slices, stateAt.rewards_eq,
    stateAt.round_eq, ← map_take]

/-- When none is collected, the processes keep what they started with. -/
theorem dynamicSampling_of_not_collects {rounds : ℕ → Round sampler.numProcesses}
    (none : ∀ last, ¬sampler.Collects rounds last) {outcome : SamplingOutcome}
    (isOutcome : sampler.dynamicSampling rounds = some outcome) :
    outcome.inputs = (rounds 0).inputs ∧ outcome.rewardsPerFunc = (rounds 0).rewardsPerFunc := by
  rw [dynamicSampling] at isOutcome
  split at isOutcome
  · cases isOutcome
  · rename_i final isFinal
    split at isOutcome
    · rename_i enough
      obtain ⟨last, collects⟩ := collects_of_sampleRounds sampler.maxResampleTimes 0
        (stateAt_start rounds) sampler.generationBatchSize_pos (fun _ early => absurd early (Nat.not_lt_zero _))
        (by rw [Nat.zero_add]) isFinal enough
      exact absurd collects (none last)
    · cases isOutcome
      exact ⟨rfl, rfl⟩

theorem Collects.length_batch {rounds : ℕ → Round numProcesses}
    (collects : sampler.Collects rounds last) :
    ((sampler.collected rounds (last + 1)).take sampler.generationBatchSize).length =
      sampler.generationBatchSize := by
  rw [length_take, Nat.min_eq_left collects.enough]

variable (sampler) in
/-- **Dynamic sampling leaves the batch on the processes exactly when the lengths of the
last round fit and the end of the batch cuts no group of that round.** -/
theorem dynamicSampling_conserves_iff (rounds : Rounds sampler.numProcesses) :
    sampler.Conserves rounds ↔
      ∀ last, sampler.Collects rounds.round last →
        Fits sampler.numProcesses (rounds.round last).samples.length sampler.generationBatchSize ∧
          ¬sampler.Cuts (rounds.round last)
            (sampler.generationBatchSize - (sampler.collected rounds.round last).length) := by
  have samplesFit : ∀ last, sampler.Collects rounds.round last →
      ((ownSlices sampler.numProcesses (rounds.round last).samples.length
        (((sampler.collected rounds.round (last + 1)).take sampler.generationBatchSize).map
          Entry.sample)).flatten =
        ((sampler.collected rounds.round (last + 1)).take sampler.generationBatchSize).map
          Entry.sample ↔
      Fits sampler.numProcesses (rounds.round last).samples.length
        sampler.generationBatchSize) := by
    intro last collects
    have length : (((sampler.collected rounds.round (last + 1)).take
        sampler.generationBatchSize).map Entry.sample).length = sampler.generationBatchSize := by
      rw [length_map, collects.length_batch]
    have distinct : (((sampler.collected rounds.round (last + 1)).take
        sampler.generationBatchSize).map Entry.sample).Nodup := by
      rw [map_take]
      exact (sampler.collected_samples_nodup rounds (last + 1)).sublist (take_sublist _ _)
    have fits := flatten_ownSlices_eq_iff distinct (rounds.round last).samples.length
      sampler.numProcesses_pos (by rw [length]; exact sampler.numProcesses_dvd)
    rwa [length] at fits
  constructor
  · rintro ⟨conserved, -⟩ last collects
    obtain ⟨outcome, isOutcome, holds⟩ := conserved last collects
    rw [dynamicSampling_of_collects collects] at isOutcome
    cases isOutcome
    exact ⟨(samplesFit last collects).mp holds.samples, collects.whole_iff.mp holds.whole⟩
  · intro fits
    refine ⟨fun last collects => ⟨_, dynamicSampling_of_collects collects, ?_⟩,
      fun none outcome => dynamicSampling_of_not_collects none⟩
    refine ⟨(samplesFit last collects).mpr (fits last collects).1, ?_,
      collects.whole_iff.mpr (fits last collects).2, rfl⟩
    intro entry member
    have collected := mem_of_mem_take member
    exact (spread_pos_iff _).mp
      (sampler.mem_validEntries.mp (sampler.mem_collected.mp collected).2).2.2.2

/-! ## Rounds of groups of consecutive samples -/

theorem validPositions_of_grouped {round : Round numProcesses}
    (grouped : round.dynamicNumSamples = false) (viewed : sampler.computeStd round ≠ none) :
    ∃ blocks : List ℕ, blocks.Nodup ∧ sampler.validPositions round =
      blocks.flatMap fun block =>
        (range sampler.numGenerations).map (block * sampler.numGenerations + ·) := by
  have full : sampler.numGenerations ∣ round.samples.length := by
    by_contra notFull
    refine viewed ?_
    rw [computeStd]
    dsimp only
    rw [if_pos grouped, length_rewards, if_neg notFull]
  obtain ⟨count, isCount⟩ := full
  have blockwise : (fun position => decide (sampler.Valid round position)) = fun position =>
      (fun block => decide (0 < spread (sampler.groupRewards round (.rows block))))
        (position / sampler.numGenerations) := by
    funext position
    refine decide_eq_decide.mpr ?_
    rw [Valid, groupOf, if_pos grouped]
  refine ⟨(range count).filter fun block =>
    decide (0 < spread (sampler.groupRewards round (.rows block))), nodup_range.filter _, ?_⟩
  rw [validPositions, isCount, Nat.mul_comm, blockwise]
  exact filter_range_div (fun block => decide (0 < spread (sampler.groupRewards round (.rows block))))
    count sampler.numGenerations

theorem dvd_length_validPositions {round : Round numProcesses}
    (grouped : round.dynamicNumSamples = false) (viewed : sampler.computeStd round ≠ none) :
    sampler.numGenerations ∣ (sampler.validPositions round).length := by
  obtain ⟨blocks, -, isBlocks⟩ := validPositions_of_grouped grouped viewed
  rw [isBlocks, length_flatMap]
  refine dvd_sum fun length isLength => ?_
  obtain ⟨block, -, rfl⟩ := mem_map.mp isLength
  rw [length_map, length_range]

/-- A multiple of the group size cuts no group of a grouped round. -/
theorem not_cuts_of_grouped {round : Round numProcesses}
    (grouped : round.dynamicNumSamples = false) (viewed : sampler.computeStd round ≠ none)
    {count : ℕ} (wholeGroups : sampler.numGenerations ∣ count) : ¬sampler.Cuts round count := by
  rintro ⟨kept, isKept, lost, isLost, sameGroup⟩
  obtain ⟨blocks, distinct, isBlocks⟩ := validPositions_of_grouped grouped viewed
  obtain ⟨groups, rfl⟩ := wholeGroups
  have uniform : ∀ block : ℕ, ((range sampler.numGenerations).map
      (block * sampler.numGenerations + ·)).length = sampler.numGenerations := by
    intro block
    rw [length_map, length_range]
  rw [isBlocks, Nat.mul_comm, take_flatMap_uniform uniform, mem_flatMap] at isKept
  rw [isBlocks, Nat.mul_comm, drop_flatMap_uniform uniform, mem_flatMap] at isLost
  obtain ⟨keptBlock, isKeptBlock, inKept⟩ := isKept
  obtain ⟨lostBlock, isLostBlock, inLost⟩ := isLost
  obtain ⟨keptIndex, keptInside, rfl⟩ := mem_map.mp inKept
  obtain ⟨lostIndex, lostInside, rfl⟩ := mem_map.mp inLost
  rw [groupOf, groupOf, if_pos grouped, if_pos grouped, block_div (mem_range.mp keptInside),
    block_div (mem_range.mp lostInside), Group.rows.injEq] at sameGroup
  rw [sameGroup] at isKeptBlock
  exact disjoint_take_drop distinct (Nat.le_refl groups) isKeptBlock isLostBlock

theorem dvd_length_collected {rounds : ℕ → Round numProcesses}
    (grouped : ∀ index, (rounds index).dynamicNumSamples = false) (count : ℕ)
    (viewed : ∀ index < count, sampler.computeStd (rounds index) ≠ none) :
    sampler.numGenerations ∣ (sampler.collected rounds count).length := by
  induction count with
  | zero => exact Nat.dvd_zero _
  | succ count ih =>
    have last := dvd_length_validPositions (grouped count) (viewed count (Nat.lt_succ_self count))
    rw [← sampler.map_position_validEntries (rounds count) count, length_map] at last
    rw [collected_succ, length_append]
    exact Nat.dvd_add (ih fun index early => viewed index (Nat.lt_succ_of_lt early)) last

theorem Collects.whole_of_grouped {rounds : ℕ → Round numProcesses}
    (collects : sampler.Collects rounds last)
    (grouped : ∀ index, (rounds index).dynamicNumSamples = false) :
    ¬sampler.Cuts (rounds last)
      (sampler.generationBatchSize - (sampler.collected rounds last).length) :=
  not_cuts_of_grouped (grouped last) (collects.viewed last (Nat.le_refl last))
    (Nat.dvd_sub sampler.numGenerations_dvd (dvd_length_collected grouped last
      fun index early => collects.viewed index (Nat.le_of_lt early)))

/-! ## A last round with more samples than the batch -/

/-- Two processes that want four samples, of two prompts with two requests each. -/
def twoPrompts : DynamicSampler where
  numProcesses := 2
  numProcesses_pos := Nat.two_pos
  generationBatchSize := 4
  generationBatchSize_pos := by decide
  numProcesses_dvd := by decide
  numGenerations := 2
  numGenerations_pos := Nat.two_pos
  numGenerations_dvd := by decide
  maxResampleTimes := 1
  rewardWeights := [1]

/-- Four requests of which the first has two samples. -/
def fiveSamples (index : ℕ) : List Sample := [
  ⟨5 * index, "prompt_0", "first"⟩, ⟨5 * index + 1, "prompt_0", "first"⟩,
  ⟨5 * index + 2, "prompt_0", "second"⟩, ⟨5 * index + 3, "prompt_1", "third"⟩,
  ⟨5 * index + 4, "prompt_1", "fourth"⟩]

def fiveSamplesRound (index : ℕ) : Round 2 where
  dynamicNumSamples := true
  inputs := evenShares 2 (fiveSamples index)
  rewardsPerFunc := [[some 1], [some 1], [some 0], [some 1], [some 0]]
  evenlyShared := by rw [gatherObject, flatten_evenShares (by decide)]
  scored := by rw [gatherObject, flatten_evenShares (by decide)]; rfl

theorem object_fiveSamples {index position : ℕ} {sample : Sample}
    (isSample : (fiveSamplesRound index).samples[position]? = some sample) :
    sample.object = 5 * index + position ∧ position < 5 := by
  have samples : (fiveSamplesRound index).samples = fiveSamples index :=
    flatten_evenShares (by decide) (fiveSamples index)
  rw [samples] at isSample
  have inside : position < 5 := (List.getElem?_eq_some_iff.mp isSample).1
  refine ⟨?_, inside⟩
  rcases position with _ | _ | _ | _ | _ | position
  all_goals first
    | omega
    | (cases isSample; rfl)

def fiveSamplesRounds : Rounds 2 where
  round := fiveSamplesRound
  distinct := by
    intro first second position other sample twin isSample isTwin same
    obtain ⟨isObject, inside⟩ := object_fiveSamples isSample
    obtain ⟨isOther, inside'⟩ := object_fiveSamples isTwin
    omega

/-- A batch of four is cut into three samples and two. -/
theorem more_samples_not_conserved : ¬twoPrompts.Conserves fiveSamplesRounds := by
  rintro ⟨conserved, -⟩
  have collects : twoPrompts.Collects fiveSamplesRounds.round 0 :=
    ⟨by decide, by decide, by decide, by decide +kernel⟩
  obtain ⟨outcome, isOutcome, holds⟩ := conserved 0 collects
  rw [dynamicSampling_of_collects collects] at isOutcome
  cases isOutcome
  have lengths := congrArg List.length holds.samples
  revert lengths
  decide +kernel

end DynamicSampler

/-! ## The Megatron trainer -/

/-- What the processes have after dynamic sampling in the Megatron trainer. -/
structure MegatronOutcome where
  rolloutBatch : List (List Sample)
  rewardsPerFunc : List (List RewardRow)

/-- The rounds of the Megatron trainer, which has no multi-turn servers. -/
def grouped (rounds : ℕ → Round numProcesses) (index : ℕ) : Round numProcesses :=
  { rounds index with dynamicNumSamples := false }

namespace DynamicSampler

variable (sampler : DynamicSampler)

/-- `_dynamic_sampling` of the Megatron trainer. Every process cuts out its share of the generation
batch, of the samples and of the rewards. -/
def megatronSampling (rounds : ℕ → Round sampler.numProcesses) : Option MegatronOutcome :=
  match sampler.sampleRounds (grouped rounds) sampler.maxResampleTimes 0
    ⟨grouped rounds 0, [], []⟩ with
  | none => none
  | some state =>
    let perDeviceBatchSize := sampler.generationBatchSize / sampler.numProcesses
    if sampler.generationBatchSize ≤ state.validSamples.length then
      some {
        rolloutBatch := cutAt (· * perDeviceBatchSize) sampler.numProcesses
          (state.validSamples.take sampler.generationBatchSize)
        rewardsPerFunc := cutAt (· * perDeviceBatchSize) sampler.numProcesses
          (state.validRewardsPerFunc.flatten.take sampler.generationBatchSize) }
    else
      some {
        rolloutBatch := (rounds 0).inputs
        rewardsPerFunc := evenShares sampler.numProcesses (rounds 0).rewardsPerFunc }

/-- Every process has its share of the batch that is collected, and of the rewards of the batch;
when none is collected, the processes have what they started with. -/
structure MegatronConserves (rounds : ℕ → Round sampler.numProcesses) : Prop where
  collected : ∀ last, sampler.Collects (grouped rounds) last →
    ∃ outcome, sampler.megatronSampling rounds = some outcome ∧
      (∀ share ∈ outcome.rolloutBatch,
        share.length = sampler.generationBatchSize / sampler.numProcesses) ∧
      outcome.rewardsPerFunc.map List.length = outcome.rolloutBatch.map List.length ∧
      sampler.Conserved (grouped rounds)
        ((sampler.collected (grouped rounds) (last + 1)).take sampler.generationBatchSize)
        ⟨outcome.rolloutBatch, gatherObject outcome.rewardsPerFunc, false⟩
  otherwise : (∀ last, ¬sampler.Collects (grouped rounds) last) →
    ∀ outcome, sampler.megatronSampling rounds = some outcome →
      outcome.rolloutBatch = (rounds 0).inputs ∧
        gatherObject outcome.rewardsPerFunc = (rounds 0).rewardsPerFunc

end DynamicSampler

end Geobench.Trainers
