import Geobench.Trainers.Advantages

/-!
# Replacing samples that fail to encode

A process keeps the samples of its batch that encode, and draws others for the rest. It
draws them from its part of a stream: the batches of the stream are dealt to the processes
in turn, and the stream has some copies of every prompt one after the other. Leftovers of a
batch are dropped. What it gets is said by **`resample_spec`**.

The trainer compares `num_generations` samples in a row, which are copies of one prompt when
it starts. It builds the stream with single samples, so that a prompt has as many copies as
there are iterations. `resample_keeps_groups` says when the samples still come in groups:
when all samples encode, or when groups, batches and copies divide each other. With fewer
copies than the size of a group they do only when all samples encode.
-/

namespace Geobench.Trainers

open Library List

/-! ## The resampling -/

/-- How a stream of prompts is repeated and dealt. -/
structure ResampleStream where
  numProcesses : ℕ
  numProcesses_pos : 0 < numProcesses
  batchSize : ℕ
  batchSize_pos : 0 < batchSize
  repeatCount : ℕ
  repeatCount_pos : 0 < repeatCount

section Resampling

variable {α : Type}

def ResampleStream.position (stream : ResampleStream) (processIndex index offset : ℕ) : ℕ :=
  (index * stream.numProcesses + processIndex) * stream.batchSize + offset

def ResampleStream.batch (stream : ResampleStream) (prompts : ℕ → α)
    (processIndex index : ℕ) : List α :=
  (List.range stream.batchSize).map fun offset =>
    prompts (stream.position processIndex index offset / stream.repeatCount)

/-- What a process has while it resamples. `next` is the next batch of its iterator. -/
structure ResampleState (α : Type) where
  pendingSamples : List α
  validSamples : List α
  next : ℕ

/-- Fetch batches until there are enough pending samples. Every batch has a sample, so as
many batches as samples are enough. -/
def fetchSamples (batches : ℕ → List α) (stillNeeded : ℕ) :
    ℕ → ResampleState α → ResampleState α
  | 0, state => state
  | fuel + 1, state =>
    if state.pendingSamples.length < stillNeeded then
      fetchSamples batches stillNeeded fuel { state with
        pendingSamples := state.pendingSamples ++ batches state.next
        next := state.next + 1 }
    else state

/-- Encode pending samples until there are enough valid ones. -/
def encodeSamples (encodes : α → Bool) (requiredCount : ℕ) : List α → List α → List α × List α
  | [], validSamples => ([], validSamples)
  | data :: pendingSamples, validSamples =>
    if validSamples.length < requiredCount then
      encodeSamples encodes requiredCount pendingSamples
        (if encodes data then validSamples ++ [data] else validSamples)
    else (data :: pendingSamples, validSamples)

def resampleRound (encodes : α → Bool) (batches : ℕ → List α) (requiredCount : ℕ)
    (state : ResampleState α) : ResampleState α :=
  let stillNeeded := requiredCount - state.validSamples.length
  let fetched := fetchSamples batches stillNeeded stillNeeded state
  let encoded := encodeSamples encodes requiredCount fetched.pendingSamples fetched.validSamples
  { pendingSamples := encoded.1
    validSamples := encoded.2
    next := fetched.next }

/-- Rounds of resampling, until there are enough valid samples. -/
def resampleRounds (encodes : α → Bool) (batches : ℕ → List α) (requiredCount : ℕ) :
    ℕ → ResampleState α → ResampleState α
  | 0, state => state
  | rounds + 1, state =>
    if requiredCount - state.validSamples.length = 0 then state
    else resampleRounds encodes batches requiredCount rounds
      (resampleRound encodes batches requiredCount state)

/-- The samples of a process after it replaced those that fail to encode. -/
def resampleEncodeFailedInputs (encodes : α → Bool) (batches : ℕ → List α) (next : ℕ)
    (inputs : List α) (maxResampleRounds : ℕ) : Option (List α) :=
  let requiredCount := inputs.length
  let final := resampleRounds encodes batches requiredCount (maxResampleRounds + 1)
    ⟨inputs, [], next⟩
  if final.validSamples.length < requiredCount then none
  else some (final.validSamples.take requiredCount)

/-- The method of the Megatron trainer, which has a stream of its own and the same loop. -/
def MegatronGRPOTrainer.resampleEncodeFailedInputs (encodes : α → Bool)
    (resampleDataIterator : ℕ → List α) (next : ℕ) (inputs : List α) (maxResampleRounds : ℕ) :
    Option (List α) :=
  Trainers.resampleEncodeFailedInputs encodes resampleDataIterator next inputs maxResampleRounds

/-! ## What a process draws -/

/-- Some batches of a process in a row. -/
def draws (batches : ℕ → List α) (next count : ℕ) : List α :=
  (List.range count).flatMap fun index => batches (next + index)

/-- The valid samples are the ones that encode among those the process has looked at, which
are its own and then the drawn ones. -/
structure Resampled (encodes : α → Bool) (batches : ℕ → List α) (inputs : List α) (next : ℕ)
    (state : ResampleState α) (count : ℕ) (consumed : List α) : Prop where
  next_eq : state.next = next + count
  looked : consumed ++ state.pendingSamples = inputs ++ draws batches next count
  valid : state.validSamples = consumed.filter encodes
  few : state.validSamples.length ≤ inputs.length

theorem draws_succ (batches : ℕ → List α) (next count : ℕ) :
    draws batches next (count + 1) = draws batches next count ++ batches (next + count) := by
  rw [draws, range_succ, flatMap_append, flatMap_singleton]
  rfl

variable {state : ResampleState α} {count : ℕ}

theorem Resampled.fetch {encodes : α → Bool} {batches : ℕ → List α} {inputs : List α} {next : ℕ}
    {consumed : List α} (resampled : Resampled encodes batches inputs next state count consumed)
    (stillNeeded fuel : ℕ) :
    ∃ later, Resampled encodes batches inputs next
      (fetchSamples batches stillNeeded fuel state) later consumed := by
  induction fuel generalizing state count with
  | zero => exact ⟨count, resampled⟩
  | succ fuel ih =>
    rw [fetchSamples]
    split
    · have fetched : Resampled encodes batches inputs next { state with
          pendingSamples := state.pendingSamples ++ batches state.next
          next := state.next + 1 } (count + 1) consumed := by
        refine ⟨?_, ?_, resampled.valid, resampled.few⟩
        · rw [resampled.next_eq, Nat.add_assoc]
        · rw [draws_succ, ← append_assoc, resampled.looked, resampled.next_eq, append_assoc]
      exact ih fetched
    · exact ⟨count, resampled⟩

/-- Encoding moves samples from the pending ones to those the process has looked at. -/
theorem encodeSamples_spec (encodes : α → Bool) (requiredCount : ℕ) (pending valid : List α)
    (few : valid.length ≤ requiredCount) :
    ∃ looked, looked ++ (encodeSamples encodes requiredCount pending valid).1 = pending ∧
      (encodeSamples encodes requiredCount pending valid).2 = valid ++ looked.filter encodes ∧
      (encodeSamples encodes requiredCount pending valid).2.length ≤ requiredCount := by
  induction pending generalizing valid with
  | nil => exact ⟨[], rfl, (append_nil _).symm, few⟩
  | cons data pending ih =>
    rw [encodeSamples]
    split
    · rename_i missing
      have fewer : (if encodes data then valid ++ [data] else valid).length ≤ requiredCount := by
        split
        · rw [length_append]
          exact missing
        · exact few
      obtain ⟨looked, rest, isValid, atMost⟩ := ih _ fewer
      refine ⟨data :: looked, congrArg (data :: ·) rest, ?_, atMost⟩
      rw [isValid, filter_cons]
      split
      · rw [append_assoc, singleton_append]
      · rfl
    · exact ⟨[], rfl, (append_nil _).symm, few⟩

variable {encodes : α → Bool} {batches : ℕ → List α} {inputs : List α} {next : ℕ}

theorem Resampled.round {consumed : List α}
    (resampled : Resampled encodes batches inputs next state count consumed) :
    ∃ later looked, Resampled encodes batches inputs next
      (resampleRound encodes batches inputs.length state) later looked := by
  obtain ⟨later, fetched⟩ := resampled.fetch (inputs.length - state.validSamples.length)
    (inputs.length - state.validSamples.length)
  obtain ⟨looked, rest, isValid, atMost⟩ := encodeSamples_spec encodes inputs.length
    _ _ fetched.few
  refine ⟨later, consumed ++ looked, fetched.next_eq, ?_, ?_, atMost⟩
  · rw [append_assoc, resampleRound]
    dsimp only
    rw [rest, fetched.looked]
  · rw [filter_append, ← fetched.valid]
    exact isValid

theorem Resampled.rounds {state : ResampleState α} {count : ℕ} {consumed : List α}
    (resampled : Resampled encodes batches inputs next state count consumed) (rounds : ℕ) :
    ∃ later looked, Resampled encodes batches inputs next
      (resampleRounds encodes batches inputs.length rounds state) later looked := by
  induction rounds generalizing state count consumed with
  | zero => exact ⟨count, consumed, resampled⟩
  | succ rounds ih =>
    rw [resampleRounds]
    split
    · exact ⟨count, consumed, resampled⟩
    · obtain ⟨later, looked, round⟩ := resampled.round
      exact ih round

theorem Resampled.start (encodes : α → Bool) (batches : ℕ → List α) (inputs : List α)
    (next : ℕ) : Resampled encodes batches inputs next ⟨inputs, [], next⟩ 0 [] :=
  ⟨rfl, (append_nil _).symm, rfl, Nat.zero_le _⟩

variable {maxResampleRounds : ℕ} {outputs : List α}

/-- A process returns the first samples that encode, of its own and of those it drew. -/
theorem resampleEncodeFailedInputs_eq
    (returned : resampleEncodeFailedInputs encodes batches next inputs maxResampleRounds =
      some outputs) :
    outputs.length = inputs.length ∧ ∃ count,
      outputs = ((inputs ++ draws batches next count).filter encodes).take inputs.length := by
  obtain ⟨count, consumed, final⟩ :=
    (Resampled.start encodes batches inputs next).rounds (maxResampleRounds + 1)
  rw [resampleEncodeFailedInputs] at returned
  split at returned
  · cases returned
  · rename_i enough
    have all : (resampleRounds encodes batches inputs.length (maxResampleRounds + 1)
        ⟨inputs, [], next⟩).validSamples.length = inputs.length :=
      Nat.le_antisymm final.few (Nat.le_of_not_lt enough)
    cases returned
    refine ⟨by rw [length_take, all, Nat.min_self], count, ?_⟩
    rw [← final.looked, filter_append, ← final.valid, take_append_of_le_length
      (Nat.le_of_eq all.symm)]

/-! ## A stream whose samples all encode -/

theorem le_length_fetchSamples (someSample : ∀ index, batches index ≠ []) (stillNeeded fuel : ℕ)
    (state : ResampleState α) (enough : stillNeeded ≤ state.pendingSamples.length + fuel) :
    stillNeeded ≤ (fetchSamples batches stillNeeded fuel state).pendingSamples.length := by
  induction fuel generalizing state with
  | zero => exact enough
  | succ fuel ih =>
    rw [fetchSamples]
    split
    · refine ih _ ?_
      have positive := length_pos_iff.mpr (someSample state.next)
      rw [length_append]
      omega
    · rename_i notFewer
      exact Nat.le_of_not_lt notFewer

/-- **A process gets as many samples as it had, or none**: its own that encode, in their order, and
then some of the stream, each taken once. The samples are those at the places of the batch and of
the stream, so that equal data may fail at one place and encode at another. -/
theorem resample_spec (encodes : α → Bool) (batches : ℕ → List α) (next : ℕ) (inputs : List α)
    (maxResampleRounds : ℕ) (someSample : ∀ index, batches index ≠ []) :
    MegatronGRPOTrainer.resampleEncodeFailedInputs encodes batches next inputs maxResampleRounds =
        resampleEncodeFailedInputs encodes batches next inputs maxResampleRounds ∧
      (∀ stillNeeded (state : ResampleState α), stillNeeded ≤
        (fetchSamples batches stillNeeded stillNeeded state).pendingSamples.length) ∧
      ∀ outputs, resampleEncodeFailedInputs encodes batches next inputs maxResampleRounds =
          some outputs →
        outputs.length = inputs.length ∧ (∀ data ∈ outputs, encodes data = true) ∧
          ∃ count drawn, outputs = inputs.filter encodes ++ drawn ∧
            drawn.Sublist (draws batches next count) := by
  refine ⟨rfl, fun stillNeeded state => le_length_fetchSamples someSample _ _ state
    (Nat.le_add_left _ _), fun outputs returned => ?_⟩
  obtain ⟨length, count, isOutputs⟩ := resampleEncodeFailedInputs_eq returned
  refine ⟨length, fun data isOutput => ?_, count,
    ((draws batches next count).filter encodes).take
      (inputs.length - (inputs.filter encodes).length), ?_, ?_⟩
  · rw [isOutputs] at isOutput
    exact (mem_filter.mp (mem_of_mem_take isOutput)).2
  · rw [isOutputs, filter_append, take_append, take_of_length_le (length_filter_le _ _)]
  · exact (take_sublist _ _).trans filter_sublist

/-- Of three samples one fails, and the first of the stream that encodes takes its place. -/
theorem resample_spec_oneFails :
    (∀ index, [index + 10] ≠ []) ∧
      resampleEncodeFailedInputs (fun data => data != 2 && data != 10) (fun index => [index + 10]) 0
        [1, 2, 3] 10 = some [1, 3, 11] ∧
      ∃ count drawn, [1, 3, 11] = [1, 2, 3].filter (fun data => data != 2 && data != 10) ++ drawn ∧
        drawn.Sublist (draws (fun index => [index + 10]) 0 count) :=
  ⟨fun _ => cons_ne_nil _ _, by decide, ((resample_spec _ _ 0 [1, 2, 3] 10
    fun _ => cons_ne_nil _ _).2.2 _ (by decide)).2.2⟩

theorem fetchSamples_validSamples (batches : ℕ → List α) (stillNeeded fuel : ℕ)
    (state : ResampleState α) :
    (fetchSamples batches stillNeeded fuel state).validSamples = state.validSamples := by
  induction fuel generalizing state with
  | zero => rfl
  | succ fuel ih =>
    rw [fetchSamples]
    split
    · exact ih _
    · rfl

theorem mem_fetchSamples {stillNeeded fuel : ℕ} {data : α}
    (member : data ∈ (fetchSamples batches stillNeeded fuel state).pendingSamples) :
    data ∈ state.pendingSamples ∨ ∃ index, data ∈ batches index := by
  induction fuel generalizing state with
  | zero => exact Or.inl member
  | succ fuel ih =>
    rw [fetchSamples] at member
    split at member
    · rcases ih member with pending | drawn
      · exact (mem_append.mp pending).imp_right fun drawn => ⟨state.next, drawn⟩
      · exact Or.inr drawn
    · exact Or.inl member

variable {requiredCount : ℕ}

theorem encodeSamples_of_encodes {pending valid : List α}
    (all : ∀ data ∈ pending, encodes data = true) (few : valid.length ≤ requiredCount)
    (enough : requiredCount ≤ valid.length + pending.length) :
    (encodeSamples encodes requiredCount pending valid).2.length = requiredCount := by
  induction pending generalizing valid with
  | nil => exact Nat.le_antisymm few enough
  | cons data pending ih =>
    rw [encodeSamples]
    split
    · rename_i missing
      rw [if_pos (all data mem_cons_self)]
      refine ih (fun other isOther => all other (mem_cons_of_mem _ isOther)) ?_ ?_
      · rw [length_append]
        exact missing
      · rw [length_append]
        rw [length_cons] at enough
        rw [length_singleton]
        omega
    · rename_i full
      exact Nat.le_antisymm few (Nat.le_of_not_lt full)

/-- Encoding looks at all samples unless it finds enough. -/
theorem encodeSamples_pending (encodes : α → Bool) (requiredCount : ℕ) (pending valid : List α)
    (missing : (encodeSamples encodes requiredCount pending valid).2.length < requiredCount) :
    (encodeSamples encodes requiredCount pending valid).1 = [] := by
  induction pending generalizing valid with
  | nil => rfl
  | cons data pending ih =>
    rw [encodeSamples] at missing ⊢
    split
    · rename_i fewer
      rw [if_pos fewer] at missing
      exact ih _ missing
    · rename_i full
      rw [if_neg full] at missing
      exact absurd missing full

theorem resampleRounds_of_enough (rounds : ℕ) (enough : requiredCount ≤ state.validSamples.length) :
    resampleRounds encodes batches requiredCount rounds state = state := by
  cases rounds with
  | zero => rfl
  | succ rounds => rw [resampleRounds, if_pos (Nat.sub_eq_zero_of_le enough)]

/-- A round without pending samples draws what is missing. -/
theorem second_round (someSample : ∀ index, batches index ≠ [])
    (all : ∀ index, ∀ data ∈ batches index, encodes data = true)
    (noPending : state.pendingSamples = []) (few : state.validSamples.length ≤ requiredCount) :
    (resampleRound encodes batches requiredCount state).validSamples.length = requiredCount := by
  have valid := fetchSamples_validSamples batches (requiredCount - state.validSamples.length)
    (requiredCount - state.validSamples.length) state
  have fetched := le_length_fetchSamples someSample (requiredCount - state.validSamples.length)
    (requiredCount - state.validSamples.length) state (Nat.le_add_left _ _)
  refine encodeSamples_of_encodes (fun data isPending => ?_) ?_ ?_
  · rcases mem_fetchSamples isPending with pending | ⟨index, drawn⟩
    · rw [noPending] at pending
      exact absurd pending not_mem_nil
    · exact all index data drawn
  · rwa [valid]
  · rw [valid]
    omega

/-- A process that draws only samples that encode returns. -/
theorem resample_returns (someSample : ∀ index, batches index ≠ [])
    (all : ∀ index, ∀ data ∈ batches index, encodes data = true)
    (positive : 0 < maxResampleRounds) :
    ∃ outputs, resampleEncodeFailedInputs encodes batches next inputs maxResampleRounds =
      some outputs := by
  obtain ⟨rounds, rfl⟩ := Nat.exists_eq_succ_of_ne_zero positive.ne'
  suffices enough : ¬(resampleRounds encodes batches inputs.length (rounds + 1 + 1)
      ⟨inputs, [], next⟩).validSamples.length < inputs.length by
    exact ⟨_, if_neg enough⟩
  rw [resampleRounds]
  split
  · rename_i none
    exact Nat.not_lt_of_le (Nat.le_of_sub_eq_zero none)
  rw [resampleRounds]
  split
  · rename_i enough
    exact Nat.not_lt_of_le (Nat.le_of_sub_eq_zero enough)
  · rename_i missing
    -- The first round looks at the samples of the process, the second one at drawn samples.
    have noPending : (resampleRound encodes batches inputs.length
        ⟨inputs, [], next⟩).pendingSamples = [] :=
      encodeSamples_pending _ _ _ _ (Nat.lt_of_sub_ne_zero missing)
    have full := second_round someSample all noPending
      (Nat.le_of_lt (Nat.lt_of_sub_ne_zero missing))
    rw [resampleRounds_of_enough _ (Nat.le_of_eq full.symm), full]
    exact Nat.lt_irrefl _

/-! ## Groups -/

/-- The samples are copies of one prompt after the other. -/
def Grouped (size : ℕ) (samples : List α) : Prop :=
  ∃ prompts : List α, samples = repeatInterleave size prompts

variable {size : ℕ} {samples : List α}

theorem Grouped.append {others : List α} (grouped : Grouped size samples)
    (groupedOthers : Grouped size others) : Grouped size (samples ++ others) := by
  obtain ⟨prompts, rfl⟩ := grouped
  obtain ⟨otherPrompts, rfl⟩ := groupedOthers
  exact ⟨prompts ++ otherPrompts, flatMap_append.symm⟩

theorem Grouped.flatten {lists : List (List α)} (grouped : ∀ list ∈ lists, Grouped size list) :
    Grouped size lists.flatten := by
  induction lists with
  | nil => exact ⟨[], rfl⟩
  | cons first lists ih =>
    exact (grouped first mem_cons_self).append
      (ih fun list isList => grouped list (mem_cons_of_mem _ isList))

theorem Grouped.filter (grouped : Grouped size samples) (keep : α → Bool) :
    Grouped size (samples.filter keep) := by
  obtain ⟨prompts, rfl⟩ := grouped
  refine ⟨prompts.filter keep, ?_⟩
  induction prompts with
  | nil => rfl
  | cons prompt prompts ih =>
    rw [repeatInterleave] at ih ⊢
    rw [flatMap_cons, filter_append, ih, filter_cons, filter_replicate]
    split
    · rw [repeatInterleave, repeatInterleave, flatMap_cons]
    · rw [nil_append]

theorem Grouped.take (grouped : Grouped size samples) (whole : size ∣ count) :
    Grouped size (samples.take count) := by
  obtain ⟨prompts, rfl⟩ := grouped
  obtain ⟨groups, rfl⟩ := whole
  refine ⟨prompts.take groups, ?_⟩
  rw [Nat.mul_comm]
  exact take_flatMap_uniform (fun _ => length_replicate) prompts groups

theorem Grouped.drop (grouped : Grouped size samples) (whole : size ∣ count) :
    Grouped size (samples.drop count) := by
  obtain ⟨prompts, rfl⟩ := grouped
  obtain ⟨groups, rfl⟩ := whole
  refine ⟨prompts.drop groups, ?_⟩
  rw [Nat.mul_comm]
  exact drop_flatMap_uniform (fun _ => length_replicate) prompts groups

/-- Lists of whole groups are grouped when they are so together. -/
theorem Grouped.of_flatten {lists : List (List α)} (grouped : Grouped size lists.flatten)
    (whole : ∀ list ∈ lists, size ∣ list.length) : ∀ list ∈ lists, Grouped size list := by
  induction lists with
  | nil => exact fun list isList => absurd isList not_mem_nil
  | cons first lists ih =>
    have wholeFirst := whole first mem_cons_self
    have groupedFirst := grouped.take wholeFirst
    have groupedRest := grouped.drop wholeFirst
    rw [flatten_cons] at groupedFirst groupedRest
    rw [take_left] at groupedFirst
    rw [drop_left] at groupedRest
    intro list isList
    rcases mem_cons.mp isList with rfl | later
    · exact groupedFirst
    · exact ih groupedRest (fun other isOther => whole other (mem_cons_of_mem _ isOther))
        list later

theorem Grouped.dvd_count [DecidableEq α] (grouped : Grouped size samples) (prompt : α) :
    size ∣ samples.count prompt := by
  obtain ⟨prompts, rfl⟩ := grouped
  rw [repeatInterleave, count_flatMap]
  refine dvd_sum fun count isCount => ?_
  obtain ⟨other, -, rfl⟩ := mem_map.mp isCount
  rw [Function.comp_apply, count_replicate]
  split
  · exact Nat.dvd_refl _
  · exact Nat.dvd_zero _

/-! ## Groups after resampling -/

/-- The samples of the processes, in the order of the process indices. -/
def ResampleStream.gathered (stream : ResampleStream) (samples : ℕ → List α) : List α :=
  gatherObject ((List.range stream.numProcesses).map samples)

/-- Whatever the stream gives and wherever the processes are in it, the samples come in
groups after every process has resampled. -/
def ResampleStream.KeepsGroups (stream : ResampleStream) (encodes : α → Bool) (size : ℕ)
    (inputs : ℕ → List α) : Prop :=
  ∀ (prompts : ℕ → α) (next : ℕ → ℕ) (outputs : ℕ → List α),
    (∀ processIndex < stream.numProcesses,
      resampleEncodeFailedInputs encodes (stream.batch prompts processIndex) (next processIndex)
        (inputs processIndex) 10 = some (outputs processIndex)) →
    Grouped size (stream.gathered outputs)

/-- Groups, copies and batches divide each other. -/
def ResampleStream.Aligned (stream : ResampleStream) (size : ℕ) (inputs : ℕ → List α) : Prop :=
  size ∣ stream.repeatCount ∧ size ∣ stream.batchSize ∧
    ∀ processIndex < stream.numProcesses, size ∣ (inputs processIndex).length

/-- A process whose samples all encode keeps them. -/
theorem resample_of_encodes (all : ∀ data ∈ inputs, encodes data = true)
    (returned : resampleEncodeFailedInputs encodes batches next inputs maxResampleRounds =
      some outputs) : outputs = inputs := by
  obtain ⟨-, count, isOutputs⟩ := resampleEncodeFailedInputs_eq returned
  rw [isOutputs, filter_append, filter_eq_self.mpr all, take_left]

variable (stream : ResampleStream)

theorem keepsGroups_of_encodes {inputs : ℕ → List α}
    (grouped : Grouped size (stream.gathered inputs))
    (all : ∀ data ∈ stream.gathered inputs, encodes data = true) :
    stream.KeepsGroups encodes size inputs := by
  intro prompts next outputs returned
  have same : stream.gathered outputs = stream.gathered inputs := by
    refine congrArg gatherObject (map_congr_left fun processIndex isProcess => ?_)
    refine resample_of_encodes (fun data isData => all data ?_)
      (returned processIndex (mem_range.mp isProcess))
    exact List.mem_flatten.mpr ⟨_, mem_map_of_mem isProcess, isData⟩
  rwa [same]

theorem grouped_batch (wholeCopies : size ∣ stream.repeatCount)
    (wholeBatch : size ∣ stream.batchSize) (prompts : ℕ → α) (processIndex index : ℕ) :
    Grouped size (stream.batch prompts processIndex index) := by
  obtain ⟨copies, isCopies⟩ := wholeCopies
  obtain ⟨groups, isGroups⟩ := wholeBatch
  have positive : 0 < size := Nat.pos_of_mul_pos_right (isCopies ▸ stream.repeatCount_pos)
  refine ⟨(range groups).map fun group =>
    prompts (((index * stream.numProcesses + processIndex) * groups + group) / copies), ?_⟩
  have place : ∀ offset, stream.position processIndex index offset / stream.repeatCount =
      ((index * stream.numProcesses + processIndex) * groups + offset / size) / copies := by
    intro offset
    rw [ResampleStream.position, isCopies, isGroups, Nat.mul_left_comm, ← Nat.div_div_eq_div_mul,
      Nat.mul_add_div positive]
  rw [ResampleStream.batch, isGroups, Nat.mul_comm size groups, repeatInterleave, flatMap_map]
  simp only [place]
  exact map_range_div (fun group => prompts
    (((index * stream.numProcesses + processIndex) * groups + group) / copies)) groups size

theorem keepsGroups_of_aligned {inputs : ℕ → List α}
    (grouped : Grouped size (stream.gathered inputs)) (aligned : stream.Aligned size inputs) :
    stream.KeepsGroups encodes size inputs := by
  obtain ⟨wholeCopies, wholeBatch, wholeInputs⟩ := aligned
  intro prompts next outputs returned
  have groupedInputs := grouped.of_flatten fun list isList => by
    obtain ⟨processIndex, isProcess, rfl⟩ := mem_map.mp isList
    exact wholeInputs processIndex (mem_range.mp isProcess)
  refine Grouped.flatten fun list isList => ?_
  obtain ⟨processIndex, isProcess, rfl⟩ := mem_map.mp isList
  obtain ⟨-, count, isOutputs⟩ :=
    resampleEncodeFailedInputs_eq (returned processIndex (mem_range.mp isProcess))
  have groupedDraws : Grouped size
      (draws (stream.batch prompts processIndex) (next processIndex) count) := by
    refine Grouped.flatten fun list isList => ?_
    obtain ⟨index, -, rfl⟩ := mem_map.mp isList
    exact grouped_batch stream wholeCopies wholeBatch prompts processIndex _
  rw [isOutputs]
  exact (((groupedInputs _ (mem_map_of_mem isProcess)).append groupedDraws).filter
    encodes).take (wholeInputs processIndex (mem_range.mp isProcess))

/-! ## A stream with fewer copies than a group -/

/-- The positions in the stream of some batches of a process in a row. -/
def drawnPositions (stream : ResampleStream) (processIndex next count : ℕ) : List ℕ :=
  (List.range count).flatMap fun index =>
    (List.range stream.batchSize).map (stream.position processIndex (next + index))

theorem draws_eq_map_positions (prompts : ℕ → α) (processIndex next count : ℕ) :
    draws (stream.batch prompts processIndex) next count =
      (drawnPositions stream processIndex next count).map fun position =>
        prompts (position / stream.repeatCount) := by
  rw [draws, drawnPositions, map_flatMap]
  refine flatMap_congr fun index _ => ?_
  rw [map_map]
  rfl

theorem position_div (processIndex index : ℕ) {offset : ℕ} (inside : offset < stream.batchSize) :
    stream.position processIndex index offset / stream.batchSize =
      index * stream.numProcesses + processIndex := by
  rw [ResampleStream.position, Nat.mul_comm, Nat.mul_add_div stream.batchSize_pos,
    Nat.div_eq_of_lt inside, Nat.add_zero]

theorem nodup_flatMap_of_key {β γ : Type} {items : List β} (distinct : items.Nodup)
    {f : β → List γ} (key : γ → β) (distinctParts : ∀ item ∈ items, (f item).Nodup)
    (keyed : ∀ item ∈ items, ∀ part ∈ f item, key part = item) : (items.flatMap f).Nodup := by
  refine nodup_flatMap.mpr ⟨distinctParts, ?_⟩
  refine distinct.imp_of_mem fun isFirst isSecond different => ?_
  intro part inFirst inSecond
  exact different ((keyed _ isFirst part inFirst).symm.trans (keyed _ isSecond part inSecond))

theorem div_of_mem_drawnPositions {processIndex next position : ℕ}
    (drawn : position ∈ drawnPositions stream processIndex next count) :
    ∃ index < count, position / stream.batchSize =
      (next + index) * stream.numProcesses + processIndex := by
  obtain ⟨index, isIndex, inBatch⟩ := mem_flatMap.mp drawn
  obtain ⟨offset, isOffset, rfl⟩ := mem_map.mp inBatch
  exact ⟨index, mem_range.mp isIndex,
    position_div stream processIndex _ (mem_range.mp isOffset)⟩

theorem drawnPositions_nodup (next count : ℕ → ℕ) :
    ((range stream.numProcesses).flatMap fun processIndex =>
      drawnPositions stream processIndex (next processIndex) (count processIndex)).Nodup := by
  have ofBatch : ∀ {processIndex index : ℕ}, processIndex < stream.numProcesses →
      (index * stream.numProcesses + processIndex) / stream.numProcesses = index ∧
        (index * stream.numProcesses + processIndex) % stream.numProcesses = processIndex := by
    intro processIndex index isProcess
    rw [Nat.mul_comm, Nat.mul_add_div stream.numProcesses_pos, Nat.mul_add_mod,
      Nat.div_eq_of_lt isProcess, Nat.mod_eq_of_lt isProcess]
    exact ⟨rfl, rfl⟩
  refine nodup_flatMap_of_key nodup_range
    (fun position => position / stream.batchSize % stream.numProcesses) ?_ ?_
  · intro processIndex isProcess
    refine nodup_flatMap_of_key nodup_range (fun position =>
      position / stream.batchSize / stream.numProcesses - next processIndex) ?_ ?_
    · intro index _
      exact nodup_range.map fun offset other same => Nat.add_left_cancel same
    · intro index _ position inBatch
      obtain ⟨offset, isOffset, rfl⟩ := mem_map.mp inBatch
      rw [position_div stream processIndex _ (mem_range.mp isOffset),
        (ofBatch (mem_range.mp isProcess)).1, Nat.add_sub_cancel_left]
  · intro processIndex isProcess position drawn
    obtain ⟨index, -, batch⟩ := div_of_mem_drawnPositions stream drawn
    rw [batch, (ofBatch (mem_range.mp isProcess)).2]

/-- At most as many positions as there are copies have the same prompt of the stream. -/
theorem countP_position_le {positions : List ℕ} (distinct : positions.Nodup) {copies : ℕ}
    (positive : 0 < copies) (prompt : ℕ) :
    positions.countP (fun position => position / copies = prompt) ≤ copies := by
  rw [countP_eq_length_filter]
  have inBlock : positions.filter (fun position => position / copies = prompt) ⊆
      List.range' (prompt * copies) copies := by
    intro position isPosition
    have isPrompt : position / copies = prompt :=
      of_decide_eq_true (mem_filter.mp isPosition).2
    rw [mem_range'_1, ← isPrompt]
    exact ⟨Nat.div_mul_le_self _ _, by
      rw [← Nat.succ_mul, Nat.mul_comm]
      exact Nat.lt_mul_div_succ position positive⟩
  have fewer := ((distinct.filter _).subperm inBlock).length_le
  rwa [length_range'] at fewer

theorem first_draw_mem {first : α}
    (returned : resampleEncodeFailedInputs encodes batches next inputs maxResampleRounds =
      some outputs) (failing : ∃ data ∈ inputs, encodes data = false)
    (isFirst : ∀ count, ∃ rest, draws batches next (count + 1) = first :: rest)
    (firstEncodes : encodes first = true) : first ∈ outputs := by
  obtain ⟨data, isData, fails⟩ := failing
  have fewer : (inputs.filter encodes).length < inputs.length := by
    refine Nat.lt_of_le_of_ne (length_filter_le _ _) fun all => ?_
    have keeps := length_filter_eq_length_iff.mp all data isData
    rw [fails] at keeps
    cases keeps
  obtain ⟨length, count, isOutputs⟩ := resampleEncodeFailedInputs_eq returned
  cases count with
  | zero =>
    rw [draws, range_zero, flatMap_nil, append_nil] at isOutputs
    have short := length_take_le inputs.length (inputs.filter encodes)
    rw [← isOutputs, length] at short
    rw [isOutputs, length_take, Nat.min_eq_right (Nat.le_of_lt fewer)] at length
    exact absurd length (Nat.ne_of_lt fewer)
  | succ count =>
    obtain ⟨more, isMore⟩ := Nat.exists_eq_add_of_lt fewer
    obtain ⟨rest, isRest⟩ := isFirst count
    rw [isOutputs, filter_append, isRest, filter_cons, if_pos firstEncodes, isMore,
      Nat.add_assoc, take_length_add_append, take_succ_cons]
    exact mem_append_right _ mem_cons_self

theorem draws_batch_cons (prompts : ℕ → α) (processIndex count : ℕ) :
    ∃ rest, draws (stream.batch prompts processIndex) 0 (count + 1) =
      prompts (stream.position processIndex 0 0 / stream.repeatCount) :: rest := by
  obtain ⟨others, isBatch⟩ := Nat.exists_eq_succ_of_ne_zero stream.batchSize_pos.ne'
  rw [draws, range_succ_eq_map, flatMap_cons, ResampleStream.batch, isBatch,
    range_succ_eq_map, map_cons, cons_append]
  exact ⟨_, rfl⟩

section Scarce

variable [DecidableEq α]

/-- A stream that has one prompt at one place and another one everywhere else. -/
def onePlace (place : ℕ) (prompt other : α) (index : ℕ) : α :=
  if index = place then prompt else other

/-- A prompt at one place of the stream occurs at most as often as it has copies. -/
theorem count_draws_le (stream : ResampleStream) (next count : ℕ → ℕ) (place : ℕ)
    {prompt other : α} (different : other ≠ prompt) :
    ((range stream.numProcesses).flatMap fun processIndex =>
      draws (stream.batch (onePlace place prompt other) processIndex) (next processIndex)
        (count processIndex)).count prompt ≤ stream.repeatCount := by
  have isMap : ((range stream.numProcesses).flatMap fun processIndex =>
      draws (stream.batch (onePlace place prompt other) processIndex) (next processIndex)
        (count processIndex)) =
      ((range stream.numProcesses).flatMap fun processIndex =>
        drawnPositions stream processIndex (next processIndex) (count processIndex)).map
          fun position => onePlace place prompt other (position / stream.repeatCount) := by
    rw [map_flatMap]
    exact flatMap_congr fun processIndex _ => draws_eq_map_positions ..
  rw [isMap, count_eq_countP, countP_map]
  refine Nat.le_trans (countP_mono_left fun position _ isPrompt => ?_)
    (countP_position_le (drawnPositions_nodup stream next count) stream.repeatCount_pos place)
  rw [Function.comp_apply, onePlace] at isPrompt
  split at isPrompt
  · rename_i atPlace
    exact decide_eq_true atPlace
  · exact absurd (eq_of_beq isPrompt) different

/-- With fewer copies than a group, a sample that fails to encode can break the groups. -/
theorem encodes_of_keepsGroups (stream : ResampleStream) {size : ℕ} {inputs : ℕ → List α}
    (scarce : stream.repeatCount < size) {prompt other : α} (encodesPrompt : encodes prompt = true)
    (fresh : prompt ∉ stream.gathered inputs) (encodesOther : encodes other = true)
    (different : other ≠ prompt) (keeps : stream.KeepsGroups encodes size inputs) :
    ∀ data ∈ stream.gathered inputs, encodes data = true := by
  by_contra failing
  push Not at failing
  obtain ⟨data, isData, fails⟩ := failing
  obtain ⟨own, isOwn, inOwn⟩ := List.mem_flatten.mp isData
  obtain ⟨failingProcess, isFailing, rfl⟩ := mem_map.mp isOwn
  let place := stream.position failingProcess 0 0 / stream.repeatCount
  have encodesAll : ∀ index, encodes (onePlace place prompt other index) = true := by
    intro index
    rw [onePlace]
    split
    · exact encodesPrompt
    · exact encodesOther
  -- Every process returns, for all that it draws encodes.
  have returns : ∀ processIndex, ∃ outputs, resampleEncodeFailedInputs encodes
      (stream.batch (onePlace place prompt other) processIndex) 0 (inputs processIndex) 10 =
        some outputs := by
    intro processIndex
    refine resample_returns (fun index => ?_) (fun index data isData => ?_) (Nat.succ_pos 9)
    · refine ne_nil_of_length_pos ?_
      rw [ResampleStream.batch, length_map, length_range]
      exact stream.batchSize_pos
    · obtain ⟨offset, -, rfl⟩ := mem_map.mp isData
      exact encodesAll _
  choose outputs returned using returns
  have grouped := keeps (onePlace place prompt other) (fun _ => 0) outputs
    fun processIndex _ => returned processIndex
  have occurs : prompt ∈ stream.gathered outputs := by
    refine List.mem_flatten.mpr ⟨_, mem_map_of_mem isFailing, ?_⟩
    have first : onePlace place prompt other place = prompt := if_pos rfl
    have drawn := first_draw_mem (returned failingProcess)
      ⟨data, inOwn, eq_false_of_ne_true fails⟩
      (draws_batch_cons stream (onePlace place prompt other) failingProcess) (encodesAll place)
    rwa [first] at drawn
  -- But it occurs only among the draws, which have too few copies of it.
  choose length count isOutputs using fun processIndex =>
    resampleEncodeFailedInputs_eq (returned processIndex)
  have atMost : (stream.gathered outputs).count prompt ≤ stream.repeatCount := by
    refine Nat.le_trans ?_ (count_draws_le stream (fun _ => 0) count place different)
    rw [ResampleStream.gathered, gatherObject, ← flatMap_def, count_flatMap, count_flatMap]
    refine sum_le_sum fun processIndex isProcess => ?_
    have notOwn : (inputs processIndex).count prompt = 0 := by
      refine count_eq_zero.mpr fun own => fresh ?_
      exact List.mem_flatten.mpr ⟨_, mem_map_of_mem isProcess, own⟩
    have sublist : (outputs processIndex).Sublist (inputs processIndex ++
        draws (stream.batch (onePlace place prompt other) processIndex) 0 (count processIndex)) := by
      rw [isOutputs]
      exact (take_sublist _ _).trans filter_sublist
    have fewer := sublist.count_le prompt
    rwa [count_append, notOwn, Nat.zero_add] at fewer
  have whole := Nat.le_of_dvd (count_pos_iff.mpr occurs) (grouped.dvd_count prompt)
  exact absurd (Nat.le_trans whole atMost) (Nat.not_le_of_lt scarce)

/-- **After resampling the samples still come in groups when all samples encode, or groups,
copies and batches divide each other. When a prompt has fewer copies in the stream than a
group, they do only when all samples encode.** -/
theorem resample_keeps_groups (stream : ResampleStream) (encodes : α → Bool) {size : ℕ}
    {inputs : ℕ → List α} (grouped : Grouped size (stream.gathered inputs)) :
    ((∀ data ∈ stream.gathered inputs, encodes data = true) ∨ stream.Aligned size inputs →
      stream.KeepsGroups encodes size inputs) ∧
    ∀ prompt other : α, encodes prompt = true → prompt ∉ stream.gathered inputs →
      encodes other = true → other ≠ prompt → stream.repeatCount < size →
        (stream.KeepsGroups encodes size inputs ↔
          ∀ data ∈ stream.gathered inputs, encodes data = true) := by
  refine ⟨?_, fun prompt other encodesPrompt fresh encodesOther different scarce => ?_⟩
  · rintro (all | aligned)
    · exact keepsGroups_of_encodes stream grouped all
    · exact keepsGroups_of_aligned stream grouped aligned
  · exact ⟨encodes_of_keepsGroups stream scarce encodesPrompt fresh encodesOther different,
      keepsGroups_of_encodes stream grouped⟩

end Scarce

end Resampling

/-! ## A group that fails to encode -/

def singleSamples : ResampleStream where
  numProcesses := 1
  numProcesses_pos := Nat.one_pos
  batchSize := 1
  batchSize_pos := Nat.one_pos
  repeatCount := 1
  repeatCount_pos := Nat.one_pos

/-- Two groups of two, of which the second fails to encode. -/
theorem failing_group_not_kept :
    ¬singleSamples.KeepsGroups (fun prompt => prompt != 1) 2 fun _ => [0, 0, 1, 1] := by
  have grouped : Grouped 2 (singleSamples.gathered fun _ => [0, 0, 1, 1]) := ⟨[0, 1], by decide⟩
  intro keeps
  have all := ((resample_keeps_groups singleSamples (fun prompt => prompt != 1) grouped).2 2 3
    (by decide) (by decide) (by decide) (by decide) (by decide)).mp keeps 1 (by decide)
  exact absurd all (by decide)

/-- The group is replaced by single prompts. -/
theorem failing_group_replaced :
    Grouped 2 [0, 0, 1, 1] ∧
      resampleEncodeFailedInputs (fun prompt => prompt != 1) (singleSamples.batch (· + 2) 0) 0
        [0, 0, 1, 1] 10 = some [0, 0, 2, 3] ∧
      ¬Grouped 2 [0, 0, 2, 3] := by
  refine ⟨⟨[0, 1], by decide⟩, by decide, fun grouped => ?_⟩
  exact absurd (grouped.dvd_count 2) (by decide)

end Geobench.Trainers
