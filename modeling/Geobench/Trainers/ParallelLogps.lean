import Geobench.Trainers.PaddingFree
import Geobench.Trainers.SequenceParallel

/-!
# Log probabilities from a group of processes

The log probabilities of a batch are computed by one process, or by a group of processes
that share its rows. Then the rows are padded, split, gathered, and the window is taken out
of what is gathered. A row without padding is cut by the lengths of its samples when it is
in a ring, and by its own length otherwise; a row with padding is cut from its end, which
is where the group has padded it. **`sp_agrees_iff`** says when the two ways agree on the
supervised tokens.
-/

namespace Geobench.Trainers

open Library List

/-! ## The trainer -/

/-- Samples are packed into one row, or padded to rows of one length. -/
inductive Layout where
  | paddingFree
  | padded
  deriving DecidableEq, Repr

/-- A group of processes and the layout of its batches. A ring needs packed rows. -/
structure ParallelSetup where
  par : Parallel
  layout : Layout
  ring_packed : 1 < par.rpWorldSize → layout = .paddingFree

/-- A batch as the template encodes it: the first token of a sample is not supervised. -/
structure EncodedBatch extends PackedBatch where
  first_ignored : ∀ sample ∈ samples, ∀ token ∈ sample.head?, token.supervised = false

def collatedRows (layout : Layout) (padTokenId : ℕ) (batch : EncodedBatch) : List EncodedRow :=
  match layout with
  | .paddingFree => [batch.packed]
  | .padded => dataCollator padTokenId batch.samples

/-- The positions of the tokens of a row. -/
def collatedPositions (layout : Layout) (batch : EncodedBatch) : List ℤ :=
  match layout with
  | .paddingFree => packedPositionIds (batch.samples.map List.length)
  | .padded => positionsOf (longest batch.samples)

/-- The sequence and the position in it that the logits of a place of a row are for. -/
def rowContexts (first : ℕ) (positionIds : List ℤ) : List (ℕ × ℕ) :=
  ((sequenceLengths positionIds).zipIdx first).flatMap fun sequence =>
    (List.range sequence.1).map fun position => (sequence.2, position)

section Paths

variable {F : Type} (logp : ℕ → ℕ → ℕ → F)

/-- The log probabilities of the last tokens of a row, each from the logits before it. -/
def localForwardRow (keep : ℕ) (contexts : List (ℕ × ℕ)) (inputIds : List ℕ) :
    Except ParallelError (List F) :=
  let logits := signedSlice contexts (-((keep + 1 : ℕ) : ℤ)) (-1)
  let inputIdsForLogps := inputIds.drop (inputIds.length - keep)
  if logits.length < inputIdsForLogps.length then .error .runtimeError
  else .ok (List.zipWith (fun context inputId => logp context.1 context.2 inputId) logits
    inputIdsForLogps)

def getLogpsViaLocalForward (layout : Layout) (padTokenId : ℕ) (batch : EncodedBatch) :
    Except ParallelError (List (List F)) :=
  let rows := collatedRows layout padTokenId batch
  rows.zipIdx.mapM fun row =>
    localForwardRow logp (logitsToKeep rows) (rowContexts row.2 (collatedPositions layout batch))
      (row.1.map LabelledToken.inputId)

variable [Zero F] (par : Parallel)

/-- The log probabilities of a padded row, every place for the token after it. A place of
padding is for the token of padding. -/
def gatherRow (padTokenId first : ℕ) (positionIds : List ℤ) (inputIds : List ℕ) :
    Except ParallelError (List F) := do
  let paddedPositions := pad par (-1) positionIds positionIds
  let labels := (pad par none positionIds (inputIds.map some)).rotate 1
  let outputs ← localOutputs par paddedPositions
    (fun context label => logp context.1 context.2 (label.getD padTokenId))
    (rowContexts first paddedPositions) labels
  .ok (gather par 0 paddedPositions outputs)

/-- The window of a row in what is gathered. -/
def extractLogps (layout : Layout) (batch : EncodedBatch) (keep : ℕ) (gathered : List F) :
    List F :=
  match layout with
  | .padded => signedSlice gathered (-((keep + 1 : ℕ) : ℤ)) (-1)
  | .paddingFree =>
    let positionIds := collatedPositions layout batch
    if 1 < par.rpWorldSize then
      let lengths := sequenceLengths positionIds
      let paddedLengths := sequenceLengths (pad par (-1) positionIds positionIds)
      -- a batch has a sample, so that there are lengths
      let seqLengths := (keptLengths lengths keep).toOption.getD []
      (List.range batch.samples.length).flatMap fun index =>
        let origLen : ℤ := lengths.getD index 0
        let actualLen := seqLengths.getD index 0
        let start : ℤ := offset paddedLengths index
        signedSlice gathered (start + origLen - actualLen - 1) (start + origLen - 1)
    else
      let originalTotalLen : ℤ := batch.packed.length
      signedSlice gathered (originalTotalLen - keep - 1) (originalTotalLen - 1)

def getLogpsViaSp (layout : Layout) (padTokenId : ℕ) (batch : EncodedBatch) :
    Except ParallelError (List (List F)) :=
  let rows := collatedRows layout padTokenId batch
  rows.zipIdx.mapM fun row => do
    let gathered ← gatherRow logp par padTokenId row.2 (collatedPositions layout batch)
      (row.1.map LabelledToken.inputId)
    .ok (extractLogps par layout batch (logitsToKeep rows) gathered)

end Paths

/-! ## Agreement -/

/-- A group computes for the supervised tokens what a process on its own does, when
this one does not fail. -/
def SpAgrees (F : Type) [Zero F] (setup : ParallelSetup) (padTokenId : ℕ)
    (batch : EncodedBatch) : Prop :=
  ∀ (logp : ℕ → ℕ → ℕ → F) (results : List (List F)),
    getLogpsViaLocalForward logp setup.layout padTokenId batch = .ok results →
    ∃ others, getLogpsViaSp logp setup.par setup.layout padTokenId batch = .ok others ∧
      ∀ (index : ℕ) (row : EncodedRow),
        (collatedRows setup.layout padTokenId batch)[index]? = some row →
        ∀ (place : ℕ) (token : LabelledToken), row[place]? = some token →
          token.supervised = true →
          let kept := place -
            (row.length - logitsToKeep (collatedRows setup.layout padTokenId batch))
          (others[index]?.bind fun logps => logps[kept]?) =
            results[index]?.bind fun logps => logps[kept]?

/-- A sample that has a supervised token. -/
def HasCompletion (sample : EncodedRow) : Prop := ∃ token ∈ sample, token.supervised = true

/-- When a group takes the window out that a process on its own has. -/
def WindowsAligned (setup : ParallelSetup) (batch : EncodedBatch) : Prop :=
  match setup.layout with
  | .paddingFree => setup.par.rpWorldSize = 1 ∨ HasCompletion (batch.samples.headD []) ∨
      ∀ sample ∈ batch.samples, ¬HasCompletion sample
  | .padded => setup.par.worldSize ∣ longest batch.samples ∨
      ∃ sample ∈ batch.samples, ¬HasCompletion sample

/-! ## What is gathered -/

/-- The contexts of the places of sequences. -/
def contextsOf (first : ℕ) (lengths : List ℕ) : List (List (ℕ × ℕ)) :=
  (lengths.zipIdx first).map fun sequence =>
    (List.range sequence.1).map fun position => (sequence.2, position)

variable (first : ℕ)

theorem rowContexts_eq (positionIds : List ℤ) :
    rowContexts first positionIds = (contextsOf first (sequenceLengths positionIds)).flatten := by
  rw [rowContexts, contextsOf, flatMap_def]

theorem map_length_contextsOf (lengths : List ℕ) :
    (contextsOf first lengths).map length = lengths := by
  have lengthOf : length ∘ (fun sequence : ℕ × ℕ =>
      (range sequence.1).map fun position => (sequence.2, position)) = Prod.fst := by
    funext sequence
    rw [Function.comp_apply, length_map, length_range]
  rw [contextsOf, map_map, lengthOf, zipIdx_map_fst]

theorem length_flatten_contextsOf (lengths : List ℕ) :
    (contextsOf first lengths).flatten.length = lengths.sum := by
  rw [length_flatten, map_length_contextsOf]

theorem getElem?_contextsOf {lengths : List ℕ} {index position : ℕ}
    (inside : index < lengths.length) (within : position < lengths[index]) :
    (contextsOf first lengths).flatten[offset lengths index + position]? =
      some (first + index, position) := by
  have count : (contextsOf first lengths).length = lengths.length := by
    rw [contextsOf, length_map, length_zipIdx]
  have isIndex : index < (contextsOf first lengths).length := by
    rw [count]
    exact inside
  have sequence : (contextsOf first lengths)[index] =
      (range lengths[index]).map fun position => (first + index, position) := by
    simp only [contextsOf, getElem_map, getElem_zipIdx]
  have isPosition : position < (contextsOf first lengths)[index].length := by
    rw [sequence, length_map, length_range]
    exact within
  have found := getElem?_flatten_offset (contextsOf first lengths) isIndex isPosition
  rw [map_length_contextsOf] at found
  rw [found, sequence, getElem?_map, getElem?_range within, Option.map_some]

section Gathered

variable {F : Type} {logp : ℕ → ℕ → ℕ → F}

/-- The log probabilities of a padded row before they are split. -/
def paddedLogps (logp : ℕ → ℕ → ℕ → F) (padTokenId first : ℕ) (lengths : List ℕ)
    (tokens : List (Option ℕ)) : List F :=
  List.zipWith (fun context label => logp context.1 context.2 (label.getD padTokenId))
    (contextsOf first lengths).flatten (tokens.rotate 1)

variable {lengths : List ℕ} {tokens : List (Option ℕ)}

theorem length_paddedLogps (padTokenId first : ℕ) (same : tokens.length = lengths.sum) :
    (paddedLogps logp padTokenId first lengths tokens).length = lengths.sum := by
  rw [paddedLogps, length_zipWith, length_flatten_contextsOf, length_rotate, same, Nat.min_self]

theorem getElem?_paddedLogps (padTokenId first : ℕ) (same : tokens.length = lengths.sum)
    {index position : ℕ} (inside : index < lengths.length) (within : position < lengths[index])
    {label : Option ℕ} (isLabel : tokens[offset lengths index + position + 1]? = some label) :
    (paddedLogps logp padTokenId first lengths tokens)[offset lengths index + position]? =
      some (logp (first + index) position (label.getD padTokenId)) := by
  have before : offset lengths index + position + 1 < tokens.length :=
    (List.getElem?_eq_some_iff.mp isLabel).1
  have rotated : (tokens.rotate 1)[offset lengths index + position]? = some label := by
    rw [getElem?_rotate (by omega), Nat.mod_eq_of_lt before, isLabel]
  rw [paddedLogps, getElem?_zipWith, getElem?_contextsOf first inside within, rotated]

/-- Every place has the context of its sequence. -/
theorem exists_getElem?_paddedLogps (padTokenId first : ℕ) (same : tokens.length = lengths.sum)
    {index position : ℕ} (inside : index < lengths.length) (within : position < lengths[index]) :
    ∃ inputId, (paddedLogps logp padTokenId first lengths tokens)[
        offset lengths index + position]? = some (logp (first + index) position inputId) := by
  have isContext := getElem?_contextsOf first inside within
  have before : offset lengths index + position < tokens.length := by
    rw [same, ← length_flatten_contextsOf first]
    exact (List.getElem?_eq_some_iff.mp isContext).1
  have isLabel : offset lengths index + position < (tokens.rotate 1).length := by
    rw [length_rotate]
    exact before
  refine ⟨((tokens.rotate 1)[offset lengths index + position]).getD padTokenId, ?_⟩
  rw [paddedLogps, getElem?_zipWith, isContext, getElem?_eq_getElem isLabel]

/-- A row is gathered from all processes as it would be computed at once. -/
theorem gatherRow_eq_ok [Zero F] {par : Parallel} {positionIds : List ℤ} {sequences : List (List ℤ)}
    (isPadded : IsPadded par (pad par (-1) positionIds positionIds) sequences) {inputIds : List ℕ}
    (isTokens : pad par none positionIds (inputIds.map some) = tokens)
    (same : tokens.length = (sequences.map length).sum) (padTokenId first : ℕ) :
    gatherRow logp par padTokenId first positionIds inputIds =
      .ok (paddedLogps logp padTokenId first (sequences.map length) tokens) := by
  have lengths : sequenceLengths (pad par (-1) positionIds positionIds) =
      sequences.map length := by
    rw [isPadded.flatten, sequenceLengths_flatten isPadded.each]
  have total : (pad par (-1) positionIds positionIds).length =
      (sequences.map length).sum := by
    rw [isPadded.flatten, length_flatten]
  have sameContexts : (rowContexts first (pad par (-1) positionIds positionIds)).length =
      (pad par (-1) positionIds positionIds).length := by
    rw [rowContexts_eq, length_flatten_contextsOf, lengths, total]
  have sameLabels : (tokens.rotate 1).length = (pad par (-1) positionIds positionIds).length := by
    rw [length_rotate, same, total]
  rw [gatherRow, isTokens]
  refine bind_eq_ok.mpr ⟨_, localOutputs_eq_ok _ isPadded sameContexts sameLabels, ?_⟩
  rw [gather_localParts 0 isPadded (by
    rw [length_zipWith, sameContexts, sameLabels, Nat.min_self]), rowContexts_eq, lengths]
  rfl

end Gathered

/-! ## Packed rows -/

section Packed

def sampleIds (sample : EncodedRow) : List (Option ℕ) := sample.map fun token => some token.inputId

def samplePositions (samples : List EncodedRow) : List (List ℤ) :=
  samples.map fun sample => positionsOf sample.length

theorem packedPositionIds_samples (samples : List EncodedRow) :
    packedPositionIds (samples.map length) = (samplePositions samples).flatten := by
  rw [packedPositionIds, flatMap_def, map_map]
  rfl

theorem map_some_packed (samples : List EncodedRow) :
    (samples.flatten.map LabelledToken.inputId).map some = (samples.map sampleIds).flatten := by
  rw [map_map, map_flatten]
  rfl

theorem isSequence_of_mem_samplePositions {samples : List EncodedRow}
    (some_token : ∀ sample ∈ samples, sample ≠ []) :
    ∀ positions ∈ samplePositions samples, IsSequence positions := by
  intro positions isPositions
  obtain ⟨sample, isSample, rfl⟩ := mem_map.mp isPositions
  exact isSequence_positionsOf (length_pos_iff.mpr (some_token sample isSample))

theorem map_length_samplePositions (samples : List EncodedRow) :
    (samplePositions samples).map length = samples.map length := by
  rw [samplePositions, map_map]
  apply map_congr_left
  intro sample isSample
  exact length_positionsOf sample.length

theorem map_length_sampleIds (samples : List EncodedRow) :
    (samples.map sampleIds).map length = samples.map length := by
  rw [map_map]
  apply map_congr_left
  intro sample isSample
  exact length_map _

/-- Packed samples as the group pads them. -/
structure PaddedSamples (par : Parallel) (samples : List EncodedRow)
    (sequences : List (List ℤ)) (tensors : List (List (Option ℕ))) : Prop where
  isPadded : IsPadded par
    (pad par (-1) (packedPositionIds (samples.map List.length))
      (packedPositionIds (samples.map List.length))) sequences
  tokens : pad par none (packedPositionIds (samples.map List.length))
    ((samples.flatten.map LabelledToken.inputId).map some) = tensors.flatten
  lengths : tensors.map List.length = sequences.map List.length
  sampled : List.Forall₂ (fun sample tensor =>
    ∃ count, tensor = sampleIds sample ++ List.replicate count none) samples tensors
  offsets : ¬1 < par.rpWorldSize → ∀ index < samples.length,
    offset (sequences.map List.length) index = offset (samples.map List.length) index

theorem exists_paddedSamples (par : Parallel) {samples : List EncodedRow}
    (some_sample : samples ≠ []) (some_token : ∀ sample ∈ samples, sample ≠ []) :
    ∃ sequences tensors, PaddedSamples par samples sequences tensors := by
  have each := isSequence_of_mem_samplePositions some_token
  by_cases ring : 1 < par.rpWorldSize
  · refine ⟨(samplePositions samples).map (doPad par.padUnit (-1)),
      (samples.map sampleIds).map (doPad par.padUnit none), ?_⟩
    constructor
    case isPadded =>
      rw [packedPositionIds_samples]
      exact isPadded_ring ring each
    case tokens =>
      rw [packedPositionIds_samples, map_some_packed]
      apply pad_ring ring none each
      rw [map_length_sampleIds, map_length_samplePositions]
    case lengths =>
      rw [samplePositions, map_map, map_map, map_map, map_map]
      apply map_congr_left
      intro sample isSample
      simp only [Function.comp_apply, length_doPad, sampleIds, length_map, length_positionsOf]
    case sampled =>
      rw [map_map, forall₂_map_right_iff, forall₂_same]
      intro sample isSample
      exact ⟨_, doPad_eq par.padUnit none (sampleIds sample)⟩
    case offsets => exact fun noRing => absurd ring noRing
  · obtain ⟨init, last, rfl⟩ := (eq_nil_or_concat' samples).resolve_left some_sample
    have positions : samplePositions (init ++ [last]) =
        samplePositions init ++ [positionsOf last.length] := by
      rw [samplePositions, map_append]
      rfl
    have total : (((init ++ [last]).map sampleIds).flatten).length =
        (samplePositions init ++ [positionsOf last.length]).flatten.length := by
      rw [length_flatten, map_length_sampleIds, ← positions, length_flatten,
        map_length_samplePositions]
    rw [positions] at each
    refine ⟨samplePositions init ++ [positionsOf last.length ++ replicate
        (padCount par.worldSize (samplePositions init ++ [positionsOf last.length]).flatten.length)
          (-1)],
      init.map sampleIds ++ [sampleIds last ++ replicate
        (padCount par.worldSize (samplePositions init ++ [positionsOf last.length]).flatten.length)
          none], ?_⟩
    constructor
    case isPadded =>
      rw [packedPositionIds_samples, positions]
      exact isPadded_row ring each
    case tokens =>
      rw [map_some_packed, pad_row ring, total, map_append, map_singleton]
      simp only [flatten_append, flatten_singleton, append_assoc]
    case lengths =>
      rw [map_append, map_append, map_length_sampleIds, map_length_samplePositions]
      simp [sampleIds]
    case sampled =>
      apply rel_append
      · rw [forall₂_map_right_iff, forall₂_same]
        intro sample isSample
        exact ⟨0, by rw [replicate_zero, append_nil]⟩
      · exact .cons ⟨_, rfl⟩ .nil
    case offsets =>
      intro _ index inside
      rw [length_append, length_singleton] at inside
      rw [offset, offset, map_append, map_append, map_length_samplePositions,
        take_append_of_le_length (by rw [length_map]; omega),
        take_append_of_le_length (by rw [length_map]; omega)]

variable {F : Type} {logp : ℕ → ℕ → ℕ → F} {par : Parallel} {samples : List EncodedRow}
  {sequences : List (List ℤ)} {tensors : List (List (Option ℕ))}

namespace PaddedSamples

variable (padded : PaddedSamples par samples sequences tensors)
include padded

theorem length_sequences : (sequences.map length).length = samples.length := by
  rw [← padded.lengths, length_map, padded.sampled.length_eq]

theorem length_tensors : tensors.flatten.length = (sequences.map length).sum := by
  rw [length_flatten, padded.lengths]

variable {index : ℕ}

/-- A sample is the beginning of its padded one. -/
theorem getElem?_tensors {position : ℕ} (inside : index < samples.length)
    (within : position < samples[index].length) :
    tensors.flatten[offset (sequences.map length) index + position]? =
      some (some samples[index][position].inputId) := by
  have isTensor : index < tensors.length := by
    rw [← padded.sampled.length_eq]
    exact inside
  obtain ⟨count, isPaddedSample⟩ := padded.sampled.get inside isTensor
  have tensor : tensors[index] = sampleIds samples[index] ++ replicate count none :=
    isPaddedSample
  have isPosition : position < (sampleIds samples[index]).length := by
    rw [sampleIds, length_map]
    exact within
  have isInTensor : position < tensors[index].length := by
    rw [tensor, length_append]
    omega
  rw [← padded.lengths, getElem?_flatten_offset tensors isTensor isInTensor, tensor,
    getElem?_append_left isPosition, sampleIds, getElem?_map,
    getElem?_eq_getElem within, Option.map_some]

theorem length_le (inside : index < samples.length)
    (isSequence : index < (sequences.map length).length) :
    samples[index].length ≤ (sequences.map length)[index] := by
  have isTensor : index < tensors.length := by
    rw [← padded.sampled.length_eq]
    exact inside
  obtain ⟨count, isPaddedSample⟩ := padded.sampled.get inside isTensor
  have tensor : tensors[index] = sampleIds samples[index] ++ replicate count none :=
    isPaddedSample
  simp only [← padded.lengths, getElem_map, tensor, length_append, sampleIds, length_map]
  exact Nat.le_add_right _ _

/-- The place before a token has its log probability. -/
theorem getElem?_token (padTokenId first : ℕ) {position : ℕ} (inside : index < samples.length)
    (within : position + 1 < samples[index].length) :
    (paddedLogps logp padTokenId first (sequences.map length) tensors.flatten)[
        offset (sequences.map length) index + position]? =
      some (logp (first + index) position samples[index][position + 1].inputId) := by
  have isSequence : index < (sequences.map length).length := by
    rw [padded.length_sequences]
    exact inside
  have covered := padded.length_le inside isSequence
  have label := padded.getElem?_tensors inside within
  rw [← Nat.add_assoc] at label
  exact getElem?_paddedLogps padTokenId first padded.length_tensors isSequence (by omega) label

/-- The row that is gathered. -/
theorem gathered [Zero F] (padTokenId first : ℕ) :
    gatherRow logp par padTokenId first (packedPositionIds (samples.map length))
        (samples.flatten.map LabelledToken.inputId) =
      .ok (paddedLogps logp padTokenId first (sequences.map length) tensors.flatten) :=
  gatherRow_eq_ok padded.isPadded padded.tokens padded.length_tensors padTokenId first

end PaddedSamples

/-- A supervised token is not the first of its sample. -/
theorem exists_tokenAt (batch : EncodedBatch) {place : ℕ} {token : LabelledToken}
    (isToken : batch.packed[place]? = some token) (supervised : token.supervised = true) :
    ∃ index, ∃ inside : index < batch.samples.length, ∃ position,
      ∃ within : position + 1 < batch.samples[index].length,
        place = offset (batch.samples.map length) index + (position + 1) ∧
          batch.samples[index][position + 1] = token := by
  have isPlace := (List.getElem?_eq_some_iff.mp isToken).1
  obtain ⟨index, inside, within, isWithin, rfl⟩ := exists_offset batch.samples isPlace
  rw [PackedBatch.packed, getElem?_flatten_offset batch.samples inside isWithin,
    getElem?_eq_getElem isWithin, Option.some.injEq] at isToken
  cases within with
  | zero =>
    have ignored := batch.first_ignored _ (getElem_mem inside) token (by
      rw [Option.mem_def, head?_eq_getElem?, getElem?_eq_getElem isWithin, isToken])
    rw [supervised] at ignored
    cases ignored
  | succ position => exact ⟨index, inside, position, isWithin, rfl, isToken⟩

end Packed

/-! ## One process -/

section Local

variable {F : Type} {logp : ℕ → ℕ → ℕ → F}

variable {keep : ℕ}

/-- A process on its own fails when the window of a row has no token before it. -/
theorem localForwardRow_eq {contexts : List (ℕ × ℕ)} {inputIds : List ℕ}
    (same : contexts.length = inputIds.length) (some : 0 < inputIds.length) :
    localForwardRow logp keep contexts inputIds =
      if inputIds.length ≤ keep then .error .runtimeError
      else .ok (zipWith (fun context inputId => logp context.1 context.2 inputId)
        (slice contexts (inputIds.length - keep - 1) (inputIds.length - 1))
        (inputIds.drop (inputIds.length - keep))) := by
  rw [localForwardRow]
  by_cases whole : inputIds.length ≤ keep
  · rw [if_pos whole]
    apply if_pos
    have start : signedIndex contexts.length (-((keep + 1 : ℕ) : ℤ)) = 0 := by
      rw [signedIndex, if_pos (by omega)]
      omega
    have stop : signedIndex contexts.length (-1) = contexts.length - 1 := by
      rw [signedIndex, if_pos (by omega)]
      omega
    rw [signedSlice, start, stop, length_slice, length_drop]
    omega
  · have logits : signedSlice contexts (-((keep + 1 : ℕ) : ℤ)) (-1) =
        slice contexts (inputIds.length - keep - 1) (inputIds.length - 1) := by
      rw [signedSlice_neg contexts (Nat.succ_pos keep) (by omega), same]
      rfl
    rw [if_neg whole, logits]
    apply if_neg
    rw [length_slice, length_drop]
    omega

theorem getElem?_localForwardRow {contexts : List (ℕ × ℕ)} {inputIds : List ℕ}
    (same : contexts.length = inputIds.length) (some : 0 < inputIds.length) {result : List F}
    (isOk : localForwardRow logp keep contexts inputIds = .ok result) {place : ℕ}
    (inWindow : inputIds.length - keep ≤ place + 1) {context : ℕ × ℕ}
    (isContext : contexts[place]? = Option.some context) {inputId : ℕ}
    (isId : inputIds[place + 1]? = Option.some inputId) :
    keep < inputIds.length ∧ result[place + 1 - (inputIds.length - keep)]? =
      Option.some (logp context.1 context.2 inputId) := by
  rw [localForwardRow_eq same some] at isOk
  split at isOk
  · cases isOk
  next inside =>
    have isPlace := (List.getElem?_eq_some_iff.mp isId).1
    obtain rfl := Except.ok.inj isOk
    refine ⟨not_le.mp inside, ?_⟩
    have first : inputIds.length - keep - 1 + (place + 1 - (inputIds.length - keep)) = place := by
      omega
    have second : inputIds.length - keep + (place + 1 - (inputIds.length - keep)) = place + 1 := by
      omega
    rw [getElem?_zipWith, getElem?_slice _ (by omega), getElem?_drop, first, second,
      isContext, isId]

/-- A supervised token has on a process of its own the log probability of the place before
it. -/
theorem getElem?_localForwardRow_token {samples : List EncodedRow}
    (some_token : ∀ sample ∈ samples, sample ≠ []) {first : ℕ} {result : List F}
    (isOk : localForwardRow logp keep
      (rowContexts first (packedPositionIds (samples.map length)))
      (samples.flatten.map LabelledToken.inputId) = .ok result) {index position : ℕ}
    (inside : index < samples.length) (within : position + 1 < samples[index].length)
    (inWindow : samples.flatten.length - keep ≤
      offset (samples.map length) index + (position + 1)) :
    keep < samples.flatten.length ∧
      result[offset (samples.map length) index + (position + 1) -
          (samples.flatten.length - keep)]? =
        Option.some (logp (first + index) position samples[index][position + 1].inputId) := by
  have lengths : sequenceLengths (packedPositionIds (samples.map length)) =
      samples.map length := by
    apply sequenceLengths_packed
    intro length isLength
    obtain ⟨sample, isSample, rfl⟩ := mem_map.mp isLength
    exact length_pos_iff.mpr (some_token sample isSample)
  have count : (samples.flatten.map LabelledToken.inputId).length = samples.flatten.length :=
    length_map _
  have same : (rowContexts first (packedPositionIds (samples.map length))).length =
      (samples.flatten.map LabelledToken.inputId).length := by
    rw [rowContexts_eq, length_flatten_contextsOf, lengths, count, length_flatten]
  have isContext : (rowContexts first (packedPositionIds (samples.map length)))[
      offset (samples.map length) index + position]? =
        Option.some (first + index, position) := by
    rw [rowContexts_eq, lengths]
    apply getElem?_contextsOf first (by simpa using inside)
    rw [getElem_map]
    omega
  have isId : (samples.flatten.map LabelledToken.inputId)[
      offset (samples.map length) index + position + 1]? =
        Option.some samples[index][position + 1].inputId := by
    rw [getElem?_map, Nat.add_assoc, getElem?_flatten_offset samples inside within,
      getElem?_eq_getElem within, Option.map_some]
  have positive : 0 < (samples.flatten.map LabelledToken.inputId).length :=
    Nat.zero_lt_of_lt (List.getElem?_eq_some_iff.mp isId).1
  have found := getElem?_localForwardRow same positive isOk (by rw [count]; omega) isContext isId
  rw [count, Nat.add_assoc] at found
  exact found

end Local

end Geobench.Trainers
