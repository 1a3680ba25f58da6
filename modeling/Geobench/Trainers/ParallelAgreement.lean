import Geobench.Trainers.ChunkedLogps
import Geobench.Trainers.ParallelLogps

/-!
# When a group of processes computes what one of them does

* Packed samples without a ring: the row is padded behind its last sample, and the window
  is counted from the length of the row. The two agree.
* Packed samples in a ring: the windows of the samples come one after another when the
  first of them has a supervised token. Otherwise its length in the window is negative,
  and the first place that is read is before the second sample.
* Rows with padding: the window is counted from the end of the row that the group has
  padded. The two agree when there is nothing to pad.

**`sp_agrees_iff`** puts the three together.
-/

namespace Geobench.Trainers

open Library List

section Packed

variable {F : Type} {logp : ℕ → ℕ → ℕ → F} {par : Parallel} {padTokenId : ℕ}
  {batch : EncodedBatch} {sequences : List (List ℤ)} {tensors : List (List (Option ℕ))}

/-! ## Supervised tokens of packed samples -/

/-- The logits that are kept begin with the first supervised token. -/
theorem length_sub_logitsToKeep (batch : PackedBatch) :
    batch.packed.length - logitsToKeep [batch.packed] = firstSupervised batch.packed := by
  have inside := firstSupervised_lt (packed_ne_nil batch)
  rw [logitsToKeep_singleton]
  omega

theorem firstSupervised_le {row : EncodedRow} {place : ℕ} {token : LabelledToken}
    (isToken : row[place]? = some token) (supervised : token.supervised = true) :
    firstSupervised row ≤ place := by
  by_contra before
  have isPlace : (row.take (firstSupervised row))[place]? = some token := by
    rw [getElem?_take_of_lt (not_le.mp before), isToken]
  rw [supervised_eq_false_of_mem_take (mem_of_getElem? isPlace)] at supervised
  cases supervised

theorem exists_firstSupervised {row : EncodedRow} (some : HasCompletion row) :
    ∃ token, row[firstSupervised row]? = Option.some token ∧ token.supervised = true := by
  obtain ⟨token, isToken, supervised⟩ := some
  have found : row.any LabelledToken.supervised = true :=
    any_eq_true.mpr ⟨token, isToken, supervised⟩
  have inside : row.findIdx LabelledToken.supervised < row.length :=
    findIdx_lt_length_of_exists ⟨token, isToken, supervised⟩
  refine ⟨row[row.findIdx LabelledToken.supervised], ?_, findIdx_getElem⟩
  rw [firstSupervised, if_pos found, getElem?_eq_getElem inside]

theorem length_headD (samples : List EncodedRow) (some : 0 < samples.length) :
    (samples.headD []).length = samples[0].length := by
  rw [headD_eq_head?_getD, head?_eq_getElem?, getElem?_eq_getElem some, Option.getD_some]

theorem firstSupervised_packed_lt_iff (batch : EncodedBatch) (some : HasCompletion batch.packed) :
    firstSupervised batch.packed < (batch.samples.headD []).length ↔
      HasCompletion (batch.samples.headD []) := by
  obtain ⟨token, isToken, supervised⟩ := exists_firstSupervised some
  cases isSamples : batch.samples with
  | nil => exact absurd isSamples batch.some_sample
  | cons first rest =>
    have packed : batch.packed = first ++ rest.flatten := by
      rw [PackedBatch.packed, isSamples, flatten_cons]
    rw [headD_cons]
    constructor
    · intro inFirst
      rw [packed, getElem?_append_left (packed ▸ inFirst)] at isToken
      exact ⟨token, mem_of_getElem? isToken, supervised⟩
    · rintro ⟨other, isOther, otherSupervised⟩
      obtain ⟨place, isPlace⟩ := mem_iff_getElem?.mp isOther
      have inside := (List.getElem?_eq_some_iff.mp isPlace).1
      have inPacked : batch.packed[place]? = Option.some other := by
        rw [packed, getElem?_append_left inside, isPlace]
      exact (firstSupervised_le inPacked otherSupervised).trans_lt inside

theorem hasCompletion_packed {batch : EncodedBatch} {sample : EncodedRow}
    (isSample : sample ∈ batch.samples) (some : HasCompletion sample) :
    HasCompletion batch.packed := by
  obtain ⟨token, isToken, supervised⟩ := some
  exact ⟨token, List.mem_flatten.mpr ⟨sample, isSample, isToken⟩, supervised⟩

theorem firstSupervised_packed_pos {batch : EncodedBatch} (some : HasCompletion batch.packed) :
    0 < firstSupervised batch.packed := by
  obtain ⟨token, isToken, supervised⟩ := exists_firstSupervised some
  obtain ⟨index, _, position, _, isPlace, _⟩ := exists_tokenAt batch isToken supervised
  omega

/-! ## Both ways on packed samples -/

/-- What a process on its own gives for packed samples. -/
def packedLocal (logp : ℕ → ℕ → ℕ → F) (batch : EncodedBatch) : Except ParallelError (List F) :=
  localForwardRow logp (logitsToKeep [batch.packed])
    (rowContexts 0 (packedPositionIds (batch.samples.map List.length)))
    (batch.packed.map LabelledToken.inputId)

theorem getLogpsViaLocalForward_packed {results : List (List F)} :
    getLogpsViaLocalForward logp .paddingFree padTokenId batch = .ok results ↔
      ∃ result, packedLocal logp batch = .ok result ∧ results = [result] := by
  rw [getLogpsViaLocalForward]
  simp only [collatedRows, zipIdx_cons, zipIdx_nil]
  rw [mapM_eq_ok_iff]
  constructor
  · rintro (_ | ⟨isOk, _ | _⟩)
    exact ⟨_, isOk, rfl⟩
  · rintro ⟨result, isOk, rfl⟩
    exact .cons isOk .nil

/-- The window of packed samples that a group gives. -/
def packedWindow (par : Parallel) (batch : EncodedBatch) (gathered : List F) : List F :=
  extractLogps par .paddingFree batch (logitsToKeep [batch.packed]) gathered

theorem getLogpsViaSp_packed [Zero F] (padded : PaddedSamples par batch.samples sequences tensors) :
    getLogpsViaSp logp par .paddingFree padTokenId batch = .ok
      [packedWindow par batch
        (paddedLogps logp padTokenId 0 (sequences.map length) tensors.flatten)] := by
  rw [getLogpsViaSp]
  apply mapM_eq_ok_iff.mpr
  exact .cons (bind_eq_ok.mpr ⟨_, padded.gathered padTokenId 0, rfl⟩) .nil

/-- The two ways agree on packed samples when they do on every token of the row. -/
theorem spAgrees_packed_iff [Zero F] {setup : ParallelSetup} (packed : setup.layout = .paddingFree)
    (padded : PaddedSamples setup.par batch.samples sequences tensors) :
    SpAgrees F setup padTokenId batch ↔
      ∀ (logp : ℕ → ℕ → ℕ → F) (result : List F), packedLocal logp batch = .ok result →
        ∀ (place : ℕ) (token : LabelledToken), batch.packed[place]? = some token →
          token.supervised = true →
          (packedWindow setup.par batch (paddedLogps logp padTokenId 0
              (sequences.map length) tensors.flatten))[
            place - firstSupervised batch.packed]? =
              result[place - firstSupervised batch.packed]? := by
  rw [SpAgrees, packed]
  simp only [collatedRows, getLogpsViaLocalForward_packed, getLogpsViaSp_packed padded]
  constructor
  · intro agrees logp result isOk place token isToken supervised
    obtain ⟨others, isOthers, same⟩ := agrees logp _ ⟨result, isOk, rfl⟩
    obtain rfl := Except.ok.inj isOthers
    have tokenSame := same 0 batch.packed rfl place token isToken supervised
    rw [length_sub_logitsToKeep batch.toPackedBatch] at tokenSame
    exact tokenSame
  · rintro agrees logp _ ⟨result, isOk, rfl⟩
    refine ⟨_, rfl, ?_⟩
    intro index row isRow place token isToken supervised
    cases index with
    | succ index => cases isRow
    | zero =>
      obtain rfl : batch.packed = row := Option.some.inj isRow
      rw [length_sub_logitsToKeep batch.toPackedBatch]
      exact agrees logp result isOk place token isToken supervised

variable {index position : ℕ}

/-- A supervised token on a process of its own. -/
theorem getElem?_packedLocal {result : List F} (isOk : packedLocal logp batch = .ok result)
    (inside : index < batch.samples.length) (within : position + 1 < batch.samples[index].length)
    (inWindow : firstSupervised batch.packed ≤
      offset (batch.samples.map length) index + (position + 1)) :
    result[offset (batch.samples.map length) index + (position + 1) -
        firstSupervised batch.packed]? =
      some (logp index position batch.samples[index][position + 1].inputId) := by
  have window := length_sub_logitsToKeep batch.toPackedBatch
  rw [← window] at inWindow
  have found := (getElem?_localForwardRow_token batch.some_token isOk inside within inWindow).2
  rw [Nat.zero_add] at found
  rw [← found, ← window]
  rfl

/-- A process on its own does not fail when there is a token before the window. -/
theorem exists_packedLocal (logp : ℕ → ℕ → ℕ → F) (some : HasCompletion batch.packed) :
    ∃ result, packedLocal logp batch = .ok result := by
  have later := firstSupervised_packed_pos some
  have window := length_sub_logitsToKeep batch.toPackedBatch
  have count : (batch.packed.map LabelledToken.inputId).length = batch.packed.length :=
    length_map _
  have same : (rowContexts 0 (packedPositionIds (batch.samples.map length))).length =
      (batch.packed.map LabelledToken.inputId).length := by
    rw [rowContexts_eq, length_flatten_contextsOf, sequenceLengths_samples, count,
      PackedBatch.packed, length_flatten]
  rw [packedLocal, localForwardRow_eq same (by rw [count]; omega), count, if_neg (by omega)]
  exact ⟨_, rfl⟩

/-! ## Without a ring -/

/-- The row that is gathered is as long as the packed one, or longer. -/
theorem packed_length_le (logp : ℕ → ℕ → ℕ → F) (padTokenId : ℕ)
    (padded : PaddedSamples par batch.samples sequences tensors) :
    batch.packed.length ≤
      (paddedLogps logp padTokenId 0 (sequences.map length) tensors.flatten).length := by
  rw [length_paddedLogps padTokenId 0 padded.length_tensors, PackedBatch.packed, length_flatten]
  apply List.Forall₂.sum_le_sum
  rw [forall₂_iff_get]
  refine ⟨?_, ?_⟩
  · rw [padded.length_sequences, length_map]
  · intro index inside isSequence
    rw [length_map] at inside
    simpa using padded.length_le inside isSequence

/-- Without a ring the window is the one before the supervised tokens. -/
theorem getElem?_packedWindow_row (noRing : ¬1 < par.rpWorldSize)
    (padded : PaddedSamples par batch.samples sequences tensors)
    (inside : index < batch.samples.length) (within : position + 1 < batch.samples[index].length)
    (later : 0 < firstSupervised batch.packed)
    (inWindow : firstSupervised batch.packed ≤
      offset (batch.samples.map length) index + (position + 1)) :
    (packedWindow par batch (paddedLogps logp padTokenId 0 (sequences.map length)
        tensors.flatten))[offset (batch.samples.map length) index + (position + 1) -
          firstSupervised batch.packed]? =
      some (logp index position batch.samples[index][position + 1].inputId) := by
  have covers := packed_length_le logp padTokenId padded
  have window := length_sub_logitsToKeep batch.toPackedBatch
  have isPlace : offset (batch.samples.map length) index + (position + 1) <
      batch.packed.length := by
    have isToken := getElem?_flatten_offset batch.samples inside within
    rw [getElem?_eq_getElem within] at isToken
    exact (List.getElem?_eq_some_iff.mp isToken).1
  have start : (batch.packed.length : ℤ) - logitsToKeep [batch.packed] - 1 =
      ((firstSupervised batch.packed - 1 : ℕ) : ℤ) := by omega
  have stop : (batch.packed.length : ℤ) - 1 = ((batch.packed.length - 1 : ℕ) : ℤ) := by omega
  have place : firstSupervised batch.packed - 1 +
      (offset (batch.samples.map length) index + (position + 1) -
        firstSupervised batch.packed) =
      offset (batch.samples.map length) index + position := by omega
  rw [packedWindow, extractLogps]
  simp only [if_neg noRing]
  rw [start, stop, signedSlice_natCast _ (by omega) (by omega), getElem?_slice _ (by omega), place,
    ← padded.offsets noRing index inside, padded.getElem?_token padTokenId 0 inside within,
    Nat.zero_add]

/-! ## In a ring -/

/-- The part of a sample in the window, as the ring cuts it out of what is gathered. -/
def ringPart (batch : EncodedBatch) (paddedLengths : List ℕ) (gathered : List F) (index : ℕ) :
    List F :=
  let origLen : ℤ := (batch.samples.map List.length).getD index 0
  let actualLen :=
    ((keptLengths (batch.samples.map List.length) (logitsToKeep [batch.packed])).toOption.getD
      []).getD index 0
  let start : ℤ := offset paddedLengths index
  signedSlice gathered (start + origLen - actualLen - 1) (start + origLen - 1)

theorem packedWindow_ring (ring : 1 < par.rpWorldSize)
    (padded : PaddedSamples par batch.samples sequences tensors) (gathered : List F) :
    packedWindow par batch gathered = (range batch.samples.length).flatMap
      (ringPart batch (sequences.map length) gathered) := by
  have lengths : sequenceLengths (pad par (-1) (packedPositionIds (batch.samples.map length))
      (packedPositionIds (batch.samples.map length))) = sequences.map length := by
    rw [padded.isPadded.flatten, sequenceLengths_flatten padded.isPadded.each]
  rw [packedWindow, extractLogps]
  simp only [if_pos ring, collatedPositions, sequenceLengths_samples, lengths]
  rfl

/-- How many tokens of a sample are before the window. -/
def tokensBefore (batch : EncodedBatch) (index : ℕ) : ℕ :=
  if index = 0 then firstSupervised batch.packed else 0

theorem length_windows_add (begins : BeginsInFirst batch.toPackedBatch)
    (inside : index < batch.samples.length)
    (isWindow : index < (windows batch.toPackedBatch).length) :
    (windows batch.toPackedBatch)[index].length + tokensBefore batch index =
      batch.samples[index].length := by
  obtain ⟨⟨samples, some_sample, some_token⟩, first_ignored⟩ := batch
  rw [BeginsInFirst] at begins
  cases samples with
  | nil => exact absurd rfl some_sample
  | cons first rest =>
    simp only [headD_cons] at begins
    simp only [windows, modifyHead_cons, tokensBefore]
    cases index with
    | zero =>
      rw [getElem_cons_zero, getElem_cons_zero, length_drop, if_pos rfl]
      omega
    | succ index => simp

theorem offset_windows (begins : BeginsInFirst batch.toPackedBatch) (index : ℕ) :
    offset ((windows batch.toPackedBatch).map length) index + firstSupervised batch.packed =
      offset (batch.samples.map length) index + tokensBefore batch index := by
  rw [BeginsInFirst] at begins
  cases isSamples : batch.samples with
  | nil => exact absurd isSamples batch.some_sample
  | cons first rest =>
    simp only [isSamples, headD_cons] at begins
    simp only [windows, isSamples, modifyHead_cons, tokensBefore]
    cases index with
    | zero => simp [offset]
    | succ index =>
      simp only [offset, map_cons, take_succ_cons, sum_cons, length_drop,
        if_neg (Nat.succ_ne_zero index)]
      omega

/-- There is a token before the window of a sample in what is gathered. -/
theorem before_window (padded : PaddedSamples par batch.samples sequences tensors)
    (later : 0 < firstSupervised batch.packed) (index : ℕ) :
    0 < offset (sequences.map length) index + tokensBefore batch index := by
  rw [tokensBefore]
  cases index with
  | zero =>
    rw [if_pos rfl]
    omega
  | succ index =>
    have inside : 0 < batch.samples.length := length_pos_iff.mpr batch.some_sample
    have isSequence : 0 < (sequences.map length).length := by
      rw [padded.length_sequences]
      exact inside
    have some := length_pos_iff.mpr (batch.some_token _ (getElem_mem inside))
    have covered := padded.length_le inside isSequence
    have first := offset_succ (sequences.map length) isSequence
    have increasing : offset (sequences.map length) (0 + 1) ≤
        offset (sequences.map length) (index + 1) :=
      offset_monotone (sequences.map length) (Nat.succ_le_succ index.zero_le)
    omega

/-- The place after a sample is in what is gathered, or right behind it. -/
theorem offset_add_length_le (logp : ℕ → ℕ → ℕ → F) (padTokenId : ℕ)
    (padded : PaddedSamples par batch.samples sequences tensors)
    (inside : index < batch.samples.length) :
    offset (sequences.map length) index + batch.samples[index].length ≤
      (paddedLogps logp padTokenId 0 (sequences.map length) tensors.flatten).length := by
  have isSequence : index < (sequences.map length).length := by
    rw [padded.length_sequences]
    exact inside
  have covered := padded.length_le inside isSequence
  have next := offset_succ (sequences.map length) isSequence
  have total := offset_length (sequences.map length)
  have increasing : offset (sequences.map length) (index + 1) ≤
      offset (sequences.map length) (sequences.map length).length :=
    offset_monotone (sequences.map length) (Nat.succ_le_of_lt isSequence)
  rw [length_paddedLogps padTokenId 0 padded.length_tensors]
  omega

/-- The part of a sample from the place on that its length in the window gives. -/
theorem ringPart_eq_slice (logp : ℕ → ℕ → ℕ → F) (padTokenId : ℕ)
    (padded : PaddedSamples par batch.samples sequences tensors)
    (inside : index < batch.samples.length) {actualLen : ℤ} {start : ℕ}
    (isLength : ((keptLengths (batch.samples.map length)
      (logitsToKeep [batch.packed])).toOption.getD []).getD index 0 = actualLen)
    (isStart : ((offset (sequences.map length) index : ℕ) : ℤ) +
      (batch.samples[index].length : ℕ) - actualLen - 1 = start)
    (covers : start ≤
      (paddedLogps logp padTokenId 0 (sequences.map length) tensors.flatten).length) :
    ringPart batch (sequences.map length)
        (paddedLogps logp padTokenId 0 (sequences.map length) tensors.flatten) index =
      slice (paddedLogps logp padTokenId 0 (sequences.map length) tensors.flatten) start
        (offset (sequences.map length) index + batch.samples[index].length - 1) := by
  have upTo := offset_add_length_le logp padTokenId padded inside
  have some := length_pos_iff.mpr (batch.some_token _ (getElem_mem inside))
  have origLen : (batch.samples.map length).getD index 0 = batch.samples[index].length := by
    rw [getD_eq_getElem _ _ (by simpa using inside), getElem_map]
  have stop : ((offset (sequences.map length) index : ℕ) : ℤ) +
      (batch.samples[index].length : ℕ) - 1 =
        ((offset (sequences.map length) index + batch.samples[index].length - 1 : ℕ) : ℤ) := by
    omega
  rw [ringPart]
  simp only [origLen, isLength]
  rw [isStart, stop, signedSlice_natCast _ covers (by omega)]

theorem ringPart_eq (begins : BeginsInFirst batch.toPackedBatch)
    (later : 0 < firstSupervised batch.packed)
    (padded : PaddedSamples par batch.samples sequences tensors)
    (inside : index < batch.samples.length) :
    ringPart batch (sequences.map length)
        (paddedLogps logp padTokenId 0 (sequences.map length) tensors.flatten) index =
      slice (paddedLogps logp padTokenId 0 (sequences.map length) tensors.flatten)
        (offset (sequences.map length) index + tokensBefore batch index - 1)
        (offset (sequences.map length) index + batch.samples[index].length - 1) := by
  have isWindow : index < (windows batch.toPackedBatch).length := by
    rw [length_windows]
    exact inside
  have parts := length_windows_add begins inside isWindow
  have before := before_window padded later index
  have covers := offset_add_length_le logp padTokenId padded inside
  have isLength : ((keptLengths (batch.samples.map length)
      (logitsToKeep [batch.packed])).toOption.getD []).getD index 0 =
        ((windows batch.toPackedBatch)[index].length : ℤ) := by
    rw [logitsToKeep_singleton, keptLengths_samples begins, Except.toOption, Option.getD_some,
      getD_eq_getElem _ _ (by simpa using isWindow), getElem_map]
  exact ringPart_eq_slice logp padTokenId padded inside isLength (by omega) (by omega)

theorem length_ringPart (logp : ℕ → ℕ → ℕ → F) (padTokenId : ℕ)
    (begins : BeginsInFirst batch.toPackedBatch) (later : 0 < firstSupervised batch.packed)
    (padded : PaddedSamples par batch.samples sequences tensors)
    (inside : index < batch.samples.length)
    (isWindow : index < (windows batch.toPackedBatch).length) :
    (ringPart batch (sequences.map length) (paddedLogps logp padTokenId 0
        (sequences.map length) tensors.flatten) index).length =
      (windows batch.toPackedBatch)[index].length := by
  have before := before_window padded later index
  have covers := offset_add_length_le logp padTokenId padded inside
  have whole := length_windows_add begins inside isWindow
  rw [ringPart_eq begins later padded inside, length_slice]
  omega

theorem map_length_ringPart (logp : ℕ → ℕ → ℕ → F) (padTokenId : ℕ)
    (begins : BeginsInFirst batch.toPackedBatch)
    (later : 0 < firstSupervised batch.packed)
    (padded : PaddedSamples par batch.samples sequences tensors) :
    ((range batch.samples.length).map (ringPart batch (sequences.map length)
        (paddedLogps logp padTokenId 0 (sequences.map length) tensors.flatten))).map
          length = (windows batch.toPackedBatch).map length := by
  apply ext_getElem
  · simp [length_windows]
  · intro index inside isWindow
    simp only [length_map, length_range] at inside isWindow
    simp only [getElem_map, getElem_range]
    exact length_ringPart logp padTokenId begins later padded inside isWindow

/-- In a ring the windows of the samples are those before their supervised tokens when the
first window begins in the first sample. -/
theorem getElem?_packedWindow_ring (ring : 1 < par.rpWorldSize)
    (begins : BeginsInFirst batch.toPackedBatch) (later : 0 < firstSupervised batch.packed)
    (padded : PaddedSamples par batch.samples sequences tensors)
    (inside : index < batch.samples.length) (within : position + 1 < batch.samples[index].length)
    (inWindow : firstSupervised batch.packed ≤
      offset (batch.samples.map length) index + (position + 1)) :
    (packedWindow par batch (paddedLogps logp padTokenId 0 (sequences.map length)
        tensors.flatten))[offset (batch.samples.map length) index + (position + 1) -
          firstSupervised batch.packed]? =
      some (logp index position batch.samples[index][position + 1].inputId) := by
  have shifted := offset_windows begins index
  have before := before_window padded later index
  have isWindow : index < (windows batch.toPackedBatch).length := by
    rw [length_windows]
    exact inside
  have whole := length_windows_add begins inside isWindow
  have kept : tokensBefore batch index ≤ position + 1 := by
    rw [tokensBefore]
    split
    next isFirst => simpa [isFirst, offset] using inWindow
    next => exact Nat.zero_le _
  have lengths := map_length_ringPart logp padTokenId begins later padded
  have isPart : index < ((range batch.samples.length).map (ringPart batch
      (sequences.map length) (paddedLogps logp padTokenId 0 (sequences.map length)
        tensors.flatten))).length := by
    rw [length_map, length_range]
    exact inside
  have place : offset (batch.samples.map length) index + (position + 1) -
      firstSupervised batch.packed =
        offset ((windows batch.toPackedBatch).map length) index +
          (position + 1 - tokensBefore batch index) := by omega
  have first : offset (sequences.map length) index + tokensBefore batch index - 1 +
      (position + 1 - tokensBefore batch index) =
        offset (sequences.map length) index + position := by omega
  have length := length_ringPart logp padTokenId begins later padded inside
    isWindow
  rw [packedWindow_ring ring padded, flatMap_def, place, ← lengths,
    getElem?_flatten_offset _ isPart (by simp only [getElem_map, getElem_range]; omega)]
  simp only [getElem_map, getElem_range]
  rw [ringPart_eq begins later padded inside, getElem?_slice _ (by omega), first,
    padded.getElem?_token padTokenId 0 inside within, Nat.zero_add]

/-- In a ring the first place that is read is one of the first sample when the first
window begins after it. -/
theorem exists_getElem?_packedWindow_late (logp : ℕ → ℕ → ℕ → F) (padTokenId : ℕ)
    (ring : 1 < par.rpWorldSize)
    (padded : PaddedSamples par batch.samples sequences tensors)
    (late : (batch.samples.headD []).length < firstSupervised batch.packed) :
    ∃ position inputId, (packedWindow par batch (paddedLogps logp padTokenId 0
        (sequences.map length) tensors.flatten))[0]? = some (logp 0 position inputId) := by
  have begun := firstSupervised_lt (packed_ne_nil batch.toPackedBatch)
  have total : (batch.samples.map length).sum = batch.packed.length :=
    length_flatten.symm
  obtain ⟨first, second, others, isSamples⟩ :
      ∃ first second others, batch.samples = first :: second :: others := by
    match isSamples : batch.samples with
    | [] => exact absurd isSamples batch.some_sample
    | [first] =>
      simp only [isSamples, map_cons, map_nil, sum_cons, sum_nil] at total
      simp only [isSamples, headD_cons] at late
      omega
    | first :: second :: others => exact ⟨first, second, others, rfl⟩
  have several : 1 < batch.samples.length := by
    rw [isSamples, length_cons, length_cons]
    omega
  have isSequence : 0 < (sequences.map length).length := by
    rw [padded.length_sequences]
    omega
  have covered := padded.length_le (Nat.zero_lt_of_lt several) isSequence
  have upTo := packed_length_le logp padTokenId padded
  have reaches := offset_add_length_le logp padTokenId padded several
  have someFirst := length_pos_iff.mpr
    (batch.some_token _ (getElem_mem (Nat.zero_lt_of_lt several)))
  have someSecond := length_pos_iff.mpr (batch.some_token _ (getElem_mem several))
  have firstLength := length_headD batch.samples (Nat.zero_lt_of_lt several)
  have start : offset (sequences.map length) 0 = 0 := rfl
  have next : offset (sequences.map length) 1 = (sequences.map length)[0] := by
    rw [offset_succ _ isSequence, start, Nat.zero_add]
  have lengths : batch.samples.map length =
      first.length :: second.length :: others.map length := by
    rw [isSamples, map_cons, map_cons]
  have window := length_sub_logitsToKeep batch.toPackedBatch
  have firstLen : ((keptLengths (batch.samples.map length)
      (logitsToKeep [batch.packed])).toOption.getD []).getD 0 0 =
        (batch.samples[0].length : ℤ) - firstSupervised batch.packed := by
    have kept : ((batch.samples.map length).sum : ℤ) - logitsToKeep [batch.packed] =
        firstSupervised batch.packed := by omega
    rw [← kept, lengths]
    simp [keptLengths, Except.toOption, isSamples]
  have secondLen : ((keptLengths (batch.samples.map length)
      (logitsToKeep [batch.packed])).toOption.getD []).getD 1 0 =
        (batch.samples[1].length : ℤ) := by
    rw [lengths]
    simp [keptLengths, Except.toOption, isSamples]
  have firstStart : ((offset (sequences.map length) 0 : ℕ) : ℤ) +
      (batch.samples[0].length : ℕ) -
        ((batch.samples[0].length : ℤ) - firstSupervised batch.packed) - 1 =
          ((firstSupervised batch.packed - 1 : ℕ) : ℤ) := by omega
  have secondStart : ((offset (sequences.map length) 1 : ℕ) : ℤ) +
      (batch.samples[1].length : ℕ) - (batch.samples[1].length : ℤ) - 1 =
        ((offset (sequences.map length) 1 - 1 : ℕ) : ℤ) := by omega
  have firstPart := ringPart_eq_slice logp padTokenId padded
    (Nat.zero_lt_of_lt several) firstLen firstStart (by omega)
  have secondPart := ringPart_eq_slice logp padTokenId padded several
    secondLen secondStart (by omega)
  rw [slice_eq_nil _ (by omega)] at firstPart
  have nonempty : 0 < (ringPart batch (sequences.map length) (paddedLogps logp padTokenId 0
      (sequences.map length) tensors.flatten) 1).length := by
    rw [secondPart, length_slice]
    omega
  have within : (sequences.map length)[0] - 1 < (sequences.map length)[0] := by omega
  obtain ⟨inputId, isRead⟩ : ∃ inputId, (paddedLogps logp padTokenId 0 (sequences.map length)
      tensors.flatten)[offset (sequences.map length) 0 +
        ((sequences.map length)[0] - 1)]? =
          Option.some (logp (0 + 0) ((sequences.map length)[0] - 1) inputId) :=
    exists_getElem?_paddedLogps padTokenId 0 padded.length_tensors isSequence within
  refine ⟨(sequences.map length)[0] - 1, inputId, ?_⟩
  rw [packedWindow_ring ring padded, isSamples, length_cons, length_cons,
    range_succ_eq_map, range_succ_eq_map]
  simp only [flatMap_cons, map_cons, firstPart, nil_append, Nat.succ_eq_add_one, Nat.zero_add]
  rw [getElem?_append_left nonempty, secondPart, getElem?_slice _ (by omega), next,
    Nat.add_zero, ← isRead, start, Nat.zero_add]

/-! ## Packed samples -/

def firstSample (inFirst later : F) (sequence _position _inputId : ℕ) : F :=
  if sequence = 0 then inFirst else later

/-- In a ring the two ways do not agree when a sample has a supervised token and the
first one has none. -/
theorem hasCompletion_of_agree [Zero F] [Nontrivial F] (ring : 1 < par.rpWorldSize)
    (padded : PaddedSamples par batch.samples sequences tensors)
    (some : HasCompletion batch.packed)
    (agree : ∀ (logp : ℕ → ℕ → ℕ → F) (result : List F), packedLocal logp batch = .ok result →
      ∀ (place : ℕ) (token : LabelledToken), batch.packed[place]? = Option.some token →
        token.supervised = true →
        (packedWindow par batch (paddedLogps logp padTokenId 0
            (sequences.map length) tensors.flatten))[
          place - firstSupervised batch.packed]? =
            result[place - firstSupervised batch.packed]?) :
    HasCompletion (batch.samples.headD []) := by
  by_contra noCompletion
  obtain ⟨inFirst, inLater, different⟩ := exists_pair_ne F
  obtain ⟨result, isOk⟩ := exists_packedLocal (firstSample inFirst inLater) some
  obtain ⟨token, isToken, supervised⟩ := exists_firstSupervised some
  obtain ⟨index, inside, position, within, isPlace, _⟩ := exists_tokenAt batch isToken supervised
  have after : (batch.samples.headD []).length ≤ firstSupervised batch.packed :=
    not_lt.mp fun early => noCompletion ((firstSupervised_packed_lt_iff batch some).mp early)
  have someSample : 0 < (batch.samples.map length).length := by
    rw [length_map]
    exact length_pos_iff.mpr batch.some_sample
  have firstLength : offset (batch.samples.map length) (0 + 1) =
      (batch.samples.headD []).length := by
    rw [offset_succ _ someSample, getElem_map, ← length_headD]
    exact Nat.zero_add _
  have isLater : index ≠ 0 := by
    rintro rfl
    rw [isPlace, length_headD batch.samples inside] at after
    have start : offset (batch.samples.map length) 0 = 0 := rfl
    omega
  have later : offset (batch.samples.map length) (0 + 1) ≤
      offset (batch.samples.map length) index :=
    offset_monotone _ (Nat.pos_of_ne_zero isLater)
  have localRead := getElem?_packedLocal isOk inside within isPlace.le
  obtain ⟨readPosition, inputId, groupRead⟩ := exists_getElem?_packedWindow_late
    (firstSample inFirst inLater) padTokenId ring padded (by omega)
  have same := agree _ result isOk _ token isToken supervised
  rw [Nat.sub_self, groupRead] at same
  rw [← isPlace, Nat.sub_self, ← same, firstSample, firstSample, if_pos rfl, if_neg isLater,
    Option.some.injEq] at localRead
  exact different localRead

theorem spAgrees_packed [Zero F] [Nontrivial F] {setup : ParallelSetup}
    (packed : setup.layout = .paddingFree) :
    SpAgrees F setup padTokenId batch ↔ WindowsAligned setup batch := by
  obtain ⟨sequences, tensors, padded⟩ :=
    exists_paddedSamples setup.par batch.some_sample batch.some_token
  rw [spAgrees_packed_iff packed padded, WindowsAligned, packed]
  constructor
  · intro agree
    by_cases ring : 1 < setup.par.rpWorldSize
    · by_cases some : HasCompletion batch.packed
      · exact Or.inr (Or.inl (hasCompletion_of_agree ring padded some agree))
      · refine Or.inr (Or.inr ?_)
        intro sample isSample completed
        exact some (hasCompletion_packed isSample completed)
    · left
      have positive := setup.par.rpWorldSize_pos
      omega
  · intro aligned logp result isOk place token isToken supervised
    obtain ⟨index, inside, position, within, rfl, _⟩ := exists_tokenAt batch isToken supervised
    have some : HasCompletion batch.packed := ⟨token, mem_of_getElem? isToken, supervised⟩
    have inWindow := firstSupervised_le isToken supervised
    have later := firstSupervised_packed_pos some
    rw [getElem?_packedLocal isOk inside within inWindow]
    by_cases ring : 1 < setup.par.rpWorldSize
    · have completed : HasCompletion (batch.samples.headD []) := by
        rcases aligned with noRing | completed | none
        · omega
        · exact completed
        · obtain ⟨sample, isSample, isIn⟩ := List.mem_flatten.mp (mem_of_getElem? isToken)
          exact absurd ⟨token, isIn, supervised⟩ (none sample isSample)
      exact getElem?_packedWindow_ring ring
        ((firstSupervised_packed_lt_iff batch some).mpr completed).le later padded inside within
        inWindow
    · exact getElem?_packedWindow_row ring padded inside within later inWindow

end Packed

/-! ## Rows with padding -/

section PaddedRows

variable {F : Type} {logp : ℕ → ℕ → ℕ → F} {par : Parallel} {padTokenId : ℕ}

/-- The tokens of a row of the collator, as the group pads them. -/
def paddedRow (par : Parallel) (row : EncodedRow) : List (Option ℕ) :=
  (row.map LabelledToken.inputId).map some ++
    List.replicate (padCount par.worldSize row.length) none

def gatheredRow (logp : ℕ → ℕ → ℕ → F) (par : Parallel) (padTokenId index : ℕ)
    (row : EncodedRow) : List F :=
  paddedLogps logp padTokenId index [row.length + padCount par.worldSize row.length]
    (paddedRow par row)

theorem length_paddedRow (row : EncodedRow) :
    (paddedRow par row).length = [row.length + padCount par.worldSize row.length].sum := by
  simp [paddedRow]

theorem length_gatheredRow (index : ℕ) (row : EncodedRow) :
    (gatheredRow logp par padTokenId index row).length =
      row.length + padCount par.worldSize row.length := by
  rw [gatheredRow, length_paddedLogps padTokenId index (length_paddedRow row), sum_singleton]

variable {row : EncodedRow}

theorem gatherRow_padded [Zero F] (noRing : ¬1 < par.rpWorldSize) (some : 0 < row.length)
    (index : ℕ) :
    gatherRow logp par padTokenId index (positionsOf row.length)
        (row.map LabelledToken.inputId) =
      .ok (gatheredRow logp par padTokenId index row) := by
  have each : ∀ positions ∈ [] ++ [positionsOf row.length], IsSequence positions := by
    intro positions isPositions
    rw [nil_append, mem_singleton] at isPositions
    rw [isPositions]
    exact isSequence_positionsOf some
  have isPadded := isPadded_row noRing each
  simp only [nil_append, flatten_singleton, length_positionsOf] at isPadded
  have lengths : [positionsOf row.length ++ replicate (padCount par.worldSize row.length)
      (-1)].map length = [row.length + padCount par.worldSize row.length] := by
    simp [length_positionsOf]
  have isTokens : pad par none (positionsOf row.length)
      ((row.map LabelledToken.inputId).map Option.some) = paddedRow par row := by
    rw [pad_row noRing, paddedRow, length_map, length_map]
  rw [gatheredRow, ← lengths]
  apply gatherRow_eq_ok isPadded isTokens
  rw [length_paddedRow, lengths]

variable {position : ℕ}

/-- A token of a row has its log probability in the place before it. -/
theorem getElem?_gatheredRow (index : ℕ) (within : position + 1 < row.length) :
    (gatheredRow logp par padTokenId index row)[position]? =
      some (logp index position row[position + 1].inputId) := by
  have isSequence : 0 < [row.length + padCount par.worldSize row.length].length :=
    Nat.zero_lt_one
  have isPosition : position < [row.length + padCount par.worldSize row.length][0] := by
    rw [getElem_cons_zero]
    omega
  have start : offset [row.length + padCount par.worldSize row.length] 0 = 0 := rfl
  have isLabel : (paddedRow par row)[offset [row.length + padCount par.worldSize row.length] 0 +
      position + 1]? = some (some row[position + 1].inputId) := by
    rw [start, Nat.zero_add, paddedRow, getElem?_append_left (by simpa using within),
      getElem?_map, getElem?_map, getElem?_eq_getElem within]
    rfl
  have found : (gatheredRow logp par padTokenId index row)[
      offset [row.length + padCount par.worldSize row.length] 0 + position]? = _ :=
    getElem?_paddedLogps padTokenId index (length_paddedRow row) isSequence isPosition isLabel
  rw [start, Nat.zero_add] at found
  exact found

/-- Every place of what is gathered has its position. -/
theorem exists_getElem?_gatheredRow (logp : ℕ → ℕ → ℕ → F) (padTokenId index : ℕ)
    (within : position < row.length + padCount par.worldSize row.length) :
    ∃ inputId, (gatheredRow logp par padTokenId index row)[position]? =
      some (logp index position inputId) := by
  have isSequence : 0 < [row.length + padCount par.worldSize row.length].length :=
    Nat.zero_lt_one
  have start : offset [row.length + padCount par.worldSize row.length] 0 = 0 := rfl
  have found : ∃ inputId, (gatheredRow logp par padTokenId index row)[
      offset [row.length + padCount par.worldSize row.length] 0 + position]? =
        some (logp (index + 0) position inputId) :=
    exists_getElem?_paddedLogps padTokenId index (length_paddedRow row) isSequence within
  rw [start, Nat.zero_add] at found
  exact found

/-- The window of a row, counted from the end of what is gathered. -/
def paddedWindow (par : Parallel) (batch : EncodedBatch) (keep : ℕ) (gathered : List F) :
    List F :=
  extractLogps par .padded batch keep gathered

/-- The window is as much later in what is gathered as the row has been padded. -/
theorem getElem?_paddedWindow (batch : EncodedBatch) {keep index : ℕ} (inside : keep < row.length)
    (inWindow : row.length - keep ≤ position + 1) (within : position + 1 < row.length) :
    (paddedWindow par batch keep (gatheredRow logp par padTokenId index row))[
        position + 1 - (row.length - keep)]? =
      (gatheredRow logp par padTokenId index row)[
        position + padCount par.worldSize row.length]? := by
  have count : (gatheredRow logp par padTokenId index row).length = _ :=
    length_gatheredRow index row
  have place : row.length + padCount par.worldSize row.length - (keep + 1) +
      (position + 1 - (row.length - keep)) = position + padCount par.worldSize row.length := by
    omega
  rw [paddedWindow, extractLogps, signedSlice_neg _ (Nat.succ_pos keep) (by omega), count,
    getElem?_slice _ (by omega), place]

/-! ## Both ways on rows with padding -/

section Batches

variable {batch : EncodedBatch}

/-- What a process on its own gives for a row. -/
def paddedLocal (logp : ℕ → ℕ → ℕ → F) (keep index : ℕ) (row : EncodedRow) :
    Except ParallelError (List F) :=
  localForwardRow logp keep (rowContexts index (positionsOf row.length))
    (row.map LabelledToken.inputId)

variable {index : ℕ} {row : EncodedRow}

theorem getElem?_paddedLocal {keep : ℕ} (some : 0 < row.length) {result : List F}
    (isOk : paddedLocal logp keep index row = .ok result) {position : ℕ}
    (within : position + 1 < row.length) (inWindow : row.length - keep ≤ position + 1) :
    result[position + 1 - (row.length - keep)]? =
      Option.some (logp index position row[position + 1].inputId) := by
  have some_token : ∀ sample ∈ [row], sample ≠ [] := by
    intro sample isSample
    rw [mem_singleton.mp isSample]
    exact length_pos_iff.mp some
  have positions : packedPositionIds ([row].map length) = positionsOf row.length := by
    simp [packedPositionIds]
  have flat : [row].flatten = row := flatten_singleton
  have isOkRow : localForwardRow logp keep
      (rowContexts index (packedPositionIds ([row].map length)))
      ([row].flatten.map LabelledToken.inputId) = .ok result := by
    rw [positions, flat]
    exact isOk
  have start : offset ([row].map length) 0 = 0 := rfl
  have found := getElem?_localForwardRow_token some_token isOkRow
    (Nat.zero_lt_one : 0 < [row].length) within (by rw [flat, start]; omega)
  rw [flat, start, Nat.zero_add] at found
  exact found.2

theorem paddedLocal_eq_ok_iff {keep : ℕ} (some : 0 < row.length) :
    (∃ result, paddedLocal logp keep index row = .ok result) ↔ keep < row.length := by
  have lengths : sequenceLengths (positionsOf row.length) = [row.length] := by
    have single : ∀ length ∈ [row.length], 0 < length := by
      intro length isLength
      rw [mem_singleton.mp isLength]
      exact some
    simpa [packedPositionIds] using sequenceLengths_packed single
  have count : (row.map LabelledToken.inputId).length = row.length := length_map _
  have same : (rowContexts index (positionsOf row.length)).length =
      (row.map LabelledToken.inputId).length := by
    rw [rowContexts_eq, length_flatten_contextsOf, lengths, sum_singleton, count]
  rw [paddedLocal, localForwardRow_eq same (by rw [count]; exact some), count]
  split
  next short => simp [short]
  next inside => simpa using inside

/-- What a process on its own gives for the rows of a batch. -/
theorem getElem?_getLogpsViaLocalForward {results : List (List F)}
    (isOk : getLogpsViaLocalForward logp .padded padTokenId batch = .ok results)
    (isRow : (dataCollator padTokenId batch.samples)[index]? = some row) :
    ∃ result, results[index]? = some result ∧
      paddedLocal logp (logitsToKeep (dataCollator padTokenId batch.samples)) index row =
        .ok result := by
  have isPair : (dataCollator padTokenId batch.samples).zipIdx[index]? = some (row, index) := by
    rw [getElem?_zipIdx, isRow, Option.map_some, Nat.zero_add]
  obtain ⟨result, isResult, found⟩ := getElem?_of_mapM_eq_ok isOk isPair
  refine ⟨result, isResult, ?_⟩
  rw [paddedLocal, length_of_mem_dataCollator (mem_of_getElem? isRow)]
  exact found

theorem longest_pos (batch : EncodedBatch) : 0 < longest batch.samples := by
  obtain ⟨sample, isSample⟩ := exists_mem_of_ne_nil _ batch.some_sample
  exact (length_pos_iff.mpr (batch.some_token sample isSample)).trans_le
    (length_le_longest isSample)

theorem getLogpsViaLocalForward_padded_iff :
    (∃ results, getLogpsViaLocalForward logp .padded padTokenId batch = .ok results) ↔
      logitsToKeep (dataCollator padTokenId batch.samples) < longest batch.samples := by
  have positive := longest_pos batch
  constructor
  · rintro ⟨results, isOk⟩
    obtain ⟨sample, others, isSamples⟩ := exists_cons_of_ne_nil batch.some_sample
    have isRow : (dataCollator padTokenId batch.samples)[0]? =
        some (padRight padTokenId (longest batch.samples) sample) := by
      rw [dataCollator, getElem?_map, isSamples]
      rfl
    have length := length_of_mem_dataCollator (mem_of_getElem? isRow)
    obtain ⟨result, _, found⟩ := getElem?_getLogpsViaLocalForward isOk isRow
    rw [← length]
    exact (paddedLocal_eq_ok_iff (by omega)).mp ⟨result, found⟩
  · intro inside
    apply exists_mapM_eq_ok
    rintro ⟨row, index⟩ isPair
    have isRow : row ∈ dataCollator padTokenId batch.samples :=
      mem_of_getElem? (mem_zipIdx_iff_getElem?.mp isPair)
    have length := length_of_mem_dataCollator isRow
    have some : 0 < row.length := by
      rw [length]
      exact positive
    have found : ∃ result, paddedLocal logp
        (logitsToKeep (dataCollator padTokenId batch.samples)) index row = .ok result :=
      (paddedLocal_eq_ok_iff some).mpr (by rw [length]; exact inside)
    rw [paddedLocal, length] at found
    exact found

theorem getLogpsViaSp_padded [Zero F] (noRing : ¬1 < par.rpWorldSize) :
    getLogpsViaSp logp par .padded padTokenId batch =
      .ok ((dataCollator padTokenId batch.samples).zipIdx.map fun row =>
        paddedWindow par batch (logitsToKeep (dataCollator padTokenId batch.samples))
          (gatheredRow logp par padTokenId row.2 row.1)) := by
  apply mapM_eq_ok_map
  rintro ⟨row, index⟩ isPair
  have isRow : row ∈ dataCollator padTokenId batch.samples :=
    mem_of_getElem? (mem_zipIdx_iff_getElem?.mp isPair)
  have length := length_of_mem_dataCollator isRow
  have positive := longest_pos batch
  have some : 0 < row.length := by
    rw [length]
    exact positive
  have found : gatherRow logp par padTokenId index (positionsOf row.length)
      (row.map LabelledToken.inputId) = .ok (gatheredRow logp par padTokenId index row) :=
    gatherRow_padded noRing some index
  rw [length] at found
  exact bind_eq_ok.mpr ⟨_, found, rfl⟩

/-- The collator's rows of samples begin with a token that is not supervised. -/
theorem exists_succ_of_supervised {place : ℕ} {token : LabelledToken}
    (isRow : (dataCollator padTokenId batch.samples)[index]? = some row)
    (isToken : row[place]? = some token) (supervised : token.supervised = true) :
    ∃ position, place = position + 1 := by
  cases place with
  | succ position => exact ⟨position, rfl⟩
  | zero =>
    rw [dataCollator, getElem?_map] at isRow
    obtain ⟨sample, isSample, rfl⟩ := Option.map_eq_some_iff.mp isRow
    have someToken := length_pos_iff.mpr
      (batch.some_token sample (mem_of_getElem? isSample))
    rw [padRight, getElem?_append_left someToken] at isToken
    have ignored := batch.first_ignored sample (mem_of_getElem? isSample) token
      (by rw [Option.mem_def, head?_eq_getElem?, isToken])
    rw [supervised] at ignored
    cases ignored

/-- The window begins after the first token if and only if every sample has a supervised
token. -/
theorem logitsToKeep_lt_longest_iff (padTokenId : ℕ) (batch : EncodedBatch) :
    logitsToKeep (dataCollator padTokenId batch.samples) < longest batch.samples ↔
      ∀ sample ∈ batch.samples, HasCompletion sample := by
  rw [← not_le, longest_le_logitsToKeep_iff padTokenId batch.some_sample]
  push Not
  apply forall₂_congr
  intro sample isSample
  constructor
  · intro later
    rw [firstSupervised] at later
    split at later
    next found =>
      obtain ⟨token, isToken, supervised⟩ := any_eq_true.mp found
      exact ⟨token, isToken, supervised⟩
    next => exact absurd rfl later
  · intro some first
    obtain ⟨token, isToken, supervised⟩ := exists_firstSupervised some
    have ignored := batch.first_ignored sample isSample token
      (by rw [Option.mem_def, head?_eq_getElem?, ← first, isToken])
    rw [supervised] at ignored
    cases ignored

theorem inWindow_of_supervised {rows : List EncodedRow} (isRow : row ∈ rows) {place : ℕ}
    {token : LabelledToken} (isToken : row[place]? = some token)
    (supervised : token.supervised = true) : row.length - logitsToKeep rows ≤ place := by
  have own : row.length - firstSupervised row ≤ logitsToKeep rows :=
    le_foldr_max (mem_map_of_mem (f := fun row => row.length - firstSupervised row) isRow)
  have first := firstSupervised_le isToken supervised
  have inside := (List.getElem?_eq_some_iff.mp isToken).1
  omega

def atPosition (here elsewhere : F) (position : ℕ) (_sequence other _inputId : ℕ) : F :=
  if other = position then here else elsewhere

theorem spAgrees_padded [Zero F] [Nontrivial F] {setup : ParallelSetup}
    (padded : setup.layout = .padded) :
    SpAgrees F setup padTokenId batch ↔ WindowsAligned setup batch := by
  have noRing : ¬1 < setup.par.rpWorldSize := by
    intro ring
    have packed := setup.ring_packed ring
    rw [padded] at packed
    cases packed
  have none : (∃ sample ∈ batch.samples, ¬HasCompletion sample) ↔
      ¬logitsToKeep (dataCollator padTokenId batch.samples) < longest batch.samples := by
    rw [logitsToKeep_lt_longest_iff]
    push Not
    rfl
  rw [SpAgrees, WindowsAligned, padded]
  dsimp only [collatedRows]
  rw [none, ← padCount_eq_zero_iff setup.par.worldSize_pos]
  constructor
  · intro agrees
    by_contra misaligned
    push Not at misaligned
    obtain ⟨somePadding, inside⟩ := misaligned
    obtain ⟨here, elsewhere, different⟩ := exists_pair_ne F
    obtain ⟨sample, others, isSamples⟩ := exists_cons_of_ne_nil batch.some_sample
    have isSample : sample ∈ batch.samples := by
      rw [isSamples]
      exact mem_cons_self
    obtain ⟨token, isFirst, supervised⟩ :=
      exists_firstSupervised ((logitsToKeep_lt_longest_iff padTokenId batch).mp inside _ isSample)
    have isRow : (dataCollator padTokenId batch.samples)[0]? =
        some (padRight padTokenId (longest batch.samples) sample) := by
      rw [dataCollator, getElem?_map, isSamples]
      rfl
    have isToken : (padRight padTokenId (longest batch.samples) sample)[
        firstSupervised sample]? = some token := by
      rw [padRight, getElem?_append_left (List.getElem?_eq_some_iff.mp isFirst).1, isFirst]
    obtain ⟨position, isPlace⟩ := exists_succ_of_supervised isRow isToken supervised
    rw [isPlace] at isToken
    have within := (List.getElem?_eq_some_iff.mp isToken).1
    have member := mem_of_getElem? isRow
    have length := length_of_mem_dataCollator member
    have inWindow := inWindow_of_supervised member isToken supervised
    obtain ⟨results, isOk⟩ : ∃ results, getLogpsViaLocalForward
        (atPosition here elsewhere position) .padded padTokenId batch = .ok results :=
      getLogpsViaLocalForward_padded_iff.mpr inside
    obtain ⟨gathered, isGathered, same⟩ := agrees _ _ isOk
    rw [getLogpsViaSp_padded noRing] at isGathered
    obtain rfl := Except.ok.inj isGathered
    obtain ⟨result, isResult, found⟩ := getElem?_getLogpsViaLocalForward isOk isRow
    obtain ⟨inputId, isRead⟩ : ∃ inputId, (gatheredRow (atPosition here elsewhere position)
        setup.par padTokenId 0 (padRight padTokenId (longest batch.samples) sample))[
          position + padCount setup.par.worldSize (longest batch.samples)]? = some _ :=
      exists_getElem?_gatheredRow _ _ _ (by rw [length]; omega)
    have tokenSame := same 0 _ isRow _ token isToken supervised
    rw [isResult, Option.bind_some, getElem?_map, getElem?_zipIdx, isRow,
      Option.map_some, Option.map_some, Option.bind_some, Nat.zero_add,
      getElem?_paddedLocal (by omega) found within inWindow,
      getElem?_paddedWindow batch (by omega) inWindow within, length, isRead, atPosition,
      atPosition, if_neg (by omega), if_pos rfl, Option.some.injEq] at tokenSame
    exact different tokenSame.symm
  · intro aligned logp results isOk
    refine ⟨_, getLogpsViaSp_padded noRing, ?_⟩
    intro index row isRow place token isToken supervised
    have inside := getLogpsViaLocalForward_padded_iff.mp ⟨results, isOk⟩
    have unpadded := aligned.resolve_right (not_not.mpr inside)
    have member := mem_of_getElem? isRow
    have length := length_of_mem_dataCollator member
    have inWindow := inWindow_of_supervised member isToken supervised
    obtain ⟨position, rfl⟩ := exists_succ_of_supervised isRow isToken supervised
    have within := (List.getElem?_eq_some_iff.mp isToken).1
    obtain ⟨result, isResult, found⟩ := getElem?_getLogpsViaLocalForward isOk isRow
    rw [isResult, Option.bind_some, getElem?_map, getElem?_zipIdx, isRow,
      Option.map_some, Option.map_some, Option.bind_some, Nat.zero_add,
      getElem?_paddedLocal (by omega) found within inWindow,
      getElem?_paddedWindow batch (by omega) inWindow within, length, unpadded, Nat.add_zero,
      getElem?_gatheredRow index within]

end Batches

end PaddedRows

/-! ## Agreement -/

/-- **A group computes for the supervised tokens of a batch what one of its processes does if
and only if it takes the same window out of what is gathered.** -/
theorem sp_agrees_iff {F : Type} [Zero F] [Nontrivial F] (setup : ParallelSetup)
    (padTokenId : ℕ) (batch : EncodedBatch) :
    SpAgrees F setup padTokenId batch ↔ WindowsAligned setup batch := by
  cases isLayout : setup.layout with
  | paddingFree => exact spAgrees_packed isLayout
  | padded => exact spAgrees_padded isLayout

def twoProcesses (layout : Layout) : ParallelSetup where
  par := { spWorldSize := 2, rpWorldSize := 1, several := by decide }
  layout := layout
  ring_packed := fun ring => absurd ring (by decide)

/-- Two samples of different lengths, of which two processes cannot share the longer one
evenly. -/
def unevenBatch : EncodedBatch where
  samples := [[⟨1, false⟩, ⟨2, true⟩, ⟨3, true⟩], [⟨4, false⟩, ⟨5, true⟩]]
  some_sample := by decide
  some_token := by decide
  first_ignored := by decide

/-- Without a ring the packed samples are read as on one process. -/
theorem packed_unevenBatch_agrees : SpAgrees ℚ (twoProcesses .paddingFree) 0 unevenBatch :=
  (sp_agrees_iff (F := ℚ) (twoProcesses .paddingFree) 0 unevenBatch).mpr (Or.inl rfl)

/-- The window is taken one place too late from rows that the group has padded. -/
theorem padded_unevenBatch_disagrees :
    ¬SpAgrees ℚ (twoProcesses .padded) 0 unevenBatch := by
  intro agrees
  have onOne : getLogpsViaLocalForward (fun _ position _ => (position : ℚ)) .padded 0
      unevenBatch = .ok [[0, 1], [0, 1]] := by rfl
  have onGroup : getLogpsViaSp (fun _ position _ => (position : ℚ)) (twoProcesses .padded).par
      .padded 0 unevenBatch = .ok [[1, 2], [1, 2]] := by rfl
  obtain ⟨others, isOthers, same⟩ := agrees _ _ onOne
  obtain rfl := Except.ok.inj (onGroup.symm.trans isOthers)
  exact absurd (same 0 _ rfl 1 _ rfl rfl) (by decide +kernel)

end Geobench.Trainers
