import Geobench.Template.EncodedSamples
import Geobench.Trainers.CollatedSplits

/-!
# Samples that are packed

`packingRow` puts encoded samples behind each other, key by key. The positions are made of the
lengths that the samples have recorded, and the places where the samples begin are found again in
the positions (`getCuSeqlensFromPositionIds`); for positive lengths each determines the other
(**`boundaries_roundTrip`**).

**`packingRow_packedWell`**: for the samples of a template, padded or not, the row has as many
labels, scales and positions as tokens, the samples are its slices, and none of their first tokens
is trained on.
-/

namespace Geobench.Template

open Library Trainers List

/-! ## Packing -/

/-- Positions are a list, or sections of a tensor with three dimensions. -/
inductive PositionIds where
  | ids (positions : List ℤ)
  | sections (rows : List (List ℤ))

/-- A sample to be packed. A key without a value is not there. -/
structure PackableRow extends Trainers.Encoded where
  positionIds : Option PositionIds
  channel : Option Text

structure PackedRow where
  inputIds : Option (List ℤ)
  labels : Option (List ℤ)
  lossScale : Option (List ℚ)
  positionIds : PositionIds
  channel : Option (List (Option Text))

/-- `sum((x.get(key) or [] for x in row), start=[])`, for a key that some sample has -/
def concatColumn {α : Type} (values : List (Option (List α))) : Option (List α) :=
  if values.any Option.isSome then some (values.flatMap fun column => column.getD []) else none

/-- `torch.cat` along the last dimension, for tensors with as many sections -/
def catSections : List (List (List ℤ)) → Option (List (List ℤ))
  | [] => none
  | [rows] => some rows
  | rows :: rest => (catSections rest).bind fun joined =>
    if rows.length = joined.length then some (List.zipWith (· ++ ·) rows joined) else none

def PositionIds.sections? : PositionIds → Option (List (List ℤ))
  | .ids _ => none
  | .sections rows => some rows

def PositionIds.ids? : PositionIds → Option (List ℤ)
  | .ids positions => some positions
  | .sections _ => none

/-- The positions of a packed row, from the samples or from their lengths. Tensors that do not fit
raise. -/
def packedPositions (row : List PackableRow) : Option PositionIds :=
  if row.any (fun sample => (sample.positionIds.bind PositionIds.sections?).isSome) then
    let sections := row.mapM fun sample : PackableRow =>
      sample.positionIds.bind PositionIds.sections?
    (sections.bind catSections).map .sections
  else some <| .ids <|
    (concatColumn (row.map fun sample => sample.positionIds.bind PositionIds.ids?)).getD
      (packedPositionIds (row.map fun sample => sample.length))

/-- `packing_row` -/
def packingRow (row : List PackableRow) : Option PackedRow :=
  (packedPositions row).map fun positionIds =>
    { inputIds := concatColumn (row.map fun sample => some sample.inputIds)
      labels := concatColumn (row.map fun sample => sample.labels)
      lossScale := concatColumn (row.map fun sample => sample.lossScale)
      positionIds := positionIds
      channel :=
        if row.any (fun sample => sample.channel.isSome) then
          some (row.map fun sample => sample.channel)
        else none }

/-- `torch.cumsum` -/
def cumsum (numbers : List ℕ) : List ℕ :=
  (List.range numbers.length).map fun index => offset numbers (index + 1)

/-- `get_cu_seqlens_from_position_ids`, for one row -/
def getCuSeqlensFromPositionIds (positionIds : List ℤ) : List ℕ :=
  cumsum (0 :: sequenceLengths positionIds)

/-- `get_position_ids_from_cu_seqlens`, for one row. `torch.cat` raises without a sequence. -/
def getPositionIdsFromCuSeqlens (cuSeqlens : List ℕ) : Option (List ℤ) :=
  let seqLengths := diff cuSeqlens
  if seqLengths = [] then none else some (packedPositionIds seqLengths)

structure PackedSeqParams where
  cuSeqLensQ : List ℕ
  cuSeqLensK : List ℕ
  maxLengthQ : ℕ
  maxLengthK : ℕ
  deriving DecidableEq

/-- `get_packed_seq_params`, for one row. `max` raises without a sequence. -/
def getPackedSeqParams (positionIds : List ℤ) : Option PackedSeqParams :=
  let cuSeqlens := sequenceStarts 0 positionIds ++ [positionIds.length]
  if diff cuSeqlens = [] then none
  else
    let maxLength := (diff cuSeqlens).foldr max 0
    some ⟨cuSeqlens, cuSeqlens, maxLength, maxLength⟩

/-! ## Samples of a template -/

/-- A sample that a template encodes, with the channel of its inputs and without positions. -/
def TrainingTemplate.IsEncoded (template : TrainingTemplate) (sample : PackableRow) : Prop :=
  ∃ inputs rows row, template.encode inputs = .ok rows ∧ row ∈ rows ∧
    sample.inputIds = row.columns.inputIds ∧ sample.labels = row.columns.labels ∧
    sample.lossScale = row.columns.lossScale ∧ sample.length = row.length ∧
    sample.positionIds = none

/-- `_handle_megatron_cp`, which does nothing where Megatron is not used. -/
def padSample (collator : Option CollatorSettings) (sample : PackableRow) : Option PackableRow :=
  match collator with
  | none => some sample
  | some settings => (settings.handleMegatronCp sample.toEncoded).map fun encoded =>
    { sample with toEncoded := encoded }

/-- Nothing but padding that is not trained on comes behind a sample. -/
def IsPadded (sample padded : PackableRow) : Prop :=
  ∃ (count : ℕ) (padTokenId : ℤ),
    padded = { sample with
      inputIds := sample.inputIds ++ List.replicate count padTokenId
      labels := sample.labels.map (· ++ List.replicate count (-100))
      lossScale := sample.lossScale.map (· ++ List.replicate count 0)
      length := sample.length + count }

/-! ## What a packed row is -/

/-- The numbers of tokens of samples. -/
def tokenCounts (row : List PackableRow) : List ℕ := row.map fun sample => sample.inputIds.length

/-- The values of the sample with an index. -/
def sampleSlice {α : Type} (row : List PackableRow) (index : ℕ) (values : List α) : List α :=
  slice values (offset (tokenCounts row) index) (offset (tokenCounts row) (index + 1))

/-- Samples are packed well: columns of one length, in which the samples are found again, each
of them starting with a position zero and with a token that is not trained on. -/
structure PackedWell (scaled : Bool) (row : List PackableRow) (packed : PackedRow) : Prop where
  isSome : row ≠ [] →
    packed.inputIds.isSome ∧ packed.labels.isSome ∧ packed.lossScale.isSome = scaled
  inputIds : ∀ inputIds ∈ packed.inputIds, inputIds.length = (tokenCounts row).sum
  labels : ∀ labels ∈ packed.labels, labels.length = (tokenCounts row).sum
  lossScale : ∀ lossScale ∈ packed.lossScale, lossScale.length = (tokenCounts row).sum
  positionIds : ∃ positions, packed.positionIds = .ids positions ∧
    positions.length = (tokenCounts row).sum ∧
    (∀ place, positions[place]? = some 0 ↔
      ∃ index < row.length, place = offset (tokenCounts row) index) ∧
    getCuSeqlensFromPositionIds positions = places (tokenCounts row)
  slices : ∀ index sample, row[index]? = some sample →
    packed.inputIds.map (sampleSlice row index) = some sample.inputIds ∧
      packed.labels.map (sampleSlice row index) = sample.labels ∧
      packed.lossScale.map (sampleSlice row index) = sample.lossScale
  firstLabel : ∀ labels ∈ packed.labels, ∀ index < row.length,
    labels[offset (tokenCounts row) index]? = some (-100)
  -- what the last token of a sample is trained to predict
  nextLabel : ∀ labels ∈ packed.labels, ∀ index, index + 1 < row.length →
    labels.tail[offset (tokenCounts row) (index + 1) - 1]? = some (-100)

/-! ## Each sample -/

/-- A sample that can be packed: what is recorded of it is right. -/
structure Packable (scaled : Bool) (sample : PackableRow) : Prop where
  starts : StartsIgnored scaled
    { inputIds := sample.inputIds, labels := sample.labels, lossScale := sample.lossScale }
  length : sample.length = sample.inputIds.length
  positionIds : sample.positionIds = none

theorem TrainingTemplate.IsEncoded.packable {template : TrainingTemplate} {sample : PackableRow}
    (isEncoded : template.IsEncoded sample) : Packable (!template.isLossScaleBinary) sample := by
  obtain ⟨inputs, rows, row, isOk, isRow, ids, labels, lossScale, length, positions⟩ := isEncoded
  have starts := TrainingTemplate.encode_startsIgnored isOk row isRow
  refine ⟨?_, ?_, positions⟩
  · rw [ids, labels, lossScale]
    exact starts.columns
  · rw [length, ids]
    exact starts.length

theorem Packable.someToken {scaled : Bool} {sample : PackableRow}
    (packable : Packable scaled sample) : 0 < sample.inputIds.length := by
  obtain ⟨labels, _, length, first⟩ := packable.starts.labels
  rw [← length]
  cases labels with
  | nil => cases first
  | cons label rest => exact Nat.zero_lt_succ _

theorem Packable.isPadded {scaled : Bool} {sample padded : PackableRow}
    (packable : Packable scaled sample) (isPadded : IsPadded sample padded) :
    Packable scaled padded := by
  obtain ⟨count, padTokenId, rfl⟩ := isPadded
  obtain ⟨labels, isLabels, length, first⟩ := packable.starts.labels
  dsimp only at isLabels length
  have behind : ∀ {α : Type} {head : α} {values : List α} (more : List α),
      values.head? = some head → (values ++ more).head? = some head := by
    intro α head values more isHead
    rw [head?_append, isHead, Option.some_or]
  refine ⟨⟨⟨labels ++ replicate count (-100), ?_, ?_, behind _ first⟩, ?_,
    fun lossScale isScale => ?_⟩, ?_, packable.positionIds⟩
  · dsimp only
    rw [isLabels, Option.map_some]
  · dsimp only
    rw [length_append, length_append, length, length_replicate, length_replicate]
  · dsimp only
    rw [Option.isSome_map]
    exact packable.starts.isSome
  · obtain ⟨before, isBefore, rfl⟩ := Option.map_eq_some_iff.mp isScale
    obtain ⟨length, first⟩ := packable.starts.lossScale before isBefore
    dsimp only at length ⊢
    rw [length_append, length_append, length, length_replicate, length_replicate]
    exact ⟨rfl, behind _ first⟩
  · dsimp only
    rw [length_append, length_replicate, packable.length]

/-- Samples with labels can be padded. -/
theorem Packable.padSample {scaled : Bool} {sample : PackableRow}
    (packable : Packable scaled sample) (collator : Option CollatorSettings) :
    ∃ padded, padSample collator sample = some padded ∧ IsPadded sample padded := by
  cases collator with
  | none =>
    refine ⟨sample, rfl, 0, 0, ?_⟩
    simp
  | some settings =>
    obtain ⟨labels, isLabels, _⟩ := packable.starts.labels
    dsimp only at isLabels
    have labelled : settings.contextParallelSize = 1 ∨ sample.toEncoded.labels.isSome :=
      .inr (by rw [isLabels]; rfl)
    have handled := settings.handleMegatronCp_eq labelled
    exact ⟨_, by rw [Template.padSample, handled]; rfl, _, _, rfl⟩

/-! ## The columns -/

section Columns

variable {α : Type} {row : List PackableRow} {key : PackableRow → Option (List α)}

theorem concatColumn_of_none (absent : ∀ sample ∈ row, key sample = none) :
    concatColumn (row.map key) = none := by
  rw [concatColumn, if_neg]
  simpa using absent

/-- The values of a key that all samples have. -/
theorem concatColumn_of_some
    (each : ∀ sample ∈ row, ∃ values, key sample = some values ∧
      values.length = sample.inputIds.length) :
    ∃ lists : List (List α), row.map key = lists.map some ∧
      lists.map length = tokenCounts row ∧
      concatColumn (row.map key) = if row = [] then none else some lists.flatten := by
  refine ⟨row.map fun sample => (key sample).getD [], ?_, ?_, ?_⟩
  · rw [map_map]
    refine map_congr_left fun sample isSample => ?_
    obtain ⟨values, isValues, _⟩ := each sample isSample
    rw [Function.comp_apply, isValues, Option.getD_some]
  · rw [map_map, tokenCounts]
    refine map_congr_left fun sample isSample => ?_
    obtain ⟨values, isValues, length⟩ := each sample isSample
    rw [Function.comp_apply, isValues, Option.getD_some, length]
  · cases row with
    | nil => rfl
    | cons sample rest =>
      obtain ⟨values, isValues, _⟩ := each sample mem_cons_self
      rw [concatColumn, if_pos (by simp [isValues]), if_neg (cons_ne_nil _ _), flatMap_def, map_map]
      rfl

theorem length_concatColumn
    (each : ∀ sample ∈ row, ∃ values, key sample = some values ∧
      values.length = sample.inputIds.length) :
    ∀ values ∈ concatColumn (row.map key), values.length = (tokenCounts row).sum := by
  intro values isValues
  obtain ⟨lists, _, lengths, isColumn⟩ := concatColumn_of_some each
  rw [isColumn, Option.mem_def] at isValues
  split at isValues
  · cases isValues
  · cases isValues
    rw [length_flatten, lengths]

theorem concatColumn_sampleSlice
    (each : ∀ sample ∈ row, ∃ values, key sample = some values ∧
      values.length = sample.inputIds.length) {index : ℕ} {sample : PackableRow}
    (isSample : row[index]? = some sample) :
    (concatColumn (row.map key)).map (sampleSlice row index) = key sample := by
  obtain ⟨lists, all, lengths, isColumn⟩ := concatColumn_of_some each
  obtain ⟨isIndex, _⟩ := List.getElem?_eq_some_iff.mp isSample
  have some : row ≠ [] := length_pos_iff.mp (Nat.lt_of_le_of_lt (Nat.zero_le index) isIndex)
  have sameLength := congrArg length all
  rw [length_map, length_map] at sameLength
  have isList : index < lists.length := sameLength ▸ isIndex
  have entry := congrArg (·[index]?) all
  rw [getElem?_map, getElem?_map, isSample, getElem?_eq_getElem isList,
    Option.map_some, Option.map_some, Option.some.injEq] at entry
  rw [isColumn, if_neg some, Option.map_some, entry, sampleSlice, ← lengths,
    offset_succ _ (by rwa [length_map]), getElem_map, slice_offset lists isList]

end Columns

/-! ## The positions -/

theorem cumsum_zero_cons (numbers : List ℕ) : cumsum (0 :: numbers) = places numbers := by
  rw [cumsum, places, length_cons]
  refine map_congr_left fun index _ => ?_
  rw [offset, take_succ_cons, sum_cons, Nat.zero_add, offset]

theorem getElem?_packedPositionIds_eq_zero {lengths : List ℕ}
    (some : ∀ length ∈ lengths, 0 < length) (place : ℕ) :
    (packedPositionIds lengths)[place]? = Option.some 0 ↔
      ∃ index < lengths.length, place = offset lengths index := by
  have sameLengths : (lengths.map positionsOf).map length = lengths := by
    rw [map_map]
    exact (map_congr_left fun length _ => length_positionsOf length).trans (map_id _)
  have entry : ∀ length within, within < length →
      (positionsOf length)[within]? = Option.some (within : ℤ) := by
    intro length within inside
    rw [positionsOf, getElem?_map, getElem?_range inside]
    rfl
  rw [packedPositionIds, flatMap_def]
  constructor
  · intro isZero
    obtain ⟨isPlace, _⟩ := List.getElem?_eq_some_iff.mp isZero
    obtain ⟨index, isIndex, within, isWithin, rfl⟩ := exists_offset _ isPlace
    rw [getElem?_flatten_offset _ isIndex isWithin, getElem_map] at isZero
    rw [getElem_map, length_positionsOf] at isWithin
    rw [entry _ _ isWithin, Option.some.injEq] at isZero
    rw [length_map] at isIndex
    refine ⟨index, isIndex, ?_⟩
    rw [sameLengths]
    omega
  · rintro ⟨index, isIndex, rfl⟩
    have positive := some _ (getElem_mem isIndex)
    have isList : index < (lengths.map positionsOf).length := by rwa [length_map]
    have within : 0 < (lengths.map positionsOf)[index].length := by
      rwa [getElem_map, length_positionsOf]
    have first := getElem?_flatten_offset (lengths.map positionsOf) isList within
    rw [sameLengths, Nat.add_zero, getElem_map, entry _ _ positive] at first
    exact first

section Boundaries

variable {lengths : List ℕ}

/-- The places where a position is zero, and the end of the row. -/
theorem sequenceStarts_packed (positive : ∀ length ∈ lengths, 0 < length) :
    sequenceStarts 0 (packedPositionIds lengths) ++ [(packedPositionIds lengths).length] =
      places lengths := by
  have each : ∀ positions ∈ lengths.map positionsOf, IsSequence positions :=
    forall_mem_map.mpr fun length isLength =>
      isSequence_positionsOf (positive length isLength)
  have sameLengths : (lengths.map positionsOf).map length = lengths := by
    rw [map_map]
    exact (map_congr_left fun length _ => length_positionsOf length).trans (map_id _)
  have found := sequenceStarts_flatten 0 each
  simpa [packedPositionIds, flatMap_def, sameLengths] using found

theorem diff_places (positive : ∀ length ∈ lengths, 0 < length) :
    diff (places lengths) = lengths := by
  rw [← sequenceStarts_packed positive]
  exact sequenceLengths_packed positive

/-- **Boundaries and positions of packed sequences determine each other.** -/
theorem boundaries_roundTrip (lengths : List ℕ) (positive : ∀ length ∈ lengths, 0 < length)
    (someSequence : lengths ≠ []) :
    getPositionIdsFromCuSeqlens (getCuSeqlensFromPositionIds (packedPositionIds lengths)) =
        some (packedPositionIds lengths) ∧
      (getPositionIdsFromCuSeqlens (places lengths)).map getCuSeqlensFromPositionIds =
        some (places lengths) ∧
      getPackedSeqParams (packedPositionIds lengths) =
        some ⟨places lengths, places lengths, lengths.foldr max 0, lengths.foldr max 0⟩ := by
  have cuSeqlens : getCuSeqlensFromPositionIds (packedPositionIds lengths) = places lengths := by
    rw [getCuSeqlensFromPositionIds, sequenceLengths_packed positive, cumsum_zero_cons]
  have positionIds : getPositionIdsFromCuSeqlens (places lengths) =
      some (packedPositionIds lengths) := by
    rw [getPositionIdsFromCuSeqlens, diff_places positive, if_neg someSequence]
  refine ⟨by rw [cuSeqlens, positionIds], by rw [positionIds, Option.map_some, cuSeqlens], ?_⟩
  rw [getPackedSeqParams, sequenceStarts_packed positive, diff_places positive, if_neg someSequence]

theorem boundaries_roundTrip_twoSequences :
    (∀ length ∈ [2, 3], 0 < length) ∧ [2, 3] ≠ [] ∧
      getPackedSeqParams (packedPositionIds [2, 3]) = some ⟨[0, 2, 5], [0, 2, 5], 3, 3⟩ :=
  ⟨by decide, by decide, (boundaries_roundTrip [2, 3] (by decide) (by decide)).2.2⟩

/-- Without a sequence there is nothing to put together. -/
theorem no_boundaries_roundTrip :
    (∀ length ∈ ([] : List ℕ), 0 < length) ∧
      getPositionIdsFromCuSeqlens (getCuSeqlensFromPositionIds (packedPositionIds [])) ≠
        some (packedPositionIds []) := by
  decide

end Boundaries

/-! ## The packed row -/

section Packed

variable {scaled : Bool} {row : List PackableRow}

theorem packedPositions_eq (packable : ∀ sample ∈ row, Packable scaled sample) :
    packedPositions row = some (.ids (packedPositionIds (tokenCounts row))) := by
  have lengths : row.map (fun sample => sample.length) = tokenCounts row :=
    map_congr_left fun sample isSample => (packable sample isSample).length
  have absent : concatColumn (row.map fun sample => sample.positionIds.bind PositionIds.ids?) =
      none := concatColumn_of_none fun sample isSample => by
    rw [(packable sample isSample).positionIds, Option.bind_none]
  have untensored : ¬ row.any fun sample =>
      (sample.positionIds.bind PositionIds.sections?).isSome := by
    rw [Bool.not_eq_true, any_eq_false]
    intro sample isSample
    rw [(packable sample isSample).positionIds]
    exact Bool.false_ne_true
  rw [packedPositions, if_neg untensored, absent, lengths]
  rfl

theorem lossScale_cases (packable : ∀ sample ∈ row, Packable scaled sample) :
    (∀ sample ∈ row, ∃ values, sample.lossScale = some values ∧
        values.length = sample.inputIds.length) ∨
      ∀ sample ∈ row, sample.lossScale = none := by
  cases scaled with
  | true =>
    refine .inl fun sample isSample => ?_
    have starts := (packable sample isSample).starts
    obtain ⟨values, isValues⟩ := Option.isSome_iff_exists.mp starts.isSome
    exact ⟨values, isValues, (starts.lossScale values isValues).1⟩
  | false =>
    refine .inr fun sample isSample => Option.not_isSome_iff_eq_none.mp ?_
    exact Bool.eq_false_iff.mp (packable sample isSample).starts.isSome

theorem isSome_lossScale (packable : ∀ sample ∈ row, Packable scaled sample)
    (someSample : row ≠ []) :
    (concatColumn (row.map fun sample => sample.lossScale)).isSome = scaled := by
  obtain ⟨sample, isSample⟩ := exists_mem_of_ne_nil row someSample
  have isScaled := (packable sample isSample).starts.isSome
  obtain each | absent := lossScale_cases packable
  · obtain ⟨values, isValues, _⟩ := each sample isSample
    obtain ⟨_, _, _, isColumn⟩ := concatColumn_of_some each
    dsimp only at isScaled
    rw [isColumn, if_neg someSample, ← isScaled, isValues]
    rfl
  · dsimp only at isScaled
    rw [concatColumn_of_none absent, ← isScaled, absent sample isSample]

theorem firstLabel_concatColumn (packable : ∀ sample ∈ row, Packable scaled sample) :
    ∀ labels ∈ concatColumn (row.map fun sample => sample.labels), ∀ index < row.length,
      labels[offset (tokenCounts row) index]? = some (-100) := by
  intro labels isLabels index isIndex
  have each : ∀ sample ∈ row, ∃ values, sample.labels = some values ∧
      values.length = sample.inputIds.length := by
    intro sample isSample
    obtain ⟨values, isValues, length, _⟩ := (packable sample isSample).starts.labels
    exact ⟨values, isValues, length⟩
  have own := packable _ (getElem_mem isIndex)
  have part := concatColumn_sampleSlice each (getElem?_eq_getElem isIndex)
  obtain ⟨values, isValues, length, head⟩ := own.starts.labels
  dsimp only at isValues
  rw [isLabels, Option.map_some, isValues, Option.some.injEq] at part
  have isCount : index < (tokenCounts row).length := by rwa [tokenCounts, length_map]
  have inside : offset (tokenCounts row) index + 0 < offset (tokenCounts row) (index + 1) := by
    have someToken := own.someToken
    rw [offset_succ _ isCount]
    simpa [tokenCounts] using someToken
  rw [head?_eq_getElem?, ← part, sampleSlice, getElem?_slice _ inside, Nat.add_zero] at head
  exact head

theorem packingRow_eq (packable : ∀ sample ∈ row, Packable scaled sample) :
    ∃ packed, packingRow row = some packed ∧ PackedWell scaled row packed := by
  have ids : ∀ sample ∈ row, ∃ values, (some sample.inputIds) = some values ∧
      values.length = sample.inputIds.length := fun sample _ => ⟨_, rfl, rfl⟩
  have labels : ∀ sample ∈ row, ∃ values, sample.labels = some values ∧
      values.length = sample.inputIds.length := by
    intro sample isSample
    obtain ⟨values, isValues, length, _⟩ := (packable sample isSample).starts.labels
    exact ⟨values, isValues, length⟩
  have positive : ∀ length ∈ tokenCounts row, 0 < length := by
    intro length isLength
    obtain ⟨sample, isSample, rfl⟩ := mem_map.mp isLength
    exact (packable sample isSample).someToken
  have counts : (tokenCounts row).length = row.length := length_map _
  have first := fun labels isLabels => firstLabel_concatColumn packable labels isLabels
  refine ⟨_, by rw [packingRow, packedPositions_eq packable]; rfl, ?_⟩
  refine ⟨?_, ?_, ?_, ?_, ?_, ?_, first, ?_⟩
  · intro someSample
    obtain ⟨_, _, _, isIds⟩ := concatColumn_of_some ids
    obtain ⟨_, _, _, isLabels⟩ := concatColumn_of_some labels
    rw [if_neg someSample] at isIds isLabels
    exact ⟨by rw [isIds]; rfl, by rw [isLabels]; rfl, isSome_lossScale packable someSample⟩
  · exact length_concatColumn ids
  · exact length_concatColumn labels
  · obtain each | absent := lossScale_cases packable
    · exact length_concatColumn each
    · intro lossScale isScale
      rw [concatColumn_of_none absent] at isScale
      cases isScale
  · refine ⟨_, rfl, length_packedPositionIds _, fun place => ?_, ?_⟩
    · rw [getElem?_packedPositionIds_eq_zero positive, counts]
    · rw [getCuSeqlensFromPositionIds, sequenceLengths_packed positive, cumsum_zero_cons]
  · intro index sample isSample
    refine ⟨concatColumn_sampleSlice ids isSample, concatColumn_sampleSlice labels isSample, ?_⟩
    obtain each | absent := lossScale_cases packable
    · exact concatColumn_sampleSlice each isSample
    · rw [concatColumn_of_none absent, absent sample (mem_of_getElem? isSample)]
      rfl
  · intro labels isLabels index isIndex
    have next := first labels isLabels (index + 1) isIndex
    have isCount : index < (tokenCounts row).length := by omega
    have someToken := positive _ (getElem_mem isCount)
    rw [offset_succ _ isCount] at next ⊢
    rw [getElem?_tail, Nat.sub_add_cancel (by omega)]
    exact next

end Packed

/-- **The samples of a template are packed well**, with or without padding behind each of them. -/
theorem packingRow_packedWell (template : TrainingTemplate) (collator : Option CollatorSettings)
    {row : List PackableRow} (encoded : ∀ sample ∈ row, template.IsEncoded sample) :
    ∃ padded packed, row.mapM (padSample collator) = some padded ∧
      List.Forall₂ IsPadded row padded ∧ packingRow padded = some packed ∧
      PackedWell (!template.isLossScaleBinary) padded packed := by
  have padding : ∃ padded, row.mapM (padSample collator) = some padded ∧
      List.Forall₂ IsPadded row padded ∧
      ∀ sample ∈ padded, Packable (!template.isLossScaleBinary) sample := by
    induction row with
    | nil => exact ⟨[], rfl, .nil, fun _ isIn => by cases isIn⟩
    | cons sample rest ih =>
      have packable := (encoded sample mem_cons_self).packable
      obtain ⟨first, isFirst, isPadded⟩ := packable.padSample collator
      obtain ⟨others, isRest, eachPadded, eachPackable⟩ :=
        ih fun other isOther => encoded other (mem_cons_of_mem _ isOther)
      refine ⟨first :: others, ?_, .cons isPadded eachPadded, ?_⟩
      · rw [mapM_cons, isFirst, isRest]
        rfl
      · intro other isOther
        obtain rfl | isOther := mem_cons.mp isOther
        · exact packable.isPadded isPadded
        · exact eachPackable other isOther
  obtain ⟨padded, isPadded, eachPadded, eachPackable⟩ := padding
  obtain ⟨packed, isPacked, well⟩ := packingRow_eq eachPackable
  exact ⟨padded, packed, isPadded, eachPadded, isPacked, well⟩

/-- A template whose scales are not binary. -/
def plainTemplate : TrainingTemplate where
  tokenize := fun text => text.map fun char => (char.toNat : ℤ)
  suffix := []
  isLossScaleBinary := false
  isEncoderDecoder := false
  placeholderTokens := []
  maxLength := none
  truncationStrategy := .raise

def answered : PackableRow where
  inputIds := [63, 9]
  labels := some [-100, 9]
  lossScale := some [0, 2]
  length := 2
  positionIds := none
  channel := none

theorem plainTemplate_isEncoded : plainTemplate.IsEncoded answered :=
  ⟨⟨plainInputs, [.text ['?'], .tokens [9]], [0, 2], 1⟩, _, _, rfl, mem_cons_self,
    rfl, rfl, rfl, rfl, rfl⟩

/-- Two samples of two tokens each. -/
theorem packingRow_packedWell_twoSamples :
    ∃ padded packed, [answered, answered].mapM (padSample none) = some padded ∧
      List.Forall₂ IsPadded [answered, answered] padded ∧ packingRow padded = some packed ∧
      PackedWell true padded packed :=
  packingRow_packedWell plainTemplate none fun sample isSample => by
    obtain rfl : sample = answered := by simpa using isSample
    exact plainTemplate_isEncoded

end Geobench.Template
