import Geobench.Trainers.MegatronCollator
import Mathlib.Tactic.Ring

/-!
# Collated batches that context parallelism splits

The rows of a collated batch are split into twice as many chunks as there are ranks. The samples
are padded for it, but the rows are padded again to a multiple of `getPaddingTo`, which need not
have the factor two.

**`megatronCollates_iff`**: all columns have one length that `getPaddingTo` divides, only ignored
positions are added and every split is even exactly when there is no context parallelism, or the
samples have labels and the length of the rows (`totalLength`) is divided by the chunks.
-/

namespace Geobench.Trainers

open Library List

/-! ## What is promised of a batch -/

/-- `split_cp_inputs` gives every rank its part of the rows. -/
def Splits {α : Type} (group : CpGroup) (cuSeqlens : Option (List ℕ)) (rows : List (List α)) :
    Prop :=
  ∀ tensor : CpTensor α, tensor.rows = rows → ∀ cpRank < group.cpSize,
    ∃ part, splitCpInputs group cpRank cuSeqlens tensor = .ok part

/-- `get_packed_seq_params`, which is called for packed rows alone. -/
def cuSeqlensOf (paddingFree : Bool) (positionIds : List (List ℤ)) : Option (List ℕ) :=
  if paddingFree then some (sequenceStarts 0 positionIds.flatten ++ [positionIds.flatten.length])
  else none

/-- Tokens and labels of the rows before anything was added. -/
def originalRows (paddingFree : Bool) (samples : List Encoded) : List (List ℤ × List ℤ) :=
  if paddingFree then
    [(samples.flatMap Encoded.inputIds, samples.flatMap fun sample => sample.labels.getD [])]
  else samples.map fun sample => (sample.inputIds, sample.labels.getD [])

/-- A batch as it should be collated. -/
structure CollatedWell (settings : CollatorSettings) (samples : List Encoded) (collated : Collated)
    (total : ℕ) : Prop where
  inputIds : ∀ row ∈ collated.inputIds, row.length = total
  labels : ∀ rows ∈ collated.labels, ∀ row ∈ rows, row.length = total
  lossScale : ∀ rows ∈ collated.lossScale, ∀ row ∈ rows, row.length = total
  positionIds : ∀ row ∈ collated.positionIds, row.length = total
  hasLabels : (∀ sample ∈ samples, sample.labels.isSome) → collated.labels.isSome
  hasLossScale : (∀ sample ∈ samples, sample.lossScale.isSome) → collated.lossScale.isSome
  divides : ∀ unit ∈ settings.getPaddingTo, unit ∣ total
  segments : settings.paddingFree = true → 1 < settings.contextParallelSize →
    ∀ length ∈ sequenceLengths collated.positionIds.flatten,
      2 * settings.contextParallelSize ∣ length
  ignored : ∀ labels ∈ collated.labels,
    List.Forall₂ (fun original row => AddsIgnored original.1 original.2 row.1 row.2)
      (originalRows settings.paddingFree samples) (collated.inputIds.zip labels)
  splits : 1 < settings.contextParallelSize →
    let cuSeqlens := cuSeqlensOf settings.paddingFree collated.positionIds
    Splits settings.group cuSeqlens collated.inputIds ∧
      (∀ rows ∈ collated.labels, Splits settings.group cuSeqlens rows) ∧
      (∀ rows ∈ collated.lossScale, Splits settings.group cuSeqlens rows) ∧
      Splits settings.group cuSeqlens collated.positionIds

/-- A batch is collated as it should be. -/
def MegatronCollates (settings : CollatorSettings) (batch : EncodedSamples) : Prop :=
  ∃ collated total, settings.dataCollator settings.getPaddingTo batch.samples = some collated ∧
    CollatedWell settings batch.samples collated total

namespace CollatorSettings

variable (settings : CollatorSettings)

def rowLengths (samples : List Encoded) : List ℕ :=
  let lengths := samples.map fun sample => settings.getMegatronCpLength sample.inputIds.length
  if settings.paddingFree then [lengths.sum] else lengths

def totalLength (samples : List Encoded) : ℕ :=
  let lengths := settings.rowLengths samples
  paddedLength (settings.getPaddingTo.map fun unit => roundUp unit (lengths.foldr max 0)) lengths

/-- There is no context parallelism, or the chunks divide the rows of samples with labels. -/
def Fits (samples : List Encoded) : Prop :=
  settings.contextParallelSize = 1 ∨
    (∀ sample ∈ samples, sample.labels.isSome) ∧
      2 * settings.contextParallelSize ∣ settings.totalLength samples

/-! ## Samples that are padded -/

/-- A sample padded for context parallelism. -/
def handled (sample : Encoded) : Encoded :=
  let paddingLen :=
    settings.getMegatronCpLength sample.inputIds.length - sample.inputIds.length
  { inputIds := sample.inputIds ++ List.replicate paddingLen settings.padTokenId
    labels := sample.labels.map fun labels => labels ++ List.replicate paddingLen (-100)
    lossScale := sample.lossScale.map fun lossScale => lossScale ++ List.replicate paddingLen 0
    length := sample.length + paddingLen }

theorem handleMegatronCp_eq {sample : Encoded}
    (labelled : settings.contextParallelSize = 1 ∨ sample.labels.isSome) :
    settings.handleMegatronCp sample = some (settings.handled sample) := by
  obtain ⟨inputIds, labels, lossScale, length⟩ := sample
  unfold handleMegatronCp handled getMegatronCpLength
  by_cases single : settings.contextParallelSize = 1
  · cases labels <;> cases lossScale <;> simp [single]
  · obtain ⟨value, rfl⟩ := Option.isSome_iff_exists.mp (labelled.resolve_left single)
    simp [single]

theorem handleMegatronCp_eq_none {sample : Encoded} (several : settings.contextParallelSize ≠ 1)
    (unlabelled : sample.labels = none) : settings.handleMegatronCp sample = none := by
  rw [handleMegatronCp, if_neg several, unlabelled]
  rfl

theorem le_getMegatronCpLength (length : ℕ) : length ≤ settings.getMegatronCpLength length := by
  unfold getMegatronCpLength
  split
  · exact le_rfl
  · exact le_roundUp (Nat.mul_pos settings.context_pos Nat.two_pos) length

theorem dvd_getMegatronCpLength (several : settings.contextParallelSize ≠ 1) (length : ℕ) :
    2 * settings.contextParallelSize ∣ settings.getMegatronCpLength length := by
  rw [getMegatronCpLength, if_neg several, Nat.mul_comm 2]
  exact dvd_roundUp _ length

variable {settings} {sample : Encoded}

theorem length_inputIds_handled :
    (settings.handled sample).inputIds.length =
      settings.getMegatronCpLength sample.inputIds.length := by
  have covers := settings.le_getMegatronCpLength sample.inputIds.length
  simp only [handled, length_append, length_replicate]
  omega

@[simp] theorem isSome_labels_handled :
    (settings.handled sample).labels.isSome = sample.labels.isSome := by
  simp [handled]

@[simp] theorem isSome_lossScale_handled :
    (settings.handled sample).lossScale.isSome = sample.lossScale.isSome := by
  simp [handled]

theorem wellFormed_handled (wellFormed : sample.WellFormed) :
    (settings.handled sample).WellFormed where
  someToken := by simp [handled, wellFormed.someToken]
  labels := by
    intro padded isPadded
    obtain ⟨labels, isLabels, rfl⟩ := Option.map_eq_some_iff.mp isPadded
    simp [handled, wellFormed.labels labels isLabels]
  lossScale := by
    intro padded isPadded
    obtain ⟨lossScale, isScale, rfl⟩ := Option.map_eq_some_iff.mp isPadded
    simp [handled, wellFormed.lossScale lossScale isScale]
  length := by simp [handled, wellFormed.length]

theorem addsIgnored_handled (wellFormed : sample.WellFormed) (labelled : sample.labels.isSome) :
    AddsIgnored sample.inputIds (sample.labels.getD []) (settings.handled sample).inputIds
      ((settings.handled sample).labels.getD []) := by
  obtain ⟨labels, isLabels⟩ := Option.isSome_iff_exists.mp labelled
  have whole := (AddsIgnored.refl (wellFormed.labels labels isLabels)).append
    (.replicate (settings.getMegatronCpLength sample.inputIds.length - sample.inputIds.length)
      settings.padTokenId)
  simpa [handled, isLabels] using whole

end CollatorSettings

/-! ## Columns -/

section Columns

variable {α : Type}

/-- The rows of a column that every sample has. -/
def rowsOf (paddingFree : Bool) (values : List (List α)) : List (List α) :=
  if paddingFree then [values.flatten] else values

variable (paddingFree : Bool)

theorem columnOf_some {values : List (List α)} (some : values ≠ []) :
    columnOf paddingFree (values.map Option.some) = Option.some (rowsOf paddingFree values) := by
  have all : (values.map Option.some).filterMap id = values := by simp [filterMap_map]
  rw [columnOf, all, if_neg some, rowsOf]
  split <;> rfl

theorem columnOf_none {values : List (Option (List α))}
    (none : ∀ value ∈ values, value = Option.none) : columnOf paddingFree values = Option.none := by
  have no : values.filterMap id = [] := filterMap_eq_nil_iff.mpr none
  rw [columnOf, no]
  rfl

theorem columnOf_of_isSome {samples : List Encoded} (someSample : samples ≠ [])
    {key : Encoded → Option (List α)} (all : ∀ sample ∈ samples, (key sample).isSome) :
    columnOf paddingFree (samples.map key) =
      some (rowsOf paddingFree (samples.map fun sample => (key sample).getD [])) := by
  have values : samples.map key =
      (samples.map fun sample => (key sample).getD []).map Option.some := by
    rw [map_map]
    refine map_congr_left fun sample isSample => ?_
    obtain ⟨value, isValue⟩ := Option.isSome_iff_exists.mp (all sample isSample)
    simp [isValue]
  rw [values, columnOf_some paddingFree (by simpa using someSample)]

variable {rows : List (List α)}

/-- A key that the samples of a batch have together makes a column only if all have it. -/
theorem isSome_of_columnOf {paddingFree : Bool} {samples : List Encoded}
    {key : Encoded → Option (List α)}
    (same : ∀ first ∈ samples, ∀ second ∈ samples, (key first).isSome = (key second).isSome)
    (isColumn : columnOf paddingFree (samples.map key) = some rows) :
    ∀ sample ∈ samples, (key sample).isSome := by
  intro sample isSample
  by_contra notSome
  have none : ∀ value ∈ samples.map key, value = Option.none := by
    refine forall_mem_map.mpr fun other isOther => ?_
    simpa using (same other isOther sample isSample).trans (Bool.eq_false_iff.mpr notSome)
  rw [columnOf_none paddingFree none] at isColumn
  cases isColumn

theorem length_rowsOf_congr {β : Type} {values : List (List α)} {others : List (List β)}
    (same : values.map List.length = others.map List.length) :
    (rowsOf paddingFree values).map List.length = (rowsOf paddingFree others).map List.length := by
  unfold rowsOf
  split
  · simp [length_flatten, same]
  · exact same

theorem padRows_lengths (right : Bool) {unit : Option ℕ} (positive : ∀ size ∈ unit, 0 < size)
    (padValue : α) {lengths : List ℕ} (same : rows.map List.length = lengths) :
    let paddingTo := unit.map fun size => roundUp size (lengths.foldr max 0)
    padRows right paddingTo (lengths.headD 0) padValue rows = rows.map (fun row =>
        padSide right (paddedLength paddingTo lengths - row.length) padValue row) ∧
      ∀ row ∈ rows, row.length ≤ paddedLength paddingTo lengths := by
  have below : ∀ row ∈ rows, row.length ≤ lengths.foldr max 0 := fun row isRow =>
    le_foldr_max (same ▸ mem_map_of_mem isRow)
  refine ⟨?_, fun row isRow => ?_⟩
  · rw [padRows_eq right padValue, same]
    · rw [same]
      cases lengths <;> rfl
    · intro target isTarget row isRow
      obtain ⟨size, isSize, rfl⟩ := Option.map_eq_some_iff.mp isTarget
      exact (below row isRow).trans (le_roundUp (positive size isSize) _)
  · cases unit with
    | none => exact below row isRow
    | some size => exact (below row isRow).trans (le_roundUp (positive size rfl) _)

/-- As many rows as are given, all of one length. -/
structure IsTensor (count total : ℕ) (rows : List (List α)) : Prop where
  count : rows.length = count
  total : ∀ row ∈ rows, row.length = total

theorem isTensor_padRows (right : Bool) {unit : Option ℕ} (positive : ∀ size ∈ unit, 0 < size)
    (padValue : α) {lengths : List ℕ} (same : rows.map List.length = lengths) :
    let paddingTo := unit.map fun size => roundUp size (lengths.foldr max 0)
    IsTensor lengths.length (paddedLength paddingTo lengths)
      (padRows right paddingTo (lengths.headD 0) padValue rows) := by
  intro paddingTo
  obtain ⟨isRows, below⟩ := padRows_lengths right positive padValue same
  rw [isRows]
  constructor
  · rw [length_map, ← same, length_map]
  · intro padded isPadded
    obtain ⟨row, isRow, rfl⟩ := mem_map.mp isPadded
    rw [length_padSide, Nat.add_sub_cancel' (below row isRow)]

end Columns

/-! ## The rows of a batch -/

namespace CollatorSettings

variable (settings : CollatorSettings)

theorem originPaddingTo_pos : ∀ unit ∈ settings.originPaddingTo, 0 < unit := by
  have contextPos := settings.context_pos
  have tensorPos := settings.tensor_pos
  intro unit isUnit
  unfold originPaddingTo at isUnit
  dsimp only at isUnit
  split at isUnit
  · obtain rfl := Option.some.inj isUnit
    refine Nat.mul_pos ?_ contextPos
    split
    · exact tensorPos
    · exact Nat.one_pos
  · split at isUnit
    · obtain rfl := Option.some.inj isUnit
      exact tensorPos
    · cases isUnit

theorem getPaddingTo_pos : ∀ unit ∈ settings.getPaddingTo, 0 < unit := by
  have originPos : 0 < settings.originPaddingTo.getD 1 := by
    cases isOrigin : settings.originPaddingTo with
    | none => exact Nat.one_pos
    | some unit => exact settings.originPaddingTo_pos unit isOrigin
  have fp8Pos : ∀ unit ∈ settings.fp8PaddingTo, 0 < unit := by
    intro unit isUnit
    unfold fp8PaddingTo at isUnit
    split at isUnit
    · obtain rfl := Option.some.inj isUnit
      omega
    · split at isUnit
      · obtain rfl := Option.some.inj isUnit
        omega
      · exact settings.originPaddingTo_pos unit isUnit
  intro unit isUnit
  unfold getPaddingTo at isUnit
  split at isUnit
  · obtain rfl := Option.some.inj isUnit
    omega
  · exact fp8Pos unit isUnit

def tokenRows (samples : List Encoded) : List (List ℤ) :=
  rowsOf settings.paddingFree (samples.map fun sample => (settings.handled sample).inputIds)

theorem length_tokenRows (samples : List Encoded) :
    (settings.tokenRows samples).map List.length = settings.rowLengths samples := by
  have lengths : (samples.map fun sample => (settings.handled sample).inputIds).map List.length =
      samples.map fun sample => settings.getMegatronCpLength sample.inputIds.length := by
    rw [map_map]
    exact map_congr_left fun sample _ => length_inputIds_handled
  unfold tokenRows rowsOf rowLengths
  split
  · simp [length_flatten, lengths]
  · exact lengths

def paddingLength (samples : List Encoded) : Option ℕ :=
  settings.getPaddingTo.map fun unit => roundUp unit ((settings.rowLengths samples).foldr max 0)

def padColumn {α : Type} (samples : List Encoded) (padValue : α) (rows : List (List α)) :
    List (List α) :=
  padRows settings.paddingRight (settings.paddingLength samples)
    ((settings.rowLengths samples).headD 0) padValue rows

def collatedWith (samples : List Encoded) (positionIds : List (List ℤ)) : Collated where
  inputIds := settings.padColumn samples settings.padTokenId (settings.tokenRows samples)
  labels := (columnOf settings.paddingFree
    (samples.map fun sample => (settings.handled sample).labels)).map
      (settings.padColumn samples (-100))
  lossScale := (columnOf settings.paddingFree
    (samples.map fun sample => (settings.handled sample).lossScale)).map
      (settings.padColumn samples 0)
  positionIds := positionIds

/-- What the collator gives, the positions apart. -/
theorem dataCollator_eq {samples : List Encoded} (someSample : samples ≠ [])
    (labelled : ∀ sample ∈ samples,
      settings.contextParallelSize = 1 ∨ sample.labels.isSome) :
    settings.dataCollator settings.getPaddingTo samples =
      (if settings.paddingFree = true ∧ 1 < settings.contextParallelSize then
          settings.extendPositionIds (settings.paddingLength samples)
            ((settings.rowLengths samples).headD 0)
            (settings.positionRows (samples.map settings.handled) (settings.rowLengths samples))
        else
          some (settings.padColumn samples 0
            (settings.positionRows (samples.map settings.handled)
              (settings.rowLengths samples)))).map (settings.collatedWith samples) := by
  have all : samples.mapM settings.handleMegatronCp = some (samples.map settings.handled) :=
    mapM_eq_some fun sample isSample =>
      settings.handleMegatronCp_eq (labelled sample isSample)
  have tokens : columnOf settings.paddingFree
      ((samples.map settings.handled).map fun sample => some sample.inputIds) =
        some (settings.tokenRows samples) := by
    have someRow : (samples.map fun sample => (settings.handled sample).inputIds) ≠ [] := by
      simpa using someSample
    simpa [Function.comp_def, tokenRows] using columnOf_some settings.paddingFree someRow
  rw [dataCollator, all]
  simp only [Option.bind_eq_bind, Option.bind_some, tokens, length_tokenRows]
  simp only [map_map]
  split
  · exact Option.map_eq_bind.symm
  · rfl

theorem le_totalLength (samples : List Encoded) :
    ∀ length ∈ settings.rowLengths samples, length ≤ settings.totalLength samples := by
  intro length isLength
  have row : (settings.tokenRows samples).map List.length = settings.rowLengths samples :=
    settings.length_tokenRows samples
  obtain ⟨tokens, isRow, rfl⟩ := mem_map.mp (row ▸ isLength)
  exact (padRows_lengths settings.paddingRight settings.getPaddingTo_pos settings.padTokenId row).2
    tokens isRow

/-- A column with a value for each token has rows of the same lengths. -/
theorem length_handled_column {α : Type} {samples : List Encoded}
    {key : Encoded → Option (List α)}
    (all : ∀ sample ∈ samples, (key (settings.handled sample)).isSome)
    (perToken : ∀ sample ∈ samples, ∀ values ∈ key (settings.handled sample),
      values.length = (settings.handled sample).inputIds.length) :
    (rowsOf settings.paddingFree
      (samples.map fun sample => (key (settings.handled sample)).getD [])).map List.length =
        settings.rowLengths samples := by
  refine Eq.trans (length_rowsOf_congr settings.paddingFree ?_) (settings.length_tokenRows samples)
  rw [map_map, map_map]
  refine map_congr_left fun sample isSample => ?_
  obtain ⟨values, isValues⟩ := Option.isSome_iff_exists.mp (all sample isSample)
  simp [isValues, perToken sample isSample values isValues]

/-- The rows of a column that is padded have the length of all rows. -/
theorem isTensor_padded_column {α : Type} {samples : List Encoded} (someSample : samples ≠ [])
    {key : Encoded → Option (List α)}
    (same : ∀ first ∈ samples, ∀ second ∈ samples,
      (key (settings.handled first)).isSome = (key (settings.handled second)).isSome)
    (perToken : ∀ sample ∈ samples, ∀ values ∈ key (settings.handled sample),
      values.length = (settings.handled sample).inputIds.length) (padValue : α) :
    ∀ rows ∈ (columnOf settings.paddingFree
        (samples.map fun sample => key (settings.handled sample))).map
          (settings.padColumn samples padValue),
      IsTensor (settings.rowLengths samples).length (settings.totalLength samples) rows := by
  intro padded isPadded
  obtain ⟨rows, isColumn, rfl⟩ := Option.map_eq_some_iff.mp isPadded
  have all := isSome_of_columnOf same isColumn
  have column := columnOf_of_isSome settings.paddingFree someSample all
  obtain rfl := Option.some.inj (column.symm.trans isColumn)
  exact isTensor_padRows settings.paddingRight settings.getPaddingTo_pos padValue
    (settings.length_handled_column all perToken)

theorem addsIgnored_rows {samples : List Encoded}
    (wellFormed : ∀ sample ∈ samples, sample.WellFormed)
    (labelled : ∀ sample ∈ samples, sample.labels.isSome) :
    List.Forall₂ (fun original row => AddsIgnored original.1 original.2 row.1 row.2)
      (originalRows settings.paddingFree samples)
      ((settings.tokenRows samples).zip (rowsOf settings.paddingFree
        (samples.map fun sample => (settings.handled sample).labels.getD []))) := by
  have each : List.Forall₂ (fun original row => AddsIgnored original.1 original.2 row.1 row.2)
      (samples.map fun sample => (sample.inputIds, sample.labels.getD []))
      (samples.map fun sample =>
        ((settings.handled sample).inputIds, (settings.handled sample).labels.getD [])) := by
    rw [forall₂_map_left_iff, forall₂_map_right_iff, forall₂_same]
    exact fun sample isSample =>
      addsIgnored_handled (wellFormed sample isSample) (labelled sample isSample)
  unfold originalRows tokenRows rowsOf
  split
  · have whole := AddsIgnored.flatten each
    simp only [flatMap_map] at whole
    refine .cons ?_ .nil
    simpa [flatMap_def] using whole
  · rw [zip_map']
    exact each

theorem addsIgnored_padColumn {samples : List Encoded} {originals : List (List ℤ × List ℤ)}
    {rows labels : List (List ℤ)} (sameRows : rows.map List.length = settings.rowLengths samples)
    (sameLabels : labels.map List.length = settings.rowLengths samples)
    (each : List.Forall₂ (fun original row => AddsIgnored original.1 original.2 row.1 row.2)
      originals (rows.zip labels)) :
    List.Forall₂ (fun original row => AddsIgnored original.1 original.2 row.1 row.2) originals
      ((settings.padColumn samples settings.padTokenId rows).zip
        (settings.padColumn samples (-100) labels)) := by
  have isRows := (padRows_lengths settings.paddingRight settings.getPaddingTo_pos
    settings.padTokenId sameRows).1
  have isLabels := (padRows_lengths settings.paddingRight settings.getPaddingTo_pos
    (-100) sameLabels).1
  rw [padColumn, padColumn, paddingLength, isRows, isLabels, zip_map, forall₂_map_right_iff]
  refine each.imp fun original row adds => ?_
  dsimp only [Prod.map]
  rw [adds.length_eq]
  exact adds.padSide settings.paddingRight _ settings.padTokenId

end CollatorSettings

/-! ## Even splits -/

variable {group : CpGroup}

theorem splits_rows {α : Type} {rows : List (List α)} {total : ℕ} (someRow : rows ≠ [])
    (same : ∀ row ∈ rows, row.length = total) (divides : 2 * group.cpSize ∣ total) :
    Splits group none rows := by
  intro tensor isRows cpRank inside
  have isSome : tensor.rows ≠ [] := isRows ▸ someRow
  obtain ⟨row, isRow⟩ := exists_mem_of_ne_nil tensor.rows isSome
  have isWidth : tensor.width = total :=
    (tensor.same row isRow).symm.trans (same row (isRows ▸ isRow))
  exact ⟨_, splitCpInputs_unpacked isSome (isWidth ▸ divides) inside⟩

/-- Rows of another length are not. -/
theorem not_splits_rows {α : Type} {rows : List (List α)} {total : ℕ}
    (same : ∀ row ∈ rows, row.length = total) (uneven : ¬ 2 * group.cpSize ∣ total) :
    ¬ Splits group none rows := by
  intro splits
  obtain ⟨part, isPart⟩ := splits ⟨rows, total, same⟩ rfl 0 group.pos
  have raises : splitSegment group 0 total rows = .error .runtimeError := if_pos (.inr uneven)
  rw [splitCpInputs, segmentsOf, mapM_cons, raises] at isPart
  cases isPart

theorem exists_segments {α : Type} (lengths : List ℕ) {row : List α}
    (whole : row.length = lengths.sum) :
    ∃ segments : List (List α), segments.flatten = row ∧ segments.map List.length = lengths := by
  induction lengths generalizing row with
  | nil =>
    have isNil : row = [] := length_eq_zero_iff.mp whole
    exact ⟨[], isNil.symm, rfl⟩
  | cons length lengths ih =>
    rw [sum_cons] at whole
    have left : (row.drop length).length = lengths.sum := by
      rw [length_drop, whole, Nat.add_sub_cancel_left]
    obtain ⟨segments, isRest, rest⟩ := ih left
    refine ⟨row.take length :: segments, ?_, ?_⟩
    · rw [flatten_cons, isRest, take_append_drop]
    · rw [map_cons, rest, length_take, whole, Nat.min_eq_left (Nat.le_add_right _ _)]

/-- A packed row is split where the chunks divide every sequence of its positions. -/
theorem splits_packed {α : Type} {sequences : List (List ℤ)}
    (each : ∀ positions ∈ sequences, IsSequence positions) (someSequence : sequences ≠ [])
    (divides : ∀ positions ∈ sequences, 2 * group.cpSize ∣ positions.length) {row : List α}
    (whole : row.length = sequences.flatten.length) :
    Splits group (cuSeqlensOf true [sequences.flatten]) [row] := by
  rintro ⟨rows, width, same⟩ rfl cpRank inside
  obtain ⟨segments, rfl, lengths⟩ := exists_segments (sequences.map List.length)
    (whole.trans length_flatten)
  have dividesSegments : ∀ segment ∈ segments, 2 * group.cpSize ∣ segment.length := by
    intro segment isSegment
    have isLength : segment.length ∈ sequences.map List.length :=
      lengths ▸ mem_map_of_mem isSegment
    obtain ⟨positions, isPositions, isSame⟩ := mem_map.mp isLength
    exact isSame ▸ divides positions isPositions
  have someSegment : segments ≠ [] := by
    rintro rfl
    exact someSequence (map_eq_nil_iff.mp lengths.symm)
  have sameTensor : (⟨[segments.flatten], width, same⟩ : CpTensor α) =
      (CpBatch.packed segments dividesSegments).tensor := by
    have isWidth : width = (segments.map List.length).sum :=
      (same _ (mem_singleton_self _)).symm.trans length_flatten
    subst isWidth
    rfl
  have sameCu : cuSeqlensOf true [sequences.flatten] =
      (CpBatch.packed segments dividesSegments).cuSeqlens := by
    have starts := sequenceStarts_flatten 0 each
    simp only [Nat.zero_add, map_id'] at starts
    have count : (sequences.map List.length).length = segments.length := by
      rw [← lengths, length_map]
    rw [cuSeqlensOf, if_pos rfl, CpBatch.cuSeqlens, flatten_singleton, starts, places, count,
      lengths]
  rw [sameTensor, sameCu]
  exact ⟨_, splitCpInputs_packed someSegment dividesSegments inside⟩

/-! ## The positions of a batch -/

namespace CollatorSettings

variable {settings : CollatorSettings}

def packedLength (settings : CollatorSettings) (samples : List Encoded) : ℕ :=
  (samples.map fun sample => settings.getMegatronCpLength sample.inputIds.length).sum

/-- The sequences of the positions of a packed row: those of its samples, and those of as much of
the padding as they divide. -/
def positionSequences (settings : CollatorSettings) (samples : List Encoded) : List (List ℤ) :=
  let chunks := settings.contextParallelSize * 2
  (samples.map fun sample =>
      positionsOf (settings.getMegatronCpLength sample.inputIds.length)) ++
    List.replicate ((settings.totalLength samples - settings.packedLength samples) / chunks)
      (positionsOf chunks)

section Sequences

variable {samples : List Encoded}

theorem isSequence_positionSequences (wellFormed : ∀ sample ∈ samples, sample.WellFormed) :
    ∀ positions ∈ settings.positionSequences samples, IsSequence positions := by
  intro positions isPositions
  rcases mem_append.mp isPositions with ofSample | isPadding
  · obtain ⟨sample, isSample, rfl⟩ := mem_map.mp ofSample
    have someToken : 0 < sample.inputIds.length :=
      length_pos_iff.mpr (wellFormed sample isSample).someToken
    exact isSequence_positionsOf (someToken.trans_le (settings.le_getMegatronCpLength _))
  · rw [eq_of_mem_replicate isPadding]
    exact isSequence_positionsOf (Nat.mul_pos settings.context_pos Nat.two_pos)

theorem dvd_positionSequences (several : settings.contextParallelSize ≠ 1)
    (samples : List Encoded) : ∀ positions ∈ settings.positionSequences samples,
      2 * settings.contextParallelSize ∣ positions.length := by
  intro positions isPositions
  rcases mem_append.mp isPositions with ofSample | isPadding
  · obtain ⟨sample, -, rfl⟩ := mem_map.mp ofSample
    rw [length_positionsOf]
    exact settings.dvd_getMegatronCpLength several _
  · rw [eq_of_mem_replicate isPadding, length_positionsOf, Nat.mul_comm]

theorem dvd_packedLength (several : settings.contextParallelSize ≠ 1) (samples : List Encoded) :
    2 * settings.contextParallelSize ∣ settings.packedLength samples := by
  refine dvd_sum fun length isLength => ?_
  obtain ⟨sample, -, rfl⟩ := mem_map.mp isLength
  exact settings.dvd_getMegatronCpLength several _

theorem length_positionSequences (samples : List Encoded) :
    (settings.positionSequences samples).flatten.length =
      settings.packedLength samples +
        (settings.totalLength samples - settings.packedLength samples) /
          (2 * settings.contextParallelSize) * (2 * settings.contextParallelSize) := by
  rw [Nat.mul_comm 2]
  simp [positionSequences, packedLength, length_flatten, Function.comp_def]

theorem rowLengths_of_paddingFree (isPacked : settings.paddingFree = true) :
    settings.rowLengths samples = [settings.packedLength samples] :=
  if_pos isPacked

theorem packedLength_le_totalLength (isPacked : settings.paddingFree = true) :
    settings.packedLength samples ≤ settings.totalLength samples := by
  refine settings.le_totalLength samples _ ?_
  rw [rowLengths_of_paddingFree isPacked]
  exact mem_singleton_self _

/-- The positions are as long as the packed row exactly when the chunks divide it. -/
theorem length_positionSequences_eq_iff (several : settings.contextParallelSize ≠ 1)
    (isPacked : settings.paddingFree = true) :
    (settings.positionSequences samples).flatten.length = settings.totalLength samples ↔
      2 * settings.contextParallelSize ∣ settings.totalLength samples := by
  have dividesPacked := dvd_packedLength several samples
  have below : settings.packedLength samples ≤ settings.totalLength samples :=
    packedLength_le_totalLength isPacked
  rw [length_positionSequences]
  constructor
  · intro whole
    rw [← whole]
    exact Nat.dvd_add dividesPacked (Dvd.intro_left _ rfl)
  · intro divides
    rw [Nat.div_mul_cancel (Nat.dvd_sub divides dividesPacked), Nat.add_sub_cancel' below]

end Sequences

theorem length_positionRows {samples : List Encoded}
    (wellFormed : ∀ sample ∈ samples, sample.WellFormed) :
    (settings.positionRows (samples.map settings.handled) (settings.rowLengths samples)).map
      List.length = settings.rowLengths samples := by
  have handledLength : ∀ sample ∈ samples, (settings.handled sample).length =
      settings.getMegatronCpLength sample.inputIds.length := fun sample isSample =>
    (wellFormed_handled (wellFormed sample isSample)).length.trans length_inputIds_handled
  have rows : (settings.tokenRows samples).map List.length = settings.rowLengths samples :=
    settings.length_tokenRows samples
  unfold positionRows
  split
  · rename_i isPacked
    have lengths : samples.map (Encoded.length ∘ settings.handled) =
        samples.map fun sample => settings.getMegatronCpLength sample.inputIds.length :=
      map_congr_left handledLength
    rw [map_singleton, length_packedPositionIds, map_map, rowLengths, if_pos isPacked, lengths]
  · rename_i notPacked
    split
    · rw [map_map]
      simp [Function.comp_def]
    · rw [← rows, tokenRows, rowsOf, if_neg notPacked, map_map, map_map, map_map]
      refine map_congr_left fun sample isSample => ?_
      have perToken : ∀ labels ∈ (settings.handled sample).labels,
          labels.length = (settings.handled sample).inputIds.length :=
        (wellFormed_handled (wellFormed sample isSample)).labels
      cases isLabels : (settings.handled sample).labels with
      | none => simp [isLabels]
      | some labels => simp [isLabels, perToken labels isLabels]

/-! ## Batches as they should be collated -/

variable {samples : List Encoded}

theorem dvd_totalLength : ∀ unit ∈ settings.getPaddingTo, unit ∣ settings.totalLength samples := by
  intro unit isUnit
  have isSome : settings.getPaddingTo = some unit := isUnit
  rw [totalLength, isSome]
  exact dvd_roundUp unit _

/-- What is left to show once the positions of a batch are known. -/
theorem collatedWell (someSample : samples ≠ [])
    (wellFormed : ∀ sample ∈ samples, sample.WellFormed)
    (sameLabels : ∀ first ∈ samples, ∀ second ∈ samples,
      first.labels.isSome = second.labels.isSome)
    (sameLossScale : ∀ first ∈ samples, ∀ second ∈ samples,
      first.lossScale.isSome = second.lossScale.isSome)
    {positionIds : List (List ℤ)}
    (isTensor : IsTensor (settings.rowLengths samples).length (settings.totalLength samples)
      positionIds)
    (segments : settings.paddingFree = true → 1 < settings.contextParallelSize →
      ∀ length ∈ sequenceLengths positionIds.flatten, 2 * settings.contextParallelSize ∣ length)
    (evenly : 1 < settings.contextParallelSize → ∀ (α : Type) (rows : List (List α)),
      IsTensor (settings.rowLengths samples).length (settings.totalLength samples) rows →
        Splits settings.group (cuSeqlensOf settings.paddingFree positionIds) rows) :
    CollatedWell settings samples (settings.collatedWith samples positionIds)
      (settings.totalLength samples) := by
  have tokens : IsTensor (settings.rowLengths samples).length (settings.totalLength samples)
      (settings.collatedWith samples positionIds).inputIds :=
    isTensor_padRows settings.paddingRight settings.getPaddingTo_pos settings.padTokenId
      (settings.length_tokenRows samples)
  have perLabel : ∀ sample ∈ samples, ∀ labels ∈ (settings.handled sample).labels,
      labels.length = (settings.handled sample).inputIds.length :=
    fun sample isSample => (wellFormed_handled (wellFormed sample isSample)).labels
  have labels := settings.isTensor_padded_column someSample
    (by simpa using sameLabels) perLabel (-100)
  have lossScale := settings.isTensor_padded_column someSample
    (by simpa using sameLossScale)
    (fun sample isSample => (wellFormed_handled (wellFormed sample isSample)).lossScale) 0
  exact
    { inputIds := tokens.total
      labels := fun rows isRows => (labels rows isRows).total
      lossScale := fun rows isRows => (lossScale rows isRows).total
      positionIds := isTensor.total
      hasLabels := fun all => by
        have allHandled : ∀ sample ∈ samples, (settings.handled sample).labels.isSome := by
          simpa using all
        rw [collatedWith, columnOf_of_isSome settings.paddingFree someSample allHandled]
        rfl
      hasLossScale := fun all => by
        have allHandled : ∀ sample ∈ samples, (settings.handled sample).lossScale.isSome := by
          simpa using all
        rw [collatedWith, columnOf_of_isSome settings.paddingFree someSample allHandled]
        rfl
      divides := dvd_totalLength
      segments := segments
      ignored := fun padLabels isPadded => by
        obtain ⟨rows, isColumn, rfl⟩ := Option.map_eq_some_iff.mp isPadded
        have all : ∀ sample ∈ samples, (settings.handled sample).labels.isSome :=
          isSome_of_columnOf (by simpa using sameLabels) isColumn
        have column := columnOf_of_isSome settings.paddingFree someSample all
        obtain rfl := Option.some.inj (column.symm.trans isColumn)
        exact settings.addsIgnored_padColumn (settings.length_tokenRows samples)
          (settings.length_handled_column all perLabel)
          (settings.addsIgnored_rows wellFormed (by simpa using all))
      splits := fun several =>
        ⟨evenly several _ _ tokens, fun rows isRows => evenly several _ _ (labels rows isRows),
          fun rows isRows => evenly several _ _ (lossScale rows isRows),
          evenly several _ _ isTensor⟩ }

/-- With context parallelism there is a length to pad to. -/
theorem exists_getPaddingTo (several : 1 < settings.contextParallelSize) :
    ∃ unit, settings.getPaddingTo = some unit := by
  have isOrigin : settings.originPaddingTo.isSome := by
    rw [originPaddingTo]
    simp [several]
  have isFp8 : settings.fp8PaddingTo.isSome := by
    unfold fp8PaddingTo
    split
    · rfl
    · split
      · rfl
      · exact isOrigin
  refine Option.isSome_iff_exists.mp ?_
  unfold getPaddingTo
  split
  · rfl
  · exact isFp8

theorem rowLengths_ne_nil (someSample : samples ≠ []) : settings.rowLengths samples ≠ [] := by
  unfold rowLengths
  dsimp only
  split
  · exact cons_ne_nil _ _
  · simpa using someSample

/-- The positions of a packed row with those of the padding. -/
theorem extendPositionIds_eq (wellFormed : ∀ sample ∈ samples, sample.WellFormed)
    (isPacked : settings.paddingFree = true) (several : 1 < settings.contextParallelSize) :
    settings.extendPositionIds (settings.paddingLength samples)
        ((settings.rowLengths samples).headD 0)
        (settings.positionRows (samples.map settings.handled) (settings.rowLengths samples)) =
      some [(settings.positionSequences samples).flatten] := by
  obtain ⟨unit, isUnit⟩ := exists_getPaddingTo several
  have lengths : (samples.map settings.handled).map Encoded.length =
      samples.map fun sample => settings.getMegatronCpLength sample.inputIds.length := by
    rw [map_map]
    exact map_congr_left fun sample isSample =>
      (wellFormed_handled (wellFormed sample isSample)).length.trans length_inputIds_handled
  have isLength : settings.paddingLength samples = some (settings.totalLength samples) := by
    rw [paddingLength, totalLength, isUnit]
    rfl
  rw [isLength, extendPositionIds, positionRows, if_pos isPacked, lengths,
    rowLengths_of_paddingFree isPacked]
  simp [positionSequences, packedPositionIds, flatMap_def, Function.comp_def]

theorem megatronCollates_of_fits (settings : CollatorSettings) (batch : EncodedSamples)
    (fits : settings.Fits batch.samples) : MegatronCollates settings batch := by
  have labelled : ∀ sample ∈ batch.samples,
      settings.contextParallelSize = 1 ∨ sample.labels.isSome :=
    fun sample isSample => fits.imp id fun many => many.1 sample isSample
  have collated := settings.dataCollator_eq batch.someSample labelled
  by_cases isExtended : settings.paddingFree = true ∧ 1 < settings.contextParallelSize
  · obtain ⟨isPacked, several⟩ := isExtended
    have notOne : settings.contextParallelSize ≠ 1 := Nat.ne_of_gt several
    have whole : (settings.positionSequences batch.samples).flatten.length =
        settings.totalLength batch.samples :=
      (length_positionSequences_eq_iff notOne isPacked).mpr (fits.resolve_left notOne).2
    have each : ∀ positions ∈ settings.positionSequences batch.samples, IsSequence positions :=
      isSequence_positionSequences batch.wellFormed
    have divides := dvd_positionSequences notOne batch.samples
    have someSequence : settings.positionSequences batch.samples ≠ [] := by
      simp [positionSequences, batch.someSample]
    have oneRow : (settings.rowLengths batch.samples).length = 1 := by
      rw [rowLengths_of_paddingFree isPacked, length_singleton]
    rw [if_pos ⟨isPacked, several⟩, extendPositionIds_eq batch.wellFormed isPacked several]
      at collated
    refine ⟨_, _, collated, collatedWell batch.someSample batch.wellFormed batch.sameLabels
      batch.sameLossScale ⟨oneRow.symm, by simpa using whole⟩ ?_ ?_⟩
    · intro _ _ length isLength
      rw [flatten_singleton, sequenceLengths_flatten each] at isLength
      obtain ⟨positions, isPositions, rfl⟩ := mem_map.mp isLength
      exact divides positions isPositions
    · intro _ α rows isTensor
      obtain ⟨row, rfl⟩ := length_eq_one_iff.mp (isTensor.count.trans oneRow)
      rw [isPacked]
      exact splits_packed each someSequence divides
        ((isTensor.total row (mem_singleton_self _)).trans whole.symm)
  · rw [if_neg isExtended] at collated
    have positions : IsTensor (settings.rowLengths batch.samples).length
        (settings.totalLength batch.samples) (settings.padColumn batch.samples 0
          (settings.positionRows (batch.samples.map settings.handled)
            (settings.rowLengths batch.samples))) :=
      isTensor_padRows settings.paddingRight settings.getPaddingTo_pos 0
        (length_positionRows batch.wellFormed)
    refine ⟨_, _, collated, collatedWell batch.someSample batch.wellFormed batch.sameLabels
      batch.sameLossScale positions ?_ ?_⟩
    · exact fun isPacked several => absurd ⟨isPacked, several⟩ isExtended
    · intro several α rows isTensor
      have notPacked : settings.paddingFree = false :=
        Bool.eq_false_iff.mpr fun isPacked => isExtended ⟨isPacked, several⟩
      have divides := (fits.resolve_left (Nat.ne_of_gt several)).2
      have someRow : rows ≠ [] := by
        rintro rfl
        exact rowLengths_ne_nil batch.someSample (length_eq_zero_iff.mp isTensor.count.symm)
      rw [cuSeqlensOf, notPacked, if_neg Bool.false_ne_true]
      exact splits_rows someRow isTensor.total divides

theorem fits_of_megatronCollates (settings : CollatorSettings) (batch : EncodedSamples)
    (collates : MegatronCollates settings batch) : settings.Fits batch.samples := by
  obtain ⟨collated, total, isCollated, well⟩ := collates
  by_cases notOne : settings.contextParallelSize = 1
  · exact .inl notOne
  have several : 1 < settings.contextParallelSize :=
    Nat.lt_of_le_of_ne settings.context_pos (Ne.symm notOne)
  have labelled : ∀ sample ∈ batch.samples, sample.labels.isSome := by
    intro sample isSample
    by_contra notLabelled
    have raises := settings.handleMegatronCp_eq_none notOne
      (Option.not_isSome_iff_eq_none.mp notLabelled)
    rw [dataCollator, mapM_eq_none isSample raises] at isCollated
    cases isCollated
  refine .inr ⟨labelled, ?_⟩
  rw [settings.dataCollator_eq batch.someSample fun sample isSample =>
    .inr (labelled sample isSample)] at isCollated
  obtain ⟨positionIds, isPositions, rfl⟩ := Option.map_eq_some_iff.mp isCollated
  have tokens : IsTensor (settings.rowLengths batch.samples).length
      (settings.totalLength batch.samples)
      (settings.collatedWith batch.samples positionIds).inputIds :=
    isTensor_padRows settings.paddingRight settings.getPaddingTo_pos settings.padTokenId
      (settings.length_tokenRows batch.samples)
  have sameTotal : total = settings.totalLength batch.samples := by
    have someRow : (settings.collatedWith batch.samples positionIds).inputIds ≠ [] := by
      intro none
      have count := tokens.count
      rw [none] at count
      exact rowLengths_ne_nil batch.someSample (length_eq_zero_iff.mp count.symm)
    obtain ⟨row, isRow⟩ := exists_mem_of_ne_nil _ someRow
    exact (well.inputIds row isRow).symm.trans (tokens.total row isRow)
  subst sameTotal
  by_cases isPacked : settings.paddingFree = true
  · rw [if_pos ⟨isPacked, several⟩, extendPositionIds_eq batch.wellFormed isPacked several]
      at isPositions
    obtain rfl := Option.some.inj isPositions
    exact (length_positionSequences_eq_iff notOne isPacked).mp
      (well.positionIds _ (mem_singleton_self _))
  · by_contra uneven
    have isFalse : settings.paddingFree = false := Bool.eq_false_iff.mpr isPacked
    have splits := (well.splits several).1
    rw [cuSeqlensOf, isFalse, if_neg Bool.false_ne_true] at splits
    exact not_splits_rows tokens.total uneven splits

end CollatorSettings

/-- **Exactly when a batch is collated as it should be.** -/
theorem megatronCollates_iff (settings : CollatorSettings) (batch : EncodedSamples) :
    MegatronCollates settings batch ↔ settings.Fits batch.samples :=
  ⟨settings.fits_of_megatronCollates batch, settings.megatronCollates_of_fits batch⟩

theorem threeByTwo_pos : 0 < 3 := by decide

/-- Tensor parallelism of three with two context-parallel ranks. -/
def threeByTwo : CollatorSettings where
  tensorModelParallelSize := 3
  contextParallelSize := 2
  sequenceParallel := true
  fp8Format := none
  fp8Recipe := .delayed
  attentionIsFused := false
  paddingFree := true
  isTraining := true
  paddingSideRight := true
  padTokenId := 0
  tensor_pos := threeByTwo_pos
  context_pos := Nat.two_pos

def fourTokens : EncodedSamples where
  samples := [⟨[1, 2, 3, 4], some [-100, 2, 3, 4], none, 4⟩]
  someSample := cons_ne_nil _ _
  wellFormed := by
    rintro sample (_ | ⟨_, ⟨⟩⟩)
    exact ⟨by decide, by decide, by decide, rfl⟩
  sameLabels := by decide
  sameLossScale := by decide

/-- The row is padded to six tokens, which are not divided into four chunks. -/
theorem not_megatronCollates_fourTokens : ¬ MegatronCollates threeByTwo fourTokens := by
  intro collates
  rcases threeByTwo.fits_of_megatronCollates fourTokens collates with isOne | ⟨-, divides⟩
  · exact absurd isOne (by decide)
  · exact absurd divides (by decide)

end Geobench.Trainers
