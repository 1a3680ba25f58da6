import Geobench.Trainers.KeptWindow
import Geobench.Trainers.PackedRow
import Mathlib.Algebra.BigOperators.Ring.Finset
import Mathlib.Algebra.Order.BigOperators.Group.List
import Mathlib.Algebra.Order.Ring.Nat

/-!
# Batches without padding

The samples of a batch are packed into one row, of which a window at the end is kept, from
the first supervised token on. The trainer takes what is before the window from the length
of the first sample, and puts the window back into rows, one for each sample
(`padLogpsBackToBatch_flatten`). **`masks_supervised_iff`** says when the rows mark the
supervised tokens.
-/

namespace Geobench.Trainers

open Library List

/-! ## The trainer -/

/-- The exceptions that preparing a batch raises. -/
inductive PrepareError where
  | indexError
  | runtimeError
  | typeError
  deriving DecidableEq, Repr

/-- A batch of samples that an encoder has given tokens to. -/
structure PackedBatch where
  samples : List EncodedRow
  some_sample : samples ≠ []
  some_token : ∀ sample ∈ samples, sample ≠ []

def PackedBatch.packed (batch : PackedBatch) : EncodedRow := batch.samples.flatten

/-- The lengths of the samples in the window: what is before it is taken from the first. -/
def keptLengths (lengths : List ℕ) (logitsToKeep : ℕ) : Except PrepareError (List ℤ) :=
  match lengths with
  | [] => .error .indexError
  | first :: rest =>
    .ok ((first - ((lengths.sum : ℤ) - logitsToKeep)) :: rest.map Int.ofNat)

section Rows

variable {α : Type}

/-- Values assigned to the entries of a row from a place on, one value to all of them. -/
def assignFrom (row : List α) (start : ℤ) (values : List α) : Except PrepareError (List α) :=
  let before := row.take (signedIndex row.length start)
  let slots := row.length - before.length
  if values.length = slots then .ok (before ++ values)
  else match values with
    | [value] => .ok (before ++ List.replicate slots value)
    | _ => .error .runtimeError

/-- The sums of the lengths up to every sequence. -/
def cumulative (lengths : List ℤ) : List ℤ :=
  (List.range (lengths.length + 1)).map fun index => (lengths.take index).sum

/-- The row of a sequence: its entries on the right, and where these are. -/
def padRowBack (logpsFlat : List α) (maxSeqLen : ℕ) (startIdx endIdx seqLen : ℤ) (padValue : α) :
    Except PrepareError (List α × List Bool) :=
  let logpsPadded := List.replicate maxSeqLen padValue
  let validMask := List.replicate maxSeqLen false
  let actualEndIdx := min endIdx logpsFlat.length
  let actualLen := actualEndIdx - startIdx
  if actualLen ≤ 0 then .ok (logpsPadded, validMask)
  else if actualLen < seqLen then do
    let row ← assignFrom logpsPadded (maxSeqLen - actualLen)
      (signedSlice logpsFlat startIdx actualEndIdx)
    let mask ← assignFrom validMask (maxSeqLen - actualLen) [true]
    .ok (row, mask)
  else do
    let row ← assignFrom logpsPadded (maxSeqLen - seqLen) (signedSlice logpsFlat startIdx endIdx)
    let mask ← assignFrom validMask (maxSeqLen - seqLen) [true]
    .ok (row, mask)

/-- The rows of a batch from what is packed. -/
def padLogpsBackToBatch (logpsRmpad : List α) (logitsToKeep batchSize : ℕ) (seqLengths : List ℤ)
    (padValue : α) : Except PrepareError (List (List α × List Bool)) :=
  let cuSeqlens := cumulative seqLengths
  (List.range batchSize).mapM fun index =>
    match cuSeqlens[index]?, cuSeqlens[index + 1]?, seqLengths[index]? with
    | some startIdx, some endIdx, some seqLen =>
      padRowBack logpsRmpad logitsToKeep startIdx endIdx seqLen padValue
    | _, _, _ => .error .indexError

end Rows

/-- What the trainer keeps of a batch. -/
structure PreparedBatch where
  logitsToKeep : ℕ
  seqLengths : List ℤ
  completionMask : List (List Bool)
  deriving DecidableEq

/-- The lengths of the samples and the mask of their completions. A row of one token has no
positions left to count. -/
def prepareBatchInputs (batch : PackedBatch) : Except PrepareError PreparedBatch := do
  let labels := batch.packed.map LabelledToken.supervised
  let keep := logitsToKeep [batch.packed]
  let completionMaskRaw := labels.drop (labels.length - keep)
  let positionIds := packedPositionIds (batch.samples.map List.length)
  if positionIds.length = 1 then .error .typeError
  else
    let lengths ← keptLengths (sequenceLengths positionIds) keep
    let rows ← padLogpsBackToBatch completionMaskRaw keep batch.samples.length lengths false
    .ok { logitsToKeep := keep, seqLengths := lengths, completionMask := rows.map Prod.fst }

/-! ## Rows of a window -/

section Windows

variable {α : Type}

def alignRight (width : ℕ) (padValue : α) (entries : List α) : List α :=
  List.replicate (width - entries.length) padValue ++ entries

variable {width count : ℕ}

/-- The place that leaves a number of entries at the end of a row. -/
theorem signedIndex_sub (fits : count ≤ width) :
    signedIndex width ((width : ℤ) - count) = width - count := by
  have natural : (width : ℤ) - count = ((width - count : ℕ) : ℤ) := by omega
  rw [natural]
  exact signedIndex_natCast (Nat.sub_le _ _)

/-- What is left before that many entries. -/
theorem take_signedIndex_sub (padValue : α) (fits : count ≤ width) :
    (replicate width padValue).take
        (signedIndex (replicate width padValue).length ((width : ℤ) - count)) =
      replicate (width - count) padValue := by
  rw [length_replicate, signedIndex_sub fits, take_replicate, Nat.min_eq_left (Nat.sub_le _ _)]

theorem assignFrom_replicate (padValue : α) {values : List α} (fits : values.length ≤ width) :
    assignFrom (replicate width padValue) ((width : ℤ) - values.length) values =
      .ok (alignRight width padValue values) := by
  unfold assignFrom
  rw [take_signedIndex_sub padValue fits]
  apply if_pos
  rw [length_replicate, length_replicate]
  omega

theorem assignFrom_one (padValue value : α) (fits : count ≤ width) :
    assignFrom (replicate width padValue) ((width : ℤ) - count) [value] =
      .ok (alignRight width padValue (replicate count value)) := by
  have slots : width - (width - count) = count := by omega
  unfold assignFrom
  rw [take_signedIndex_sub padValue fits]
  simp only [length_replicate, slots, alignRight]
  split
  next one =>
    obtain rfl : 1 = count := one
    rfl
  next => rfl

/-- A sequence in a window gives its row. -/
theorem padRowBack_eq_ok (rows : List (List α)) (padValue : α) {index : ℕ}
    (inside : index < rows.length) :
    padRowBack rows.flatten rows.flatten.length (offset (rows.map length) index : ℕ)
        (offset (rows.map length) (index + 1) : ℕ) rows[index].length padValue =
      .ok (alignRight rows.flatten.length padValue rows[index],
        alignRight rows.flatten.length false (replicate rows[index].length true)) := by
  have next : offset (rows.map length) (index + 1) =
      offset (rows.map length) index + rows[index].length := by
    rw [offset_succ _ (by rw [length_map]; exact inside), getElem_map]
  have covers : offset (rows.map length) (index + 1) ≤ rows.flatten.length := by
    rw [offset, length_flatten]
    exact (take_sublist _ _).sum_le_sum fun _ _ => Nat.zero_le _
  have fits : rows[index].length ≤ rows.flatten.length := by omega
  have end_eq : min ((offset (rows.map length) (index + 1) : ℕ) : ℤ) rows.flatten.length =
      (offset (rows.map length) (index + 1) : ℕ) := min_eq_left (Int.ofNat_le.mpr covers)
  unfold padRowBack
  simp only [end_eq]
  by_cases empty : rows[index].length = 0
  · rw [if_pos (by omega), eq_nil_of_length_eq_zero empty]
    simp [alignRight]
  · rw [if_neg (by omega), if_neg (by omega), next, signedSlice_natCast _ (by omega) (by omega),
      slice_offset rows inside, assignFrom_replicate padValue fits, assignFrom_one false true fits]
    rfl

theorem getElem?_cumulative (lengths : List ℤ) {index : ℕ} (inside : index ≤ lengths.length) :
    (cumulative lengths)[index]? = some (lengths.take index).sum := by
  rw [cumulative, getElem?_map, getElem?_range (Nat.lt_succ_of_le inside), Option.map_some]

/-- Rows that are put together to a window come back, aligned to the right. -/
theorem padLogpsBackToBatch_flatten (rows : List (List α)) (padValue : α) :
    padLogpsBackToBatch rows.flatten rows.flatten.length rows.length
        (rows.map fun row => (row.length : ℤ)) padValue =
      .ok (rows.map fun row => (alignRight rows.flatten.length padValue row,
        alignRight rows.flatten.length false (replicate row.length true))) := by
  have cumulated : ∀ place, place ≤ rows.length →
      (cumulative (rows.map fun row => (row.length : ℤ)))[place]? =
        some ((offset (rows.map length) place : ℕ) : ℤ) := by
    intro place upTo
    rw [getElem?_cumulative _ (by rw [length_map]; exact upTo), offset, Nat.cast_list_sum,
      map_take, map_map]
    rfl
  apply mapM_eq_ok_iff.mpr
  rw [forall₂_iff_get]
  refine ⟨by simp, ?_⟩
  intro index inRange inside
  rw [length_range] at inRange
  simp only [get_eq_getElem, getElem_range, getElem_map, cumulated index inRange.le,
    cumulated (index + 1) inRange, getElem?_map, getElem?_eq_getElem inRange, Option.map_some]
  exact padRowBack_eq_ok rows padValue inRange

end Windows

/-! ## The mask of a batch -/

/-- The tokens of a sample that are in the window. -/
def inWindow (batch : PackedBatch) (keep index : ℕ) : EncodedRow :=
  (batch.samples.getD index []).drop
    (batch.packed.length - keep - offset (batch.samples.map List.length) index)

/-- What the trainer relies on of the batch that it has prepared. -/
structure MasksSupervised (batch : PackedBatch) (prepared : PreparedBatch) : Prop where
  lengths_nonneg : ∀ length ∈ prepared.seqLengths, 0 ≤ length
  lengths_sum : prepared.seqLengths.sum = prepared.logitsToKeep
  rows : prepared.completionMask = (List.range batch.samples.length).map fun index =>
    alignRight prepared.logitsToKeep false
      ((inWindow batch prepared.logitsToKeep index).map LabelledToken.supervised)
  marked_once : ∀ index, (prepared.completionMask.getD index []).count true =
    (batch.samples.getD index []).countP LabelledToken.supervised

theorem logitsToKeep_singleton (row : EncodedRow) :
    logitsToKeep [row] = row.length - firstSupervised row := by
  rw [logitsToKeep, map_singleton, foldr_cons, foldr_nil, Nat.max_zero]

theorem supervised_eq_false_of_mem_take {row : EncodedRow} {token : LabelledToken}
    (isToken : token ∈ row.take (firstSupervised row)) : token.supervised = false := by
  rw [firstSupervised] at isToken
  split at isToken
  · obtain ⟨place, isPlace⟩ := mem_iff_getElem?.mp isToken
    by_cases before : place < row.findIdx LabelledToken.supervised
    · rw [getElem?_take_of_lt before] at isPlace
      obtain ⟨inside, rfl⟩ := List.getElem?_eq_some_iff.mp isPlace
      exact not_of_lt_findIdx before
    · rw [getElem?_take_eq_none (not_lt.mp before)] at isPlace
      cases isPlace
  · rw [take_zero] at isToken
    cases isToken

section Prepared

variable {batch : PackedBatch}

theorem packed_ne_nil (batch : PackedBatch) : batch.packed ≠ [] := by
  obtain ⟨sample, isSample⟩ := exists_mem_of_ne_nil _ batch.some_sample
  intro empty
  exact batch.some_token sample isSample (flatten_eq_nil_iff.mp empty sample isSample)

theorem sequenceLengths_samples (batch : PackedBatch) :
    sequenceLengths (packedPositionIds (batch.samples.map length)) =
      batch.samples.map length := by
  apply sequenceLengths_packed
  intro length isLength
  obtain ⟨sample, isSample, rfl⟩ := mem_map.mp isLength
  exact length_pos_iff.mpr (batch.some_token sample isSample)

theorem length_positions (batch : PackedBatch) :
    (packedPositionIds (batch.samples.map length)).length = batch.packed.length := by
  rw [length_packedPositionIds, PackedBatch.packed, length_flatten]

/-- The samples as far as they are in a window that begins in the first of them. -/
def windows (batch : PackedBatch) : List EncodedRow :=
  batch.samples.modifyHead fun first => first.drop (firstSupervised batch.packed)

/-- The window begins in the first sample, or right after it. -/
def BeginsInFirst (batch : PackedBatch) : Prop :=
  firstSupervised batch.packed ≤ (batch.samples.headD []).length

theorem flatten_windows (begins : BeginsInFirst batch) :
    (windows batch).flatten = batch.packed.drop (firstSupervised batch.packed) := by
  obtain ⟨samples, some_sample, some_token⟩ := batch
  cases samples with
  | nil => exact absurd rfl some_sample
  | cons first rest => exact (drop_append_of_le_length begins).symm

theorem length_windows (batch : PackedBatch) : (windows batch).length = batch.samples.length :=
  length_modifyHead

/-- The trainer takes from the length of the first sample what is before the window. -/
theorem keptLengths_samples (begins : BeginsInFirst batch) :
    keptLengths (batch.samples.map length)
        (batch.packed.length - firstSupervised batch.packed) =
      .ok ((windows batch).map fun sample => (sample.length : ℤ)) := by
  have inside := firstSupervised_lt (packed_ne_nil batch)
  have sum : (batch.samples.map length).sum = batch.packed.length :=
    length_flatten.symm
  rw [BeginsInFirst] at begins
  rw [windows]
  cases isSamples : batch.samples with
  | nil => exact absurd isSamples batch.some_sample
  | cons first rest =>
    simp only [isSamples, headD_cons] at begins
    rw [isSamples] at sum
    rw [map_cons] at sum ⊢
    rw [keptLengths, sum, modifyHead_cons, map_cons, length_drop, map_map]
    congr 2
    omega

/-- What the trainer keeps of a batch whose window begins in the first sample. -/
theorem prepareBatchInputs_eq_ok (several : 1 < batch.packed.length)
    (begins : BeginsInFirst batch) :
    prepareBatchInputs batch = .ok
      { logitsToKeep := batch.packed.length - firstSupervised batch.packed
        seqLengths := (windows batch).map fun sample => (sample.length : ℤ)
        completionMask := (windows batch).map fun sample =>
          alignRight (batch.packed.length - firstSupervised batch.packed) false
            (sample.map LabelledToken.supervised) } := by
  have inside := firstSupervised_lt (packed_ne_nil batch)
  have width : ((windows batch).map fun sample => sample.map LabelledToken.supervised).flatten.length =
      batch.packed.length - firstSupervised batch.packed := by
    rw [← map_flatten, length_map, flatten_windows begins, length_drop]
  have raw : (batch.packed.map LabelledToken.supervised).drop
      ((batch.packed.map LabelledToken.supervised).length - logitsToKeep [batch.packed]) =
      ((windows batch).map fun sample => sample.map LabelledToken.supervised).flatten := by
    rw [← map_flatten, flatten_windows begins, map_drop, length_map,
      logitsToKeep_singleton, Nat.sub_sub_self inside.le]
  have lengths : (((windows batch).map fun sample => sample.map LabelledToken.supervised).map
      fun row => (row.length : ℤ)) = (windows batch).map fun sample => (sample.length : ℤ) := by
    rw [map_map]
    apply map_congr_left
    intro sample isSample
    rw [Function.comp_apply, length_map]
  have rows := padLogpsBackToBatch_flatten
    ((windows batch).map fun sample => sample.map LabelledToken.supervised) false
  rw [width, lengths, length_map, length_windows] at rows
  rw [prepareBatchInputs, raw, if_neg (by rw [length_positions]; omega)]
  rw [sequenceLengths_samples, logitsToKeep_singleton, keptLengths_samples begins]
  refine bind_eq_ok.mpr ⟨_, rfl, bind_eq_ok.mpr ⟨_, rows, ?_⟩⟩
  rw [map_map, map_map]
  rfl

theorem getD_windows (index : ℕ) (begins : BeginsInFirst batch) :
    (windows batch).getD index [] =
      inWindow batch (batch.packed.length - firstSupervised batch.packed) index := by
  have inside := firstSupervised_lt (packed_ne_nil batch)
  rw [inWindow, Nat.sub_sub_self inside.le, windows]
  rw [BeginsInFirst] at begins
  cases isSamples : batch.samples with
  | nil => exact absurd isSamples batch.some_sample
  | cons first rest =>
    simp only [isSamples, headD_cons] at begins
    rw [modifyHead_cons]
    cases index with
    | zero => rfl
    | succ index =>
      have beyond : firstSupervised batch.packed -
          offset ((first :: rest).map length) (index + 1) = 0 := by
        rw [offset, map_cons, take_succ_cons, sum_cons]
        omega
      rw [beyond, drop_zero]
      rfl

/-- Every supervised token of a sample is in the window. -/
theorem countP_windows (index : ℕ) (begins : BeginsInFirst batch) :
    ((windows batch).getD index []).countP LabelledToken.supervised =
      (batch.samples.getD index []).countP LabelledToken.supervised := by
  rw [BeginsInFirst] at begins
  rw [windows]
  cases isSamples : batch.samples with
  | nil => exact absurd isSamples batch.some_sample
  | cons first rest =>
    simp only [isSamples, headD_cons] at begins
    rw [modifyHead_cons]
    cases index with
    | succ index => rfl
    | zero =>
      have before : (first.take (firstSupervised batch.packed)).countP
          LabelledToken.supervised = 0 := by
        apply countP_eq_zero.mpr
        intro token isToken
        have inPacked : token ∈ batch.packed.take (firstSupervised batch.packed) := by
          have packed : batch.packed = first ++ rest.flatten := by
            rw [PackedBatch.packed, isSamples, flatten_cons]
          rw [packed, take_append_of_le_length (packed ▸ begins)]
          exact packed ▸ isToken
        rw [supervised_eq_false_of_mem_take inPacked]
        exact Bool.false_ne_true
      rw [getD_cons_zero, getD_cons_zero]
      conv_rhs => rw [← take_append_drop (firstSupervised batch.packed) first]
      rw [countP_append, before, Nat.zero_add]

theorem count_alignRight (width : ℕ) (entries : List Bool) :
    (alignRight width false entries).count true = entries.count true := by
  rw [alignRight, count_append, count_replicate]
  simp

/-- A batch keeps its promises when its window begins in the first sample. -/
theorem masksSupervised_of_begins (begins : BeginsInFirst batch) :
    MasksSupervised batch
      { logitsToKeep := batch.packed.length - firstSupervised batch.packed
        seqLengths := (windows batch).map fun sample => (sample.length : ℤ)
        completionMask := (windows batch).map fun sample =>
          alignRight (batch.packed.length - firstSupervised batch.packed) false
            (sample.map LabelledToken.supervised) } := by
  constructor
  case lengths_nonneg =>
    intro length isLength
    obtain ⟨sample, _, rfl⟩ := mem_map.mp isLength
    exact Int.natCast_nonneg _
  case lengths_sum =>
    have total : ((windows batch).map length).sum =
        batch.packed.length - firstSupervised batch.packed := by
      rw [← length_flatten, flatten_windows begins, length_drop]
    dsimp only
    rw [← total, Nat.cast_list_sum, map_map]
    rfl
  case rows =>
    apply ext_getElem
    · simp [length_windows]
    · intro index inside _
      rw [length_map] at inside
      rw [getElem_map, getElem_map, getElem_range, ← getD_windows index begins,
        getD_eq_getElem _ _ inside]
  case marked_once =>
    intro index
    rw [← countP_windows index begins]
    by_cases inside : index < (windows batch).length
    · rw [getD_eq_getElem _ _ (by rw [length_map]; exact inside), getElem_map,
        count_alignRight, getD_eq_getElem _ _ inside, List.count, countP_map]
      congr 1
      funext token
      exact beq_true _
    · rw [getD_eq_default _ _ (by rw [length_map]; exact not_lt.mp inside),
        getD_eq_default _ _ (not_lt.mp inside)]
      rfl

end Prepared

/-- **The rows of a batch mark its supervised tokens, each of them once, if and only if the
window begins in the first sample** and there is more than one token. -/
theorem masks_supervised_iff (batch : PackedBatch) :
    (∃ prepared, prepareBatchInputs batch = .ok prepared ∧ MasksSupervised batch prepared) ↔
      1 < batch.packed.length ∧ BeginsInFirst batch := by
  constructor
  · rintro ⟨prepared, isOk, promises⟩
    have some : 0 < batch.packed.length := length_pos_iff.mpr (packed_ne_nil batch)
    have inside := firstSupervised_lt (packed_ne_nil batch)
    rw [prepareBatchInputs] at isOk
    split at isOk
    · cases isOk
    next several =>
      rw [length_positions] at several
      refine ⟨by omega, ?_⟩
      obtain ⟨lengths, isLengths, rest⟩ := bind_eq_ok.mp isOk
      obtain ⟨rows, _, isPrepared⟩ := bind_eq_ok.mp rest
      obtain rfl := Except.ok.inj isPrepared
      rw [sequenceLengths_samples, logitsToKeep_singleton] at isLengths
      have total : (batch.samples.map List.length).sum = batch.packed.length :=
        length_flatten.symm
      rw [BeginsInFirst]
      cases isSamples : batch.samples with
      | nil => exact absurd isSamples batch.some_sample
      | cons first others =>
        rw [isSamples] at isLengths total
        rw [map_cons] at isLengths total
        rw [keptLengths, total] at isLengths
        have nonneg := promises.lengths_nonneg
        simp only [← Except.ok.inj isLengths, mem_cons, forall_eq_or_imp] at nonneg
        simp only [isSamples, headD_cons]
        omega
  · rintro ⟨several, begins⟩
    exact ⟨_, prepareBatchInputs_eq_ok several begins, masksSupervised_of_begins begins⟩

/-- A batch whose first sample has no supervised token. -/
def unsupervisedFirst : PackedBatch where
  samples := [[⟨1, false⟩, ⟨2, false⟩], [⟨3, false⟩, ⟨4, true⟩]]
  some_sample := nofun
  some_token := by decide

/-- The window begins after the first sample, whose length becomes negative. -/
theorem unsupervisedFirst_not_masked :
    ¬∃ prepared, prepareBatchInputs unsupervisedFirst = .ok prepared ∧
      MasksSupervised unsupervisedFirst prepared := by
  rintro ⟨prepared, isOk, promises⟩
  have isPrepared : prepared.seqLengths = [-1, 2] := by
    have computed : (prepareBatchInputs unsupervisedFirst).toOption.map PreparedBatch.seqLengths =
        some [-1, 2] := by decide +kernel
    rw [isOk] at computed
    exact Option.some.inj computed
  have negative := promises.lengths_nonneg (-1) (by rw [isPrepared]; exact mem_cons_self)
  exact absurd negative (by decide)

end Geobench.Trainers
