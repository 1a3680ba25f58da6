import Geobench.Library.Zigzag
import Geobench.Trainers.PackedRow
import Mathlib.Algebra.BigOperators.Ring.List
import Mathlib.Algebra.Ring.Nat

/-!
# Rows shared out to a group of processes

The processes of a group have one row in common. It is padded and split, every process
computes on its part, and the parts are gathered (`localOutputs_eq_ok`, `gather_localParts`). In a ring every
sequence is padded on its own and shared out from both ends; otherwise the row is padded at
its end and cut into equal parts.
-/

namespace Geobench.Trainers

open Library List

/-! ## The group -/

/-- The sizes of a group: processes that share a row, and rings of them. -/
structure Parallel where
  spWorldSize : ℕ
  rpWorldSize : ℕ
  several : 1 < spWorldSize * rpWorldSize

inductive ParallelError where
  | assertionError
  | runtimeError
  deriving DecidableEq, Repr

namespace Parallel

def worldSize (par : Parallel) : ℕ := par.spWorldSize * par.rpWorldSize

/-- What the length of a row, or of a sequence in a ring, is padded to a multiple of. -/
def padUnit (par : Parallel) : ℕ :=
  if 1 < par.rpWorldSize then par.worldSize * 2 else par.worldSize

end Parallel

section Tensors

variable {α : Type} (par : Parallel)

def doPad (unit : ℕ) (paddingValue : α) (tensor : List α) : List α :=
  let padNum := unit - tensor.length % unit
  if padNum = 0 ∨ padNum = unit then tensor
  else tensor ++ List.replicate padNum paddingValue

/-- The parts of a row that its sequences have. -/
def sequencesOf (positionIds : List ℤ) (tensor : List α) : List (List α) :=
  cutAt (offset (sequenceLengths positionIds)) (sequenceLengths positionIds).length tensor

/-- A row, padded for the group. -/
def pad (paddingValue : α) (positionIds : List ℤ) (tensor : List α) : List α :=
  if 1 < par.rpWorldSize then
    doPad par.padUnit paddingValue
      ((sequencesOf positionIds tensor).map (doPad par.padUnit paddingValue)).flatten
  else doPad par.padUnit paddingValue tensor

/-- The part of a row that a process has. -/
def split (rpRank spRank : ℕ) (positionIds : List ℤ) (input : List α) :
    Except ParallelError (List α) :=
  if 1 < par.rpWorldSize then
    let lengths := sequenceLengths positionIds
    if (List.range (lengths.length + 1)).all fun index =>
        offset lengths index % (2 * par.rpWorldSize) = 0 then
      let valueChunks := zigzag par.rpWorldSize rpRank (sequencesOf positionIds input)
      .ok ((chunk par.spWorldSize valueChunks).getD spRank [])
    else .error .assertionError
  else if input.length % par.spWorldSize = 0 then
    .ok (slice input (spRank * (input.length / par.spWorldSize))
      ((spRank + 1) * (input.length / par.spWorldSize)))
  else .error .assertionError

/-- The row from the parts of all processes. -/
def gather (zero : α) (positionIds : List ℤ) (localOutputs : List (List (List α))) : List α :=
  if 1 < par.rpWorldSize then
    let positionIds := pad par (-1) positionIds positionIds
    let lengths := (sequenceLengths positionIds).map fun length =>
      (length + par.worldSize * 2 - 1) / (par.worldSize * 2) * (par.worldSize * 2)
    regroup par.rpWorldSize zero (localOutputs.map List.flatten) lengths
  else (localOutputs.headD []).flatten

end Tensors

/-! ## Padding -/

namespace Parallel

variable (par : Parallel)

theorem spWorldSize_pos : 0 < par.spWorldSize := by
  apply Nat.pos_of_ne_zero
  intro zero
  have several := par.several
  rw [zero, Nat.zero_mul] at several
  omega

theorem rpWorldSize_pos : 0 < par.rpWorldSize := by
  apply Nat.pos_of_ne_zero
  intro zero
  have several := par.several
  rw [zero, Nat.mul_zero] at several
  omega

theorem worldSize_pos : 0 < par.worldSize := Nat.zero_lt_of_lt par.several

theorem padUnit_pos : 0 < par.padUnit := by
  have positive := par.worldSize_pos
  rw [padUnit]
  split <;> omega

end Parallel

section Padding

variable {α : Type} {unit : ℕ} {paddingValue : α}

theorem doPad_of_dvd {tensor : List α} (divides : unit ∣ tensor.length) :
    doPad unit paddingValue tensor = tensor := by
  rw [doPad, Nat.mod_eq_zero_of_dvd divides]
  exact if_pos (Or.inr (Nat.sub_zero unit))

/-- How much padding comes behind a tensor. -/
def padCount (unit length : ℕ) : ℕ :=
  if unit - length % unit = 0 ∨ unit - length % unit = unit then 0 else unit - length % unit

theorem doPad_eq (unit : ℕ) (paddingValue : α) (tensor : List α) :
    doPad unit paddingValue tensor =
      tensor ++ replicate (padCount unit tensor.length) paddingValue := by
  rw [padCount]
  by_cases none : unit - tensor.length % unit = 0 ∨ unit - tensor.length % unit = unit
  · rw [if_pos none, replicate_zero, append_nil]
    exact if_pos none
  · rw [if_neg none]
    exact if_neg none

theorem length_doPad (unit : ℕ) (paddingValue : α) (tensor : List α) :
    (doPad unit paddingValue tensor).length = tensor.length + padCount unit tensor.length := by
  rw [doPad_eq, length_append, length_replicate]

/-- Nothing is padded that has a length to begin with. -/
theorem padCount_eq_zero_iff {unit length : ℕ} (positive : 0 < unit) :
    padCount unit length = 0 ↔ unit ∣ length := by
  have small := Nat.mod_lt length positive
  rw [padCount, Nat.dvd_iff_mod_eq_zero]
  split <;> omega

theorem dvd_length_doPad (positive : 0 < unit) (tensor : List α) :
    unit ∣ (doPad unit paddingValue tensor).length := by
  have small := Nat.mod_lt tensor.length positive
  have parts := Nat.div_add_mod tensor.length unit
  rw [doPad]
  split
  next none =>
    apply Nat.dvd_of_mod_eq_zero
    omega
  next =>
    refine ⟨tensor.length / unit + 1, ?_⟩
    rw [length_append, length_replicate, Nat.mul_succ]
    omega

end Padding

/-! ## Padded rows -/

section Padded

variable {par : Parallel}

/-- Positions of a row that the group has padded. -/
structure IsPadded (par : Parallel) (positionIds : List ℤ) (sequences : List (List ℤ)) : Prop where
  flatten : positionIds = sequences.flatten
  each : ∀ positions ∈ sequences, IsSequence positions
  ring : 1 < par.rpWorldSize → ∀ positions ∈ sequences, par.padUnit ∣ positions.length
  row : par.padUnit ∣ positionIds.length

variable {sequences : List (List ℤ)}

theorem sequencesOf_flatten {α : Type} {tensors : List (List α)}
    (each : ∀ positions ∈ sequences, IsSequence positions)
    (same : tensors.map length = sequences.map length) :
    sequencesOf sequences.flatten tensors.flatten = tensors := by
  have count := congrArg length same
  rw [length_map, length_map] at count
  rw [sequencesOf, sequenceLengths_flatten each, length_map, ← same, ← count]
  exact cutAt_offset tensors

/-- A sequence stays one when it is padded. -/
theorem isSequence_append_replicate {positions : List ℤ} (isSequence : IsSequence positions)
    (count : ℕ) : IsSequence (positions ++ replicate count (-1)) := by
  obtain ⟨rest, rfl, inside⟩ := isSequence
  refine ⟨rest ++ replicate count (-1), rfl, ?_⟩
  intro position isPosition
  rcases mem_append.mp isPosition with early | late
  · exact inside position early
  · rw [eq_of_mem_replicate late]
    decide

theorem dvd_length_flatten {unit : ℕ} (divides : ∀ positions ∈ sequences, unit ∣ positions.length) :
    unit ∣ sequences.flatten.length := by
  rw [length_flatten]
  apply dvd_sum
  intro length isLength
  obtain ⟨positions, isPositions, rfl⟩ := mem_map.mp isLength
  exact divides positions isPositions

/-- In a ring every sequence of a row is padded on its own. -/
theorem pad_ring (ring : 1 < par.rpWorldSize) {α : Type} (paddingValue : α)
    {tensors : List (List α)} (each : ∀ positions ∈ sequences, IsSequence positions)
    (same : tensors.map length = sequences.map length) :
    pad par paddingValue sequences.flatten tensors.flatten =
      (tensors.map (doPad par.padUnit paddingValue)).flatten := by
  rw [pad, if_pos ring, sequencesOf_flatten each same]
  apply doPad_of_dvd
  rw [length_flatten, map_map]
  apply dvd_sum
  intro length isLength
  obtain ⟨tensor, _, rfl⟩ := mem_map.mp isLength
  exact dvd_length_doPad par.padUnit_pos tensor

theorem isPadded_ring (ring : 1 < par.rpWorldSize)
    (each : ∀ positions ∈ sequences, IsSequence positions) :
    IsPadded par (pad par (-1) sequences.flatten sequences.flatten)
      (sequences.map (doPad par.padUnit (-1))) := by
  have divides : ∀ positions ∈ sequences.map (doPad par.padUnit (-1)),
      par.padUnit ∣ positions.length := by
    intro positions isPositions
    obtain ⟨original, _, rfl⟩ := mem_map.mp isPositions
    exact dvd_length_doPad par.padUnit_pos original
  have padded := pad_ring ring (-1) each (rfl : sequences.map length = _)
  refine ⟨padded, ?_, fun _ => divides, ?_⟩
  · intro positions isPositions
    obtain ⟨original, isOriginal, rfl⟩ := mem_map.mp isPositions
    rw [doPad_eq]
    exact isSequence_append_replicate (each original isOriginal) _
  · rw [padded]
    exact dvd_length_flatten divides

theorem pad_row (noRing : ¬1 < par.rpWorldSize) {α : Type} (paddingValue : α)
    (positionIds : List ℤ) (tensor : List α) :
    pad par paddingValue positionIds tensor =
      tensor ++ replicate (padCount par.worldSize tensor.length) paddingValue := by
  rw [pad, if_neg noRing, doPad_eq, Parallel.padUnit, if_neg noRing]

theorem isPadded_row (noRing : ¬1 < par.rpWorldSize) {last : List ℤ}
    (each : ∀ positions ∈ sequences ++ [last], IsSequence positions) :
    IsPadded par (pad par (-1) (sequences ++ [last]).flatten (sequences ++ [last]).flatten)
      (sequences ++ [last ++ replicate
        (padCount par.worldSize (sequences ++ [last]).flatten.length) (-1)]) := by
  refine ⟨?_, ?_, fun ring => absurd ring noRing, ?_⟩
  · rw [pad_row noRing]
    simp only [flatten_append, flatten_singleton, append_assoc]
  · intro positions isPositions
    rcases mem_append.mp isPositions with early | late
    · exact each positions (mem_append_left _ early)
    · rw [mem_singleton.mp late]
      exact isSequence_append_replicate (each last (by simp)) _
  · rw [pad, if_neg noRing]
    exact dvd_length_doPad par.padUnit_pos _

variable {positionIds : List ℤ}

theorem IsPadded.pad_eq_self (isPadded : IsPadded par positionIds sequences) :
    pad par (-1) positionIds positionIds = positionIds := by
  by_cases ring : 1 < par.rpWorldSize
  · have unchanged : sequences.map (doPad par.padUnit (-1)) = sequences := by
      conv_rhs => rw [← map_id sequences]
      apply map_congr_left
      intro positions isPositions
      exact doPad_of_dvd (isPadded.ring ring positions isPositions)
    rw [isPadded.flatten, pad_ring ring (-1) isPadded.each rfl, unchanged]
  · rw [pad, if_neg ring]
    exact doPad_of_dvd isPadded.row

/-! ## Parts of a padded row -/

/-- The part of a padded row that a process has. -/
def localPart {α : Type} (par : Parallel) (positionIds : List ℤ) (input : List α)
    (rpRank spRank : ℕ) : List α :=
  if 1 < par.rpWorldSize then
    (chunk par.spWorldSize (zigzag par.rpWorldSize rpRank (sequencesOf positionIds input))).getD
      spRank []
  else slice input (spRank * (input.length / par.spWorldSize))
    ((spRank + 1) * (input.length / par.spWorldSize))

theorem worldSize_of_no_ring (noRing : ¬1 < par.rpWorldSize) :
    par.worldSize = par.spWorldSize := by
  have one : par.rpWorldSize = 1 := by
    have positive := par.rpWorldSize_pos
    omega
  rw [Parallel.worldSize, one, Nat.mul_one]

theorem dvd_padUnit (ring : 1 < par.rpWorldSize) : 2 * par.rpWorldSize ∣ par.padUnit := by
  rw [Parallel.padUnit, if_pos ring, Parallel.worldSize]
  refine ⟨par.spWorldSize, ?_⟩
  rw [Nat.mul_comm, ← Nat.mul_assoc, Nat.mul_right_comm]

theorem split_eq_ok {α : Type} (isPadded : IsPadded par positionIds sequences) {input : List α}
    (same : input.length = positionIds.length) (rpRank spRank : ℕ) :
    split par rpRank spRank positionIds input =
      .ok (localPart par positionIds input rpRank spRank) := by
  by_cases ring : 1 < par.rpWorldSize
  · have aligned : (range ((sequenceLengths positionIds).length + 1)).all (fun index =>
        offset (sequenceLengths positionIds) index % (2 * par.rpWorldSize) = 0) = true := by
      apply all_eq_true.mpr
      intro index isIndex
      rw [isPadded.flatten, sequenceLengths_flatten isPadded.each]
      apply decide_eq_true
      apply Nat.mod_eq_zero_of_dvd
      rw [offset]
      apply dvd_sum
      intro length isLength
      obtain ⟨positions, isPositions, rfl⟩ := mem_map.mp (mem_of_mem_take isLength)
      exact (dvd_padUnit ring).trans (isPadded.ring ring positions isPositions)
    rw [split, if_pos ring, localPart, if_pos ring]
    exact if_pos aligned
  · have divides : input.length % par.spWorldSize = 0 := by
      have row := isPadded.row
      rw [Parallel.padUnit, if_neg ring, worldSize_of_no_ring ring] at row
      rw [same]
      exact Nat.mod_eq_zero_of_dvd row
    rw [split, if_neg ring, localPart, if_neg ring, if_pos divides]

/-- What the processes make of a row position by position, each of its own part. -/
def localParts {α : Type} (par : Parallel) (positionIds : List ℤ) (input : List α) :
    List (List (List α)) :=
  (List.range par.rpWorldSize).map fun rpRank =>
    (List.range par.spWorldSize).map fun spRank => localPart par positionIds input rpRank spRank

/-- The sequences of a row have their lengths, and are the row together. -/
theorem map_length_sequencesOf {α : Type} (isPadded : IsPadded par positionIds sequences)
    {input : List α} (same : input.length = positionIds.length) :
    (sequencesOf positionIds input).map length = sequences.map length := by
  have own := sequencesOf_flatten isPadded.each (rfl : sequences.map length = _)
  rw [← isPadded.flatten] at own
  conv_rhs => rw [← own]
  exact map_length_cutAt_congr same _ _

theorem flatten_sequencesOf {α : Type} (isPadded : IsPadded par positionIds sequences)
    {input : List α} (same : input.length = positionIds.length) :
    (sequencesOf positionIds input).flatten = input := by
  apply flatten_cutAt (offset_monotone _) rfl
  rw [offset_length, isPadded.flatten, sequenceLengths_flatten isPadded.each,
    ← length_flatten, ← isPadded.flatten, same]

theorem ceilDiv_mul_of_dvd {length unit : ℕ} (positive : 0 < unit) (divides : unit ∣ length) :
    (length + unit - 1) / unit * unit = length := by
  obtain ⟨count, rfl⟩ := divides
  have quotient : (unit * count + unit - 1) / unit = count := by
    apply Nat.div_eq_of_lt_le
    · rw [Nat.mul_comm]
      omega
    · rw [Nat.succ_mul, Nat.mul_comm]
      omega
  rw [quotient, Nat.mul_comm]

theorem gather_localParts {α : Type} (zero : α) (isPadded : IsPadded par positionIds sequences)
    {input : List α} (same : input.length = positionIds.length) :
    gather par zero positionIds (localParts par positionIds input) = input := by
  by_cases ring : 1 < par.rpWorldSize
  · have chunks : (localParts par positionIds input).map flatten =
        (range par.rpWorldSize).map fun rpRank =>
          zigzag par.rpWorldSize rpRank (sequencesOf positionIds input) := by
      rw [localParts, map_map]
      apply map_congr_left
      intro rpRank isRank
      have count : (chunk par.spWorldSize (zigzag par.rpWorldSize rpRank
          (sequencesOf positionIds input))).length = par.spWorldSize := length_cutAt _ _ _
      have parts := map_range_getD (chunk par.spWorldSize (zigzag par.rpWorldSize rpRank
        (sequencesOf positionIds input)))
      rw [count] at parts
      simp only [Function.comp_apply, localPart, if_pos ring]
      rw [parts, flatten_chunk par.spWorldSize_pos]
    have lengths : (sequenceLengths positionIds).map (fun length =>
        (length + par.worldSize * 2 - 1) / (par.worldSize * 2) * (par.worldSize * 2)) =
        (sequencesOf positionIds input).map length := by
      rw [map_length_sequencesOf isPadded same, isPadded.flatten,
        sequenceLengths_flatten isPadded.each, map_map]
      apply map_congr_left
      intro positions isPositions
      have divides := isPadded.ring ring positions isPositions
      have positive := par.worldSize_pos
      rw [Parallel.padUnit, if_pos ring] at divides
      exact ceilDiv_mul_of_dvd (by omega) divides
    rw [gather, if_pos ring, isPadded.pad_eq_self]
    dsimp only
    rw [lengths, chunks, regroup_zigzag _ zero, flatten_sequencesOf isPadded same]
    intro items isItems
    have isLength := mem_map_of_mem (f := length) isItems
    rw [map_length_sequencesOf isPadded same] at isLength
    obtain ⟨positions, isPositions, length⟩ := mem_map.mp isLength
    rw [← length]
    exact (dvd_padUnit ring).trans (isPadded.ring ring positions isPositions)
  · have one : par.rpWorldSize = 1 := by
      have positive := par.rpWorldSize_pos
      omega
    have divides : par.spWorldSize ∣ input.length := by
      have row := isPadded.row
      rw [Parallel.padUnit, if_neg ring, worldSize_of_no_ring ring, ← same] at row
      exact row
    rw [gather, if_neg ring, localParts, one, range_one, map_singleton, headD_cons]
    simp only [localPart, if_neg ring]
    apply flatten_cutAt_mul
    rw [Nat.mul_div_cancel' divides]

/-! ## What the processes compute -/

variable {β : Type}

theorem map_chunk {α : Type} (f : α → β) (parts : ℕ) (items : List α) :
    (chunk parts items).map (map f) = chunk parts (items.map f) := by
  rw [chunk, chunk, cutAt, cutAt, map_map, length_map]
  apply map_congr_left
  intro index isIndex
  exact map_slice f items _ _

theorem map_getD_chunk {α : Type} (f : α → β) (parts index : ℕ) (items : List α) :
    ((chunk parts items).getD index []).map f = (chunk parts (items.map f)).getD index [] := by
  rw [← map_chunk, getD_eq_getElem?_getD, getD_eq_getElem?_getD, getElem?_map]
  cases (chunk parts items)[index]? <;> rfl

theorem map_zigzag {α : Type} (f : α → β) (ranks rank : ℕ) (sequences : List (List α)) :
    (zigzag ranks rank sequences).map f = zigzag ranks rank (sequences.map (map f)) := by
  rw [zigzag, zigzag, map_flatMap, flatMap_map]
  congr 1
  funext items
  rw [zigzagPart, zigzagPart, map_append, map_getD_chunk, map_getD_chunk]

/-- The part that a process has of a row is a part of what the row is made from. -/
theorem map_localPart {α : Type} (f : α → β) (par : Parallel) (positionIds : List ℤ)
    (input : List α) (rpRank spRank : ℕ) :
    (localPart par positionIds input rpRank spRank).map f =
      localPart par positionIds (input.map f) rpRank spRank := by
  rw [localPart, localPart]
  split
  · rw [map_getD_chunk, map_zigzag, sequencesOf, sequencesOf, cutAt, cutAt, map_map]
    congr 3
    apply map_congr_left
    intro index isIndex
    exact map_slice f input _ _
  · rw [map_slice, length_map]

/-- What the processes compute, each of its parts of two rows. -/
def localOutputs {α β γ : Type} (par : Parallel) (positionIds : List ℤ) (compute : α → β → γ)
    (inputs : List α) (labels : List β) : Except ParallelError (List (List (List γ))) :=
  (List.range par.rpWorldSize).mapM fun rpRank =>
    (List.range par.spWorldSize).mapM fun spRank => do
      let localInputs ← split par rpRank spRank positionIds inputs
      let localLabels ← split par rpRank spRank positionIds labels
      .ok (List.zipWith compute localInputs localLabels)

/-- The processes have parts of what the rows give. -/
theorem localOutputs_eq_ok {α γ : Type} (compute : α → β → γ)
    (isPadded : IsPadded par positionIds sequences) {inputs : List α} {labels : List β}
    (sameInputs : inputs.length = positionIds.length)
    (sameLabels : labels.length = positionIds.length) :
    localOutputs par positionIds compute inputs labels =
      .ok (localParts par positionIds (zipWith compute inputs labels)) := by
  have first : (inputs.zip labels).map Prod.fst = inputs :=
    map_fst_zip (by rw [sameInputs, sameLabels])
  have second : (inputs.zip labels).map Prod.snd = labels :=
    map_snd_zip (by rw [sameInputs, sameLabels])
  have both : (inputs.zip labels).map (fun pair => compute pair.1 pair.2) =
      zipWith compute inputs labels := by
    rw [zip, map_zipWith]
  apply mapM_eq_ok_map
  intro rpRank isRp
  apply mapM_eq_ok_map
  intro spRank isSp
  refine bind_eq_ok.mpr ⟨_, split_eq_ok isPadded sameInputs rpRank spRank,
    bind_eq_ok.mpr ⟨_, split_eq_ok isPadded sameLabels rpRank spRank, ?_⟩⟩
  have localInputs : localPart par positionIds inputs rpRank spRank =
      (localPart par positionIds (inputs.zip labels) rpRank spRank).map Prod.fst := by
    rw [map_localPart, first]
  have localLabels : localPart par positionIds labels rpRank spRank =
      (localPart par positionIds (inputs.zip labels) rpRank spRank).map Prod.snd := by
    rw [map_localPart, second]
  rw [← both, ← map_localPart, localInputs, localLabels, zipWith_map, zipWith_self]

end Padded

end Geobench.Trainers
