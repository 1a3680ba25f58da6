import Geobench.Trainers.SequenceParallel
import Mathlib.Algebra.Order.BigOperators.Group.List
import Mathlib.Algebra.Order.Ring.Nat

/-!
# Tensors split among the processes of a world and gathered again

A tensor and the lengths of the sequences that are packed in it are padded, every process
takes its part of the padded tensor, and the parts are gathered. The processes of a ring
write the parts into a tensor of the default type, which rounds a value that the type does
not have; without a ring the tensor that is gathered has the type of the parts.

**`gathersBack_iff`** says when the padded tensor comes back, with every element in its
place. A world of one process gathers what it has, and in every other world an empty tensor
cannot be split.
-/

namespace Geobench.Trainers

open Library List

/-! ## Worlds -/

/-- The processes that share a tensor, and the rings of them. -/
structure World where
  spWorldSize : ℕ
  rpWorldSize : ℕ
  sp_pos : 0 < spWorldSize
  rp_pos : 0 < rpWorldSize

/-- The exceptions of the tensor operations. -/
inductive TensorError where
  | assertionError
  | indexError
  | runtimeError
  deriving DecidableEq, Repr

def ParallelError.toTensorError : ParallelError → TensorError
  | .assertionError => .assertionError
  | .runtimeError => .runtimeError

namespace World

variable {α : Type} (world : World)

def worldSize : ℕ := world.spWorldSize * world.rpWorldSize

def group (several : 1 < world.worldSize) : Parallel where
  spWorldSize := world.spWorldSize
  rpWorldSize := world.rpWorldSize
  several := several

/-- A tensor, padded for the world. A ring has to concatenate the padded sequences, and
cannot when there is none. -/
def pad (paddingValue : α) (positionIds : List ℤ) (tensor : List α) :
    Except TensorError (List α) :=
  if several : 1 < world.worldSize then
    if 1 < world.rpWorldSize ∧ sequenceLengths positionIds = [] then .error .runtimeError
    else .ok (Trainers.pad (world.group several) paddingValue positionIds tensor)
  else .ok (doPad world.worldSize paddingValue tensor)

/-- The part of a tensor that a process has. An empty tensor is one part, which only the
first process finds. -/
def split (rpRank spRank : ℕ) (positionIds : List ℤ) (input : List α) :
    Except TensorError (List α) :=
  if several : 1 < world.worldSize then
    if input = [] then
      if 1 < world.rpWorldSize then .error .runtimeError
      else if spRank = 0 then .ok [] else .error .indexError
    else (Trainers.split (world.group several) rpRank spRank positionIds input).mapError
      ParallelError.toTensorError
  else .ok input

/-- The tensor from the parts of all processes. The positions are padded again, and in a
ring the values are stored in a tensor of the default type. -/
def gather (store : α → α) (zero : α) (positionIds : List ℤ)
    (localOutputs : List (List (List α))) : Except TensorError (List α) :=
  if several : 1 < world.worldSize then
    if 1 < world.rpWorldSize then do
      let _ ← world.pad (-1) positionIds positionIds
      .ok (Trainers.gather (world.group several) zero positionIds
        (localOutputs.map fun ranks => ranks.map (List.map store)))
    else .ok (Trainers.gather (world.group several) zero positionIds localOutputs)
  else .ok (localOutputs.headD []).flatten

/-- The parts that the processes have. -/
def splitAll (positionIds : List ℤ) (input : List α) :
    Except TensorError (List (List (List α))) :=
  (List.range world.rpWorldSize).mapM fun rpRank =>
    (List.range world.spWorldSize).mapM fun spRank =>
      world.split rpRank spRank positionIds input

/-- A padded tensor without its padding: in a ring every sequence has padding of its own. -/
def unpad (positionIds paddedPositions : List ℤ) (padded : List α) : List α :=
  if 1 < world.rpWorldSize then
    (List.zipWith List.take (sequenceLengths positionIds)
      (sequencesOf paddedPositions padded)).flatten
  else padded.take positionIds.length

end World

/-- A tensor with the lengths of the sequences that are packed in it. -/
structure PackedTensor (α : Type) where
  lengths : List ℕ
  values : List α
  same : values.length = lengths.sum

def PackedTensor.positionIds {α : Type} (packed : PackedTensor α) : List ℤ :=
  packedPositionIds packed.lengths

/-- Padding, splitting and gathering bring the padded tensor back, and the tensor is
what is left of it without the padding. -/
def GathersBack {α : Type} (world : World) (store : α → α) (zero paddingValue : α)
    (packed : PackedTensor α) : Prop :=
  ∃ padded paddedPositions parts,
    world.pad paddingValue packed.positionIds packed.values = .ok padded ∧
    world.pad (-1) packed.positionIds packed.positionIds = .ok paddedPositions ∧
    world.splitAll paddedPositions padded = .ok parts ∧
    world.gather store zero paddedPositions parts = .ok padded ∧
    world.unpad packed.positionIds paddedPositions padded = packed.values

/-- The default type has the values that a ring stores, those of the tensor and the one it is
padded with. -/
structure StoresExactly {α : Type} (world : World) (store : α → α) (paddingValue : α)
    (packed : PackedTensor α) : Prop where
  values : ∀ value ∈ packed.values, store value = value
  padding : (∃ length ∈ packed.lengths, ¬world.worldSize * 2 ∣ length) →
    store paddingValue = paddingValue

/-! ## Packed sequences -/

section Packed

variable {α : Type} (packed : PackedTensor α)

/-- The sequences that have an element. -/
def PackedTensor.someLengths : List ℕ := packed.lengths.filter (0 < ·)

theorem sum_someLengths : packed.someLengths.sum = packed.values.length := by
  rw [packed.same, PackedTensor.someLengths]
  induction packed.lengths with
  | nil => rfl
  | cons length lengths ih =>
    cases length with
    | zero => simpa using ih
    | succ length => simpa using ih

theorem positionIds_eq : packed.positionIds = (packed.someLengths.map positionsOf).flatten := by
  rw [PackedTensor.positionIds, PackedTensor.someLengths, packedPositionIds]
  induction packed.lengths with
  | nil => rfl
  | cons length lengths ih =>
    cases length with
    | zero => simpa [positionsOf] using ih
    | succ length => simpa using ih

theorem isSequence_of_mem {positions : List ℤ}
    (isPositions : positions ∈ packed.someLengths.map positionsOf) : IsSequence positions := by
  obtain ⟨length, isLength, rfl⟩ := mem_map.mp isPositions
  exact isSequence_positionsOf (of_decide_eq_true (mem_filter.mp isLength).2)

theorem map_length_positionsOf (lengths : List ℕ) :
    (lengths.map positionsOf).map length = lengths := by
  rw [map_map]
  conv_rhs => rw [← map_id lengths]
  apply map_congr_left
  intro length isLength
  exact length_positionsOf length

theorem sequenceLengths_positionIds : sequenceLengths packed.positionIds = packed.someLengths := by
  rw [positionIds_eq, sequenceLengths_flatten fun _ => isSequence_of_mem packed,
    map_length_positionsOf]

theorem length_positionIds : packed.positionIds.length = packed.values.length := by
  rw [PackedTensor.positionIds, length_packedPositionIds, packed.same]

def PackedTensor.sequences : List (List α) := sequencesOf packed.positionIds packed.values

theorem flatten_sequences : packed.sequences.flatten = packed.values := by
  apply flatten_cutAt (offset_monotone _) rfl
  rw [offset_length, sequenceLengths_positionIds, sum_someLengths]

theorem map_length_sequences : packed.sequences.map length = packed.someLengths := by
  have own := sequencesOf_flatten (fun _ => isSequence_of_mem packed)
    (rfl : (packed.someLengths.map positionsOf).map length = _)
  rw [← positionIds_eq] at own
  have same : packed.sequences.map length =
      (sequencesOf packed.positionIds packed.positionIds).map length :=
    map_length_cutAt_congr (length_positionIds packed).symm _ _
  rw [same, own, map_length_positionsOf]

/-- There is no sequence in an empty tensor. -/
theorem someLengths_eq_nil_iff : packed.someLengths = [] ↔ packed.values = [] := by
  constructor
  · intro none
    rw [← flatten_sequences packed]
    have noSequence := map_length_sequences packed
    rw [none, map_eq_nil_iff] at noSequence
    rw [noSequence, flatten_nil]
  · intro empty
    have total := sum_someLengths packed
    rw [empty, length_nil] at total
    rw [eq_nil_iff_forall_not_mem]
    intro length isLength
    have positive : 0 < length := of_decide_eq_true (mem_filter.mp isLength).2
    have bound := single_le_sum (fun _ _ => Nat.zero_le _) length isLength
    omega

end Packed

/-! ## The padded tensor -/

section Padded

variable {α : Type} {world : World} {packed : PackedTensor α}

/-- The padded positions of a tensor with an element are sequences again. -/
theorem exists_isPadded (several : 1 < world.worldSize) (some : packed.values ≠ []) :
    ∃ sequences, IsPadded (world.group several)
      (Trainers.pad (world.group several) (-1) packed.positionIds packed.positionIds)
      sequences := by
  rw [positionIds_eq]
  by_cases ring : 1 < world.rpWorldSize
  · exact ⟨_, isPadded_ring ring fun _ => isSequence_of_mem packed⟩
  · obtain ⟨init, last, isSplit⟩ := (eq_nil_or_concat' packed.someLengths).resolve_left
      fun none => some ((someLengths_eq_nil_iff packed).mp none)
    have each : ∀ positions ∈ init.map positionsOf ++ [positionsOf last],
        IsSequence positions := by
      intro positions isPositions
      apply isSequence_of_mem packed
      rw [isSplit, map_append]
      exact isPositions
    rw [isSplit, map_append]
    exact ⟨_, isPadded_row ring each⟩

/-- In a ring every sequence is padded on its own. -/
theorem pad_values_ring (several : 1 < world.worldSize) (ring : 1 < world.rpWorldSize)
    (paddingValue : α) :
    Trainers.pad (world.group several) paddingValue packed.positionIds packed.values =
      (packed.sequences.map (doPad (world.worldSize * 2) paddingValue)).flatten := by
  have isRing : 1 < (world.group several).rpWorldSize := ring
  have unit : (world.group several).padUnit = world.worldSize * 2 := if_pos isRing
  have same : packed.sequences.map length =
      (packed.someLengths.map positionsOf).map length := by
    rw [map_length_sequences, map_length_positionsOf]
  have padded := pad_ring isRing paddingValue (fun _ => isSequence_of_mem packed) same
  rw [← positionIds_eq, flatten_sequences, unit] at padded
  exact padded

theorem pad_positions_ring (several : 1 < world.worldSize) (ring : 1 < world.rpWorldSize) :
    Trainers.pad (world.group several) (-1) packed.positionIds packed.positionIds =
      ((packed.someLengths.map positionsOf).map (doPad (world.worldSize * 2) (-1))).flatten := by
  have isRing : 1 < (world.group several).rpWorldSize := ring
  have unit : (world.group several).padUnit = world.worldSize * 2 := if_pos isRing
  have padded := pad_ring isRing (-1) (fun _ => isSequence_of_mem packed)
    (rfl : (packed.someLengths.map positionsOf).map length = _)
  rw [← positionIds_eq, unit] at padded
  exact padded

/-- The sequences of a tensor and of its positions are padded to the same lengths. -/
theorem map_length_doPad (unit : ℕ) (paddingValue : α) :
    (packed.sequences.map (doPad unit paddingValue)).map length =
      ((packed.someLengths.map positionsOf).map (doPad unit (-1))).map length := by
  have lengths := map_length_sequences packed
  rw [map_map, map_map, map_map, ← lengths, map_map]
  apply map_congr_left
  intro sequence isSequence
  simp only [Function.comp_apply, length_doPad, length_positionsOf]

theorem length_pad (several : 1 < world.worldSize) (paddingValue : α) :
    (Trainers.pad (world.group several) paddingValue packed.positionIds packed.values).length =
      (Trainers.pad (world.group several) (-1) packed.positionIds packed.positionIds).length := by
  by_cases ring : 1 < world.rpWorldSize
  · rw [pad_values_ring several ring, pad_positions_ring several ring, length_flatten,
      length_flatten, map_length_doPad]
  · have noRing : ¬1 < (world.group several).rpWorldSize := ring
    rw [pad_row noRing, pad_row noRing, length_append, length_append,
      length_replicate, length_replicate, length_positionIds]

theorem unpad_pad (several : 1 < world.worldSize) (paddingValue : α) :
    world.unpad packed.positionIds
        (Trainers.pad (world.group several) (-1) packed.positionIds packed.positionIds)
        (Trainers.pad (world.group several) paddingValue packed.positionIds packed.values) =
      packed.values := by
  by_cases ring : 1 < world.rpWorldSize
  · have each : ∀ positions ∈ (packed.someLengths.map positionsOf).map
        (doPad (world.worldSize * 2) (-1)), IsSequence positions := by
      intro positions isPositions
      obtain ⟨original, isOriginal, rfl⟩ := mem_map.mp isPositions
      rw [doPad_eq]
      exact isSequence_append_replicate (isSequence_of_mem packed isOriginal) _
    rw [World.unpad, if_pos ring, pad_values_ring several ring, pad_positions_ring several ring,
      sequencesOf_flatten each (map_length_doPad _ _), sequenceLengths_positionIds,
      ← map_length_sequences, zipWith_map_left, zipWith_map_right, zipWith_self]
    conv_rhs => rw [← flatten_sequences packed, ← map_id packed.sequences]
    congr 1
    apply map_congr_left
    intro sequence isSequence
    rw [doPad_eq, take_left, id]
  · have noRing : ¬1 < (world.group several).rpWorldSize := ring
    rw [World.unpad, if_neg ring, pad_row noRing, length_positionIds, take_left]

end Padded

/-! ## Gathering -/

section Gather

variable {α : Type} {world : World} {store : α → α} {zero paddingValue : α}
  {packed : PackedTensor α}

/-- Without a ring a world of several processes shares every sequence among all of them. -/
theorem one_lt_spWorldSize (several : 1 < world.worldSize) (noRing : ¬1 < world.rpWorldSize) :
    1 < world.spWorldSize := by
  have positive := world.rp_pos
  have one : world.rpWorldSize = 1 := by omega
  rw [World.worldSize, one, Nat.mul_one] at several
  exact several

theorem pad_ne_nil (several : 1 < world.worldSize) (paddingValue : α)
    (some : packed.values ≠ []) :
    Trainers.pad (world.group several) paddingValue packed.positionIds packed.values ≠ [] := by
  intro empty
  apply some
  by_cases ring : 1 < world.rpWorldSize
  · rw [pad_values_ring several ring, flatten_eq_nil_iff] at empty
    rw [← flatten_sequences packed, flatten_eq_nil_iff]
    intro sequence isSequence
    have padded := empty _ (mem_map_of_mem isSequence)
    rw [doPad_eq] at padded
    exact (append_eq_nil_iff.mp padded).1
  · have noRing : ¬1 < (world.group several).rpWorldSize := ring
    rw [pad_row noRing] at empty
    exact (append_eq_nil_iff.mp empty).1

/-- The positions are padded to sequences when the tensor has an element. -/
theorem sequenceLengths_padded_ne_nil (several : 1 < world.worldSize)
    (some : packed.values ≠ []) :
    sequenceLengths
      (Trainers.pad (world.group several) (-1) packed.positionIds packed.positionIds) ≠ [] := by
  obtain ⟨sequences, isPadded⟩ := exists_isPadded several some
  obtain ⟨value, isValue⟩ := exists_mem_of_ne_nil _ some
  have length : (Trainers.pad (world.group several) value packed.positionIds
      packed.values).length = _ := length_pad several value
  intro none
  rw [isPadded.flatten, sequenceLengths_flatten isPadded.each, map_eq_nil_iff] at none
  rw [isPadded.flatten, none, flatten_nil, length_nil, length_eq_zero_iff] at length
  exact pad_ne_nil several value some length

/-- Every process finds its part. -/
theorem splitAll_eq_ok (several : 1 < world.worldSize) (paddingValue : α)
    (some : packed.values ≠ []) :
    world.splitAll (Trainers.pad (world.group several) (-1) packed.positionIds packed.positionIds)
        (Trainers.pad (world.group several) paddingValue packed.positionIds packed.values) =
      .ok (localParts (world.group several)
        (Trainers.pad (world.group several) (-1) packed.positionIds packed.positionIds)
        (Trainers.pad (world.group several) paddingValue packed.positionIds packed.values)) := by
  obtain ⟨sequences, isPadded⟩ := exists_isPadded several some
  apply mapM_eq_ok_map
  intro rpRank isRp
  apply mapM_eq_ok_map
  intro spRank isSp
  rw [World.split, dif_pos several, if_neg (pad_ne_nil several paddingValue some),
    split_eq_ok isPadded (length_pad several paddingValue)]
  rfl

theorem map_localParts (f : α → α) (par : Parallel) (positionIds : List ℤ) (input : List α) :
    ((localParts par positionIds input).map fun ranks => ranks.map (map f)) =
      localParts par positionIds (input.map f) := by
  simp only [localParts, map_map]
  apply map_congr_left
  intro rpRank isRp
  simp only [Function.comp_apply, map_map]
  apply map_congr_left
  intro spRank isSp
  exact map_localPart f par positionIds input rpRank spRank

section

variable (several : 1 < world.worldSize)
include several

/-- The values of a padded tensor that a ring gathers are those that it stores. -/
theorem gather_ring (ring : 1 < world.rpWorldSize) (some : packed.values ≠ []) :
    world.gather store zero
        (Trainers.pad (world.group several) (-1) packed.positionIds packed.positionIds)
        (localParts (world.group several)
          (Trainers.pad (world.group several) (-1) packed.positionIds packed.positionIds)
          (Trainers.pad (world.group several) paddingValue packed.positionIds packed.values)) =
      .ok ((Trainers.pad (world.group several) paddingValue packed.positionIds
        packed.values).map store) := by
  obtain ⟨sequences, isPadded⟩ := exists_isPadded several some
  have someSequence := sequenceLengths_padded_ne_nil several some
  have positions : world.pad (-1)
      (Trainers.pad (world.group several) (-1) packed.positionIds packed.positionIds)
      (Trainers.pad (world.group several) (-1) packed.positionIds packed.positionIds) =
        .ok (Trainers.pad (world.group several) (-1)
          (Trainers.pad (world.group several) (-1) packed.positionIds packed.positionIds)
          (Trainers.pad (world.group several) (-1) packed.positionIds packed.positionIds)) := by
    rw [World.pad, dif_pos several, if_neg fun fails => someSequence fails.2]
  rw [World.gather, dif_pos several, if_pos ring]
  refine bind_eq_ok.mpr ⟨_, positions, ?_⟩
  rw [map_localParts, gather_localParts zero isPadded]
  rw [length_map, length_pad]

theorem gather_row (noRing : ¬1 < world.rpWorldSize) (some : packed.values ≠ []) :
    world.gather store zero
        (Trainers.pad (world.group several) (-1) packed.positionIds packed.positionIds)
        (localParts (world.group several)
          (Trainers.pad (world.group several) (-1) packed.positionIds packed.positionIds)
          (Trainers.pad (world.group several) paddingValue packed.positionIds packed.values)) =
      .ok (Trainers.pad (world.group several) paddingValue packed.positionIds packed.values) := by
  obtain ⟨sequences, isPadded⟩ := exists_isPadded several some
  rw [World.gather, dif_pos several, if_neg noRing,
    gather_localParts zero isPadded (length_pad several paddingValue)]

/-- The values of the padded tensor. -/
theorem mem_pad_ring (ring : 1 < world.rpWorldSize) (value : α) :
    value ∈ Trainers.pad (world.group several) paddingValue packed.positionIds packed.values ↔
      value ∈ packed.values ∨
        (value = paddingValue ∧ ∃ length ∈ packed.lengths, ¬world.worldSize * 2 ∣ length) := by
  have positive : 0 < world.worldSize * 2 := by omega
  have isLengths : ∀ length, length ∈ packed.someLengths ↔ length ∈ packed.lengths ∧ 0 < length := by
    intro length
    rw [PackedTensor.someLengths, mem_filter, decide_eq_true_iff]
  rw [pad_values_ring several ring, List.mem_flatten, ← flatten_sequences packed, List.mem_flatten]
  constructor
  · rintro ⟨padded, isPadded, isValue⟩
    obtain ⟨sequence, isSequence, rfl⟩ := mem_map.mp isPadded
    rw [doPad_eq, mem_append, mem_replicate] at isValue
    rcases isValue with own | ⟨some, isPadding⟩
    · exact Or.inl ⟨sequence, isSequence, own⟩
    · have isLength : sequence.length ∈ packed.someLengths := by
        rw [← map_length_sequences]
        exact mem_map_of_mem isSequence
      refine Or.inr ⟨isPadding, sequence.length, ((isLengths _).mp isLength).1, ?_⟩
      rwa [← padCount_eq_zero_iff positive]
  · rintro (⟨sequence, isSequence, own⟩ | ⟨rfl, length, isLength, uneven⟩)
    · refine ⟨_, mem_map_of_mem isSequence, ?_⟩
      rw [doPad_eq]
      exact mem_append_left _ own
    · have someLength : length ∈ packed.someLengths := by
        refine (isLengths length).mpr ⟨isLength, Nat.pos_of_ne_zero ?_⟩
        rintro rfl
        exact uneven (dvd_zero _)
      rw [← map_length_sequences] at someLength
      obtain ⟨sequence, isSequence, rfl⟩ := mem_map.mp someLength
      refine ⟨_, mem_map_of_mem isSequence, ?_⟩
      rw [doPad_eq]
      apply mem_append_right
      rw [mem_replicate]
      exact ⟨fun none => uneven ((padCount_eq_zero_iff positive).mp none), rfl⟩

theorem map_store_eq_iff (ring : 1 < world.rpWorldSize) :
    (Trainers.pad (world.group several) paddingValue packed.positionIds packed.values).map store =
        Trainers.pad (world.group several) paddingValue packed.positionIds packed.values ↔
      StoresExactly world store paddingValue packed := by
  have each : (Trainers.pad (world.group several) paddingValue packed.positionIds
      packed.values).map store = (Trainers.pad (world.group several) paddingValue
        packed.positionIds packed.values).map id ↔ _ := map_inj_left
  rw [map_id] at each
  rw [each]
  simp only [mem_pad_ring several ring, id]
  constructor
  · intro exact
    exact ⟨fun value isValue => exact value (Or.inl isValue),
      fun uneven => exact paddingValue (Or.inr ⟨rfl, uneven⟩)⟩
  · rintro ⟨values, padding⟩ value (isValue | ⟨rfl, uneven⟩)
    · exact values value isValue
    · exact padding uneven

/-- A tensor without elements is not split in a world of several processes. -/
theorem not_gathersBack_of_nil (empty : packed.values = []) :
    ¬GathersBack world store zero paddingValue packed := by
  rintro ⟨padded, paddedPositions, parts, isPadded, isPositions, isParts, -, -⟩
  have noSequence : sequenceLengths packed.positionIds = [] := by
    rw [sequenceLengths_positionIds]
    exact (someLengths_eq_nil_iff packed).mpr empty
  by_cases ring : 1 < world.rpWorldSize
  · rw [World.pad, dif_pos several, if_pos ⟨ring, noSequence⟩] at isPadded
    cases isPadded
  · have noRing : ¬1 < (world.group several).rpWorldSize := ring
    have noPadding : padCount (world.group several).worldSize 0 = 0 :=
      (padCount_eq_zero_iff (world.group several).worldSize_pos).mpr (dvd_zero _)
    rw [World.pad, dif_pos several, if_neg fun fails => ring fails.1, empty, pad_row noRing,
      length_nil, noPadding, replicate_zero, append_nil] at isPadded
    obtain rfl := Except.ok.inj isPadded
    have secondRank : 1 ∈ range world.spWorldSize :=
      mem_range.mpr (one_lt_spWorldSize several ring)
    obtain ⟨ranks, isRanks⟩ := succeeds_of_mapM_eq_ok isParts (mem_range.mpr world.rp_pos)
    obtain ⟨part, isPart⟩ := succeeds_of_mapM_eq_ok isRanks secondRank
    rw [World.split, dif_pos several, if_pos rfl, if_neg ring, if_neg Nat.one_ne_zero] at isPart
    cases isPart

/-- A tensor with an element comes back in a world of several processes, if not in a ring, or
if the default type has its values. -/
theorem gathersBack_several_iff (some : packed.values ≠ []) :
    GathersBack world store zero paddingValue packed ↔
      world.rpWorldSize = 1 ∨ StoresExactly world store paddingValue packed := by
  have positive := world.rp_pos
  have isPadded : world.pad paddingValue packed.positionIds packed.values =
      .ok (Trainers.pad (world.group several) paddingValue packed.positionIds packed.values) := by
    rw [World.pad, dif_pos several, if_neg]
    rintro ⟨-, none⟩
    rw [sequenceLengths_positionIds] at none
    exact some ((someLengths_eq_nil_iff packed).mp none)
  have isPositions : world.pad (-1) packed.positionIds packed.positionIds =
      .ok (Trainers.pad (world.group several) (-1) packed.positionIds packed.positionIds) := by
    rw [World.pad, dif_pos several, if_neg]
    rintro ⟨-, none⟩
    rw [sequenceLengths_positionIds] at none
    exact some ((someLengths_eq_nil_iff packed).mp none)
  have isParts := splitAll_eq_ok several paddingValue some
  have unpadded : world.unpad packed.positionIds
      (Trainers.pad (world.group several) (-1) packed.positionIds packed.positionIds)
      (Trainers.pad (world.group several) paddingValue packed.positionIds packed.values) =
        packed.values := unpad_pad several paddingValue
  by_cases ring : 1 < world.rpWorldSize
  · rw [← map_store_eq_iff several ring, or_iff_right (by omega)]
    constructor
    · rintro ⟨padded, paddedPositions, parts, isPadded', isPositions', isParts', isGathered, -⟩
      rw [isPadded] at isPadded'
      rw [isPositions] at isPositions'
      obtain rfl := Except.ok.inj isPadded'
      obtain rfl := Except.ok.inj isPositions'
      rw [isParts] at isParts'
      obtain rfl := Except.ok.inj isParts'
      rw [gather_ring several ring some] at isGathered
      exact Except.ok.inj isGathered
    · intro exact
      refine ⟨_, _, _, isPadded, isPositions, isParts, ?_, unpadded⟩
      rw [gather_ring several ring some, exact]
  · rw [iff_true_right (Or.inl (by omega))]
    exact ⟨_, _, _, isPadded, isPositions, isParts, gather_row several ring some, unpadded⟩

end

/-- A process of its own has the whole tensor. -/
theorem gathersBack_of_one (one : world.worldSize = 1) :
    GathersBack world store zero paddingValue packed := by
  have single : ¬1 < world.worldSize := by omega
  have sp : world.spWorldSize = 1 := Nat.eq_one_of_mul_eq_one_right one
  have rp : world.rpWorldSize = 1 := Nat.eq_one_of_mul_eq_one_left one
  have padded : ∀ {β : Type} (value : β) (positionIds : List ℤ) (tensor : List β),
      world.pad value positionIds tensor = .ok tensor := by
    intro β value positionIds tensor
    rw [World.pad, dif_neg single, one, doPad_of_dvd (one_dvd _)]
  refine ⟨packed.values, packed.positionIds, [[packed.values]], padded _ _ _, padded _ _ _, ?_,
    ?_, ?_⟩
  · rw [World.splitAll, rp, sp]
    simp only [World.split, dif_neg single]
    rfl
  · rw [World.gather, dif_neg single]
    simp
  · rw [World.unpad, if_neg (by omega), length_positionIds, take_length]

end Gather

def ringOfTwo : World where
  spWorldSize := 1
  rpWorldSize := 2
  sp_pos := Nat.one_pos
  rp_pos := Nat.two_pos

/-- A float of 32 bits has the even integers between `2 ^ 24` and `2 ^ 25`, and rounds an odd
one to the multiple of four beside it. -/
def storeFloat32 (value : ℤ) : ℤ :=
  if 2 ^ 24 < value ∧ value < 2 ^ 25 then
    if value % 4 = 3 then value + 1 else value / 2 * 2
  else value

/-- One sequence of four integers. -/
def largeIntegers : PackedTensor ℤ where
  lengths := [4]
  values := [5, 16777217, 7, -100]
  same := by decide

end Geobench.Trainers
