import Geobench.Library.ListSlices
import Mathlib.Data.Int.Cast.Basic

/-!
# Sequences packed into a row

Without padding the samples of a batch are put together to one row. The positions of a
sample begin at zero, and this is how the lengths of the sequences are found again
(`sequenceLengths_flatten`).
-/

namespace Geobench.Trainers

open Library List

/-! ## Positions -/

/-- The steps from every number to the next. -/
def diff : List ℕ → List ℕ
  | first :: second :: rest => (second - first) :: diff (second :: rest)
  | _ => []

/-- Where the sequences of a row begin. -/
def sequenceStarts (start : ℕ) : List ℤ → List ℕ
  | [] => []
  | position :: rest =>
    if position = 0 then start :: sequenceStarts (start + 1) rest
    else sequenceStarts (start + 1) rest

/-- The lengths of the sequences of a row, a sequence reaching as far as the next begins. -/
def sequenceLengths (positionIds : List ℤ) : List ℕ :=
  diff (sequenceStarts 0 positionIds ++ [positionIds.length])

def positionsOf (length : ℕ) : List ℤ := (List.range length).map Int.ofNat

/-- The positions of sequences that are packed into a row. -/
def packedPositionIds (lengths : List ℕ) : List ℤ := lengths.flatMap positionsOf

/-! ## The lengths of packed sequences -/

/-- Positions of one sequence: only the first is zero. -/
def IsSequence (positions : List ℤ) : Prop :=
  ∃ rest, positions = 0 :: rest ∧ ∀ position ∈ rest, position ≠ 0

theorem isSequence_positionsOf {length : ℕ} (some : 0 < length) :
    IsSequence (positionsOf length) := by
  obtain ⟨before, rfl⟩ := Nat.exists_eq_succ_of_ne_zero some.ne'
  refine ⟨(range before).map fun position => Int.ofNat (position + 1), ?_, ?_⟩
  · rw [positionsOf, range_succ_eq_map, map_cons, map_map]
    rfl
  · intro position isPosition
    obtain ⟨number, _, rfl⟩ := mem_map.mp isPosition
    exact Int.ofNat_ne_zero.mpr (Nat.succ_ne_zero number)

@[simp] theorem length_positionsOf (length : ℕ) : (positionsOf length).length = length := by
  rw [positionsOf, length_map, length_range]

variable (start : ℕ)

theorem sequenceStarts_append (before after : List ℤ) :
    sequenceStarts start (before ++ after) =
      sequenceStarts start before ++ sequenceStarts (start + before.length) after := by
  induction before generalizing start with
  | nil => rfl
  | cons position before ih =>
    have next : start + 1 + before.length = start + (position :: before).length := by
      rw [length_cons]
      omega
    simp only [cons_append, sequenceStarts, ih, next]
    split <;> rfl

theorem sequenceStarts_eq_nil {positions : List ℤ} (inside : ∀ position ∈ positions, position ≠ 0) :
    sequenceStarts start positions = [] := by
  induction positions generalizing start with
  | nil => rfl
  | cons position positions ih =>
    rw [sequenceStarts, if_neg (inside position mem_cons_self)]
    exact ih (start + 1) fun other isOther => inside other (mem_cons_of_mem _ isOther)

theorem sequenceStarts_of_isSequence {positions : List ℤ} (isSequence : IsSequence positions) :
    sequenceStarts start positions = [start] := by
  obtain ⟨rest, rfl, inside⟩ := isSequence
  rw [sequenceStarts, if_pos rfl, sequenceStarts_eq_nil (start + 1) inside]

variable {sequences : List (List ℤ)}

section

variable (each : ∀ positions ∈ sequences, IsSequence positions)
include each

/-- The places where packed sequences begin and end are found again. -/
theorem sequenceStarts_flatten :
    sequenceStarts start sequences.flatten ++ [start + sequences.flatten.length] =
      (places (sequences.map length)).map (start + ·) := by
  induction sequences generalizing start with
  | nil => rfl
  | cons positions sequences ih =>
    have rest := ih (start + positions.length) fun other isOther =>
      each other (mem_cons_of_mem _ isOther)
    rw [flatten_cons, sequenceStarts_append,
      sequenceStarts_of_isSequence start (each positions mem_cons_self), length_append,
      ← Nat.add_assoc, append_assoc, rest, map_cons, places_cons, map_cons, map_map]
    simp [Function.comp_def, Nat.add_assoc]

/-- The lengths of packed sequences are found again, from any place in a row. -/
theorem diff_sequenceStarts :
    ∃ rest, sequenceStarts start sequences.flatten ++ [start + sequences.flatten.length] =
        start :: rest ∧
      diff (start :: rest) = sequences.map length := by
  induction sequences generalizing start with
  | nil => exact ⟨[], rfl, rfl⟩
  | cons positions sequences ih =>
    obtain ⟨rest, isRest, lengths⟩ := ih (start + positions.length) fun other isOther =>
      each other (mem_cons_of_mem _ isOther)
    refine ⟨(start + positions.length) :: rest, ?_, ?_⟩
    · rw [flatten_cons, sequenceStarts_append,
        sequenceStarts_of_isSequence start (each positions mem_cons_self),
        length_append, ← Nat.add_assoc, append_assoc, isRest]
      rfl
    · rw [diff, lengths, Nat.add_sub_cancel_left, map_cons]

theorem sequenceLengths_flatten :
    sequenceLengths sequences.flatten = sequences.map length := by
  obtain ⟨rest, isRest, lengths⟩ := diff_sequenceStarts 0 each
  rw [Nat.zero_add] at isRest
  rw [sequenceLengths, isRest, lengths]

end

/-- The lengths of the samples are found again in their packed positions. -/
theorem sequenceLengths_packed {lengths : List ℕ} (some : ∀ length ∈ lengths, 0 < length) :
    sequenceLengths (packedPositionIds lengths) = lengths := by
  have each : ∀ positions ∈ lengths.map positionsOf, IsSequence positions := by
    intro positions isPositions
    obtain ⟨length, isLength, rfl⟩ := mem_map.mp isPositions
    exact isSequence_positionsOf (some length isLength)
  have same : length ∘ positionsOf = id := by
    funext length
    exact length_positionsOf length
  rw [packedPositionIds, flatMap_def, sequenceLengths_flatten each, map_map, same, map_id]

theorem length_packedPositionIds (lengths : List ℕ) :
    (packedPositionIds lengths).length = lengths.sum := by
  rw [packedPositionIds, length_flatMap]
  congr 1
  conv_rhs => rw [← map_id lengths]
  apply map_congr_left
  intro length isLength
  exact length_positionsOf length

end Geobench.Trainers
