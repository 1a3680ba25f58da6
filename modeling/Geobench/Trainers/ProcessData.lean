import Geobench.Library.ListSlices
import Mathlib.Tactic.Ring

/-!
# Sharing a list among processes

Three functions of the trainers divide a list, each by arithmetic of its own: `chunkList`
for the workers of a rollout server, `getEvenProcessData` for the processes, and the loop
of `spgChunks` for the steps of a generation. All three give the even shares of the list
(`chunkList_eq`, `map_getEvenProcessData`, `spgChunks_eq`). With the padding that
`rolloutPadCount` asks for, all processes have as many samples (**`getEvenProcessData_even`**).

A list of lists stands for a list on each process, in the order of the process indices,
and `gatherObject` is what every process has after a gather.
-/

namespace Geobench.Trainers

open Library

universe u

variable {α : Type u}

/-- What every process has after a gather. -/
def gatherObject (processes : List (List α)) : List α := processes.flatten

/-! ## Chunks -/

def chunkList (items : List α) (n : ℕ) : List (List α) :=
  let k := items.length / n
  let r := items.length % n
  (List.range n).map fun i => slice items (i * k + min i r) ((i + 1) * k + min (i + 1) r)

theorem chunkList_eq (items : List α) (n : ℕ) : chunkList items n = evenShares n items := rfl

example : chunkList [1, 2, 3, 4, 5, 6] 4 = [[1, 2], [3, 4], [5], [6]] := by decide

/-! ## The part of a process -/

def getEvenProcessData (numProcs procIdx : ℕ) (globalData : List α) : List α :=
  let total := globalData.length
  let baseSize := total / numProcs
  let remainder := total % numProcs
  if procIdx < remainder then
    let start := procIdx * (baseSize + 1)
    slice globalData start (start + baseSize + 1)
  else
    let start := remainder * (baseSize + 1) + (procIdx - remainder) * baseSize
    slice globalData start (start + baseSize)

theorem getEvenProcessData_eq (numProcs procIdx : ℕ) (globalData : List α) :
    getEvenProcessData numProcs procIdx globalData =
      slice globalData (evenCut globalData.length numProcs procIdx)
        (evenCut globalData.length numProcs (procIdx + 1)) := by
  rw [getEvenProcessData, evenCut_succ, evenCut]
  dsimp only
  split
  · rename_i early
    rw [Nat.min_eq_left (Nat.le_of_lt early), Nat.mul_add_one, Nat.add_assoc]
  · rename_i late
    have start : globalData.length % numProcs * (globalData.length / numProcs + 1) +
          (procIdx - globalData.length % numProcs) * (globalData.length / numProcs) =
        procIdx * (globalData.length / numProcs) + globalData.length % numProcs := by
      obtain ⟨later, rfl⟩ := Nat.exists_eq_add_of_le (Nat.le_of_not_lt late)
      rw [Nat.add_sub_cancel_left, Nat.add_mul]
      ring
    rw [Nat.min_eq_right (Nat.le_of_not_lt late), start, Nat.add_zero]

theorem map_getEvenProcessData (numProcs : ℕ) (globalData : List α) :
    (List.range numProcs).map (fun procIdx => getEvenProcessData numProcs procIdx globalData) =
      evenShares numProcs globalData :=
  List.map_congr_left fun procIdx _ => getEvenProcessData_eq numProcs procIdx globalData

variable (globalData : List α)

theorem getEvenProcessData_eq_getElem {numProcs procIdx : ℕ}
    (inside : procIdx < (evenShares numProcs globalData).length) :
    getEvenProcessData numProcs procIdx globalData = (evenShares numProcs globalData)[procIdx] := by
  rw [getEvenProcessData_eq, getElem_evenShares]

theorem length_getEvenProcessData {numProcs procIdx : ℕ} (inside : procIdx < numProcs) :
    (getEvenProcessData numProcs procIdx globalData).length =
      globalData.length / numProcs + if procIdx < globalData.length % numProcs then 1 else 0 := by
  rw [getEvenProcessData_eq_getElem globalData (by rwa [length_evenShares]),
    length_getElem_evenShares]

/-- `trainer.rollout_pad_count`, which the call sets -/
def rolloutPadCount (numProcs procIdx total : ℕ) : ℕ :=
  let remainder := total % numProcs
  if remainder > 0 ∧ procIdx ≥ remainder then 1 else 0

theorem padded_length {numProcs procIdx : ℕ} (inside : procIdx < numProcs) :
    (getEvenProcessData numProcs procIdx globalData).length +
        rolloutPadCount numProcs procIdx globalData.length =
      globalData.length / numProcs + if globalData.length % numProcs = 0 then 0 else 1 := by
  rw [length_getEvenProcessData globalData inside, rolloutPadCount]
  split_ifs <;> omega

/-- **The processes get the parts of the data in order, as even as can be, and all of them the
same number of samples with the padding.** -/
theorem getEvenProcessData_even (numProcs : ℕ) (positive : 0 < numProcs) (globalData : List α) :
    (∃ cut : ℕ → ℕ, Monotone cut ∧ cut 0 = 0 ∧ cut numProcs = globalData.length ∧
      ∀ procIdx < numProcs, getEvenProcessData numProcs procIdx globalData =
        slice globalData (cut procIdx) (cut (procIdx + 1))) ∧
    ((List.range numProcs).map fun procIdx =>
      getEvenProcessData numProcs procIdx globalData).flatten = globalData ∧
    ∀ procIdx < numProcs, ∀ other < numProcs,
      (getEvenProcessData numProcs procIdx globalData).length ≤
          (getEvenProcessData numProcs other globalData).length + 1 ∧
        (getEvenProcessData numProcs procIdx globalData).length +
            rolloutPadCount numProcs procIdx globalData.length =
          (getEvenProcessData numProcs other globalData).length +
            rolloutPadCount numProcs other globalData.length := by
  refine ⟨⟨evenCut globalData.length numProcs, evenCut_monotone _ _, evenCut_zero _ _,
    evenCut_parts _ positive, fun procIdx _ => getEvenProcessData_eq numProcs procIdx globalData⟩,
    ?_, fun procIdx inside other insideOther => ⟨?_, ?_⟩⟩
  · rw [map_getEvenProcessData, flatten_evenShares positive]
  · rw [length_getEvenProcessData globalData inside,
      length_getEvenProcessData globalData insideOther]
    split_ifs <;> omega
  · rw [padded_length globalData inside, padded_length globalData insideOther]

/-- Five samples for three processes. -/
theorem getEvenProcessData_even_five :
    0 < 3 ∧ ((List.range 3).map fun procIdx =>
      getEvenProcessData 3 procIdx [1, 2, 3, 4, 5]).flatten = [1, 2, 3, 4, 5] :=
  ⟨by decide, (getEvenProcessData_even 3 (by decide) [1, 2, 3, 4, 5]).2.1⟩

/-! ## Steps of a generation -/

/-- Take the next chunk. The state is the chunks so far and where the next one starts. -/
def spgStep (inputs : List α) (chunkSize remainder : ℕ) (state : List (List α) × ℕ) (i : ℕ) :
    List (List α) × ℕ :=
  let currentChunkSize := chunkSize + if i < remainder then 1 else 0
  let endIdx := state.2 + currentChunkSize
  (state.1 ++ [slice inputs state.2 endIdx], endIdx)

def spgChunks (spg : ℕ) (inputs : List α) : List (List α) :=
  ((List.range spg).foldl (spgStep inputs (inputs.length / spg) (inputs.length % spg)) ([], 0)).1

/-- After some chunks, these are the slices between the even cuts. -/
theorem foldl_spgStep (spg : ℕ) (inputs : List α) (steps : ℕ) :
    (List.range steps).foldl (spgStep inputs (inputs.length / spg) (inputs.length % spg)) ([], 0) =
      (cutAt (evenCut inputs.length spg) steps inputs, evenCut inputs.length spg steps) := by
  induction steps with
  | zero => rw [evenCut_zero]; rfl
  | succ steps ih =>
    rw [List.range_succ, List.foldl_append, ih, List.foldl_cons, List.foldl_nil, spgStep,
      cutAt_succ, evenCut_succ]

theorem spgChunks_eq (spg : ℕ) (inputs : List α) : spgChunks spg inputs = evenShares spg inputs :=
  congrArg Prod.fst (foldl_spgStep spg inputs spg)

end Geobench.Trainers
