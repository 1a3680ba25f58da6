import Geobench.Trainers.SplitGather

/-!
# Tensors split over context-parallel ranks and put together again

`splitCpInputs` cuts every packed segment of a row into twice as many chunks as there are ranks, and
gives a rank one chunk from the front and the mirrored one from the back.
`postprocessPackedTensorCp` gathers what the ranks have, and assigns the chunks to their places in a
tensor of zeros.

**`rebuilds_iff`**: this gives the tensor again on every rank, for every number of ranks and all
lengths that the chunks divide, unless there is nothing to put together: a row without segments, or
a batch without rows.
-/

namespace Geobench.Trainers

open Library List

variable {α : Type}

/-! ## Splitting -/

/-- The ranks of a context-parallel group. -/
structure CpGroup where
  cpSize : ℕ
  pos : 0 < cpSize

/-- A tensor of rows of one width. -/
structure CpTensor (α : Type) where
  rows : List (List α)
  width : ℕ
  same : ∀ row ∈ rows, row.length = width

section Splitting

variable (group : CpGroup) (cpRank : ℕ)

/-- The two chunks of a row that a rank selects. -/
def indexSelect (width : ℕ) (row : List α) : List α :=
  let size := width / (2 * group.cpSize)
  slice row (cpRank * size) ((cpRank + 1) * size) ++
    slice row ((2 * group.cpSize - cpRank - 1) * size) ((2 * group.cpSize - cpRank - 1 + 1) * size)

/-- What a rank has of a segment. The chunks must divide its width, and the width of the result is
not determined if there are no rows. -/
def splitSegment (width : ℕ) (rows : List (List α)) : Except TensorError (List (List α)) :=
  if rows.isEmpty ∨ ¬ 2 * group.cpSize ∣ width then .error .runtimeError
  else .ok (rows.map (indexSelect group cpRank width))

/-- `torch.cat` along the rows -/
def concatRows : List (List (List α)) → Except TensorError (List (List α))
  | [] => .error .runtimeError
  | first :: rest => .ok (rest.foldl (List.zipWith (· ++ ·)) first)

def segmentsOf (cuSeqlens : Option (List ℕ)) (inputs : CpTensor α) : List (ℕ × List (List α)) :=
  match cuSeqlens with
  | none => [(inputs.width, inputs.rows)]
  | some cuSeqlens =>
    (List.range (cuSeqlens.length - 1)).map fun i =>
      let start := cuSeqlens.getD i 0
      let stop := cuSeqlens.getD (i + 1) 0
      (min stop inputs.width - start, inputs.rows.map (slice · start stop))

/-- `split_cp_inputs` along the last dimension -/
def splitCpInputs (cuSeqlens : Option (List ℕ)) (inputs : CpTensor α) :
    Except TensorError (List (List α)) :=
  ((segmentsOf cuSeqlens inputs).mapM fun segment =>
    splitSegment group cpRank segment.1 segment.2).bind concatRows

end Splitting

/-! ## Putting together -/

/-- An assignment of values to the places between two bounds. -/
structure Assignment (α : Type) where
  start : ℕ
  stop : ℕ
  values : List α

/-- `output[start:stop] = values`, where a single value goes to all places. -/
def assign (output : List α) (assignment : Assignment α) : Except TensorError (List α) :=
  let stop := min assignment.stop output.length
  let size := stop - assignment.start
  if assignment.values.length = size then
    .ok (output.take assignment.start ++ assignment.values ++
      output.drop (assignment.start + size))
  else
    match assignment.values with
    | [value] =>
      .ok (output.take assignment.start ++ List.replicate size value ++
        output.drop (assignment.start + size))
    | _ => .error .runtimeError

section Rebuilding

variable (group : CpGroup) (zero : α)

/-- The assignments for a sample and a rank. -/
def packedAssignments (outputList : List (List (List α))) (cuSeqlensFull : List ℕ) (i j : ℕ) :
    List (Assignment α) :=
  let startFull := cuSeqlensFull.getD i 0
  let endFull := cuSeqlensFull.getD (i + 1) 0
  let chunkLen := (endFull - startFull) / group.cpSize
  let halfChunk := chunkLen / 2
  let o := (outputList.getD j []).headD []
  let startCp := startFull / group.cpSize
  [⟨startFull + j * halfChunk, startFull + (j + 1) * halfChunk,
      slice o startCp (startCp + halfChunk)⟩,
    ⟨endFull - (j + 1) * halfChunk, endFull - j * halfChunk,
      slice o (startCp + halfChunk) (startCp + chunkLen)⟩]

def rowAssignments (outputList : List (List (List α))) (seqLenPerCp b j : ℕ) :
    List (Assignment α) :=
  let chunkLen := seqLenPerCp * group.cpSize / (2 * group.cpSize)
  let halfLen := seqLenPerCp / 2
  let o := (outputList.getD j []).getD b []
  let reverseIdx := 2 * group.cpSize - j - 1
  [⟨j * chunkLen, (j + 1) * chunkLen, o.take halfLen⟩,
    ⟨reverseIdx * chunkLen, (reverseIdx + 1) * chunkLen, o.drop halfLen⟩]

/-- `_postprocess_packed_tensor_cp` on a rank, with what it has and what all ranks have -/
def postprocessPackedTensorCp (cpRank : ℕ) (tensor : List (List α))
    (gathered : List (List (List α))) (cuSeqlensFull : Option (List ℕ)) (numSamples : ℕ) :
    Except TensorError (List (List α)) :=
  let outputList := gathered.set cpRank tensor
  match cuSeqlensFull with
  | some cuSeqlensFull =>
    (((List.range numSamples).flatMap fun i => (List.range group.cpSize).flatMap fun j =>
      packedAssignments group outputList cuSeqlensFull i j).foldlM assign
        (List.replicate (cuSeqlensFull.getD numSamples 0) zero)).map fun row => [row]
  | none =>
    let seqLenPerCp := (tensor.headD []).length
    (List.range tensor.length).mapM fun b =>
      ((List.range group.cpSize).flatMap fun j =>
        rowAssignments group outputList seqLenPerCp b j).foldlM assign
          (List.replicate (seqLenPerCp * group.cpSize) zero)

end Rebuilding

/-! ## Round trips -/

/-- A tensor that can be split: packed segments in one row, or a batch of rows, whose lengths are
divided by the chunks. -/
inductive CpBatch (group : CpGroup) (α : Type) where
  | packed (segments : List (List α)) (divides : ∀ segment ∈ segments,
      2 * group.cpSize ∣ segment.length)
  | unpacked (tensor : CpTensor α) (divides : 2 * group.cpSize ∣ tensor.width)

namespace CpBatch

variable {group : CpGroup}

def tensor : CpBatch group α → CpTensor α
  | packed segments _ =>
    { rows := [segments.flatten]
      width := (segments.map List.length).sum
      same := by simp [length_flatten] }
  | unpacked tensor _ => tensor

/-- The places where the segments begin and end, if they are packed. -/
def cuSeqlens : CpBatch group α → Option (List ℕ)
  | packed segments _ => some ((List.range (segments.length + 1)).map
      (offset (segments.map List.length)))
  | unpacked _ _ => none

def numSamples : CpBatch group α → ℕ
  | packed segments _ => segments.length
  | unpacked tensor _ => tensor.rows.length

/-- Splitting gives each rank a part, and each rank puts the tensor together again. -/
def Rebuilds (zero : α) (batch : CpBatch group α) : Prop :=
  ∃ parts, ((List.range group.cpSize).mapM fun cpRank =>
      splitCpInputs group cpRank batch.cuSeqlens batch.tensor) = .ok parts ∧
    ∀ cpRank part, parts[cpRank]? = some part →
      postprocessPackedTensorCp group zero cpRank part parts batch.cuSeqlens batch.numSamples =
        .ok batch.tensor.rows

end CpBatch

/-! ## Assignments of pieces -/

/-- The assignment of a piece of a target to its place. -/
structure Assignment.Brings (target : List α) (assignment : Assignment α) : Prop where
  size : assignment.stop = assignment.start + assignment.values.length
  isPiece : IsPiece target (assignment.start, assignment.values)

variable {target : List α}

theorem assign_eq {output : List α} {assignment : Assignment α} (brings : assignment.Brings target)
    (sameLength : output.length = target.length) :
    assign output assignment = .ok (writeSlice output (assignment.start, assignment.values)) := by
  have inside := brings.isPiece.inside
  have size : min assignment.stop output.length - assignment.start = assignment.values.length := by
    have := brings.size
    dsimp only at inside
    omega
  simp only [assign, size, if_true]
  rfl

theorem foldlM_assign_eq {assignments : List (Assignment α)}
    (brings : ∀ assignment ∈ assignments, assignment.Brings target) {output : List α}
    (sameLength : output.length = target.length) :
    assignments.foldlM assign output = .ok ((assignments.map fun assignment =>
      (assignment.start, assignment.values)).foldl writeSlice output) := by
  induction assignments generalizing output with
  | nil => rfl
  | cons assignment rest ih =>
    have first := brings assignment mem_cons_self
    rw [foldlM_cons, assign_eq first sameLength]
    exact ih (fun other isOther => brings other (mem_cons_of_mem _ isOther))
      (length_writeSlice first.isPiece sameLength)

/-- Assignments of pieces that cover a target give the target. -/
theorem foldlM_assign_zeros {assignments : List (Assignment α)}
    (brings : ∀ assignment ∈ assignments, assignment.Brings target)
    (covered : ∀ place < target.length, ∃ assignment ∈ assignments,
      Covers (assignment.start, assignment.values) place) (zero : α) :
    assignments.foldlM assign (List.replicate target.length zero) = .ok target := by
  have sameLength : (List.replicate target.length zero).length = target.length :=
    length_replicate
  rw [foldlM_assign_eq brings sameLength]
  congr 1
  apply ext_getElem?
  intro place
  refine getElem?_foldl_writeSlice ?_ sameLength ?_
  · intro write isWrite
    obtain ⟨assignment, isAssignment, rfl⟩ := mem_map.mp isWrite
    exact (brings assignment isAssignment).isPiece
  · by_cases inside : place < target.length
    · obtain ⟨assignment, isAssignment, covers⟩ := covered place inside
      exact .inl ⟨_, mem_map_of_mem isAssignment, covers⟩
    · right
      rw [getElem?_eq_none (sameLength.symm ▸ not_lt.mp inside),
        getElem?_eq_none (not_lt.mp inside)]

/-! ## Chunks -/

section Chunks

variable {group : CpGroup} {size : ℕ} {items : List α}

def chunkAt (start size : ℕ) (items : List α) (index : ℕ) : Assignment α :=
  ⟨start + index * size, start + (index + 1) * size, slice items (index * size) ((index + 1) * size)⟩

variable (length : items.length = 2 * group.cpSize * size)
include length

theorem brings_chunkAt {index : ℕ} (inside : index < 2 * group.cpSize) (before after : List α) :
    (chunkAt before.length size items index).Brings (before ++ (items ++ after)) where
  size := by
    dsimp only [chunkAt]
    rw [length_part length inside, Nat.succ_mul, Nat.add_assoc]
  isPiece := by
    refine isPiece_of_slice before items after (Nat.mul_le_mul_right size (Nat.le_succ index)) ?_
    rw [length]
    exact Nat.mul_le_mul_right size inside

theorem exists_chunkAt (start : ℕ) {place : ℕ} (after : start ≤ place)
    (before : place < start + items.length) :
    ∃ j < group.cpSize, ∃ assignment ∈
      [chunkAt start size items j, chunkAt start size items (2 * group.cpSize - j - 1)],
      Covers (assignment.start, assignment.values) place := by
  have positive : 0 < size := by
    apply Nat.pos_of_ne_zero
    rintro rfl
    omega
  have isPart : (place - start) / size < 2 * group.cpSize := by
    rw [Nat.div_lt_iff_lt_mul positive, ← length]
    omega
  have covers := covers_part length isPart after rfl positive
  by_cases front : (place - start) / size < group.cpSize
  · exact ⟨_, front, _, mem_cons_self, covers⟩
  · refine ⟨2 * group.cpSize - 1 - (place - start) / size, by omega, _,
      mem_cons_of_mem _ mem_cons_self, ?_⟩
    have same : 2 * group.cpSize - (2 * group.cpSize - 1 - (place - start) / size) - 1 =
        (place - start) / size := by omega
    rw [same]
    exact covers

theorem indexSelect_eq_zigzagPart {cpRank : ℕ} (inside : cpRank < group.cpSize) :
    indexSelect group cpRank items.length items = zigzagPart group.cpSize cpRank items := by
  have width : items.length / (2 * group.cpSize) = size := by
    rw [length]
    exact Nat.mul_div_cancel_left size (Nat.mul_pos Nat.two_pos group.pos)
  rw [zigzagPart_eq length inside]
  simp only [indexSelect, width]

/-- Two chunks and what is assigned for them. -/
theorem take_drop_zigzagPart {cpRank : ℕ} (inside : cpRank < group.cpSize) :
    (zigzagPart group.cpSize cpRank items).take size =
        slice items (cpRank * size) ((cpRank + 1) * size) ∧
      (zigzagPart group.cpSize cpRank items).drop size =
        slice items ((2 * group.cpSize - cpRank - 1) * size)
          ((2 * group.cpSize - cpRank - 1 + 1) * size) := by
  have first := length_part length (show cpRank < 2 * group.cpSize by omega)
  rw [zigzagPart_eq length inside]
  exact ⟨take_left' first, drop_left' first⟩

end Chunks

/-! ## What the ranks have -/

section Parts

variable {group : CpGroup}

theorem splitSegment_eq {rows : List (List α)} {width size cpRank : ℕ} (some : rows ≠ [])
    (same : ∀ row ∈ rows, row.length = width) (divides : width = 2 * group.cpSize * size)
    (inside : cpRank < group.cpSize) :
    splitSegment group cpRank width rows = .ok (rows.map (zigzagPart group.cpSize cpRank)) := by
  have isDivided : 2 * group.cpSize ∣ width := ⟨size, divides⟩
  have notEmpty : rows.isEmpty = false := by simpa using some
  rw [splitSegment, if_neg (by simp [notEmpty, isDivided])]
  congr 1
  apply map_congr_left
  intro row isRow
  have length := same row isRow
  rw [← length]
  exact indexSelect_eq_zigzagPart (length.trans divides) inside

theorem concatRows_singletons {first : List α} {rest : List (List α)} :
    concatRows ((first :: rest).map fun row => [row]) = .ok [(first :: rest).flatten] := by
  have fold : ∀ before, (rest.map fun row => [row]).foldl (List.zipWith (· ++ ·)) [before] =
      [before ++ rest.flatten] := by
    induction rest with
    | nil => simp
    | cons row rest ih =>
      intro before
      rw [map_cons, foldl_cons]
      simpa using ih (before ++ row)
  rw [map_cons, concatRows, fold]
  rfl

def placesOf (segments : List (List α)) : List ℕ :=
  (List.range (segments.length + 1)).map (offset (segments.map List.length))

variable {i : ℕ}

theorem getD_placesOf (segments : List (List α)) (inside : i ≤ segments.length) :
    (placesOf segments).getD i 0 = offset (segments.map List.length) i := by
  rw [placesOf, getD_eq_getElem?_getD, getElem?_map, getElem?_range (Nat.lt_succ_of_le inside)]
  rfl

theorem offset_getElem (segments : List (List α)) (inside : i < segments.length) :
    offset (segments.map List.length) (i + 1) =
      offset (segments.map List.length) i + segments[i].length := by
  rw [offset_succ _ (by rwa [length_map]), getElem_map]

theorem segmentsOf_packed (segments : List (List α))
    (divides : ∀ segment ∈ segments, 2 * group.cpSize ∣ segment.length) :
    segmentsOf (CpBatch.packed segments divides).cuSeqlens
        (CpBatch.packed segments divides).tensor =
      segments.map fun segment => (segment.length, [segment]) := by
  apply ext_getElem
  · simp [segmentsOf, CpBatch.cuSeqlens]
  · intro i _ inside
    rw [length_map] at inside
    have bound := offset_getElem segments inside
    have last := offset_monotone (segments.map List.length)
      (show i + 1 ≤ (segments.map List.length).length by rwa [length_map])
    rw [offset_length] at last
    have isSegment := slice_offset segments inside
    have start := getD_placesOf segments (Nat.le_of_lt inside)
    have stop := getD_placesOf segments (show i + 1 ≤ segments.length from inside)
    rw [← bound] at isSegment
    rw [placesOf] at start stop
    simp only [segmentsOf, CpBatch.cuSeqlens, CpBatch.tensor, getElem_map, getElem_range,
      start, stop, map_cons, map_nil, isSegment, Prod.mk.injEq, and_true]
    omega

variable {segments : List (List α)}

/-- A rank has its parts of all segments. -/
theorem splitCpInputs_packed (some : segments ≠ [])
    (divides : ∀ segment ∈ segments, 2 * group.cpSize ∣ segment.length) {cpRank : ℕ}
    (inside : cpRank < group.cpSize) :
    splitCpInputs group cpRank (CpBatch.packed segments divides).cuSeqlens
        (CpBatch.packed segments divides).tensor =
      .ok [(segments.map (zigzagPart group.cpSize cpRank)).flatten] := by
  have each : ∀ segment ∈ segments, splitSegment group cpRank segment.length [segment] =
      .ok [zigzagPart group.cpSize cpRank segment] := by
    intro segment isSegment
    obtain ⟨size, length⟩ := divides segment isSegment
    exact splitSegment_eq (cons_ne_nil _ _) (by simp) length inside
  have all : (segmentsOf (CpBatch.packed segments divides).cuSeqlens
      (CpBatch.packed segments divides).tensor).mapM (fun segment =>
        splitSegment group cpRank segment.1 segment.2) =
      .ok ((segments.map (zigzagPart group.cpSize cpRank)).map fun row => [row]) := by
    rw [segmentsOf_packed, mapM_map, map_map]
    exact mapM_eq_ok_map each
  rw [splitCpInputs, all]
  cases segments with
  | nil => exact absurd rfl some
  | cons segment rest => exact concatRows_singletons

theorem splitCpInputs_unpacked {tensor : CpTensor α} (some : tensor.rows ≠ [])
    (divides : 2 * group.cpSize ∣ tensor.width) {cpRank : ℕ} (inside : cpRank < group.cpSize) :
    splitCpInputs group cpRank none tensor =
      .ok (tensor.rows.map (zigzagPart group.cpSize cpRank)) := by
  obtain ⟨size, width⟩ := divides
  rw [splitCpInputs, segmentsOf, mapM_cons, splitSegment_eq some tensor.same width inside]
  rfl

/-! ## What is put together -/

theorem slice_take_drop (row : List α) (start : ℕ) {half size : ℕ} (le : half ≤ size) :
    slice row start (start + half) = (slice row start (start + size)).take half ∧
      slice row (start + half) (start + size) = (slice row start (start + size)).drop half := by
  constructor
  · rw [slice, slice, take_drop, take_take, Nat.add_min_add_left, Nat.min_eq_left le]
  · rw [slice, slice, drop_drop]

variable {j : ℕ}

theorem slice_parts (divides : ∀ segment ∈ segments, 2 * group.cpSize ∣ segment.length) {size : ℕ}
    (isRank : j < group.cpSize) (inside : i < segments.length)
    (length : segments[i].length = 2 * group.cpSize * size) :
    slice (segments.map (zigzagPart group.cpSize j)).flatten
        (offset (segments.map List.length) i / group.cpSize)
        (offset (segments.map List.length) i / group.cpSize + 2 * size) =
      zigzagPart group.cpSize j segments[i] := by
  have lengths : segments.map List.length =
      ((segments.map (zigzagPart group.cpSize j)).map List.length).map (group.cpSize * ·) := by
    rw [map_map, map_map]
    apply map_congr_left
    intro segment isSegment
    obtain ⟨size, length⟩ := divides segment isSegment
    simp only [Function.comp_apply, length_zigzagPart length isRank, length]
    rw [Nat.mul_comm 2, Nat.mul_assoc]
  have scaled : offset (segments.map List.length) i / group.cpSize =
      offset ((segments.map (zigzagPart group.cpSize j)).map List.length) i := by
    rw [lengths, offset, offset, ← map_take, sum_map_mul_left, map_id',
      Nat.mul_div_cancel_left _ group.pos]
  have isPart := slice_offset (segments.map (zigzagPart group.cpSize j))
    (show i < (segments.map (zigzagPart group.cpSize j)).length by rwa [length_map])
  rw [getElem_map, length_zigzagPart length isRank, ← scaled] at isPart
  exact isPart

theorem packedAssignments_eq (divides : ∀ segment ∈ segments, 2 * group.cpSize ∣ segment.length)
    {size : ℕ} (isRank : j < group.cpSize) (inside : i < segments.length)
    (length : segments[i].length = 2 * group.cpSize * size) {outputList : List (List (List α))}
    (output : outputList.getD j [] = [(segments.map (zigzagPart group.cpSize j)).flatten]) :
    packedAssignments group outputList (placesOf segments) i j =
      [chunkAt (offset (segments.map List.length) i) size segments[i] j,
        chunkAt (offset (segments.map List.length) i) size segments[i]
          (2 * group.cpSize - j - 1)] := by
  have start := getD_placesOf segments (Nat.le_of_lt inside)
  have stop := getD_placesOf segments (show i + 1 ≤ segments.length from inside)
  rw [offset_getElem segments inside, length] at stop
  have chunkLen : 2 * group.cpSize * size / group.cpSize = 2 * size := by
    rw [Nat.mul_right_comm, Nat.mul_div_cancel _ group.pos]
  have half : 2 * size / 2 = size := Nat.mul_div_cancel_left size Nat.two_pos
  obtain ⟨front, back⟩ := take_drop_zigzagPart length isRank
  rw [← slice_parts divides isRank inside length] at front back
  have firstHalf := (slice_take_drop (segments.map (zigzagPart group.cpSize j)).flatten
    (offset (segments.map List.length) i / group.cpSize) (show size ≤ 2 * size by omega)).1
  have secondHalf := (slice_take_drop (segments.map (zigzagPart group.cpSize j)).flatten
    (offset (segments.map List.length) i / group.cpSize) (show size ≤ 2 * size by omega)).2
  have mirrored : 2 * group.cpSize * size =
      (2 * group.cpSize - j - 1) * size + (j + 1) * size := by
    rw [← Nat.add_mul]
    congr 1
    omega
  have nextRank : (j + 1) * size = j * size + size := Nat.succ_mul j size
  have nextMirrored : (2 * group.cpSize - j - 1 + 1) * size =
      (2 * group.cpSize - j - 1) * size + size := Nat.succ_mul _ size
  simp only [packedAssignments, start, stop, Nat.add_sub_cancel_left, chunkLen, half, output,
    headD_cons, firstHalf, secondHalf, front, back, chunkAt, List.cons.injEq,
    Assignment.mk.injEq, and_true, true_and]
  omega

theorem rowAssignments_eq {row : List α} {b size : ℕ} (isRank : j < group.cpSize)
    (length : row.length = 2 * group.cpSize * size) {outputList : List (List (List α))}
    (output : (outputList.getD j []).getD b [] = zigzagPart group.cpSize j row) :
    rowAssignments group outputList (2 * size) b j =
      [chunkAt 0 size row j, chunkAt 0 size row (2 * group.cpSize - j - 1)] := by
  have chunkLen : 2 * size * group.cpSize / (2 * group.cpSize) = size := by
    rw [Nat.mul_right_comm, Nat.mul_div_cancel_left _ (Nat.mul_pos Nat.two_pos group.pos)]
  have half : 2 * size / 2 = size := Nat.mul_div_cancel_left size Nat.two_pos
  obtain ⟨front, back⟩ := take_drop_zigzagPart length isRank
  simp only [rowAssignments, chunkLen, half, output, front, back, chunkAt, Nat.zero_add]

theorem assign_chunks (segments : List (List α)) {assignments : ℕ → ℕ → List (Assignment α)}
    (each : ∀ i (inside : i < segments.length), ∃ size,
      segments[i].length = 2 * group.cpSize * size ∧ ∀ j < group.cpSize, assignments i j =
        [chunkAt (offset (segments.map List.length) i) size segments[i] j,
          chunkAt (offset (segments.map List.length) i) size segments[i]
            (2 * group.cpSize - j - 1)]) (zero : α) :
    ((List.range segments.length).flatMap fun i => (List.range group.cpSize).flatMap fun j =>
      assignments i j).foldlM assign (List.replicate segments.flatten.length zero) =
        .ok segments.flatten := by
  refine foldlM_assign_zeros ?_ ?_ zero
  · intro assignment isAssignment
    obtain ⟨i, isIndex, isAssignment⟩ := mem_flatMap.mp isAssignment
    obtain ⟨j, isRank, isAssignment⟩ := mem_flatMap.mp isAssignment
    rw [mem_range] at isIndex isRank
    obtain ⟨size, length, chunks⟩ := each i isIndex
    have parts : segments.flatten = (segments.take i).flatten ++
        (segments[i] ++ (segments.drop (i + 1)).flatten) := by
      conv_lhs => rw [← take_append_drop i segments, drop_eq_getElem_cons isIndex,
        flatten_append, flatten_cons]
    have start : offset (segments.map List.length) i = (segments.take i).flatten.length := by
      rw [offset, length_flatten, map_take]
    rw [chunks j isRank, start] at isAssignment
    rw [parts]
    rcases mem_pair.mp isAssignment with rfl | rfl
    · exact brings_chunkAt length (by omega) _ _
    · exact brings_chunkAt length (by omega) _ _
  · intro place inside
    obtain ⟨i, isIndex, within, isWithin, rfl⟩ := exists_offset segments inside
    obtain ⟨size, length, chunks⟩ := each i isIndex
    obtain ⟨j, isRank, assignment, isAssignment, covers⟩ := exists_chunkAt length
      (offset (segments.map List.length) i) (Nat.le_add_right _ within)
      (Nat.add_lt_add_left isWithin _)
    refine ⟨assignment, mem_flatMap.mpr ⟨i, mem_range.mpr isIndex,
      mem_flatMap.mpr ⟨j, mem_range.mpr isRank, ?_⟩⟩, covers⟩
    rw [chunks j isRank]
    exact isAssignment

/-- The chunks of all ranks give a row. -/
theorem assign_row {row : List α} {size : ℕ} (length : row.length = 2 * group.cpSize * size)
    {assignments : ℕ → List (Assignment α)}
    (each : ∀ j < group.cpSize, assignments j =
      [chunkAt 0 size row j, chunkAt 0 size row (2 * group.cpSize - j - 1)]) (zero : α) :
    ((List.range group.cpSize).flatMap assignments).foldlM assign
      (List.replicate row.length zero) = .ok row := by
  have whole : ((List.range [row].length).flatMap fun _ =>
      (List.range group.cpSize).flatMap assignments).foldlM assign
        (List.replicate [row].flatten.length zero) = .ok [row].flatten := by
    refine assign_chunks [row] (fun i inside => ⟨size, ?_⟩) zero
    obtain rfl : i = 0 := by simpa using inside
    exact ⟨length, each⟩
  simpa using whole

theorem getD_parts {parts : List (List (List α))} {part : ℕ → List (List α)} {cpRank : ℕ}
    {own : List (List α)} (all : parts = (List.range group.cpSize).map part)
    (isOwn : parts[cpRank]? = some own) (isRank : j < group.cpSize) :
    (parts.set cpRank own).getD j [] = part j := by
  have unchanged : parts.set cpRank own = parts := by
    obtain ⟨inside, rfl⟩ := List.getElem?_eq_some_iff.mp isOwn
    exact set_getElem_self inside
  rw [unchanged, all, getD_eq_getElem?_getD, getElem?_map, getElem?_range isRank]
  rfl

theorem rebuilds_packed (segments : List (List α))
    (divides : ∀ segment ∈ segments, 2 * group.cpSize ∣ segment.length) (zero : α) :
    (CpBatch.packed segments divides).Rebuilds zero ↔ segments ≠ [] := by
  constructor
  · rintro ⟨parts, isOk, -⟩ rfl
    obtain ⟨part, isPart⟩ := succeeds_of_mapM_eq_ok isOk (mem_range.mpr group.pos)
    cases isPart
  · intro some
    have isOk := mapM_eq_ok_map fun cpRank isRank =>
      splitCpInputs_packed some divides (mem_range.mp isRank)
    refine ⟨_, isOk, fun cpRank part isPart => ?_⟩
    have total : (placesOf segments).getD segments.length 0 = segments.flatten.length := by
      rw [getD_placesOf segments (Nat.le_refl _), length_flatten, offset,
        take_of_length_le (by rw [length_map])]
    have assigned := assign_chunks segments (fun i inside => by
      obtain ⟨size, length⟩ := divides _ (getElem_mem inside)
      exact ⟨size, length, fun j isRank =>
        packedAssignments_eq divides isRank inside length (getD_parts rfl isPart isRank)⟩) zero
    rw [← total] at assigned
    exact map_eq_ok.mpr ⟨_, assigned, rfl⟩

/-- A batch comes back, unless it has no rows. -/
theorem rebuilds_unpacked (tensor : CpTensor α) (divides : 2 * group.cpSize ∣ tensor.width)
    (zero : α) : (CpBatch.unpacked tensor divides).Rebuilds zero ↔ tensor.rows ≠ [] := by
  constructor
  · rintro ⟨parts, isOk, -⟩ none
    obtain ⟨part, isPart⟩ := succeeds_of_mapM_eq_ok isOk (mem_range.mpr group.pos)
    have raises : splitCpInputs group 0 Option.none tensor = .error .runtimeError := by
      rw [splitCpInputs, segmentsOf, mapM_cons, splitSegment, none]
      rfl
    cases raises.symm.trans isPart
  · intro some
    have isOk := mapM_eq_ok_map fun cpRank isRank =>
      splitCpInputs_unpacked some divides (mem_range.mp isRank)
    refine ⟨_, isOk, fun cpRank part isPart => ?_⟩
    obtain ⟨size, width⟩ := divides
    have isRank : cpRank < group.cpSize := by
      by_contra outside
      rw [getElem?_eq_none (by simpa using outside)] at isPart
      cases isPart
    have part_eq : part = tensor.rows.map (zigzagPart group.cpSize cpRank) := by
      rw [getElem?_map, getElem?_range isRank] at isPart
      exact (Option.some.inj isPart).symm
    have seqLenPerCp : (part.headD []).length = 2 * size := by
      obtain ⟨row, rest, rows⟩ := exists_cons_of_ne_nil some
      have isRow : row ∈ tensor.rows := rows ▸ mem_cons_self
      rw [part_eq, rows]
      exact length_zigzagPart ((tensor.same row isRow).trans width) isRank
    have rows_eq : (List.range part.length).map (tensor.rows.getD · []) = tensor.rows := by
      apply ext_getElem
      · simp [part_eq]
      · intro b _ inside
        simp [getElem?_eq_getElem inside]
    refine (mapM_eq_ok_map fun b isIndex => ?_).trans (congrArg Except.ok rows_eq)
    have inside : b < tensor.rows.length := by simpa [part_eq] using isIndex
    have length := (tensor.same _ (getElem_mem inside)).trans width
    have total : 2 * size * group.cpSize = tensor.rows[b].length := by
      rw [length, Nat.mul_right_comm]
    rw [seqLenPerCp, total]
    have isRow : tensor.rows.getD b [] = tensor.rows[b] := by simp [inside]
    rw [isRow]
    refine assign_row length (fun j isRank => rowAssignments_eq isRank length ?_) zero
    rw [getD_parts rfl isPart isRank]
    simp [inside]

end Parts

/-! ## The round trip -/

/-- There is something to put together: a segment, or a row. -/
def CpBatch.HasTokens {group : CpGroup} : CpBatch group α → Prop
  | packed segments _ => segments ≠ []
  | unpacked tensor _ => tensor.rows ≠ []

/-- **What is split over the ranks is the same tensor again on every rank, unless there is nothing
to put together.** -/
theorem rebuilds_iff {group : CpGroup} (zero : α) (batch : CpBatch group α) :
    batch.Rebuilds zero ↔ batch.HasTokens := by
  cases batch with
  | packed segments divides => exact rebuilds_packed segments divides zero
  | unpacked tensor divides => exact rebuilds_unpacked tensor divides zero

/-- `torch.cat` of no segments raises. -/
theorem noSegments_raises : ¬ ∀ (group : CpGroup) (batch : CpBatch group ℕ), batch.Rebuilds 0 := by
  intro rebuilds
  obtain ⟨_, isOk, -⟩ := rebuilds ⟨1, Nat.one_pos⟩ (.packed [] fun _ isSegment => by cases isSegment)
  cases isOk

end Geobench.Trainers
