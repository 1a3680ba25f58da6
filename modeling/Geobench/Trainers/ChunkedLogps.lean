import Geobench.Trainers.Chunking

/-!
# Log probabilities in chunks

The log probabilities of a batch in chunks are those of the batch, as long as a chunk keeps
the padding of the batch. The rows of a multimodal chunk are encoded again and padded to
the longest of the chunk, while the number of logits that is kept is the one of the batch
(`logpsChunked_eq_iff`).
-/

namespace Geobench.Trainers

open Library List

/-! ## The trainer -/

section Trainer

variable {F : Type} (nextLogp : List ℕ → ℕ → F)

/-- The log probabilities of rows of one length. -/
def rowsLogps (keep : ℕ) (rows : List EncodedRow) : Except LossError (List (List F)) :=
  rows.mapM (rowLogps .runtimeError nextLogp keep)

/-- The log probabilities of a batch at once. -/
def logpsSingle (padTokenId : ℕ) (rows : List EncodedRow) : Except LossError (List (List F)) :=
  let batch := dataCollator padTokenId rows
  rowsLogps nextLogp (logitsToKeep batch) batch

/-- The rows between two ends of the batch. -/
def getChunkedInputs (isMultimodal : Bool) (padTokenId : ℕ) (rows : List EncodedRow)
    (startIdx endIdx : ℕ) : List EncodedRow :=
  if isMultimodal then dataCollator padTokenId (slice rows startIdx endIdx)
  else slice (dataCollator padTokenId rows) startIdx endIdx

/-- The log probabilities of a batch, chunk by chunk. -/
def logpsChunked (isMultimodal : Bool) (padTokenId : ℕ) (rows : List EncodedRow)
    (chunkSize : ℕ) (batchSizes : List ℕ) : Except LossError (List (List F)) := do
  let keep := logitsToKeep (dataCollator padTokenId rows)
  let runs ← chunkRuns logpsHasSamples (getChunkedInputs isMultimodal padTokenId rows)
    rows.length chunkSize batchSizes
  let logps ← runs.mapM fun run => rowsLogps nextLogp keep run.chunkInputs
  .ok (((runs.zip logps).filter fun pass => !pass.1.isDummy).map Prod.snd).flatten

/-- When the chunks have the log probabilities of the batch: rows of text keep their
padding, both ways fail when the window of a row has no token before it, and otherwise every
chunk needs a row as long as the longest of the batch. -/
def ChunksKeepWindow (isMultimodal : Bool) (rows : List EncodedRow) (chunkSize : ℕ)
    (batchSizes : List ℕ) : Prop :=
  isMultimodal = false ∨ (∃ row ∈ rows, firstSupervised row = 0) ∨
    ∀ chunk ∈ chunksOf chunkSize batchSizes rows, chunk ≠ [] → longest chunk = longest rows

end Trainer

/-! ## Windows -/

section Windows

variable {F : Type} {nextLogp : List ℕ → ℕ → F} {keep : ℕ}

/-- The log probabilities at the end of a row. -/
def windowLogps (nextLogp : List ℕ → ℕ → F) (keep : ℕ) (row : EncodedRow) : List F :=
  (List.range keep).map fun place =>
    nextLogp ((row.map LabelledToken.inputId).take (row.length - keep + place))
      ((row.map LabelledToken.inputId).getD (row.length - keep + place) 0)

theorem rowLogps_eq_ok {ε : Type} {failure : ε} {row : EncodedRow} (inside : keep < row.length) :
    rowLogps failure nextLogp keep row = .ok (windowLogps nextLogp keep row) :=
  if_neg (not_le.mpr inside)

theorem rowsLogps_eq_ok {rows : List EncodedRow} (inside : ∀ row ∈ rows, keep < row.length) :
    rowsLogps nextLogp keep rows = .ok (rows.map (windowLogps nextLogp keep)) := by
  apply mapM_eq_ok_map
  intro row isRow
  exact rowLogps_eq_ok (inside row isRow)

theorem rowsLogps_eq_error {rows : List EncodedRow} (nonempty : rows ≠ [])
    (short : ∀ row ∈ rows, row.length ≤ keep) :
    rowsLogps nextLogp keep rows = .error .runtimeError := by
  cases rows with
  | nil => exact absurd rfl nonempty
  | cons row rows =>
    have first : rowLogps (LossError.runtimeError) nextLogp keep row = .error .runtimeError :=
      if_pos (short row mem_cons_self)
    rw [rowsLogps, mapM_cons, first]
    rfl

theorem firstSupervised_padRight (padTokenId length : ℕ) (row : EncodedRow) :
    firstSupervised (padRight padTokenId length row) = firstSupervised row := by
  have noneInPadding : (replicate (length - row.length)
      ({ inputId := padTokenId, supervised := false } : LabelledToken)).any
        LabelledToken.supervised = false := by
    rw [any_eq_false]
    intro token isToken
    rw [eq_of_mem_replicate isToken]
    exact Bool.false_ne_true
  rw [firstSupervised, firstSupervised, padRight, any_append, noneInPadding, Bool.or_false]
  split
  next found =>
    obtain ⟨token, isToken, supervised⟩ := any_eq_true.mp found
    rw [findIdx_append, if_pos]
    exact findIdx_lt_length_of_exists ⟨token, isToken, supervised⟩
  next => rfl

/-- The window is the whole of a row if and only if a row has no token before it. -/
theorem longest_le_logitsToKeep_iff {rows : List EncodedRow} (padTokenId : ℕ)
    (nonempty : rows ≠ []) :
    longest rows ≤ logitsToKeep (dataCollator padTokenId rows) ↔
      ∃ row ∈ rows, firstSupervised row = 0 := by
  have windows : (dataCollator padTokenId rows).map (fun row => row.length - firstSupervised row) =
      rows.map fun row => longest rows - firstSupervised row := by
    rw [dataCollator, map_map]
    apply map_congr_left
    intro row isRow
    rw [Function.comp_apply, firstSupervised_padRight,
      length_of_mem_dataCollator (mem_map_of_mem isRow)]
  rw [logitsToKeep, windows]
  constructor
  · intro whole
    by_contra none
    push Not at none
    have positive : 0 < longest rows := by
      obtain ⟨row, isRow⟩ := exists_mem_of_ne_nil rows nonempty
      have some : row ≠ [] := by
        rintro rfl
        exact none [] isRow rfl
      exact (length_pos_iff.mpr some).trans_le (length_le_longest isRow)
    have less : (rows.map fun row => longest rows - firstSupervised row).foldr max 0 ≤
        longest rows - 1 := by
      apply foldr_max_le
      intro window isWindow
      obtain ⟨row, isRow, rfl⟩ := mem_map.mp isWindow
      have later := Nat.pos_of_ne_zero (none row isRow)
      omega
    omega
  · rintro ⟨row, isRow, first⟩
    have own : longest rows - firstSupervised row ≤
        (rows.map fun row => longest rows - firstSupervised row).foldr max 0 :=
      le_foldr_max (mem_map_of_mem (f := fun row => longest rows - firstSupervised row) isRow)
    rw [first] at own
    exact own

end Windows

/-! ## Chunks -/

section Chunks

variable {F : Type} {nextLogp : List ℕ → ℕ → F} {α β : Type}

theorem filter_zip_map (runs : List (ChunkRun α)) (result : ChunkRun α → β) :
    ((runs.zip (runs.map result)).filter fun pass => !pass.1.isDummy).map Prod.snd =
      (runs.filter fun run => !run.isDummy).map result := by
  induction runs with
  | nil => rfl
  | cons run runs ih =>
    cases isDummy : run.isDummy <;> simp [isDummy, ih]

variable {isMultimodal : Bool} {padTokenId chunkSize : ℕ} {rows : List EncodedRow}
  {batchSizes : List ℕ}

variable {row : EncodedRow}

/-- The rows of a pass have the length of the longest row of its chunk, or of the batch. -/
theorem length_of_mem_getChunkedInputs {startIdx endIdx : ℕ}
    (isRow : row ∈ getChunkedInputs isMultimodal padTokenId rows startIdx endIdx) :
    row.length = if isMultimodal then longest (slice rows startIdx endIdx) else longest rows := by
  cases isMultimodal with
  | true => exact length_of_mem_dataCollator isRow
  | false =>
    have inBatch : row ∈ dataCollator padTokenId rows :=
      mem_of_mem_take (mem_of_mem_drop isRow)
    exact length_of_mem_dataCollator inBatch

variable {chunks size : ℕ}

section

variable (isChunks : maxChunks chunkSize batchSizes = .ok chunks) (someRow : 0 < rows.length)
  (plan : ChunkPlan rows.length chunkSize chunks size)
include isChunks someRow plan

/-- The log probabilities of the chunks, when every window has a token before it. -/
theorem logpsChunked_eq_ok
    (inside : ∀ real, real * size < rows.length →
      ∀ row ∈ getChunkedInputs isMultimodal padTokenId rows (real * size)
        (min (real * size + size) rows.length),
      logitsToKeep (dataCollator padTokenId rows) < row.length) :
    logpsChunked nextLogp isMultimodal padTokenId rows chunkSize batchSizes =
      .ok (((realChunks rows.length size chunks).map fun chunkIdx =>
        getChunkedInputs isMultimodal padTokenId rows (chunkIdx * size)
          (min (chunkIdx * size + size) rows.length)).flatten.map
            (windowLogps nextLogp (logitsToKeep (dataCollator padTokenId rows)))) := by
  have passes : ((range chunks).map (plannedRun (getChunkedInputs isMultimodal padTokenId rows)
      rows.length size)).mapM (fun run =>
        rowsLogps nextLogp (logitsToKeep (dataCollator padTokenId rows)) run.chunkInputs) =
      .ok (((range chunks).map (plannedRun (getChunkedInputs isMultimodal padTokenId rows)
        rows.length size)).map fun run =>
          run.chunkInputs.map (windowLogps nextLogp (logitsToKeep (dataCollator padTokenId rows)))) := by
    apply mapM_eq_ok_map
    intro run isRun
    obtain ⟨chunkIdx, _, rfl⟩ := mem_map.mp isRun
    obtain ⟨real, isReal, _, inputs⟩ :=
      exists_chunkInputs_plannedRun (getChunkedInputs isMultimodal padTokenId rows) someRow
        plan.size_pos chunkIdx
    rw [inputs]
    exact rowsLogps_eq_ok (inside real isReal)
  refine bind_eq_ok.mpr ⟨_, chunkRuns_eq (isRealTest_logps rows.length) isChunks someRow plan,
    bind_eq_ok.mpr ⟨_, passes, ?_⟩⟩
  have real := realInputs_planned (getChunkedInputs isMultimodal padTokenId rows) someRow
    plan.size_pos chunks
  rw [filter_zip_map, ← real, realInputs, map_flatten, map_map]
  rfl

/-- The chunks of a batch that keeps its padding, put together, are the batch. -/
theorem logpsChunked_eq_single (inside : logitsToKeep (dataCollator padTokenId rows) < longest rows)
    (padded : isMultimodal = true → ∀ real, real * size < rows.length →
      longest (slice rows (real * size) ((real + 1) * size)) = longest rows) :
    logpsChunked nextLogp isMultimodal padTokenId rows chunkSize batchSizes =
      logpsSingle nextLogp padTokenId rows := by
  have inputs : ∀ real, real * size < rows.length →
      getChunkedInputs isMultimodal padTokenId rows (real * size)
        (min (real * size + size) rows.length) =
      slice (dataCollator padTokenId rows) (real * size)
        (min (real * size + size) (dataCollator padTokenId rows).length) := by
    intro real isReal
    rw [length_dataCollator]
    cases isMultimodal with
    | false => rfl
    | true =>
      have same := padded rfl real isReal
      rw [← slice_min_length] at same
      rw [getChunkedInputs, if_pos rfl, dataCollator, same, map_slice]
      rfl
  have single : logpsSingle nextLogp padTokenId rows =
      .ok ((dataCollator padTokenId rows).map
        (windowLogps nextLogp (logitsToKeep (dataCollator padTokenId rows)))) := by
    apply rowsLogps_eq_ok
    intro row isRow
    rw [length_of_mem_dataCollator isRow]
    exact inside
  have chunksInputs : (realChunks rows.length size chunks).map (fun chunkIdx =>
      getChunkedInputs isMultimodal padTokenId rows (chunkIdx * size)
        (min (chunkIdx * size + size) rows.length)) =
      (realChunks rows.length size chunks).map fun chunkIdx =>
        slice (dataCollator padTokenId rows) (chunkIdx * size)
          (min (chunkIdx * size + size) (dataCollator padTokenId rows).length) := by
    apply map_congr_left
    intro chunkIdx isReal
    exact inputs chunkIdx (of_decide_eq_true (mem_filter.mp isReal).2)
  have covers : (dataCollator padTokenId rows).length ≤ chunks * size := by
    rw [length_dataCollator]
    exact plan.covers
  have whole := flatten_cutAt_mul covers
  rw [single, logpsChunked_eq_ok isChunks someRow plan, chunksInputs, realChunks,
    ← length_dataCollator padTokenId rows, flatten_realChunks]
  · exact congrArg (fun batch => Except.ok (map (windowLogps nextLogp
      (logitsToKeep (dataCollator padTokenId rows))) batch)) whole
  · intro real isReal row isRow
    rw [inputs real isReal] at isRow
    rw [length_of_mem_dataCollator (mem_of_mem_take (mem_of_mem_drop isRow))]
    exact inside

/-- Both ways fail when the window of a row has no token before it. -/
theorem logpsChunked_eq_error (whole : longest rows ≤ logitsToKeep (dataCollator padTokenId rows)) :
    logpsChunked nextLogp isMultimodal padTokenId rows chunkSize batchSizes =
      logpsSingle nextLogp padTokenId rows := by
  have single : logpsSingle nextLogp padTokenId rows = .error .runtimeError := by
    apply rowsLogps_eq_error
    · rw [← length_pos_iff, length_dataCollator]
      exact someRow
    · intro row isRow
      rw [length_of_mem_dataCollator isRow]
      exact whole
  have first : rowsLogps nextLogp (logitsToKeep (dataCollator padTokenId rows))
      (plannedRun (getChunkedInputs isMultimodal padTokenId rows) rows.length size 0).chunkInputs =
      .error .runtimeError := by
    obtain ⟨real, isReal, _, inputs⟩ := exists_chunkInputs_plannedRun
      (getChunkedInputs isMultimodal padTokenId rows) someRow plan.size_pos 0
    rw [inputs]
    apply rowsLogps_eq_error
    · have sliceLength : 0 < (slice rows (real * size)
          (min (real * size + size) rows.length)).length := by
        have positive := plan.size_pos
        rw [length_slice]
        omega
      rw [← length_pos_iff]
      cases isMultimodal with
      | true =>
        rw [getChunkedInputs, if_pos rfl, length_dataCollator]
        exact sliceLength
      | false =>
        rw [length_slice] at sliceLength
        rw [getChunkedInputs, if_neg Bool.false_ne_true, length_slice, length_dataCollator]
        exact sliceLength
    · intro row isRow
      rw [length_of_mem_getChunkedInputs isRow]
      split
      · refine (longest_mono ?_).trans whole
        intro other isOther
        exact mem_of_mem_take (mem_of_mem_drop isOther)
      · exact whole
  have fails : ((range chunks).map (plannedRun (getChunkedInputs isMultimodal padTokenId rows)
      rows.length size)).mapM (fun run =>
        rowsLogps nextLogp (logitsToKeep (dataCollator padTokenId rows)) run.chunkInputs) =
      .error .runtimeError := by
    obtain ⟨others, rfl⟩ := Nat.exists_eq_succ_of_ne_zero plan.chunks_pos.ne'
    rw [range_succ_eq_map, map_cons, mapM_cons, first]
    rfl
  rw [single, logpsChunked, chunkRuns_eq (isRealTest_logps rows.length) isChunks someRow plan]
  simp only [bind, Except.bind, fails]

end

/-- A model that shows where the window of a row begins. -/
def prefixLength [NatCast F] (before : List ℕ) (_token : ℕ) : F := (before.length : F)

theorem windowLogps_prefixLength [NatCast F] {keep : ℕ} (some : 0 < keep)
    (inside : keep < row.length) :
    (windowLogps (prefixLength (F := F)) keep row).head? = Option.some ((row.length - keep : ℕ) : F) := by
  obtain ⟨before, rfl⟩ := Nat.exists_eq_succ_of_ne_zero some.ne'
  rw [windowLogps, range_succ_eq_map, map_cons, head?_cons, prefixLength,
    length_take, length_map, Nat.add_zero, Nat.min_eq_left (Nat.sub_le _ _)]

/-- When the chunks have log probabilities, a window has a token before it in all of them. -/
theorem lt_length_of_logpsChunked_eq_ok (isChunks : maxChunks chunkSize batchSizes = .ok chunks)
    (someRow : 0 < rows.length) (plan : ChunkPlan rows.length chunkSize chunks size)
    {result : List (List F)}
    (isOk : logpsChunked nextLogp isMultimodal padTokenId rows chunkSize batchSizes = .ok result)
    {real : ℕ} (isReal : real * size < rows.length)
    (isRow : row ∈ getChunkedInputs isMultimodal padTokenId rows (real * size)
      (min (real * size + size) rows.length)) :
    logitsToKeep (dataCollator padTokenId rows) < row.length := by
  obtain ⟨runs, isRuns, rest⟩ := bind_eq_ok.mp isOk
  obtain ⟨logps, isLogps, _⟩ := bind_eq_ok.mp rest
  rw [chunkRuns_eq (isRealTest_logps rows.length) isChunks someRow plan] at isRuns
  have isPass : plannedRun (getChunkedInputs isMultimodal padTokenId rows) rows.length size real ∈
      runs := by
    rw [← Except.ok.inj isRuns]
    refine mem_map.mpr ⟨real, mem_range.mpr ?_, rfl⟩
    exact Nat.lt_of_mul_lt_mul_right (isReal.trans_le plan.covers)
  obtain ⟨passLogps, isPassLogps⟩ := succeeds_of_mapM_eq_ok isLogps isPass
  rw [plannedRun_real someRow plan.size_pos isReal] at isPassLogps
  obtain ⟨logp, isLogp⟩ := succeeds_of_mapM_eq_ok isPassLogps isRow
  by_contra short
  rw [rowLogps, if_pos (not_lt.mp short)] at isLogp
  cases isLogp

/-- A multimodal chunk that has the log probabilities of the batch has its longest row. -/
theorem longest_eq_of_logpsChunked_eq [AddMonoidWithOne F] [CharZero F]
    (isChunks : maxChunks chunkSize batchSizes = .ok chunks)
    (someRow : 0 < rows.length) (plan : ChunkPlan rows.length chunkSize chunks size)
    (inside : logitsToKeep (dataCollator padTokenId rows) < longest rows)
    (agree : logpsChunked (prefixLength (F := F)) true padTokenId rows chunkSize batchSizes =
      logpsSingle prefixLength padTokenId rows) {real : ℕ} (isReal : real * size < rows.length) :
    longest (slice rows (real * size) (min (real * size + size) rows.length)) = longest rows := by
  have single : logpsSingle (prefixLength (F := F)) padTokenId rows =
      .ok ((dataCollator padTokenId rows).map
        (windowLogps prefixLength (logitsToKeep (dataCollator padTokenId rows)))) := by
    apply rowsLogps_eq_ok
    intro row isRow
    rw [length_of_mem_dataCollator isRow]
    exact inside
  have isOk := agree.trans single
  have insideChunks : ∀ real, real * size < rows.length →
      ∀ row ∈ getChunkedInputs true padTokenId rows (real * size)
        (min (real * size + size) rows.length),
      logitsToKeep (dataCollator padTokenId rows) < row.length := by
    intro real isReal row isRow
    exact lt_length_of_logpsChunked_eq_ok isChunks someRow plan isOk isReal isRow
  have equal := Except.ok.inj
    ((logpsChunked_eq_ok isChunks someRow plan insideChunks).symm.trans isOk)
  have someInChunk : 0 < (getChunkedInputs true padTokenId rows (real * size)
      (min (real * size + size) rows.length)).length := by
    have sizePos := plan.size_pos
    rw [getChunkedInputs, if_pos rfl, length_dataCollator, length_slice]
    omega
  obtain ⟨row, isRow⟩ := exists_mem_of_length_pos someInChunk
  have isWindow : windowLogps prefixLength (logitsToKeep (dataCollator padTokenId rows)) row ∈
      (dataCollator padTokenId rows).map
        (windowLogps (prefixLength (F := F)) (logitsToKeep (dataCollator padTokenId rows))) := by
    rw [← equal]
    apply mem_map_of_mem
    apply mem_flatten_of_mem _ isRow
    refine mem_map.mpr ⟨real, mem_filter.mpr
      ⟨mem_range.mpr ?_, decide_eq_true isReal⟩, rfl⟩
    exact Nat.lt_of_mul_lt_mul_right (isReal.trans_le plan.covers)
  obtain ⟨other, isOther, sameWindow⟩ := mem_map.mp isWindow
  have otherLength := length_of_mem_dataCollator isOther
  have rowLength := length_of_mem_getChunkedInputs isRow
  rw [if_pos rfl] at rowLength
  have kept : 0 < logitsToKeep (dataCollator padTokenId rows) := by
    apply logitsToKeep_pos isOther
    rw [← length_pos_iff, otherLength]
    omega
  have rowInside := insideChunks real isReal row isRow
  have heads := congrArg List.head? sameWindow
  rw [windowLogps_prefixLength kept (by omega), windowLogps_prefixLength kept rowInside,
    otherLength, Option.some.injEq, Nat.cast_inj, rowLength] at heads
  omega

/-- The chunks have the log probabilities of the batch for every model, or not. -/
theorem logpsChunked_eq_iff [AddMonoidWithOne F] [CharZero F] (positive : 0 < chunkSize)
    (isSize : rows.length ∈ batchSizes) (someRow : 0 < rows.length) :
    (∀ nextLogp : List ℕ → ℕ → F,
      logpsChunked nextLogp isMultimodal padTokenId rows chunkSize batchSizes =
        logpsSingle nextLogp padTokenId rows) ↔
      ChunksKeepWindow isMultimodal rows chunkSize batchSizes := by
  have isChunks := maxChunks_eq_passCount positive batchSizes
  have plan := chunkPlan_samplesPerPass positive isSize someRow
  have wholeIff := longest_le_logitsToKeep_iff padTokenId
    (length_pos_iff.mp someRow)
  rw [ChunksKeepWindow, ← wholeIff]
  constructor
  · intro agree
    by_cases text : isMultimodal = false
    · exact Or.inl text
    by_cases whole : longest rows ≤ logitsToKeep (dataCollator padTokenId rows)
    · exact Or.inr (Or.inl whole)
    refine Or.inr (Or.inr ?_)
    intro chunk isChunk nonempty
    obtain rfl : isMultimodal = true := eq_true_of_ne_false text
    obtain ⟨chunkIdx, _, rfl⟩ := mem_map.mp isChunk
    dsimp only at nonempty ⊢
    rw [← slice_min_length]
    apply longest_eq_of_logpsChunked_eq isChunks someRow plan (not_le.mp whole)
      (agree prefixLength)
    rw [← length_pos_iff, length_slice] at nonempty
    omega
  · rintro (text | whole | padded) nextLogp
    · by_cases whole : longest rows ≤ logitsToKeep (dataCollator padTokenId rows)
      · exact logpsChunked_eq_error isChunks someRow plan whole
      · refine logpsChunked_eq_single isChunks someRow plan (not_le.mp whole) ?_
        intro multimodal
        exact absurd (text.symm.trans multimodal) Bool.false_ne_true
    · exact logpsChunked_eq_error isChunks someRow plan whole
    · by_cases whole : longest rows ≤ logitsToKeep (dataCollator padTokenId rows)
      · exact logpsChunked_eq_error isChunks someRow plan whole
      · refine logpsChunked_eq_single isChunks someRow plan (not_le.mp whole) ?_
        intro multimodal real isReal
        apply padded
        · refine mem_map.mpr ⟨real, mem_range.mpr ?_, rfl⟩
          exact Nat.lt_of_mul_lt_mul_right (isReal.trans_le plan.covers)
        · rw [← length_pos_iff, length_slice, Nat.succ_mul]
          have sizePos := plan.size_pos
          omega

end Chunks

end Geobench.Trainers
