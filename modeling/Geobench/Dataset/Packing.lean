import Geobench.Library.Gathering
import Geobench.Library.ListSlices

/-!
# Packs of a dataset

The lengths of a dataset are split between worker processes. Each puts its items into packs, a
batch at a time, with what the last pack of the batch before holds put in front of the next one,
and sends the packs of a batch as one message. The master puts the packs of all messages
together by rank.

The packs of a group hold the items of the group, with those carried over
(`calculateMatchedGroup_perm`), so the messages of a worker hold its items
(`packLoop_perm`). **`everyRunPacks_iff`** says when the packs are a partition of the dataset,
however the messages of the workers interleave.
-/

namespace Geobench.Dataset

open Library List

/-! ## Packs of a group -/

/-- Items put into bins by their weight. The bins hold the items, and no more than the volume
when every item fits. -/
structure BinPacking (α : Type) where
  toConstantVolume : List (α × ℕ) → ℕ → List (List (α × ℕ))
  perm : ∀ items volume, (toConstantVolume items volume).flatten.Perm items
  fits : ∀ items volume, (∀ item ∈ items, item.2 ≤ volume) →
    ∀ bin ∈ toConstantVolume items volume, (bin.map Prod.snd).sum ≤ volume

section Group

variable {α : Type} (packer : BinPacking α)

/-- The packs of a group, and the items of its last pack when more are to come. -/
def calculateMatchedGroup (sequences : List (α × ℕ)) (packingLength : ℕ) (isFinished : Bool) :
    List (List (α × ℕ)) × List (α × ℕ) :=
  if sequences.length = 0 then ([], [])
  else
    let sequences := packer.toConstantVolume sequences packingLength
    match sequences.getLast?, isFinished with
    | some retSequences, false => (sequences.dropLast, retSequences)
    | _, _ => (sequences, [])

variable (sequences : List (α × ℕ)) (packingLength : ℕ) (isFinished : Bool)

theorem calculateMatchedGroup_cases :
    (calculateMatchedGroup packer sequences packingLength isFinished = ([], []) ∧
        sequences = []) ∨
      (calculateMatchedGroup packer sequences packingLength isFinished =
        (packer.toConstantVolume sequences packingLength, [])) ∨
      isFinished = false ∧ ∃ packs carried,
        packer.toConstantVolume sequences packingLength = packs ++ [carried] ∧
          calculateMatchedGroup packer sequences packingLength isFinished = (packs, carried) := by
  rw [calculateMatchedGroup]
  by_cases empty : sequences.length = 0
  · rw [if_pos empty]
    exact .inl ⟨rfl, eq_nil_of_length_eq_zero empty⟩
  · rw [if_neg empty]
    cases isLast : (packer.toConstantVolume sequences packingLength).getLast? with
    | none => exact .inr (.inl (by simp [isLast]))
    | some carried =>
      cases isFinished with
      | true => exact .inr (.inl (by simp [isLast]))
      | false =>
        have parts := dropLast_append_getLast? carried isLast
        exact .inr (.inr ⟨rfl, _, carried, parts.symm, by simp [isLast]⟩)

/-- Nothing is lost or doubled between the packs and what is carried over. -/
theorem calculateMatchedGroup_perm :
    ((calculateMatchedGroup packer sequences packingLength isFinished).1.flatten ++
      (calculateMatchedGroup packer sequences packingLength isFinished).2).Perm sequences := by
  rcases calculateMatchedGroup_cases packer sequences packingLength isFinished with
    ⟨isNil, rfl⟩ | isAll | ⟨_, packs, carried, isBins, isPacks⟩
  · rw [isNil]
    exact .refl _
  · rw [isAll, append_nil]
    exact packer.perm sequences packingLength
  · rw [isPacks]
    have perm := packer.perm sequences packingLength
    rw [isBins] at perm
    simpa using perm

/-- Nothing is carried over from the last group. -/
theorem calculateMatchedGroup_finished :
    (calculateMatchedGroup packer sequences packingLength true).2 = [] := by
  rcases calculateMatchedGroup_cases packer sequences packingLength true with
    ⟨isNil, _⟩ | isAll | ⟨notFinished, _⟩
  · rw [isNil]
  · rw [isAll]
  · cases notFinished

variable {sequences packingLength} in
theorem calculateMatchedGroup_fits (fit : ∀ item ∈ sequences, item.2 ≤ packingLength) :
    ∀ pack ∈ (calculateMatchedGroup packer sequences packingLength isFinished).1,
      (pack.map Prod.snd).sum ≤ packingLength := by
  intro pack isPack
  rcases calculateMatchedGroup_cases packer sequences packingLength isFinished with
    ⟨isNil, _⟩ | isAll | ⟨_, packs, carried, isBins, isPacks⟩
  · rw [isNil] at isPack
    cases isPack
  · rw [isAll] at isPack
    exact packer.fits sequences packingLength fit pack isPack
  · rw [isPacks] at isPack
    apply packer.fits sequences packingLength fit
    rw [isBins]
    exact mem_append_left _ isPack

end Group

/-! ## Messages of a worker -/

def packingBatchSize : ℕ := 1000

/-- The packs of a batch, and how many items the batch brought. -/
structure PackedMessage where
  sequences : List (List (ℕ × ℕ))
  dataLen : ℕ
  deriving DecidableEq, Repr

section Worker

variable (packer : BinPacking ℕ) (packingLength : ℕ)

/-- Every batch leaves fewer items, or nothing is carried over from the last one. -/
theorem work_lt_of_batch {data inputData : List (ℕ × ℕ)} {i : ℕ}
    (some : inputData ++ slice data i (i + packingBatchSize) ≠ []) :
    2 * (data.length - (i + packingBatchSize)) +
        (if (calculateMatchedGroup packer (inputData ++ slice data i (i + packingBatchSize))
          packingLength (decide (data.length ≤ i + packingBatchSize))).2 = [] then 0 else 1) <
      2 * (data.length - i) + if inputData = [] then 0 else 1 := by
  have size : packingBatchSize = 1000 := rfl
  by_cases more : i < data.length
  · have atMost : ∀ carried : List (ℕ × ℕ), (if carried = [] then 0 else 1) ≤ 1 := by
      intro carried
      split <;> simp
    have carriedAtMost := atMost (calculateMatchedGroup packer
      (inputData ++ slice data i (i + packingBatchSize)) packingLength
      (decide (data.length ≤ i + packingBatchSize))).2
    omega
  · have noNew : slice data i (i + packingBatchSize) = [] := slice_eq_nil data (by omega)
    have finished : decide (data.length ≤ i + packingBatchSize) = true :=
      decide_eq_true (by omega)
    have carried : inputData ≠ [] := by
      intro none
      exact some (by rw [none, noNew]; rfl)
    rw [finished, calculateMatchedGroup_finished, if_pos rfl, if_neg carried]
    omega

/-- The messages of a worker from an item on, with the items carried over. -/
def packLoop (data : List (ℕ × ℕ)) (i : ℕ) (inputData : List (ℕ × ℕ)) : List PackedMessage :=
  let newData := slice data i (i + packingBatchSize)
  let inputData' := inputData ++ newData
  if inputData' = [] then []
  else
    let isFinished := decide (data.length ≤ i + packingBatchSize)
    let packed := calculateMatchedGroup packer inputData' packingLength isFinished
    ⟨packed.1, newData.length⟩ :: packLoop data (i + packingBatchSize) packed.2
termination_by 2 * (data.length - i) + if inputData = [] then 0 else 1
decreasing_by
  rename_i some
  exact work_lt_of_batch packer packingLength some

variable {packingLength}

/-- The packs of a worker are its items, with those carried over. -/
theorem packLoop_perm (data : List (ℕ × ℕ)) (i : ℕ) (inputData : List (ℕ × ℕ)) :
    ((packLoop packer packingLength data i inputData).flatMap PackedMessage.sequences).flatten.Perm
      (inputData ++ data.drop i) := by
  fun_induction packLoop packer packingLength data i inputData with
  | case1 i inputData newData inputData' none =>
    have nothing := append_eq_nil_iff.mp none
    have noneLeft : data.drop i = [] := by
      have noNew := congrArg length nothing.2
      rw [length_slice] at noNew
      have size : packingBatchSize = 1000 := rfl
      apply drop_eq_nil_of_le
      simp only [length_nil] at noNew
      omega
    rw [nothing.1, noneLeft]
    exact .refl _
  | case2 i inputData newData inputData' some isFinished packed ih =>
    have perm := calculateMatchedGroup_perm packer inputData' packingLength isFinished
    have parts : data.drop i = newData ++ data.drop (i + packingBatchSize) :=
      (slice_append_drop data (Nat.le_add_right i packingBatchSize)).symm
    rw [flatMap_cons, flatten_append, parts, ← append_assoc]
    calc (packed.1.flatten ++ _).Perm (packed.1.flatten ++
            (packed.2 ++ data.drop (i + packingBatchSize))) := ih.append_left _
      _ = packed.1.flatten ++ packed.2 ++ data.drop (i + packingBatchSize) :=
          (append_assoc _ _ _).symm
      List.Perm _ (inputData' ++ data.drop (i + packingBatchSize)) := perm.append_right _

/-- A pack of a worker whose items fit is not too long. -/
theorem packLoop_fits (data : List (ℕ × ℕ)) (i : ℕ) (inputData : List (ℕ × ℕ))
    (fit : ∀ item ∈ inputData ++ data.drop i, item.2 ≤ packingLength) :
    ∀ message ∈ packLoop packer packingLength data i inputData, ∀ pack ∈ message.sequences,
      (pack.map Prod.snd).sum ≤ packingLength := by
  fun_induction packLoop packer packingLength data i inputData with
  | case1 i inputData newData inputData' none =>
    intro message isMessage
    cases isMessage
  | case2 i inputData newData inputData' some isFinished packed ih =>
    have perm := calculateMatchedGroup_perm packer inputData' packingLength isFinished
    rw [← slice_append_drop data (Nat.le_add_right i packingBatchSize), ← append_assoc]
      at fit
    have fitNow : ∀ item ∈ inputData', item.2 ≤ packingLength := fun item isItem =>
      fit item (mem_append_left _ isItem)
    have fitLater : ∀ item ∈ packed.2 ++ data.drop (i + packingBatchSize),
        item.2 ≤ packingLength := by
      intro item isItem
      rcases mem_append.mp isItem with carried | later
      · exact fitNow item (perm.mem_iff.mp (mem_append_right _ carried))
      · exact fit item (mem_append_right _ later)
    intro message isMessage pack isPack
    rcases mem_cons.mp isMessage with rfl | later
    · exact calculateMatchedGroup_fits packer isFinished fitNow pack isPack
    · exact ih fitLater message later pack isPack

end Worker

/-! ## Workers of a dataset -/

inductive ItemLength where
  | single (length : ℕ)
  | parts (lengths : List ℕ)
  deriving DecidableEq, Repr

def ItemLength.total : ItemLength → ℕ
  | .single length => length
  | .parts lengths => lengths.sum

inductive PackingError where
  | valueError
  deriving DecidableEq, Repr

/-- Numbers evenly spaced from zero to another one, in as many parts. -/
structure Linspace where
  point : ℕ → ℕ → ℕ → ℕ
  monotone : ∀ stop parts, Monotone (point stop parts)
  first : ∀ stop parts, point stop parts 0 = 0
  last : ∀ stop parts, 0 < parts → point stop parts parts = stop

/-- The shards of a list. There cannot be fewer than one number to cut it at. -/
def splitList (linspace : Linspace) (oriList : List ItemLength) (numShards : ℤ) :
    Except PackingError (List (List ItemLength)) :=
  if numShards + 1 < 0 then .error .valueError
  else .ok (cutAt (linspace.point oriList.length numShards.toNat) numShards.toNat oriList)

structure PackingDataset where
  lengths : List ItemLength
  packingLength : Option ℕ
  maxLength : ℕ
  packingNumProc : ℤ

def workerData (offset : ℕ) (lengths : List ItemLength) : List (ℕ × ℕ) :=
  (lengths.zipIdx offset).map fun length => (length.2, length.1.total)

def workersData (offset : ℕ) : List (List ItemLength) → List (List (ℕ × ℕ))
  | [] => []
  | lengths :: rest => workerData offset lengths :: workersData (offset + lengths.length) rest

namespace PackingDataset

variable (dataset : PackingDataset)

/-- The length of a pack, which is that of the template when none is given. -/
def volume : ℕ :=
  match dataset.packingLength with
  | some (length + 1) => length + 1
  | _ => dataset.maxLength

def numWorkers : ℤ :=
  min dataset.packingNumProc ((dataset.lengths.length + packingBatchSize - 1) / packingBatchSize : ℕ)

def workers (linspace : Linspace) : Except PackingError (List (List (ℕ × ℕ))) := do
  let chunkedLengths ← splitList linspace dataset.lengths dataset.numWorkers
  .ok (workersData 0 chunkedLengths)

def itemLength (index : ℕ) : ℕ := ((dataset.lengths[index]?).map ItemLength.total).getD 0

end PackingDataset

/-! ## What the master puts together -/

/-- The packs that the workers sent, by rank. -/
def packedIdx {numProc : ℕ} (received : Fin numProc → List PackedMessage) : List (List ℕ) :=
  (List.finRange numProc).flatMap fun rank => (received rank).flatMap fun message =>
    message.sequences.map fun seq => seq.map Prod.fst

def packedLength {numProc : ℕ} (received : Fin numProc → List PackedMessage) : List ℕ :=
  (List.finRange numProc).flatMap fun rank => (received rank).flatMap fun message =>
    message.sequences.map fun seq => (seq.map Prod.snd).sum

/-- The messages of the workers before their end markers. -/
def workerMessages (packer : BinPacking ℕ) (packingLength : ℕ) (workers : List (List (ℕ × ℕ)))
    (rank : Fin workers.length) : List PackedMessage :=
  packLoop packer packingLength workers[rank] 0 []

/-- Packs of a dataset: every index is in one pack, the lengths of the packs are recorded,
and no pack is too long when every item fits. -/
structure IsPacking (dataset : PackingDataset) (packs : List (List ℕ)) (lengths : List ℕ) :
    Prop where
  partition : packs.flatten.Perm (List.range dataset.lengths.length)
  recorded : lengths = packs.map fun pack => (pack.map dataset.itemLength).sum
  fits : (∀ length ∈ dataset.lengths, length.total ≤ dataset.volume) →
    ∀ length ∈ lengths, length ≤ dataset.volume

/-- Every run packs the dataset: the workers start, the master can always still stop, it has
stopped when nothing more can happen, and then it has packs of the dataset. -/
def EveryRunPacks (packer : BinPacking ℕ) (linspace : Linspace) (dataset : PackingDataset) :
    Prop :=
  ∃ workers, dataset.workers linspace = .ok workers ∧
    ∀ gathering, Gathering.Steps
        (.start (workerMessages packer dataset.volume workers)) gathering →
      (∃ stopped, Gathering.Steps gathering stopped ∧ stopped.Done) ∧
        ((∀ next, ¬Gathering.Step gathering next) → gathering.Done) ∧
          (gathering.Done →
            IsPacking dataset (packedIdx gathering.received) (packedLength gathering.received))

section Master

variable (packer : BinPacking ℕ)

def packsOf (packingLength : ℕ) (workers : List (List (ℕ × ℕ))) : List (List (ℕ × ℕ)) :=
  workers.flatMap fun data =>
    (packLoop packer packingLength data 0 []).flatMap PackedMessage.sequences

theorem finRange_flatMap_getElem {α β : Type} (items : List α) (f : α → List β) :
    ((List.finRange items.length).flatMap fun index => f items[index]) = items.flatMap f := by
  have each : (List.finRange items.length).map (fun index => f items[index]) = items.map f := by
    rw [← ofFn_eq_map]
    exact ofFn_getElem_eq_map items f
  rw [flatMap_def, each, ← flatMap_def]

theorem packedIdx_workerMessages (packingLength : ℕ) (workers : List (List (ℕ × ℕ))) :
    packedIdx (workerMessages packer packingLength workers) =
      (packsOf packer packingLength workers).map fun pack => pack.map Prod.fst := by
  simp only [packedIdx, workerMessages, packsOf, map_flatMap]
  exact finRange_flatMap_getElem workers fun data =>
    (packLoop packer packingLength data 0 []).flatMap fun message =>
      message.sequences.map fun seq => seq.map Prod.fst

theorem packedLength_workerMessages (packingLength : ℕ) (workers : List (List (ℕ × ℕ))) :
    packedLength (workerMessages packer packingLength workers) =
      (packsOf packer packingLength workers).map fun pack => (pack.map Prod.snd).sum := by
  simp only [packedLength, workerMessages, packsOf, map_flatMap]
  exact finRange_flatMap_getElem workers fun data =>
    (packLoop packer packingLength data 0 []).flatMap fun message =>
      message.sequences.map fun seq => (seq.map Prod.snd).sum

theorem packsOf_perm (packingLength : ℕ) (workers : List (List (ℕ × ℕ))) :
    (packsOf packer packingLength workers).flatten.Perm workers.flatten := by
  induction workers with
  | nil => exact .refl _
  | cons data workers ih =>
    rw [packsOf, flatMap_cons, flatten_append, flatten_cons]
    exact (packLoop_perm packer data 0 []).append ih

theorem packsOf_fits {packingLength : ℕ} {workers : List (List (ℕ × ℕ))}
    (fit : ∀ item ∈ workers.flatten, item.2 ≤ packingLength) :
    ∀ pack ∈ packsOf packer packingLength workers, (pack.map Prod.snd).sum ≤ packingLength := by
  intro pack isPack
  obtain ⟨data, isData, inMessages⟩ := mem_flatMap.mp isPack
  obtain ⟨message, isMessage, inMessage⟩ := mem_flatMap.mp inMessages
  apply packLoop_fits packer data 0 [] _ message isMessage pack inMessage
  intro item isItem
  exact fit item (mem_flatten_of_mem isData isItem)

end Master

/-! ## When every run packs the dataset -/

section Workers

variable {linspace : Linspace} {dataset : PackingDataset}

theorem flatten_workersData (offset : ℕ) (shards : List (List ItemLength)) :
    (workersData offset shards).flatten = workerData offset shards.flatten := by
  induction shards generalizing offset with
  | nil => rfl
  | cons lengths rest ih =>
    rw [workersData, flatten_cons, ih, flatten_cons, workerData, workerData,
      workerData, zipIdx_append, map_append]

theorem map_fst_workerData (lengths : List ItemLength) :
    (workerData 0 lengths).map Prod.fst = range lengths.length := by
  rw [workerData, map_map, range_eq_range', ← zipIdx_map_snd]
  rfl

theorem snd_of_mem_workerData {item : ℕ × ℕ}
    (isItem : item ∈ workerData 0 dataset.lengths) :
    item.2 = dataset.itemLength item.1 := by
  obtain ⟨length, isLength, rfl⟩ := mem_map.mp isItem
  rw [PackingDataset.itemLength, mem_zipIdx_iff_getElem?.mp isLength]
  rfl

theorem exists_of_mem_workerData {item : ℕ × ℕ} (isItem : item ∈ workerData 0 dataset.lengths) :
    ∃ length ∈ dataset.lengths, item.2 = length.total := by
  obtain ⟨length, isLength, rfl⟩ := mem_map.mp isItem
  exact ⟨length.1, fst_mem_of_mem_zipIdx isLength, rfl⟩

/-- Without a worker nothing is packed. -/
theorem workers_of_none (none : dataset.numWorkers ≤ 0)
    (notNegative : 0 ≤ dataset.numWorkers + 1) :
    dataset.workers linspace = .ok [] := by
  have isSplit : splitList linspace dataset.lengths dataset.numWorkers = .ok [] := by
    rw [splitList, if_neg (by omega), Int.toNat_of_nonpos none]
    rfl
  exact bind_eq_ok.mpr ⟨[], isSplit, rfl⟩

theorem exists_workers (some : 0 < dataset.numWorkers) :
    ∃ workers, dataset.workers linspace = .ok workers ∧
      workers.flatten = workerData 0 dataset.lengths := by
  have positive : 0 < dataset.numWorkers.toNat := by omega
  have isSplit : splitList linspace dataset.lengths dataset.numWorkers =
      .ok (cutAt (linspace.point dataset.lengths.length dataset.numWorkers.toNat)
        dataset.numWorkers.toNat dataset.lengths) := by
    rw [splitList, if_neg (by omega)]
  refine ⟨_, bind_eq_ok.mpr ⟨_, isSplit, rfl⟩, ?_⟩
  rw [flatten_workersData, flatten_cutAt (linspace.monotone _ _) (linspace.first _ _)]
  rw [linspace.last _ _ positive]

/-- The workers do not start with fewer than minus one. -/
theorem notNegative_of_workers {workers : List (List (ℕ × ℕ))}
    (started : dataset.workers linspace = .ok workers) : 0 ≤ dataset.numWorkers + 1 := by
  by_contra negative
  obtain ⟨shards, isSplit, _⟩ := bind_eq_ok.mp started
  rw [splitList, if_pos (by omega)] at isSplit
  cases isSplit

/-- There is a worker when there is one to start and an item for it. -/
theorem numWorkers_pos_iff :
    0 < dataset.numWorkers ↔ 0 < dataset.packingNumProc ∧ dataset.lengths ≠ [] := by
  have size : packingBatchSize = 1000 := rfl
  rw [PackingDataset.numWorkers, size, lt_min_iff, ← length_pos_iff]
  omega

theorem numWorkers_of_nil (empty : dataset.lengths = []) :
    dataset.numWorkers = min dataset.packingNumProc 0 := by
  rw [PackingDataset.numWorkers, empty]
  rfl

end Workers

section EveryRun

variable (packer : BinPacking ℕ) (linspace : Linspace) (dataset : PackingDataset)

theorem isPacking_of_workers {workers : List (List (ℕ × ℕ))}
    (whole : workers.flatten = workerData 0 dataset.lengths) :
    IsPacking dataset (packedIdx (workerMessages packer dataset.volume workers))
      (packedLength (workerMessages packer dataset.volume workers)) := by
  have perm := packsOf_perm packer dataset.volume workers
  rw [whole] at perm
  rw [packedIdx_workerMessages, packedLength_workerMessages]
  refine ⟨?_, ?_, ?_⟩
  · rw [← map_flatten, ← map_fst_workerData]
    exact perm.map Prod.fst
  · rw [map_map]
    apply map_congr_left
    intro pack isPack
    rw [Function.comp_apply, map_map]
    congr 1
    apply map_congr_left
    intro item isItem
    exact snd_of_mem_workerData (perm.mem_iff.mp (mem_flatten_of_mem isPack isItem))
  · intro fit length isLength
    obtain ⟨pack, isPack, rfl⟩ := mem_map.mp isLength
    apply packsOf_fits packer _ pack isPack
    intro item isItem
    rw [whole] at isItem
    obtain ⟨itemLength, isItemLength, same⟩ := exists_of_mem_workerData isItem
    rw [same]
    exact fit itemLength isItemLength

theorem everyRunPacks_of_workers {workers : List (List (ℕ × ℕ))}
    (started : dataset.workers linspace = .ok workers)
    (whole : workers.flatten = workerData 0 dataset.lengths) :
    EveryRunPacks packer linspace dataset := by
  refine ⟨workers, started, fun gathering run => ⟨Gathering.exists_done run,
    Gathering.done_of_final run, fun done => ?_⟩⟩
  rw [Gathering.received_of_done run done]
  exact isPacking_of_workers packer dataset whole

/-- **Every run packs the dataset**, whatever the order of the messages, exactly when there is a
worker to start or nothing to pack. -/
theorem everyRunPacks_iff :
    EveryRunPacks packer linspace dataset ↔
      0 < dataset.packingNumProc ∨ dataset.lengths = [] ∧ -1 ≤ dataset.packingNumProc := by
  constructor
  · rintro ⟨workers, started, runs⟩
    have notNegative := notNegative_of_workers started
    by_cases some : 0 < dataset.packingNumProc
    · exact .inl some
    · have none : dataset.numWorkers ≤ 0 := by
        by_contra more
        exact some (numWorkers_pos_iff.mp (by omega)).1
      have isNone : workers = [] := by
        have noWorker : dataset.workers linspace = .ok [] := workers_of_none none notNegative
        rw [started, Except.ok.injEq] at noWorker
        exact noWorker
      subst isNone
      have packed := (runs _ .refl).2.2 rfl
      have count := packed.partition.length_eq
      have empty : dataset.lengths = [] := by
        rw [length_range] at count
        exact eq_nil_of_length_eq_zero count.symm
      rw [numWorkers_of_nil empty] at notNegative
      exact .inr ⟨empty, by omega⟩
  · rintro (some | ⟨empty, notNegative⟩)
    · by_cases empty : dataset.lengths = []
      · have noWorker : dataset.workers linspace = .ok [] := by
          have noneNeeded := numWorkers_of_nil empty
          exact workers_of_none (by omega) (by omega)
        exact everyRunPacks_of_workers packer linspace dataset noWorker (by rw [empty]; rfl)
      · obtain ⟨workers, started, whole⟩ := exists_workers (numWorkers_pos_iff.mpr ⟨some, empty⟩)
        exact everyRunPacks_of_workers packer linspace dataset started whole
    · have noWorker : dataset.workers linspace = .ok [] := by
        have noneNeeded := numWorkers_of_nil empty
        exact workers_of_none (by omega) (by omega)
      exact everyRunPacks_of_workers packer linspace dataset noWorker (by rw [empty]; rfl)

end EveryRun

def ownBins (α : Type) : BinPacking α where
  toConstantVolume items _ := items.map fun item => [item]
  perm items _ := by
    rw [← flatMap_def, flatMap_singleton']
  fits items volume fit bin isBin := by
    obtain ⟨item, isItem, rfl⟩ := mem_map.mp isBin
    simpa using fit item isItem

/-- Cuts into parts that differ by one item at most. -/
def evenLinspace : Linspace where
  point stop parts index := index * stop / parts
  monotone stop parts _ _ before := Nat.div_le_div_right (Nat.mul_le_mul_right stop before)
  first stop parts := by simp
  last stop parts some := by simp [some]

/-- One item, and no process to pack it. -/
def noProcess : PackingDataset := ⟨[.single 1], some 4, 4, 0⟩

/-- No process starts, so the item is in no pack. -/
theorem noProcess_not_packed :
    noProcess.workers evenLinspace = .ok [] ∧
      packedIdx (workerMessages (ownBins ℕ) noProcess.volume []) = [] ∧
        ¬EveryRunPacks (ownBins ℕ) evenLinspace noProcess := by
  have started : noProcess.workers evenLinspace = .ok [] := rfl
  refine ⟨started, rfl, ?_⟩
  rintro ⟨workers, isStarted, runs⟩
  rw [started, Except.ok.injEq] at isStarted
  subst isStarted
  have packed := (runs _ .refl).2.2 rfl
  have count := packed.partition.length_eq
  cases count

end Geobench.Dataset
