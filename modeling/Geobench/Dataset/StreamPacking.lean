import Geobench.Dataset.Packing
import Geobench.Library.WorkerPool

/-!
# Packs of a stream

A reader puts as many samples of a stream on a queue as an interval has, with their places in
it. Workers encode them in any order. The reader waits for all of them, puts what was encoded
at its place and makes packs of it, with what the last pack of the interval before holds in
front. The interval that is not full is the last one.

The packs are those of a reader that encodes the samples of an interval in turn
(`packStream`), whatever the order of the workers is. **`emitsStream_iff`** says when every run
of the reader ends with them.
-/

namespace Geobench.Dataset

open Library List

/-! ## Encoded samples -/

inductive EncodeError where
  | maxLengthError
  | otherError
  deriving DecidableEq, Repr

/-- A sample is encoded as a row, or as several when it is too long and is split. -/
inductive Encoded (Row : Type) where
  | row (row : Row)
  | rows (first second : Row) (rest : List Row)

inductive ReaderError where
  | unboundLocalError
  | typeError
  | keyError
  deriving DecidableEq, Repr

/-- A reader of a stream, with the template that its workers encode samples by and the tokens
of a row when it has them. -/
structure IterablePackingDataset (Sample Row : Type) where
  encode : Sample → Except EncodeError (Encoded Row)
  inputIds : Row → Option (List ℕ)
  numProc : ℕ
  packingInterval : ℕ
  packingLength : ℕ
  strict : Bool

variable {Sample Row : Type}

namespace IterablePackingDataset

variable (reader : IterablePackingDataset Sample Row)

/-- What a worker returns for a sample. Nothing is encoded when that fails, and a worker ends on
a failure that is not about the length when it is strict. -/
def processor (job : ℕ × Sample) : Option (ℕ × Option (Encoded Row)) :=
  match reader.encode job.2 with
  | .ok encoded => some (job.1, some encoded)
  | .error .maxLengthError => some (job.1, none)
  | .error .otherError => if reader.strict = true then none else some (job.1, none)

/-- What the reader makes of a result. -/
def fetched : Option (Encoded Row) → Except ReaderError (Option (Row × ℕ))
  | none => .ok none
  | some (.rows _ _ _) => .error .typeError
  | some (.row row) =>
    match reader.inputIds row with
    | none => .error .keyError
    | some inputIds => .ok (some (row, inputIds.length))

end IterablePackingDataset

/-! ## Runs of the reader -/

/-- Where the reader is: it puts samples of an interval, waits for as many results or stops. -/
inductive Phase (Row : Type) where
  | putting (count : ℕ)
  | fetching (numSamples left : ℕ) (res : List (Option (Row × ℕ)))
  | done
  | raised (failure : ReaderError)

/-- The samples that are left, what is carried over, the packs emitted so far, where the reader
is and its workers. -/
structure ReaderState (Sample Row : Type) where
  iterator : List Sample
  data : List (Row × ℕ)
  emitted : List (List Row)
  phase : Phase Row
  pool : WorkerPool (ℕ × Sample) (ℕ × Option (Encoded Row))

section Runs

variable (packer : BinPacking Row) (reader : IterablePackingDataset Sample Row)

/-- A stream without a sample is not read. -/
def start (stream : List Sample) : ReaderState Sample Row where
  iterator := stream
  data := []
  emitted := []
  phase := if stream.isEmpty then .done else .putting 0
  pool := .start reader.numProc

def packInterval (data : List (Row × ℕ)) (numSamples : ℕ) (res : List (Option (Row × ℕ))) :
    List (List (Row × ℕ)) × List (Row × ℕ) :=
  calculateMatchedGroup packer (data ++ res.filterMap id) reader.packingLength
    (decide (numSamples ≠ reader.packingInterval))

/-- The reader puts a sample, ends an interval, takes a result or makes packs, or its workers
go on. -/
inductive ReaderStep : ReaderState Sample Row → ReaderState Sample Row → Prop where
  | work {state : ReaderState Sample Row}
      {pool : WorkerPool (ℕ × Sample) (ℕ × Option (Encoded Row))} :
      WorkerPool.Step reader.processor state.pool pool →
        ReaderStep state { state with pool := pool }
  | put {state : ReaderState Sample Row} {count : ℕ} {sample : Sample} {rest : List Sample} :
      state.phase = .putting count → count < reader.packingInterval →
      state.iterator = sample :: rest →
        ReaderStep state { state with
          iterator := rest
          phase := .putting (count + 1)
          pool := state.pool.submit (count, sample) }
  | endStream {state : ReaderState Sample Row} {count : ℕ} :
      state.phase = .putting count → count < reader.packingInterval → state.iterator = [] →
        ReaderStep state { state with phase := .fetching count count (List.replicate count none) }
  | endInterval {state : ReaderState Sample Row} {count : ℕ} :
      state.phase = .putting count → ¬count < reader.packingInterval →
        ReaderStep state { state with
          phase := if reader.packingInterval = 0 then .raised .unboundLocalError
            else .fetching count count (List.replicate count none) }
  | fetch {state : ReaderState Sample Row} {numSamples left index : ℕ}
      {res : List (Option (Row × ℕ))} {encoded : Option (Encoded Row)}
      {rest : List (ℕ × Option (Encoded Row))} :
      state.phase = .fetching numSamples (left + 1) res →
      state.pool.returned = (index, encoded) :: rest →
        ReaderStep state { state with
          phase := match reader.fetched encoded with
            | .error failure => .raised failure
            | .ok none => .fetching numSamples left res
            | .ok (some data) => .fetching numSamples left (res.set index (some data))
          pool := state.pool.receive rest }
  | pack {state : ReaderState Sample Row} {numSamples : ℕ} {res : List (Option (Row × ℕ))} :
      state.phase = .fetching numSamples 0 res →
        ReaderStep state { state with
          data := (packInterval packer reader state.data numSamples res).2
          emitted := state.emitted ++
            (packInterval packer reader state.data numSamples res).1.map (·.map Prod.fst)
          phase := if numSamples ≠ reader.packingInterval then .done else .putting 0 }

/-- Any order of the reader and its workers. -/
abbrev ReaderSteps : ReaderState Sample Row → ReaderState Sample Row → Prop :=
  Relation.ReflTransGen (ReaderStep packer reader)

end Runs

/-! ## What a stream is packed into -/

namespace IterablePackingDataset

variable (packer : BinPacking Row) (reader : IterablePackingDataset Sample Row)

def rowsOf (sample : Sample) : List Row :=
  match reader.encode sample with
  | .ok (.row row) => [row]
  | .ok (.rows first second rest) => first :: second :: rest
  | .error _ => []

def rowLength (row : Row) : ℕ := ((reader.inputIds row).map List.length).getD 0

/-- A sample that is one row with its tokens, or that fails without ending its worker. -/
def Handled (sample : Sample) : Prop :=
  match reader.encode sample with
  | .ok (.row row) => reader.inputIds row ≠ none
  | .ok (.rows _ _ _) => False
  | .error .maxLengthError => True
  | .error .otherError => reader.strict = false

def encodedData (sample : Sample) : Option (Row × ℕ) :=
  match reader.encode sample with
  | .ok (.row row) => (reader.inputIds row).map fun inputIds => (row, inputIds.length)
  | _ => none

/-- The packs of a reader that encodes the samples of an interval in turn. -/
def packStream (data : List (Row × ℕ)) (stream : List Sample) : List (List (Row × ℕ)) :=
  let batch := stream.take reader.packingInterval
  let packed := packInterval packer reader data batch.length (batch.map reader.encodedData)
  if batch.length ≠ reader.packingInterval ∨ reader.packingInterval = 0 then
    packed.1
  else packed.1 ++ packStream packed.2 (stream.drop reader.packingInterval)
termination_by stream.length
decreasing_by
  rename_i more
  rw [not_or, not_not, length_take] at more
  rw [length_drop]
  omega

/-- The workers can encode the stream, and the reader can read all results. -/
def Ready (stream : List Sample) : Prop :=
  stream = [] ∨ 0 < reader.numProc ∧ 0 < reader.packingInterval ∧
    ∀ sample ∈ stream, reader.Handled sample

end IterablePackingDataset

/-- Every run emits the stream as packs: at any time the packs emitted begin the packs of the
stream, the reader can still stop with all of them and has stopped with them when nothing more
can happen. Every row that was encoded is in one of them, and no pack is too long when every
row fits. -/
def EmitsStream (packer : BinPacking Row) (reader : IterablePackingDataset Sample Row)
    (stream : List Sample) : Prop :=
  ∃ packs : List (List Row),
    (∀ state, ReaderSteps packer reader (start reader stream) state →
      state.emitted <+: packs ∧
        (∃ stopped, ReaderSteps packer reader state stopped ∧ stopped.phase = .done) ∧
          ((∀ next, ¬ReaderStep packer reader state next) → state.phase = .done) ∧
            (state.phase = .done → state.emitted = packs)) ∧
      packs.flatten.Perm (stream.flatMap reader.rowsOf) ∧
        ((∀ sample ∈ stream, ∀ row ∈ reader.rowsOf sample,
            reader.rowLength row ≤ reader.packingLength) →
          ∀ pack ∈ packs, (pack.map reader.rowLength).sum ≤ reader.packingLength)

/-! ## Results at their places -/

section Places

variable {reader : IterablePackingDataset Sample Row}

def jobsOf (batch : List Sample) : List (ℕ × Sample) :=
  batch.zipIdx.map fun entry => (entry.2, entry.1)

theorem length_jobsOf (batch : List Sample) : (jobsOf batch).length = batch.length := by
  rw [jobsOf, length_map, length_zipIdx]

theorem jobsOf_concat (batch : List Sample) (sample : Sample) :
    jobsOf (batch ++ [sample]) = jobsOf batch ++ [(batch.length, sample)] := by
  simp [jobsOf, zipIdx_append]

theorem mem_jobsOf {batch : List Sample} {job : ℕ × Sample} :
    job ∈ jobsOf batch ↔ batch[job.1]? = some job.2 := by
  rw [jobsOf, mem_map]
  constructor
  · rintro ⟨entry, isEntry, rfl⟩
    exact mem_zipIdx_iff_getElem?.mp isEntry
  · intro isSample
    exact ⟨(job.2, job.1), mem_zipIdx_iff_getElem?.mpr isSample, rfl⟩

theorem fetched_of_processor {job : ℕ × Sample} {result : ℕ × Option (Encoded Row)}
    (isResult : reader.processor job = some result) :
    result.1 = job.1 ∧
      ∀ data, reader.fetched result.2 = .ok data → data = reader.encodedData job.2 := by
  rw [IterablePackingDataset.processor] at isResult
  rw [IterablePackingDataset.encodedData]
  cases isEncoded : reader.encode job.2 with
  | error failure =>
    have isNothing : result = (job.1, none) := by
      cases failure with
      | maxLengthError => simpa [isEncoded, eq_comm] using isResult
      | otherError =>
        simp only [isEncoded] at isResult
        split at isResult
        · cases isResult
        · exact (Option.some.inj isResult).symm
    rw [isNothing]
    refine ⟨rfl, fun data isData => ?_⟩
    exact (Except.ok.inj isData).symm
  | ok encoded =>
    rw [isEncoded] at isResult
    rw [← Option.some.inj isResult]
    refine ⟨rfl, fun data isData => ?_⟩
    cases encoded with
    | rows first second rest => cases isData
    | row row =>
      simp only [IterablePackingDataset.fetched] at isData
      cases hasIds : reader.inputIds row with
      | none =>
        rw [hasIds] at isData
        cases isData
      | some inputIds =>
        rw [hasIds] at isData
        simpa [hasIds, eq_comm] using isData

/-- A sample is handled when the reader can read its result. -/
theorem handled_iff {index : ℕ} {sample : Sample} :
    reader.Handled sample ↔ ∃ result, reader.processor (index, sample) = some result ∧
      ∃ data, reader.fetched result.2 = .ok data := by
  rw [IterablePackingDataset.processor, IterablePackingDataset.Handled]
  cases isEncoded : reader.encode sample with
  | error failure =>
    cases failure with
    | maxLengthError => simp [IterablePackingDataset.fetched]
    | otherError => simp [IterablePackingDataset.fetched]
  | ok encoded =>
    cases encoded with
    | rows first second rest => simp [IterablePackingDataset.fetched]
    | row row => cases hasIds : reader.inputIds row <;> simp [IterablePackingDataset.fetched, hasIds]

/-- Results at their places: what was received is there, and nothing else. -/
def Placed (reader : IterablePackingDataset Sample Row) (batch : List Sample)
    (received : List (ℕ × Option (Encoded Row))) (res : List (Option (Row × ℕ))) : Prop :=
  res.length = batch.length ∧ ∀ index sample, batch[index]? = some sample →
    (res[index]? = some none ∨ res[index]? = some (reader.encodedData sample)) ∧
      (index ∈ received.map Prod.fst → res[index]? = some (reader.encodedData sample))

theorem placed_start (batch : List Sample) :
    Placed reader batch [] (replicate batch.length none) := by
  refine ⟨length_replicate, fun index sample isSample => ?_⟩
  have inside := (List.getElem?_eq_some_iff.mp isSample).1
  refine ⟨.inl ?_, nofun⟩
  rw [getElem?_replicate, if_pos inside]

variable {batch : List Sample} {received : List (ℕ × Option (Encoded Row))}
  {res : List (Option (Row × ℕ))} {result : ℕ × Option (Encoded Row)} {sample : Sample}

variable (placed : Placed reader batch received res)
include placed

/-- A result that is nothing is at its place already. -/
theorem Placed.skip (isSample : batch[result.1]? = some sample)
    (isNothing : reader.encodedData sample = none) :
    Placed reader batch (received ++ [result]) res := by
  refine ⟨placed.1, fun index other isOther => ⟨(placed.2 index other isOther).1, fun isReceived => ?_⟩⟩
  rw [map_append, mem_append] at isReceived
  rcases isReceived with before | isResult
  · exact (placed.2 index other isOther).2 before
  · have same : index = result.1 := mem_singleton.mp isResult
    subst same
    rw [isSample] at isOther
    obtain rfl := Option.some.inj isOther
    rcases (placed.2 _ _ isSample).1 with empty | there
    · rw [empty, isNothing]
    · exact there

theorem Placed.set (isSample : batch[result.1]? = some sample) {data : Row × ℕ}
    (isData : reader.encodedData sample = some data) :
    Placed reader batch (received ++ [result]) (res.set result.1 (some data)) := by
  refine ⟨by rw [length_set, placed.1], fun index other isOther => ?_⟩
  by_cases same : index = result.1
  · subst same
    rw [isSample] at isOther
    obtain rfl := Option.some.inj isOther
    have inside := (List.getElem?_eq_some_iff.mp isSample).1
    have there : (res.set result.1 (some data))[result.1]? = some (reader.encodedData sample) := by
      rw [getElem?_set_self (placed.1 ▸ inside), isData]
    exact ⟨.inr there, fun _ => there⟩
  · rw [getElem?_set_ne (Ne.symm same)]
    refine ⟨(placed.2 index other isOther).1, fun isReceived => ?_⟩
    rw [map_append, mem_append] at isReceived
    rcases isReceived with before | isResult
    · exact (placed.2 index other isOther).2 before
    · exact absurd (mem_singleton.mp isResult) same

/-- Once everything is received, what was encoded is at its place. -/
theorem Placed.eq_map
    (all : ∀ job ∈ jobsOf batch, ∃ result ∈ received, reader.processor job = some result) :
    res = batch.map reader.encodedData := by
  apply ext_getElem?
  intro index
  rw [getElem?_map]
  cases isSample : batch[index]? with
  | none =>
    rw [List.getElem?_eq_none_iff] at isSample
    rw [Option.map_none, List.getElem?_eq_none_iff, placed.1]
    exact isSample
  | some sample =>
    have isJob : (index, sample) ∈ jobsOf batch := mem_jobsOf.mpr isSample
    obtain ⟨result, isReceived, isResult⟩ := all _ isJob
    have place := (fetched_of_processor isResult).1
    exact (placed.2 index sample isSample).2 (mem_map.mpr ⟨result, isReceived, place⟩)

end Places

/-! ## What every run keeps -/

section Invariant

open IterablePackingDataset (packStream)

variable (packer : BinPacking Row) (reader : IterablePackingDataset Sample Row)

/-- Where a run is in a stream: the samples of the intervals before were handled, those of
this interval are accounted for, and the packs to come are those of what is left. -/
structure Reads (stream past batch : List Sample)
    (received : List (ℕ × Option (Encoded Row))) (state : ReaderState Sample Row) : Prop where
  nonempty : stream ≠ []
  parts : stream = past ++ (batch ++ state.iterator)
  handled : ∀ sample ∈ past, reader.Handled sample
  manned : past ≠ [] → 0 < reader.numProc
  packs : state.emitted ++
      (packStream packer reader state.data (batch ++ state.iterator)).map (·.map Prod.fst) =
    (packStream packer reader [] stream).map (·.map Prod.fst)
  accounts : WorkerPool.Accounts reader.processor reader.numProc (jobsOf batch) received state.pool
  staffed : (∀ sample ∈ stream, reader.Handled sample) →
    WorkerPool.Staffed reader.numProc state.pool

/-- An interval that is put: it is full, or the last one. -/
structure Fetches (batch : List Sample) (received : List (ℕ × Option (Encoded Row)))
    (state : ReaderState Sample Row) (numSamples left : ℕ) (res : List (Option (Row × ℕ))) :
    Prop where
  count : numSamples = batch.length
  positive : 0 < reader.packingInterval
  ended : numSamples = reader.packingInterval ∨
    numSamples < reader.packingInterval ∧ state.iterator = []
  left_eq : received.length + left = numSamples
  placed : Placed reader batch received res
  read : ∀ result ∈ received, ∃ data, reader.fetched result.2 = .ok data

/-- What holds of every state of a run. -/
def ReaderInv (stream : List Sample) (state : ReaderState Sample Row) : Prop :=
  match state.phase with
  | .putting count => ∃ past batch, Reads packer reader stream past batch [] state ∧
      count = batch.length ∧ count ≤ reader.packingInterval
  | .fetching numSamples left res => ∃ past batch received,
      Reads packer reader stream past batch received state ∧
        Fetches reader batch received state numSamples left res
  | .done => reader.Ready stream ∧
      state.emitted = (packStream packer reader [] stream).map (·.map Prod.fst)
  | .raised _ => ¬reader.Ready stream

variable {packer reader} {stream past batch : List Sample}
  {received : List (ℕ × Option (Encoded Row))} {state : ReaderState Sample Row}

section

variable (reads : Reads packer reader stream past batch received state)
include reads

theorem Reads.mem_stream {job : ℕ × Sample} (isJob : job ∈ jobsOf batch) : job.2 ∈ stream := by
  rw [reads.parts]
  exact mem_append_right _
    (mem_append_left _ (mem_of_getElem? (mem_jobsOf.mp isJob)))

/-- Where a run is in the stream does not depend on what the reader does. -/
theorem Reads.withPhase (phase : Phase Row) :
    Reads packer reader stream past batch received { state with phase := phase } :=
  ⟨reads.nonempty, reads.parts, reads.handled, reads.manned, reads.packs, reads.accounts,
    reads.staffed⟩

theorem Reads.work {pool : WorkerPool (ℕ × Sample) (ℕ × Option (Encoded Row))}
    (step : WorkerPool.Step reader.processor state.pool pool) :
    Reads packer reader stream past batch received { state with pool := pool } := by
  refine ⟨reads.nonempty, reads.parts, reads.handled, reads.manned, reads.packs,
    reads.accounts.step step, fun allHandled => ?_⟩
  apply (reads.staffed allHandled).step step
  intro job isHeld
  have isJob := reads.accounts.mem_of_held isHeld
  obtain ⟨result, isResult, -⟩ := handled_iff.mp (allHandled _ (reads.mem_stream isJob))
  exact Option.ne_none_iff_exists'.mpr ⟨result, isResult⟩

theorem Reads.put {sample : Sample} {rest : List Sample} (isNext : state.iterator = sample :: rest)
    (phase : Phase Row) :
    Reads packer reader stream past (batch ++ [sample]) received { state with
      iterator := rest
      phase := phase
      pool := state.pool.submit (batch.length, sample) } := by
  have same : batch ++ [sample] ++ rest = batch ++ state.iterator := by
    rw [isNext, append_assoc]
    rfl
  refine ⟨reads.nonempty, ?_, reads.handled, reads.manned, ?_, ?_, reads.staffed⟩
  · rw [same]
    exact reads.parts
  · rw [same]
    exact reads.packs
  · rw [jobsOf_concat]
    exact reads.accounts.submit _

theorem Reads.receive {result : ℕ × Option (Encoded Row)} {rest : List (ℕ × Option (Encoded Row))}
    (next : state.pool.returned = result :: rest) (phase : Phase Row) :
    Reads packer reader stream past batch (received ++ [result]) { state with
      phase := phase
      pool := state.pool.receive rest } :=
  ⟨reads.nonempty, reads.parts, reads.handled, reads.manned, reads.packs,
    reads.accounts.receive next, reads.staffed⟩

theorem Reads.pack {numSamples : ℕ} {res : List (Option (Row × ℕ))}
    (fetches : Fetches reader batch received state numSamples 0 res) :
    res = batch.map reader.encodedData ∧ (∀ sample ∈ batch, reader.Handled sample) ∧
      (batch ≠ [] → 0 < reader.numProc) ∧
        WorkerPool.Accounts reader.processor reader.numProc [] [] state.pool := by
  have all : (jobsOf batch).length ≤ received.length := by
    rw [length_jobsOf, ← fetches.count, ← fetches.left_eq]
    exact Nat.le_refl _
  obtain ⟨-, -, -, results, someone⟩ := reads.accounts.complete all
  refine ⟨fetches.placed.eq_map results, ?_, ?_, reads.accounts.restart all⟩
  · intro sample isSample
    obtain ⟨index, isIndex⟩ := getElem?_of_mem isSample
    have isJob : (index, sample) ∈ jobsOf batch := mem_jobsOf.mpr isIndex
    obtain ⟨result, isReceived, isResult⟩ := results _ isJob
    exact handled_iff.mpr ⟨result, isResult, fetches.read result isReceived⟩
  · intro some
    apply someone
    intro none
    exact some (eq_nil_of_length_eq_zero (by rw [← length_jobsOf, none]; rfl))

end

theorem packStream_interval {data : List (Row × ℕ)} {batch rest : List Sample}
    (positive : 0 < reader.packingInterval)
    (ended : batch.length = reader.packingInterval ∨
      batch.length < reader.packingInterval ∧ rest = []) :
    packStream packer reader data (batch ++ rest) =
      (packInterval packer reader data batch.length (batch.map reader.encodedData)).1 ++
        if batch.length ≠ reader.packingInterval then []
        else packStream packer reader
          (packInterval packer reader data batch.length (batch.map reader.encodedData)).2 rest := by
  rw [packStream]
  rcases ended with full | ⟨notFull, rfl⟩
  · rw [← full, take_left, drop_left]
    have some : ¬(batch.length ≠ batch.length ∨ batch.length = 0) := by omega
    rw [if_neg some, if_neg (not_not.mpr rfl)]
  · rw [append_nil, take_of_length_le (Nat.le_of_lt notFull), if_pos (.inl notFull.ne),
      if_pos notFull.ne, append_nil]

/-- A result that is received is put at its place, or the stream has a sample that the reader
cannot read. -/
theorem Reads.fetch {numSamples left index : ℕ} {res : List (Option (Row × ℕ))}
    {encoded : Option (Encoded Row)} {rest : List (ℕ × Option (Encoded Row))}
    (reads : Reads packer reader stream past batch received state)
    (fetches : Fetches reader batch received state numSamples (left + 1) res)
    (next : state.pool.returned = (index, encoded) :: rest) :
    match reader.fetched encoded with
    | .error _ => ¬reader.Ready stream
    | .ok none => Fetches reader batch (received ++ [(index, encoded)]) state numSamples left res
    | .ok (some data) => Fetches reader batch (received ++ [(index, encoded)]) state numSamples
        left (res.set index (some data)) := by
  have isReturned : (index, encoded) ∈ received ++ state.pool.returned := by
    rw [next]
    exact mem_append_right _ mem_cons_self
  obtain ⟨job, isJob, isResult⟩ := reads.accounts.exists_job isReturned
  have place : index = job.1 := (fetched_of_processor isResult).1
  have isData := (fetched_of_processor isResult).2
  have isSample : batch[index]? = some job.2 := by
    rw [place]
    exact mem_jobsOf.mp isJob
  have count : (received ++ [(index, encoded)]).length + left = numSamples := by
    rw [length_append, length_singleton, ← fetches.left_eq]
    omega
  have readAll : ∀ {data}, reader.fetched encoded = .ok data →
      ∀ result ∈ received ++ [(index, encoded)], ∃ data, reader.fetched result.2 = .ok data := by
    intro data isFetched result isReceived
    rcases mem_append.mp isReceived with before | isLast
    · exact fetches.read result before
    · rw [mem_singleton.mp isLast]
      exact ⟨data, isFetched⟩
  cases isFetched : reader.fetched encoded with
  | error failure =>
    rintro (empty | ⟨-, -, allHandled⟩)
    · exact reads.nonempty empty
    · obtain ⟨result, isOther, data, isOk⟩ :=
        handled_iff.mp (allHandled _ (reads.mem_stream isJob))
      have same : result = (index, encoded) := Option.some.inj (isOther.symm.trans isResult)
      rw [same, isFetched] at isOk
      cases isOk
  | ok data =>
    cases data with
    | none =>
      exact ⟨fetches.count, fetches.positive, fetches.ended, count,
        fetches.placed.skip isSample (isData none isFetched).symm, readAll isFetched⟩
    | some data =>
      exact ⟨fetches.count, fetches.positive, fetches.ended, count,
        fetches.placed.set isSample (isData (some data) isFetched).symm, readAll isFetched⟩

/-- Every step keeps the place in the stream. -/
theorem ReaderStep.inv {state' : ReaderState Sample Row} (step : ReaderStep packer reader state state')
    (inv : ReaderInv packer reader stream state) : ReaderInv packer reader stream state' := by
  obtain ⟨iterator, data, emitted, phase, pool⟩ := state
  cases step with
  | work poolStep =>
    cases phase with
    | putting count =>
      obtain ⟨past, batch, reads, counts⟩ := inv
      exact ⟨past, batch, reads.work poolStep, counts⟩
    | fetching numSamples left res =>
      obtain ⟨past, batch, received, reads, fetches⟩ := inv
      exact ⟨past, batch, received, reads.work poolStep, fetches.count, fetches.positive,
        fetches.ended, fetches.left_eq, fetches.placed, fetches.read⟩
    | done => exact inv
    | raised failure => exact inv
  | @put count sample rest isPhase less isNext =>
    subst isPhase
    obtain ⟨past, batch, reads, rfl, atMost⟩ := inv
    exact ⟨past, batch ++ [sample], reads.put isNext _, by simp, less⟩
  | @endStream count isPhase less isEnd =>
    subst isPhase
    obtain ⟨past, batch, reads, rfl, atMost⟩ := inv
    exact ⟨past, batch, [], reads.withPhase _, rfl, Nat.zero_lt_of_lt less, .inr ⟨less, isEnd⟩,
      Nat.zero_add _, placed_start batch, nofun⟩
  | @endInterval count isPhase full =>
    subst isPhase
    obtain ⟨past, batch, reads, rfl, atMost⟩ := inv
    by_cases none : reader.packingInterval = 0
    · simp only [ReaderInv, if_pos none]
      rintro (empty | ready)
      · exact reads.nonempty empty
      · omega
    · simp only [ReaderInv, if_neg none]
      exact ⟨past, batch, [], reads.withPhase _, rfl, Nat.pos_of_ne_zero none, .inl (by omega),
        Nat.zero_add _, placed_start batch, nofun⟩
  | @fetch numSamples left index res encoded rest isPhase next =>
    subst isPhase
    obtain ⟨past, batch, received, reads, fetches⟩ := inv
    have fetched := reads.fetch fetches next
    cases isFetched : reader.fetched encoded with
    | error failure =>
      rw [isFetched] at fetched
      simpa only [ReaderInv, isFetched] using fetched
    | ok data =>
      rw [isFetched] at fetched
      cases data with
      | none =>
        simp only [ReaderInv]
        exact ⟨past, batch, _, reads.receive next _, fetched.count, fetched.positive,
          fetched.ended, fetched.left_eq, fetched.placed, fetched.read⟩
      | some data =>
        simp only [ReaderInv]
        exact ⟨past, batch, _, reads.receive next _, fetched.count, fetched.positive,
          fetched.ended, fetched.left_eq, fetched.placed, fetched.read⟩
  | @pack numSamples res isPhase =>
    subst isPhase
    obtain ⟨past, batch, received, reads, fetches⟩ := inv
    obtain ⟨isRes, batchHandled, someone, emptyPool⟩ := reads.pack fetches
    have ended := fetches.ended
    rw [fetches.count] at ended
    have packs := reads.packs
    rw [packStream_interval fetches.positive ended, map_append, ← append_assoc,
      ← isRes, ← fetches.count] at packs
    have handled : ∀ sample ∈ past ++ batch, reader.Handled sample := by
      intro sample isSample
      rcases mem_append.mp isSample with before | now
      · exact reads.handled sample before
      · exact batchHandled sample now
    have manned : past ++ batch ≠ [] → 0 < reader.numProc := by
      intro some
      by_cases empty : past = []
      · exact someone fun noBatch => some (by rw [empty, noBatch]; rfl)
      · exact reads.manned empty
    by_cases more : numSamples ≠ reader.packingInterval
    · simp only [ReaderInv, if_pos more]
      have isEnd : iterator = [] := (fetches.ended.resolve_left more).2
      have whole : stream = past ++ batch := by
        have parts := reads.parts
        rw [isEnd, append_nil] at parts
        exact parts
      refine ⟨.inr ⟨manned (whole ▸ reads.nonempty), fetches.positive, whole ▸ handled⟩, ?_⟩
      rw [if_pos more, map_nil, append_nil] at packs
      exact packs
    · simp only [ReaderInv, if_neg more]
      rw [if_neg more] at packs
      have parts : stream = (past ++ batch) ++ ([] ++ iterator) := by
        rw [nil_append, append_assoc]
        exact reads.parts
      exact ⟨past ++ batch, [], ⟨reads.nonempty, parts, handled, manned, packs, emptyPool,
        reads.staffed⟩, rfl, Nat.zero_le _⟩

theorem packStream_nil : packStream packer reader [] ([] : List Sample) = [] := by
  have isNil : packInterval packer reader [] 0 [] = ([], []) := rfl
  rw [packStream]
  simp only [take_nil, length_nil, map_nil]
  rw [isNil]
  split
  · rfl
  · omega

theorem readerInv_start (stream : List Sample) :
    ReaderInv packer reader stream (start reader stream) := by
  cases stream with
  | nil => exact ⟨.inl rfl, by rw [packStream_nil]; rfl⟩
  | cons first rest =>
    exact ⟨[], [], ⟨nofun, rfl, nofun, fun some => absurd rfl some, rfl,
      WorkerPool.accounts_start, fun _ => rfl⟩, rfl, Nat.zero_le _⟩

theorem ReaderSteps.inv (run : ReaderSteps packer reader (start reader stream) state) :
    ReaderInv packer reader stream state := by
  induction run with
  | refl => exact readerInv_start stream
  | tail _ step ih => exact step.inv ih

/-! ## Every run ends -/

/-- What the reader still has to do in an interval. -/
def Phase.work : Phase Row → ℕ
  | .putting count => 3 * count + 2
  | .fetching numSamples _ _ => 3 * numSamples + 1
  | .done => 0
  | .raised _ => 0

/-- What is left to do: a sample is put, encoded, received and counted in its interval. -/
def ReaderState.work (state : ReaderState Sample Row) : ℕ :=
  7 * state.iterator.length + state.pool.load + state.phase.work

theorem ReaderStep.work_lt {state' : ReaderState Sample Row}
    (step : ReaderStep packer reader state state') (inv : ReaderInv packer reader stream state) :
    state'.work < state.work := by
  obtain ⟨iterator, data, emitted, phase, pool⟩ := state
  cases step with
  | work poolStep =>
    have less : _ < pool.load := poolStep.load_lt
    simp only [ReaderState.work]
    omega
  | @put count sample rest isPhase less isNext =>
    subst isPhase isNext
    simp only [ReaderState.work, Phase.work, WorkerPool.load, WorkerPool.submit,
      length_append, length_cons, length_nil]
    omega
  | @endStream count isPhase less isEnd =>
    subst isPhase
    simp only [ReaderState.work, Phase.work]
    omega
  | @endInterval count isPhase full =>
    subst isPhase
    simp only [ReaderState.work]
    split <;> simp only [Phase.work] <;> omega
  | @fetch numSamples left index res encoded rest isPhase next =>
    subst isPhase
    have less : (pool.receive rest).load < pool.load := by
      have isReturned : pool.returned = (index, encoded) :: rest := next
      simp [WorkerPool.load, WorkerPool.receive, isReturned]
    simp only [ReaderState.work]
    cases isFetched : reader.fetched encoded with
    | error failure =>
      simp only [Phase.work]
      omega
    | ok data =>
      cases data with
      | none =>
        simp only [Phase.work]
        omega
      | some data =>
        simp only [Phase.work]
        omega
  | @pack numSamples res isPhase =>
    subst isPhase
    obtain ⟨past, batch, received, reads, fetches⟩ := inv
    have positive := fetches.positive
    simp only [ReaderState.work]
    split <;> simp only [Phase.work] <;> omega

/-- A run that is not done has a step when the reader can read the stream. -/
theorem exists_readerStep (inv : ReaderInv packer reader stream state)
    (ready : reader.Ready stream) (going : state.phase ≠ .done) :
    ∃ state', ReaderStep packer reader state state' := by
  obtain ⟨iterator, data, emitted, phase, pool⟩ := state
  cases phase with
  | putting count =>
    by_cases less : count < reader.packingInterval
    · cases iterator with
      | nil => exact ⟨_, .endStream rfl less rfl⟩
      | cons sample rest => exact ⟨_, .put rfl less rfl⟩
    · exact ⟨_, .endInterval rfl less⟩
  | fetching numSamples left res =>
    cases left with
    | zero => exact ⟨_, .pack rfl⟩
    | succ left =>
      obtain ⟨past, batch, received, reads, fetches⟩ := inv
      obtain ⟨someone, -, handled⟩ := ready.resolve_left reads.nonempty
      have works : ∀ job ∈ jobsOf batch, reader.processor job ≠ none := by
        intro job isJob
        obtain ⟨result, isResult, -⟩ := handled_iff.mp (handled _ (reads.mem_stream isJob))
        exact Option.ne_none_iff_exists'.mpr ⟨result, isResult⟩
      have more : received.length < (jobsOf batch).length := by
        rw [length_jobsOf, ← fetches.count, ← fetches.left_eq]
        omega
      rcases reads.accounts.exists_step (reads.staffed handled) someone works more with
        isReturned | ⟨pool', poolStep⟩
      · obtain ⟨result, rest, next⟩ := exists_cons_of_ne_nil isReturned
        exact ⟨_, .fetch rfl next⟩
      · exact ⟨_, .work poolStep⟩
  | done => exact absurd rfl going
  | raised failure => exact absurd ready inv

/-- A run can always still end when the reader can read the stream. -/
theorem exists_done_of_ready (ready : reader.Ready stream)
    (inv : ReaderInv packer reader stream state) :
    ∃ stopped, ReaderSteps packer reader state stopped ∧ stopped.phase = .done := by
  induction isWork : state.work using Nat.strong_induction_on generalizing state with
  | _ work ih =>
    by_cases done : state.phase = .done
    · exact ⟨state, .refl, done⟩
    · obtain ⟨next, step⟩ := exists_readerStep inv ready done
      obtain ⟨stopped, further, isDone⟩ :=
        ih next.work (isWork ▸ step.work_lt inv) (step.inv inv) rfl
      exact ⟨stopped, .head step further, isDone⟩

end Invariant

/-! ## The packs of a stream -/

section Packs

open IterablePackingDataset (packStream)

variable {packer : BinPacking Row} {reader : IterablePackingDataset Sample Row}

/-- What is packed of an interval, with what is carried over, is what came before with its
samples. -/
theorem packInterval_perm (data : List (Row × ℕ)) (batch : List Sample) :
    ((packInterval packer reader data batch.length (batch.map reader.encodedData)).1.flatten ++
      (packInterval packer reader data batch.length (batch.map reader.encodedData)).2).Perm
        (data ++ batch.filterMap reader.encodedData) := by
  have isRes : (batch.map reader.encodedData).filterMap id = batch.filterMap reader.encodedData := by
    rw [filterMap_map]
    rfl
  rw [← isRes]
  exact calculateMatchedGroup_perm packer _ _ _

theorem packStream_perm (positive : 0 < reader.packingInterval) (data : List (Row × ℕ))
    (stream : List Sample) :
    (packStream packer reader data stream).flatten.Perm
      (data ++ stream.filterMap reader.encodedData) := by
  fun_induction packStream packer reader data stream with
  | case1 data stream batch packed last =>
    have whole : batch = stream := by
      have short : batch.length ≠ reader.packingInterval := by omega
      rw [length_take] at short
      exact take_of_length_le (by omega)
    have finished : decide (batch.length ≠ reader.packingInterval) = true :=
      decide_eq_true (by omega)
    have carriesNone : packed.2 = [] := by
      simp only [packed, packInterval, finished]
      exact calculateMatchedGroup_finished packer _ _
    have perm : (packed.1.flatten ++ packed.2).Perm _ := packInterval_perm data batch
    rw [carriesNone, append_nil, whole] at perm
    exact perm
  | case2 data stream batch packed more ih =>
    have perm : (packed.1.flatten ++ packed.2).Perm _ := packInterval_perm data batch
    have parts : stream.filterMap reader.encodedData = batch.filterMap reader.encodedData ++
        (stream.drop reader.packingInterval).filterMap reader.encodedData := by
      rw [← filterMap_append, take_append_drop]
    rw [flatten_append, parts, ← append_assoc]
    refine (ih.append_left packed.1.flatten).trans ?_
    rw [← append_assoc]
    exact perm.append_right _

theorem packInterval_fits {data : List (Row × ℕ)} {batch : List Sample}
    (fit : ∀ item ∈ data ++ batch.filterMap reader.encodedData,
      item.2 ≤ reader.packingLength) :
    ∀ pack ∈ (packInterval packer reader data batch.length
        (batch.map reader.encodedData)).1,
      (pack.map Prod.snd).sum ≤ reader.packingLength := by
  apply calculateMatchedGroup_fits
  rw [filterMap_map]
  exact fit

theorem packStream_fits (data : List (Row × ℕ)) (stream : List Sample)
    (fit : ∀ item ∈ data ++ stream.filterMap reader.encodedData,
      item.2 ≤ reader.packingLength) :
    ∀ pack ∈ packStream packer reader data stream,
      (pack.map Prod.snd).sum ≤ reader.packingLength := by
  have fitNow : ∀ item ∈ data ++
      (stream.take reader.packingInterval).filterMap reader.encodedData,
        item.2 ≤ reader.packingLength := by
    intro item isItem
    apply fit
    rcases mem_append.mp isItem with carried | now
    · exact mem_append_left _ carried
    · exact mem_append_right _ (((take_sublist _ _).filterMap _).mem now)
  fun_induction packStream packer reader data stream with
  | case1 data stream batch packed last => exact packInterval_fits fitNow
  | case2 data stream batch packed more ih =>
    have perm : (packed.1.flatten ++ packed.2).Perm _ := packInterval_perm data batch
    have fitLater : ∀ item ∈ packed.2 ++
        (stream.drop reader.packingInterval).filterMap reader.encodedData,
          item.2 ≤ reader.packingLength := by
      intro item isItem
      rcases mem_append.mp isItem with carried | later
      · exact fitNow item (perm.mem_iff.mp (mem_append_right _ carried))
      · apply fit
        exact mem_append_right _ (((drop_sublist _ _).filterMap _).mem later)
    intro pack isPack
    rcases mem_append.mp isPack with now | later
    · exact packInterval_fits fitNow pack now
    · apply ih fitLater _ pack later
      intro item isItem
      apply fitLater
      rcases mem_append.mp isItem with carried | now
      · exact mem_append_left _ carried
      · exact mem_append_right _ (((take_sublist _ _).filterMap _).mem now)

theorem encodedData_eq_some {sample : Sample} {item : Row × ℕ}
    (isItem : reader.encodedData sample = some item) :
    item.1 ∈ reader.rowsOf sample ∧ item.2 = reader.rowLength item.1 := by
  rw [IterablePackingDataset.encodedData] at isItem
  rw [IterablePackingDataset.rowsOf]
  cases isEncoded : reader.encode sample with
  | error failure => simp [isEncoded] at isItem
  | ok encoded =>
    cases encoded with
    | rows first second rest => simp [isEncoded] at isItem
    | row row =>
      simp only [isEncoded, Option.map_eq_some_iff] at isItem
      obtain ⟨inputIds, hasIds, rfl⟩ := isItem
      refine ⟨mem_singleton_self row, ?_⟩
      simp [IterablePackingDataset.rowLength, hasIds]

theorem rowsOf_of_handled {sample : Sample} (handled : reader.Handled sample) :
    reader.rowsOf sample = ((reader.encodedData sample).map Prod.fst).toList := by
  rw [IterablePackingDataset.Handled] at handled
  rw [IterablePackingDataset.rowsOf, IterablePackingDataset.encodedData]
  cases isEncoded : reader.encode sample with
  | error failure => rfl
  | ok encoded =>
    rw [isEncoded] at handled
    cases encoded with
    | rows first second rest => exact absurd handled id
    | row row =>
      obtain ⟨inputIds, hasIds⟩ := Option.ne_none_iff_exists'.mp handled
      simp [hasIds]

theorem flatMap_rowsOf {stream : List Sample}
    (handled : ∀ sample ∈ stream, reader.Handled sample) :
    stream.flatMap reader.rowsOf = (stream.filterMap reader.encodedData).map Prod.fst := by
  induction stream with
  | nil => rfl
  | cons sample rest ih =>
    have restRows := ih fun other isOther => handled other (mem_cons_of_mem _ isOther)
    rw [flatMap_cons, rowsOf_of_handled (handled sample mem_cons_self), restRows]
    cases isItem : reader.encodedData sample with
    | none => simp [isItem]
    | some item => simp [isItem]

/-- The packs emitted at any time begin the packs of the stream. -/
theorem emitted_of_inv {stream : List Sample} {state : ReaderState Sample Row}
    (inv : ReaderInv packer reader stream state) (ready : reader.Ready stream) :
    state.emitted <+: (packStream packer reader [] stream).map (·.map Prod.fst) := by
  obtain ⟨iterator, data, emitted, phase, pool⟩ := state
  cases phase with
  | putting count =>
    obtain ⟨past, batch, reads, -⟩ := inv
    exact ⟨_, reads.packs⟩
  | fetching numSamples left res =>
    obtain ⟨past, batch, received, reads, -⟩ := inv
    exact ⟨_, reads.packs⟩
  | done => exact ⟨[], by rw [append_nil]; exact inv.2⟩
  | raised failure => exact absurd ready inv

variable (packer reader) (stream : List Sample)

/-- The packs of a stream that the reader can read hold its rows, and are not too long when
every row fits. -/
theorem packStream_packs (ready : reader.Ready stream) :
    ((packStream packer reader [] stream).map (·.map Prod.fst)).flatten.Perm
        (stream.flatMap reader.rowsOf) ∧
      ((∀ sample ∈ stream, ∀ row ∈ reader.rowsOf sample,
          reader.rowLength row ≤ reader.packingLength) →
        ∀ pack ∈ (packStream packer reader [] stream).map (·.map Prod.fst),
          (pack.map reader.rowLength).sum ≤ reader.packingLength) := by
  rcases ready with rfl | ⟨-, positive, handled⟩
  · rw [packStream_nil]
    exact ⟨.refl _, fun _ => nofun⟩
  have perm : (packStream packer reader [] stream).flatten.Perm
      (stream.filterMap reader.encodedData) := packStream_perm positive [] stream
  constructor
  · rw [← map_flatten, flatMap_rowsOf handled]
    exact perm.map Prod.fst
  · intro fit pack isPack
    obtain ⟨items, isItems, rfl⟩ := mem_map.mp isPack
    have fitItems : ∀ item ∈ [] ++ stream.filterMap reader.encodedData,
        item.2 ≤ reader.packingLength := by
      intro item isItem
      obtain ⟨sample, isSample, isData⟩ := mem_filterMap.mp isItem
      obtain ⟨isRow, length_eq⟩ := encodedData_eq_some isData
      rw [length_eq]
      exact fit sample isSample item.1 isRow
    have lengths : (items.map Prod.fst).map reader.rowLength = items.map Prod.snd := by
      rw [map_map]
      apply map_congr_left
      intro item isItem
      have inStream := perm.mem_iff.mp (mem_flatten_of_mem isItems isItem)
      obtain ⟨sample, -, isData⟩ := mem_filterMap.mp inStream
      exact (encodedData_eq_some isData).2.symm
    rw [lengths]
    exact packStream_fits [] stream fitItems items isItems

/-- **Every run emits the stream as packs**, whatever the order of the workers is, exactly when
the workers can encode it and the reader can read all results. -/
theorem emitsStream_iff : EmitsStream packer reader stream ↔ reader.Ready stream := by
  constructor
  · rintro ⟨packs, runs, -⟩
    obtain ⟨stopped, run, isDone⟩ := (runs _ .refl).2.1
    have inv := ReaderSteps.inv run
    rw [ReaderInv, isDone] at inv
    exact inv.1
  · intro ready
    refine ⟨(packStream packer reader [] stream).map (·.map Prod.fst), fun state run => ?_,
      packStream_packs packer reader stream ready⟩
    have inv := ReaderSteps.inv run
    refine ⟨emitted_of_inv inv ready, exists_done_of_ready ready inv, fun final => ?_,
      fun isDone => ?_⟩
    · by_contra going
      obtain ⟨next, step⟩ := exists_readerStep inv ready going
      exact final next step
    · rw [ReaderInv, isDone] at inv
      exact inv.2

end Packs

/-- A strict reader with one worker, of samples that are one token or fail. -/
def strictReader : IterablePackingDataset Bool (List ℕ) where
  encode sample := if sample = true then .ok (.row [1]) else .error .otherError
  inputIds row := some row
  numProc := 1
  packingInterval := 128
  packingLength := 4
  strict := true

/-- The sample that fails ends the worker, and the reader waits for it for ever: the other sample
is never emitted. -/
theorem strictReader_waits :
    strictReader.rowsOf true = [[1]] ∧ strictReader.processor (1, false) = none ∧
      (¬∃ stopped, ReaderSteps (ownBins (List ℕ)) strictReader
        (start strictReader [true, false]) stopped ∧ stopped.phase = .done) ∧
        ¬EmitsStream (ownBins (List ℕ)) strictReader [true, false] := by
  have waits : ¬∃ stopped, ReaderSteps (ownBins (List ℕ)) strictReader
      (start strictReader [true, false]) stopped ∧ stopped.phase = .done := by
    rintro ⟨stopped, run, isDone⟩
    have inv := ReaderSteps.inv run
    rw [ReaderInv, isDone] at inv
    obtain ⟨-, -, handled⟩ := inv.1.resolve_left nofun
    cases handled false (by simp)
  refine ⟨rfl, rfl, waits, ?_⟩
  rintro ⟨packs, runs, -⟩
  exact waits (runs _ .refl).2.1

end Geobench.Dataset
