import Geobench.Library.ListSlices

/-!
# A dataset in shards

Items are added in batches to a queue. A worker takes the batches off it, pickles the items into
the file of the current shard, and begins a new shard when the current one has reached its size.
An item is found again by its offset in all files together: the shard is searched for among the
offsets of the shards.
-/

namespace Geobench.Dataset

open Library

variable {α : Type}

/-- What pickling relies on: an item is restored from its bytes, and there are some. -/
structure Pickle (α : Type) where
  dumps : α → List UInt8
  loads : List UInt8 → Option α
  loads_dumps : ∀ item, loads (dumps item) = some item
  dumps_ne_nil : ∀ item, dumps item ≠ []

/-! ## The builder -/

/-- `IndexedDatasetBuilder`, with the files of the shards and the one that is open -/
structure IndexedDatasetBuilder where
  files : ℕ → Option (List UInt8)
  binPath : ℕ
  nShard : ℕ
  lengthList : List ℕ
  idxList : List ℕ
  shardOffset : List ℕ

namespace IndexedDatasetBuilder

/-- A builder over files of earlier runs. The first of them is removed. -/
def init (files : ℕ → Option (List UInt8)) : IndexedDatasetBuilder where
  files := Function.update files 0 (some [])
  binPath := 0
  nShard := 1
  lengthList := []
  idxList := [0]
  shardOffset := [0]

section Writing

variable (pickle : Pickle α) (itemLength : α → ℕ) (chunkSize : ℕ)

def recordItem (builder : IndexedDatasetBuilder) (item : α) : IndexedDatasetBuilder :=
  { builder with
    idxList := builder.idxList ++ [builder.idxList.getLastD 0 + (pickle.dumps item).length]
    lengthList := builder.lengthList ++ [itemLength item] }

/-- Write a batch to the open file. -/
def writeItems (builder : IndexedDatasetBuilder) (items : List α) : IndexedDatasetBuilder :=
  let recorded := items.foldl (recordItem pickle itemLength) builder
  { recorded with
    files := Function.update recorded.files recorded.binPath
      ((recorded.files recorded.binPath).map (· ++ (items.map pickle.dumps).flatten)) }

def newShard (builder : IndexedDatasetBuilder) (offset : ℕ) : IndexedDatasetBuilder :=
  { builder with
    binPath := builder.nShard
    shardOffset := builder.shardOffset ++ [builder.shardOffset.getLastD 0 + offset]
    nShard := builder.nShard + 1
    files := Function.update builder.files builder.nShard (some []) }

/-- The body of the loop of `_write_worker` -/
def writeBatch (builder : IndexedDatasetBuilder) (items : List α) : IndexedDatasetBuilder :=
  let written := writeItems pickle itemLength builder items
  let offset := written.idxList.getLastD 0 - written.shardOffset.getLastD 0
  if offset ≥ chunkSize then written.newShard offset else written

end Writing

end IndexedDatasetBuilder

/-! ## Adding and writing -/

/-- The program that adds batches, the queue, and the builder that the worker writes to. -/
structure Writing (α : Type) where
  toAdd : List (List α)
  queue : List (Option (List α))
  started : Bool
  finalizing : Bool
  finished : Bool
  builder : IndexedDatasetBuilder

/-- The steps of the program and of the worker. The queue has room for a thousand entries. -/
inductive Writing.Step (pickle : Pickle α) (itemLength : α → ℕ) (chunkSize : ℕ) :
    Writing α → Writing α → Prop where
  | addItems {state : Writing α} {items : List α} {rest : List (List α)} :
      state.toAdd = items :: rest → state.queue.length < 1000 →
      Step pickle itemLength chunkSize state
        { state with toAdd := rest, queue := state.queue ++ [some items], started := true }
  | finalize {state : Writing α} :
      state.toAdd = [] → state.started → state.finalizing = false → state.queue.length < 1000 →
      Step pickle itemLength chunkSize state
        { state with queue := state.queue ++ [none], finalizing := true }
  | finalizeUnstarted {state : Writing α} :
      state.toAdd = [] → state.started = false →
      Step pickle itemLength chunkSize state { state with finalizing := true, finished := true }
  | writeBatch {state : Writing α} {items : List α} {rest : List (Option (List α))} :
      state.queue = some items :: rest →
      Step pickle itemLength chunkSize state
        { state with
          queue := rest
          builder := state.builder.writeBatch pickle itemLength chunkSize items }
  | stop {state : Writing α} {rest : List (Option (List α))} :
      state.queue = none :: rest →
      Step pickle itemLength chunkSize state { state with queue := rest, finished := true }

/-- A run that begins with batches to add and files of earlier runs. -/
def Writing.init (files : ℕ → Option (List UInt8)) (batches : List (List α)) : Writing α where
  toAdd := batches
  queue := []
  started := false
  finalizing := false
  finished := false
  builder := .init files

/-! ## Reading -/

inductive ReadError where
  | fileNotFoundError
  | indexError
  | typeError
  | valueError (message : String)
  | zeroDivisionError
  | unpicklingError
  deriving DecidableEq, Repr

/-- The memory of a file, if there is anything in it. -/
def binReader (content : List UInt8) : Option (List UInt8) :=
  if content.isEmpty then none else some content

/-- `read_buffer` -/
def readBuffer (mm : Option (List UInt8)) (offset size : ℤ) : Except ReadError (List UInt8) :=
  if offset < 0 ∨ size < 0 then .error (.valueError "Invalid offset or size")
  else
    match mm with
    | none => .error .typeError
    | some content =>
      if offset + size > content.length then .error (.valueError "Invalid offset or size")
      else .ok (slice content offset.toNat (offset + size).toNat)

/-- `list[index]`, where negative indices count from the end. -/
def itemAt {β : Type} (items : List β) (index : ℤ) : Except ReadError β :=
  let place := if index < 0 then items.length + index else index
  if place < 0 then .error .indexError
  else
    match items[place.toNat]? with
    | none => .error .indexError
    | some item => .ok item

/-- `bisect.bisect_right` of a sorted list -/
def bisectRight (numbers : List ℕ) (number : ℕ) : ℕ := (numbers.takeWhile (· ≤ number)).length

/-- `IndexedDataset` -/
structure IndexedDataset where
  idxList : List ℕ
  lengthList : List ℕ
  shardOffset : List ℕ
  binReaders : List (Option (List UInt8))

namespace IndexedDataset

def openShard (builder : IndexedDatasetBuilder) (i : ℕ) :
    Except ReadError (Option (List UInt8)) :=
  match builder.files i with
  | none => .error .fileNotFoundError
  | some content => .ok (binReader content)

/-- Open what a builder has written. -/
def load (builder : IndexedDatasetBuilder) : Except ReadError IndexedDataset :=
  ((List.range builder.nShard).mapM (openShard builder)).map fun binReaders =>
      { idxList := builder.idxList
        lengthList := builder.lengthList
        shardOffset := builder.shardOffset
        binReaders := binReaders }

/-- `__len__` -/
def length (dataset : IndexedDataset) : ℕ := dataset.idxList.length - 1

/-- An index that is not negative, for any index. -/
def wrap (dataset : IndexedDataset) (index : ℤ) : Except ReadError ℤ :=
  if index < 0 then
    if dataset.length = 0 then .error .zeroDivisionError else .ok (index % dataset.length)
  else .ok index

/-- Where an item is: the memory of its shard, the offset in it and the size. -/
def locate (dataset : IndexedDataset) (index : ℤ) :
    Except ReadError (Option (List UInt8) × ℤ × ℤ) := do
  let index ← dataset.wrap index
  let idx ← itemAt dataset.idxList index
  let idxNext ← itemAt dataset.idxList (index + 1)
  let numShard : ℤ := bisectRight dataset.shardOffset idx
  let offset ← itemAt dataset.shardOffset (numShard - 1)
  let reader ← itemAt dataset.binReaders (numShard - 1)
  return (reader, (idx : ℤ) - offset, (idxNext : ℤ) - idx)

/-- `__getitem__` -/
def getItem (pickle : Pickle α) (dataset : IndexedDataset) (index : ℤ) : Except ReadError α := do
  let location ← dataset.locate index
  let buffer ← readBuffer location.1 location.2.1 location.2.2
  match pickle.loads buffer with
  | none => .error .unpicklingError
  | some item => .ok item

end IndexedDataset

end Geobench.Dataset
