import Geobench.Dataset.IndexedDataset
import Mathlib.Data.List.ReduceOption

/-!
# Reading back what was added

While the worker writes, the shards are lists of items (`Holds`): their files have what is pickled
from the items, and the offsets are sums of sizes. This is kept by every batch
(`Holds.writeBatch`). In whatever order adding and writing alternate, the worker has written all
batches when it ends (`builder_of_finished`).

**`getItem_of_finished`**: then reading an index gives the item that was added at it, from inside its
shard.
-/

namespace Geobench.Dataset

open Library List

variable {α : Type} {pickle : Pickle α} {itemLength : α → ℕ} {chunkSize : ℕ}

/-! ## Shards of items -/

def sizes (pickle : Pickle α) (items : List α) : List ℕ :=
  items.map fun item => (pickle.dumps item).length

def bytes (pickle : Pickle α) (items : List α) : List UInt8 := (items.map pickle.dumps).flatten

theorem length_bytes (items : List α) : (bytes pickle items).length = (sizes pickle items).sum := by
  rw [bytes, length_flatten, map_map]
  rfl

def shardSizes (pickle : Pickle α) (shards : List (List α)) : List ℕ :=
  shards.map fun shard => (sizes pickle shard).sum

theorem sum_sizes_flatten (shards : List (List α)) :
    (sizes pickle shards.flatten).sum = (shardSizes pickle shards).sum := by
  rw [sizes, map_flatten, sum_flatten, map_map]
  rfl

/-- The builder has written items to shards, the last of which is open. -/
structure Holds (pickle : Pickle α) (itemLength : α → ℕ) (closed : List (List α)) (last : List α)
    (builder : IndexedDatasetBuilder) : Prop where
  files : ∀ i shard, (closed ++ [last])[i]? = some shard →
    builder.files i = some (bytes pickle shard)
  binPath : builder.binPath = closed.length
  nShard : builder.nShard = closed.length + 1
  lengthList : builder.lengthList = (closed ++ [last]).flatten.map itemLength
  idxList : builder.idxList = places (sizes pickle (closed ++ [last]).flatten)
  shardOffset : builder.shardOffset = places (shardSizes pickle closed)

open IndexedDatasetBuilder

theorem holds_init (files : ℕ → Option (List UInt8)) :
    Holds pickle itemLength [] [] (IndexedDatasetBuilder.init files) where
  files i shard isShard := by
    obtain ⟨inside, rfl⟩ := List.getElem?_eq_some_iff.mp isShard
    obtain rfl : i = 0 := by simpa using inside
    rfl
  binPath := rfl
  nShard := rfl
  lengthList := rfl
  idxList := rfl
  shardOffset := rfl

/-- Recording items adds their sizes and lengths and leaves the files. -/
theorem foldl_recordItem (builder : IndexedDatasetBuilder) {done : List α}
    (idxList : builder.idxList = places (sizes pickle done)) (items : List α) :
    items.foldl (recordItem pickle itemLength) builder =
      { builder with
        idxList := places (sizes pickle (done ++ items))
        lengthList := builder.lengthList ++ items.map itemLength } := by
  induction items generalizing builder done with
  | nil => simp [← idxList]
  | cons item rest ih =>
    have next : (recordItem pickle itemLength builder item).idxList =
        places (sizes pickle (done ++ [item])) := by
      rw [recordItem, idxList, getLastD_places, sizes, sizes, map_append, map_singleton,
        places_concat]
    rw [foldl_cons, ih _ next, recordItem]
    simp

theorem getElem?_concat {β : Type} {items : List β} {last item : β} {i : ℕ}
    (isItem : (items ++ [last])[i]? = some item) :
    (i < items.length ∧ items[i]? = some item) ∨ (i = items.length ∧ item = last) := by
  rcases Nat.lt_trichotomy i items.length with before | rfl | after
  · exact .inl ⟨before, by rwa [getElem?_append_left before] at isItem⟩
  · rw [getElem?_concat_length] at isItem
    exact .inr ⟨rfl, (Option.some.inj isItem).symm⟩
  · rw [getElem?_eq_none (by simpa using Nat.succ_le_of_lt after)] at isItem
    cases isItem

/-- A batch goes to the open shard. -/
theorem Holds.writeItems {closed : List (List α)} {last : List α}
    {builder : IndexedDatasetBuilder} (holds : Holds pickle itemLength closed last builder)
    (items : List α) :
    Holds pickle itemLength closed (last ++ items) (writeItems pickle itemLength builder items) := by
  have all : (closed ++ [last ++ items]).flatten = (closed ++ [last]).flatten ++ items := by
    simp
  rw [IndexedDatasetBuilder.writeItems, foldl_recordItem builder holds.idxList]
  constructor
  case files =>
    intro i shard isShard
    dsimp only
    rw [holds.binPath]
    rcases getElem?_concat isShard with ⟨before, isClosed⟩ | ⟨rfl, rfl⟩
    · rw [Function.update_of_ne (Nat.ne_of_lt before)]
      exact holds.files i shard (by rwa [getElem?_append_left before])
    · rw [Function.update_self, holds.files _ last getElem?_concat_length, Option.map_some,
        bytes, bytes, map_append, flatten_append]
  case binPath => exact holds.binPath
  case nShard => exact holds.nShard
  case lengthList =>
    dsimp only
    rw [all, map_append, holds.lengthList]
  case idxList =>
    dsimp only
    rw [all]
  case shardOffset => exact holds.shardOffset

variable {closed : List (List α)} {last : List α} {builder : IndexedDatasetBuilder}

section

variable (holds : Holds pickle itemLength closed last builder)
include holds

/-- The shard that is open after a shard was closed is empty. -/
theorem Holds.newShard :
    Holds pickle itemLength (closed ++ [last]) []
      (builder.newShard (builder.idxList.getLastD 0 - builder.shardOffset.getLastD 0)) := by
  have ends : builder.shardOffset.getLastD 0 +
      (builder.idxList.getLastD 0 - builder.shardOffset.getLastD 0) =
        (shardSizes pickle closed).sum + (sizes pickle last).sum := by
    rw [holds.idxList, holds.shardOffset, getLastD_places, getLastD_places, sum_sizes_flatten,
      shardSizes, shardSizes, map_append, List.sum_append, map_singleton, sum_singleton]
    omega
  constructor
  case files =>
    intro i shard isShard
    dsimp only [IndexedDatasetBuilder.newShard]
    rw [holds.nShard]
    rcases getElem?_concat isShard with ⟨before, isClosed⟩ | ⟨rfl, rfl⟩
    · rw [length_append, length_singleton] at before
      rw [Function.update_of_ne (Nat.ne_of_lt before)]
      exact holds.files i shard isClosed
    · rw [length_append, length_singleton, Function.update_self]
      rfl
  case binPath => simpa [IndexedDatasetBuilder.newShard] using holds.nShard
  case nShard => simp [IndexedDatasetBuilder.newShard, holds.nShard]
  case lengthList => simpa [IndexedDatasetBuilder.newShard] using holds.lengthList
  case idxList => simpa [IndexedDatasetBuilder.newShard] using holds.idxList
  case shardOffset =>
    dsimp only [IndexedDatasetBuilder.newShard]
    rw [ends, holds.shardOffset, shardSizes, shardSizes, map_append, map_singleton, places_concat]

/-- Every batch is kept in shards. -/
theorem Holds.writeBatch (chunkSize : ℕ) (items : List α) :
    ∃ closed' last', (closed' ++ [last']).flatten = (closed ++ [last]).flatten ++ items ∧
      Holds pickle itemLength closed' last'
        (builder.writeBatch pickle itemLength chunkSize items) := by
  have written := holds.writeItems items
  rw [IndexedDatasetBuilder.writeBatch]
  split
  · exact ⟨closed ++ [last ++ items], [], by simp, written.newShard⟩
  · exact ⟨closed, last ++ items, by simp, written⟩

theorem exists_holds (chunkSize : ℕ) (batches : List (List α)) :
    ∃ closed' last', (closed' ++ [last']).flatten =
        (closed ++ [last]).flatten ++ batches.flatten ∧
      Holds pickle itemLength closed' last'
        (batches.foldl (fun builder => builder.writeBatch pickle itemLength chunkSize) builder) := by
  induction batches generalizing builder closed last with
  | nil => exact ⟨closed, last, by simp, holds⟩
  | cons items rest ih =>
    obtain ⟨closed', last', same, holds'⟩ := holds.writeBatch chunkSize items
    obtain ⟨closed'', last'', sameRest, holds''⟩ := ih holds'
    refine ⟨closed'', last'', ?_, holds''⟩
    rw [sameRest, same, flatten_cons, append_assoc]

end

/-! ## Reads -/

theorem bisectRight_map_range {f : ℕ → ℕ} (increasing : Monotone f) {count place number : ℕ}
    (inside : place < count) (above : f place ≤ number)
    (below : place + 1 < count → number < f (place + 1)) :
    bisectRight ((range count).map f) number = place + 1 := by
  have parts : (range count).map f =
      (range (place + 1)).map f ++ ((range count).map f).drop (place + 1) := by
    conv_lhs => rw [← take_append_drop (place + 1) ((range count).map f)]
    rw [← map_take, take_range, Nat.min_eq_left inside]
  have first : ∀ offset ∈ (range (place + 1)).map f, decide (offset ≤ number) = true := by
    intro offset isOffset
    obtain ⟨i, isIndex, rfl⟩ := mem_map.mp isOffset
    have le := increasing (Nat.le_of_lt_succ (mem_range.mp isIndex))
    exact decide_eq_true (le.trans above)
  rw [bisectRight, parts, takeWhile_append_of_pos first]
  have rest : (((range count).map f).drop (place + 1)).takeWhile (· ≤ number) = [] := by
    by_cases more : place + 1 < count
    · rw [drop_eq_getElem_cons (by simpa using more)]
      have := below more
      simp [Nat.not_le.mpr this]
    · rw [drop_of_length_le (by simpa using more)]
      rfl
  rw [rest, append_nil, length_map, length_range]

theorem itemAt_natCast {β : Type} {items : List β} {place : ℕ} {item : β}
    (isItem : items[place]? = some item) : itemAt items (place : ℤ) = .ok item := by
  have nonneg : ¬ (place : ℤ) < 0 := by omega
  simp only [itemAt, if_neg nonneg, Int.toNat_natCast, isItem]

def loaded (pickle : Pickle α) (itemLength : α → ℕ) (closed : List (List α)) (last : List α) :
    IndexedDataset where
  idxList := places (sizes pickle (closed ++ [last]).flatten)
  lengthList := (closed ++ [last]).flatten.map itemLength
  shardOffset := places (shardSizes pickle closed)
  binReaders := (closed ++ [last]).map fun shard => binReader (bytes pickle shard)

theorem load_of_holds (holds : Holds pickle itemLength closed last builder) :
    IndexedDataset.load builder = .ok (loaded pickle itemLength closed last) := by
  have readers : (range (closed ++ [last]).length).mapM (IndexedDataset.openShard builder) =
      .ok ((closed ++ [last]).map fun shard => binReader (bytes pickle shard)) := by
    refine mapM_range_eq_ok fun i shard isShard => ?_
    rw [IndexedDataset.openShard, holds.files i shard isShard]
  have count : builder.nShard = (closed ++ [last]).length := by
    rw [holds.nShard, length_append, length_singleton]
  rw [IndexedDataset.load, count, readers, holds.idxList, holds.lengthList, holds.shardOffset]
  rfl

variable {index : ℕ} {item : α}

theorem exists_shard {shards : List (List α)} (isItem : shards.flatten[index]? = some item) :
    ∃ k shard place, shards[k]? = some shard ∧ shard[place]? = some item ∧
      offset (sizes pickle shards.flatten) index =
        offset (shardSizes pickle shards) k + offset (sizes pickle shard) place := by
  obtain ⟨inside, rfl⟩ := List.getElem?_eq_some_iff.mp isItem
  obtain ⟨k, isShard, place, isPlace, rfl⟩ := exists_offset shards inside
  have start : offset (shards.map length) k = (shards.take k).flatten.length := by
    rw [offset, length_flatten, map_take]
  have before : shards.flatten.take (offset (shards.map length) k + place) =
      (shards.take k).flatten ++ shards[k].take place := by
    have parts : shards.flatten = (shards.take k).flatten ++
        (shards[k] ++ (shards.drop (k + 1)).flatten) := by
      conv_lhs => rw [← take_append_drop k shards, drop_eq_getElem_cons isShard,
        flatten_append, flatten_cons]
    rw [start]
    conv_lhs => rw [parts]
    rw [take_length_add_append, take_append_of_le_length (Nat.le_of_lt isPlace)]
  refine ⟨k, shards[k], place, getElem?_eq_getElem isShard, ?_, ?_⟩
  · rw [← getElem?_flatten_offset shards isShard isPlace, getElem?_eq_getElem inside]
  · have total : (sizes pickle (shards.take k).flatten).sum =
        (shardSizes pickle (shards.take k)).sum := sum_sizes_flatten _
    rw [sizes, shardSizes] at total
    rw [offset, sizes, ← map_take, before, map_append, List.sum_append, total, offset,
      offset, sizes, shardSizes, map_take, map_take]

/-- An item ends where it begins and its size, which is inside the items. -/
theorem sizes_at (pickle : Pickle α) {items : List α} (isItem : items[index]? = some item) :
    index + 1 ≤ (sizes pickle items).length ∧
      offset (sizes pickle items) (index + 1) =
        offset (sizes pickle items) index + (pickle.dumps item).length ∧
      offset (sizes pickle items) (index + 1) ≤ (sizes pickle items).sum := by
  obtain ⟨inside, rfl⟩ := List.getElem?_eq_some_iff.mp isItem
  have within : index < (sizes pickle items).length := by rwa [sizes, length_map]
  refine ⟨within, ?_, ?_⟩
  · rw [offset_succ _ within]
    simp [sizes]
  · rw [← offset_length]
    exact offset_monotone _ within

theorem bisectRight_shardOffset {shard : List α} {k number : ℕ}
    (isShard : (closed ++ [last])[k]? = some shard)
    (above : offset (shardSizes pickle (closed ++ [last])) k ≤ number)
    (below : number < offset (shardSizes pickle (closed ++ [last])) k + (sizes pickle shard).sum) :
    bisectRight (places (shardSizes pickle closed)) number = k + 1 := by
  obtain ⟨inside, rfl⟩ := List.getElem?_eq_some_iff.mp isShard
  have offsets : places (shardSizes pickle closed) =
      (range (closed.length + 1)).map (offset (shardSizes pickle (closed ++ [last]))) := by
    rw [places, shardSizes, shardSizes, length_map, map_append]
    refine map_congr_left fun i isIndex => (offset_append _ ?_).symm
    rw [length_map]
    exact Nat.le_of_lt_succ (mem_range.mp isIndex)
  rw [offsets]
  refine bisectRight_map_range (offset_monotone _) (by simpa using inside) above fun _ => ?_
  have within : k < (shardSizes pickle (closed ++ [last])).length := by
    rwa [shardSizes, length_map]
  have size : (shardSizes pickle (closed ++ [last]))[k] =
      (sizes pickle (closed ++ [last])[k]).sum := by
    simp only [shardSizes, getElem_map]
  rw [offset_succ _ within, size]
  exact below

theorem locate_loaded (isItem : (closed ++ [last]).flatten[index]? = some item) :
    ∃ shard place, shard[place]? = some item ∧
      (loaded pickle itemLength closed last).locate index =
        .ok (binReader (bytes pickle shard), (offset (sizes pickle shard) place : ℕ),
          ((pickle.dumps item).length : ℕ)) := by
  obtain ⟨k, shard, place, isShard, isPlace, start⟩ : ∃ k shard place,
      (closed ++ [last])[k]? = some shard ∧ shard[place]? = some item ∧
        offset (sizes pickle (closed ++ [last]).flatten) index =
          offset (shardSizes pickle (closed ++ [last])) k + offset (sizes pickle shard) place :=
    exists_shard isItem
  refine ⟨shard, place, isPlace, ?_⟩
  obtain ⟨inside, stop, -⟩ := sizes_at pickle isItem
  obtain ⟨-, shardStop, shardEnd⟩ := sizes_at pickle isPlace
  have some := length_pos_of_ne_nil (pickle.dumps_ne_nil item)
  have numShard : bisectRight (places (shardSizes pickle closed))
      (offset (shardSizes pickle (closed ++ [last])) k + offset (sizes pickle shard) place) =
        k + 1 :=
    bisectRight_shardOffset isShard (Nat.le_add_right _ _) (by omega)
  have before : ((k + 1 : ℕ) : ℤ) - 1 = (k : ℤ) := by omega
  have isClosed : k ≤ (shardSizes pickle closed).length := by
    have bound := (List.getElem?_eq_some_iff.mp isShard).1
    rw [length_append, length_singleton] at bound
    rw [shardSizes, length_map]
    exact Nat.le_of_lt_succ bound
  have startShard : offset (shardSizes pickle (closed ++ [last])) k =
      offset (shardSizes pickle closed) k := by
    rw [shardSizes, map_append]
    exact offset_append _ isClosed
  have isStart : itemAt (places (sizes pickle (closed ++ [last]).flatten)) (index : ℤ) =
      .ok (offset (sizes pickle (closed ++ [last]).flatten) index) :=
    itemAt_natCast (getElem?_places (by omega))
  have isStop : itemAt (places (sizes pickle (closed ++ [last]).flatten)) ((index : ℤ) + 1) =
      .ok (offset (sizes pickle (closed ++ [last]).flatten) (index + 1)) :=
    itemAt_natCast (getElem?_places inside)
  have isOffset : itemAt (places (shardSizes pickle closed)) (((k + 1 : ℕ) : ℤ) - 1) =
      .ok (offset (shardSizes pickle closed) k) := by
    rw [before]
    exact itemAt_natCast (getElem?_places isClosed)
  have isReader : itemAt ((closed ++ [last]).map fun shard => binReader (bytes pickle shard))
      (((k + 1 : ℕ) : ℤ) - 1) = .ok (binReader (bytes pickle shard)) := by
    rw [before]
    refine itemAt_natCast ?_
    rw [getElem?_map, isShard]
    rfl
  have wrapped : (loaded pickle itemLength closed last).wrap index = .ok index := by
    rw [IndexedDataset.wrap, if_neg (by omega)]
  rw [IndexedDataset.locate, wrapped]
  simp only [loaded, bind, Except.bind, isStart, isStop, start, numShard, isOffset, isReader, pure,
    Except.pure, Except.ok.injEq, Prod.mk.injEq, true_and]
  omega

/-- What is read from the shards is the item, from inside its shard. -/
theorem getItem_loaded (isItem : (closed ++ [last]).flatten[index]? = some item) :
    (loaded pickle itemLength closed last).getItem pickle index = .ok item ∧
      ∃ content : List UInt8, ∃ start size : ℕ,
        (loaded pickle itemLength closed last).locate index =
          .ok (some content, (start : ℤ), (size : ℤ)) ∧ start + size ≤ content.length := by
  obtain ⟨shard, place, isPlace, located⟩ : ∃ shard place, shard[place]? = some item ∧
      (loaded pickle itemLength closed last).locate index =
        .ok (binReader (bytes pickle shard), (offset (sizes pickle shard) place : ℕ),
          ((pickle.dumps item).length : ℕ)) := locate_loaded isItem
  obtain ⟨-, stop, within⟩ := sizes_at pickle isPlace
  rw [← length_bytes] at within
  have some := length_pos_of_ne_nil (pickle.dumps_ne_nil item)
  have content : binReader (bytes pickle shard) = Option.some (bytes pickle shard) := by
    rw [binReader, if_neg]
    rw [List.isEmpty_iff]
    exact ne_nil_of_length_pos (by omega)
  rw [content] at located
  have isBuffer : slice (bytes pickle shard) (offset (sizes pickle shard) place)
      (offset (sizes pickle shard) place + (pickle.dumps item).length) = pickle.dumps item := by
    obtain ⟨inside, rfl⟩ := List.getElem?_eq_some_iff.mp isPlace
    have part := slice_offset (shard.map pickle.dumps)
      (show place < (shard.map pickle.dumps).length by rwa [length_map])
    rw [getElem_map, map_map] at part
    exact part
  have isRead : readBuffer (Option.some (bytes pickle shard))
      ((offset (sizes pickle shard) place : ℕ) : ℤ) (((pickle.dumps item).length : ℕ) : ℤ) =
        .ok (pickle.dumps item) := by
    rw [readBuffer, if_neg (by omega)]
    rw [if_neg (by omega), ← Int.natCast_add, Int.toNat_natCast, Int.toNat_natCast, isBuffer]
  refine ⟨?_, bytes pickle shard, _, _, located, by omega⟩
  rw [IndexedDataset.getItem, located]
  simp only [bind, Except.bind, isRead, pickle.loads_dumps]

/-! ## Runs -/

/-- What is on the queue: batches, and the end marker last. -/
inductive Writing.Phase : Writing α → Prop where
  | adding {state : Writing α} (waiting : List (List α)) :
      state.queue = waiting.map some → (state.started = false → waiting = []) →
        state.finished = false → Phase state
  | closing {state : Writing α} (waiting : List (List α)) :
      state.queue = waiting.map some ++ [none] → state.toAdd = [] → state.started = true →
        state.finalizing = true → state.finished = false → Phase state
  | ended {state : Writing α} : state.queue = [] → state.toAdd = [] → state.finalizing = true →
      Phase state

/-- The builder when what is on the queue and what is to be added has been written. -/
def Writing.outcome (pickle : Pickle α) (itemLength : α → ℕ) (chunkSize : ℕ) (state : Writing α) :
    IndexedDatasetBuilder :=
  (state.queue.reduceOption ++ state.toAdd).foldl
    (fun builder => builder.writeBatch pickle itemLength chunkSize) state.builder

theorem Writing.Phase.step {state next : Writing α} (phase : state.Phase)
    (step : Writing.Step pickle itemLength chunkSize state next) : next.Phase := by
  cases step with
  | @addItems items rest isNext room =>
    cases phase with
    | adding waiting queue _ running =>
      refine .adding (waiting ++ [items]) ?_ nofun running
      simp [queue]
    | closing _ _ allAdded _ _ _ => cases isNext.symm.trans allAdded
    | ended _ allAdded _ => cases isNext.symm.trans allAdded
  | finalize allAdded started notYet room =>
    cases phase with
    | adding waiting queue _ running =>
      exact .closing waiting (by simp [queue]) allAdded started rfl running
    | closing _ _ _ _ finalizing _ => cases notYet.symm.trans finalizing
    | ended _ _ finalizing => cases notYet.symm.trans finalizing
  | finalizeUnstarted allAdded unstarted =>
    cases phase with
    | adding waiting queue empty _ => exact .ended (by simp [queue, empty unstarted]) allAdded rfl
    | closing _ _ _ started _ _ => cases unstarted.symm.trans started
    | ended empty _ _ => exact .ended empty allAdded rfl
  | @writeBatch items rest isQueue =>
    cases phase with
    | adding waiting queue empty running =>
      cases waiting with
      | nil => cases isQueue.symm.trans queue
      | cons first waiting =>
        refine .adding waiting (List.cons.inj (isQueue.symm.trans queue)).2 ?_ running
        intro unstarted
        cases empty unstarted
    | closing waiting queue allAdded started finalizing running =>
      cases waiting with
      | nil => cases isQueue.symm.trans queue
      | cons first waiting =>
        exact .closing waiting (List.cons.inj (isQueue.symm.trans queue)).2 allAdded started
          finalizing running
    | ended empty _ _ => cases isQueue.symm.trans empty
  | @stop rest isQueue =>
    cases phase with
    | adding waiting queue _ _ =>
      cases waiting with
      | nil => cases isQueue.symm.trans queue
      | cons first waiting => cases isQueue.symm.trans queue
    | closing waiting queue allAdded _ finalizing _ =>
      cases waiting with
      | nil => exact .ended (List.cons.inj (isQueue.symm.trans queue)).2 allAdded finalizing
      | cons first waiting => cases isQueue.symm.trans queue
    | ended empty _ _ => cases isQueue.symm.trans empty

theorem Writing.outcome_step {state next : Writing α}
    (step : Writing.Step pickle itemLength chunkSize state next) :
    next.outcome pickle itemLength chunkSize = state.outcome pickle itemLength chunkSize := by
  cases step with
  | addItems isNext room => simp [Writing.outcome, isNext, reduceOption_append]
  | finalize none started notYet room => simp [Writing.outcome, reduceOption_append]
  | finalizeUnstarted none unstarted => rfl
  | writeBatch isQueue => simp [Writing.outcome, isQueue]
  | stop isQueue => simp [Writing.outcome, isQueue]

/-- When the worker has ended it has written all batches, in their order. -/
theorem builder_of_finished {files : ℕ → Option (List UInt8)} {batches : List (List α)}
    {final : Writing α}
    (run : Relation.ReflTransGen (Writing.Step pickle itemLength chunkSize)
      (Writing.init files batches) final) (finished : final.finished) :
    final.builder = batches.foldl
      (fun builder => builder.writeBatch pickle itemLength chunkSize) (.init files) := by
  have along : final.Phase ∧ final.outcome pickle itemLength chunkSize =
      (Writing.init files batches).outcome pickle itemLength chunkSize := by
    clear finished
    induction run with
    | refl => exact ⟨.adding [] rfl (fun _ => rfl) rfl, rfl⟩
    | tail _ step ih => exact ⟨ih.1.step step, (Writing.outcome_step step).trans ih.2⟩
  obtain ⟨phase, outcome⟩ := along
  cases phase with
  | adding _ _ _ running => cases finished.symm.trans running
  | closing _ _ _ _ _ running => cases finished.symm.trans running
  | ended empty allAdded _ =>
    rw [Writing.outcome, empty, allAdded] at outcome
    exact outcome

/-- **When the worker has ended, the dataset has the items that were added, and each is read from
inside its shard.** -/
theorem getItem_of_finished (pickle : Pickle α) (itemLength : α → ℕ) (chunkSize : ℕ)
    {files : ℕ → Option (List UInt8)} {batches : List (List α)} {final : Writing α}
    (run : Relation.ReflTransGen (Writing.Step pickle itemLength chunkSize)
      (Writing.init files batches) final) (finished : final.finished) :
    ∃ dataset, IndexedDataset.load final.builder = .ok dataset ∧
      dataset.length = batches.flatten.length ∧
      ∀ (index : ℕ) (item : α), batches.flatten[index]? = some item →
        dataset.getItem pickle index = .ok item ∧
          ∃ content : List UInt8, ∃ start size : ℕ,
            dataset.locate index = .ok (some content, (start : ℤ), (size : ℤ)) ∧
              start + size ≤ content.length := by
  have initial : Holds pickle itemLength [] [] (.init files) := holds_init files
  obtain ⟨closed, last, items_eq, holds⟩ := exists_holds initial chunkSize batches
  have same : (closed ++ [last]).flatten = batches.flatten := items_eq
  rw [builder_of_finished run finished]
  refine ⟨_, load_of_holds holds, ?_, fun index item isItem => ?_⟩
  · rw [IndexedDataset.length, loaded, same, places, length_map, length_range, sizes,
      length_map, Nat.add_sub_cancel]
  · exact getItem_loaded (by rwa [same])

/-! ## One byte -/

/-- Bytes are pickled as they are. -/
def bytePickle : Pickle UInt8 where
  dumps item := [item]
  loads buffer := buffer.head?
  loads_dumps _ := rfl
  dumps_ne_nil _ := cons_ne_nil _ _

/-- What is written when one byte was added. -/
def oneByte : Writing UInt8 where
  toAdd := []
  queue := []
  started := true
  finalizing := true
  finished := true
  builder := (IndexedDatasetBuilder.init fun _ => none).writeBatch bytePickle (fun _ => 1) 0 [7]

theorem run_oneByte : Relation.ReflTransGen (Writing.Step bytePickle (fun _ => 1) 0)
    (Writing.init (fun _ => none) [[7]]) oneByte :=
  (((Relation.ReflTransGen.single (.addItems rfl (by decide))).tail (.writeBatch rfl)).tail
    (.finalize rfl rfl rfl (by decide))).tail (.stop rfl)

/-- The byte is read again. -/
theorem oneByte_read : ∃ dataset, IndexedDataset.load oneByte.builder = .ok dataset ∧
    dataset.length = 1 ∧ dataset.getItem bytePickle 0 = .ok 7 := by
  obtain ⟨dataset, isLoaded, length, read⟩ :=
    getItem_of_finished bytePickle (fun _ => 1) 0 run_oneByte rfl
  exact ⟨dataset, isLoaded, length, (read 0 7 rfl).1⟩

end Geobench.Dataset
