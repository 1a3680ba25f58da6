import Geobench.Library.Collectives
import Geobench.Library.ListSlices

/-!
# Dispatching batches

Rank 0 reads the base data loader. In every round it takes one batch for each rank and scatters
them, and at the end it scatters placeholders, at which a rank stops. On resume it first throws
away the batches of some rounds. It raises where the loader ends among these, as a generator may
not raise `StopIteration`.

**`dispatches_iff`**: every rank gets the rest of its batches, and all stop in the same round,
exactly where the loader has the batches that are skipped and none that is sent looks like a
placeholder. Where it has not, the other ranks wait without end (`exists_waiting_of_short`).
-/

namespace Geobench.Dataset

open Library Library.Collective List

/-! ## The dispatcher -/

/-- The dispatchers of all ranks. There is one rank where `torch.distributed` is not initialized.
A batch may be `None`. -/
structure DataLoaderDispatcher (α : Type) where
  baseDataloader : List (Option α)
  skipBatches : ℕ
  worldSize : ℕ
  isInitialized : Bool
  some_rank : 0 < worldSize
  alone : isInitialized = false → worldSize = 1

/-- How the iterator of a rank is left, after the batches it has given. -/
inductive Ending (α : Type) where
  | stopped (given : List α)
  | raised (given : List α)
  | unfinished (given : List α)

/-- What a rank puts into a scatter: the inputs of all ranks, or nothing. -/
abbrev Inputs (α : Type) := Option (List (Option α))

/-- A scatter has the inputs of the source rank, the first one. -/
def ofSource {α : Type} (inputs : List (Inputs α)) : Inputs α := inputs.headD none

namespace DataLoaderDispatcher

variable {α : Type} (dispatcher : DataLoaderDispatcher α)

/-- `[next(base_iter) for _ in range(self.world_size)]`, and what is left. It is `none` where the
iterator ends. -/
def nextBatches (rest : List (Option α)) : Option (List (Option α) × List (Option α)) :=
  if dispatcher.worldSize ≤ rest.length then
    some (rest.take dispatcher.worldSize, rest.drop dispatcher.worldSize)
  else none

/-- Throw away the batches of some rounds. -/
def skipRounds : ℕ → List (Option α) → Option (List (Option α))
  | 0, rest => some rest
  | count + 1, rest => do skipRounds count (← dispatcher.nextBatches rest).2

/-- `_skip_batches` -/
def skipped (rank : ℕ) : Option (List (Option α)) :=
  if rank = 0 ∧ 0 < dispatcher.skipBatches then
    dispatcher.skipRounds dispatcher.skipBatches dispatcher.baseDataloader
  else some dispatcher.baseDataloader

/-- `_scatter_object_list`, with what follows on it. -/
def scatterObjectList (rank : ℕ) (inputs : Inputs α)
    (next : Option α → Program (Inputs α) (Ending α)) : Program (Inputs α) (Ending α) :=
  if dispatcher.isInitialized then
    .calls inputs fun scattered => next ((scattered.getD []).getD rank none)
  else next ((inputs.getD []).getD 0 none)

/-- What is scattered in a round, and what is left. -/
def round (rest : List (Option α)) : List (Option α) × List (Option α) :=
  (dispatcher.nextBatches rest).getD (List.replicate dispatcher.worldSize none, [])

/-- The rounds of a rank. Only rank 0 reads. -/
def loop (rank : ℕ) :
    (fuel : ℕ) → (rest : List (Option α)) → (given : List α) → Program (Inputs α) (Ending α)
  | 0, _, given => .returns (.unfinished given)
  | fuel + 1, rest, given =>
    let next := fun (rest : List (Option α)) (data : Option α) =>
      match data with
      | none => .returns (.stopped given)
      | some batch => loop rank fuel rest (given ++ [batch])
    if rank = 0 then
      dispatcher.scatterObjectList rank (some (dispatcher.round rest).1)
        (next (dispatcher.round rest).2)
    else dispatcher.scatterObjectList rank none (next rest)

/-- `__iter__` -/
def iter (fuel rank : ℕ) : Program (Inputs α) (Ending α) :=
  match dispatcher.skipped rank with
  | none => .returns (.raised [])
  | some rest => dispatcher.loop rank fuel rest []

/-- What all ranks do. -/
def programs (fuel : ℕ) : List (Program (Inputs α) (Ending α)) :=
  (List.range dispatcher.worldSize).map (dispatcher.iter fuel)

/-- The rounds that are left behind the skipped ones, when the last one is full. -/
def rounds : ℕ :=
  dispatcher.baseDataloader.length / dispatcher.worldSize - dispatcher.skipBatches

/-- The batches that a rank shall get: one of every round behind the skipped ones. -/
def OwnBatches (rank : ℕ) (given : List α) : Prop :=
  given.length = dispatcher.rounds ∧ ∀ round < dispatcher.rounds,
    dispatcher.baseDataloader[
      (dispatcher.skipBatches + round) * dispatcher.worldSize + rank]? = given[round]?.map some

/-- Every rank gets its batches, takes part in every scatter and stops behind the last one,
whatever number of steps it may take beyond that. -/
def Dispatches : Prop :=
  ∃ given : ℕ → List α, (∀ rank < dispatcher.worldSize, dispatcher.OwnBatches rank (given rank)) ∧
    ∀ fuel, dispatcher.rounds < fuel → ∃ scattered,
      Completes ofSource (dispatcher.programs fuel) scattered
        ((List.range dispatcher.worldSize).map fun rank => .stopped (given rank))

/-! ## Rounds -/

section Rounds

/-- The programs of the ranks at the start of a round. Only rank 0 has a use for `rest`. -/
def loops (fuel : ℕ) (rest : List (Option α)) (given : ℕ → List α) :
    List (Program (Inputs α) (Ending α)) :=
  (List.range dispatcher.worldSize).map fun rank =>
    dispatcher.loop rank fuel (if rank = 0 then rest else dispatcher.baseDataloader) (given rank)

/-- What follows on a scatter. -/
def afterScatter (fuel : ℕ) (data rest : List (Option α)) (given : ℕ → List α) :
    List (Program (Inputs α) (Ending α)) :=
  (List.range dispatcher.worldSize).map fun rank =>
    match data.getD rank none with
    | none => .returns (.stopped (given rank))
    | some batch => dispatcher.loop rank fuel
        (if rank = 0 then rest else dispatcher.baseDataloader) (given rank ++ [batch])

variable {dispatcher}

variable {fuel : ℕ} {given : ℕ → List α}

/-- All ranks take part in the scatter of a round. -/
theorem completes_loops_iff {rest : List (Option α)} {results : List (Ending α)} :
    (∃ scattered, Completes ofSource (dispatcher.loops (fuel + 1) rest given) scattered results) ↔
      ∃ scattered, Completes ofSource
        (dispatcher.afterScatter fuel (dispatcher.round rest).1 (dispatcher.round rest).2 given)
        scattered results := by
  by_cases initialized : dispatcher.isInitialized = true
  · let pending : List (Inputs α × (Inputs α → Program (Inputs α) (Ending α))) :=
      (range dispatcher.worldSize).map fun rank =>
        (if rank = 0 then some (dispatcher.round rest).1 else none, fun scattered =>
          match (scattered.getD []).getD rank none with
          | none => .returns (.stopped (given rank))
          | some batch => dispatcher.loop rank fuel
              (if rank = 0 then (dispatcher.round rest).2 else dispatcher.baseDataloader)
              (given rank ++ [batch]))
    have source : ofSource (pending.map Prod.fst) = some (dispatcher.round rest).1 := by
      obtain ⟨others, isSucc⟩ := Nat.exists_eq_succ_of_ne_zero dispatcher.some_rank.ne'
      simp [pending, ofSource, isSucc, range_succ_eq_map]
    have calls : dispatcher.loops (fuel + 1) rest given =
        pending.map fun rank => .calls rank.1 rank.2 := by
      rw [loops, map_map]
      refine map_congr_left fun rank _ => ?_
      by_cases isSource : rank = 0
      · subst isSource
        simp [loop, scatterObjectList, initialized]
      · simp [loop, scatterObjectList, initialized, isSource]
    have follows : (pending.map fun rank => rank.2 (ofSource (pending.map Prod.fst))) =
        dispatcher.afterScatter fuel (dispatcher.round rest).1 (dispatcher.round rest).2 given := by
      rw [source]
      simp [pending, afterScatter, Function.comp_def]
    have someRank : pending ≠ [] := by
      have ranks := dispatcher.some_rank
      simp [pending, ranks.ne']
    rw [calls, ← follows]
    constructor
    · rintro ⟨scattered, completes⟩
      obtain ⟨later, rest⟩ := completes.of_calls someRank
      exact ⟨later, rest⟩
    · rintro ⟨scattered, completes⟩
      exact ⟨_, .called someRank completes⟩
  · have alone := dispatcher.alone (by simpa using initialized)
    have same : dispatcher.loops (fuel + 1) rest given =
        dispatcher.afterScatter fuel (dispatcher.round rest).1 (dispatcher.round rest).2 given := by
      simp only [loops, afterScatter, alone, range_one, map_singleton]
      simp [loop, scatterObjectList, initialized]
    rw [same]

/-! ### Rounds that are full -/

variable (dispatcher) in
/-- The first `count` rounds of batches are full of batches that are no placeholders. -/
def Full (count : ℕ) (rest : List (Option α)) : Prop :=
  ∀ place < count * dispatcher.worldSize, rest.getD place none ≠ none

variable (dispatcher) in
def sent (count : ℕ) (rest : List (Option α)) (rank : ℕ) : List α :=
  (List.range count).filterMap fun round => rest.getD (round * dispatcher.worldSize + rank) none

theorem sent_succ (count : ℕ) (rest : List (Option α)) (rank : ℕ) :
    dispatcher.sent (count + 1) rest rank = (rest.getD rank none).toList ++
      dispatcher.sent count (rest.drop dispatcher.worldSize) rank := by
  have places : ∀ round, (rest.drop dispatcher.worldSize).getD
      (round * dispatcher.worldSize + rank) none =
        rest.getD ((round + 1) * dispatcher.worldSize + rank) none := by
    intro round
    have place : dispatcher.worldSize + (round * dispatcher.worldSize + rank) =
        (round + 1) * dispatcher.worldSize + rank := by
      rw [Nat.succ_mul]
      omega
    rw [getD_eq_getElem?_getD, getD_eq_getElem?_getD, getElem?_drop, place]
  simp only [sent, places, range_succ_eq_map, filterMap_cons, filterMap_map,
    Nat.zero_mul, Nat.zero_add]
  cases rest.getD rank none <;> rfl

theorem round_of_short {rest : List (Option α)} (short : rest.length / dispatcher.worldSize = 0) :
    dispatcher.round rest = (replicate dispatcher.worldSize none, []) := by
  have few : ¬ dispatcher.worldSize ≤ rest.length := by
    rw [Nat.div_eq_zero_iff] at short
    have ranks := dispatcher.some_rank
    omega
  rw [round, nextBatches, if_neg few, Option.getD_none]

theorem round_of_full {count : ℕ} {rest : List (Option α)}
    (full : rest.length / dispatcher.worldSize = count + 1) :
    dispatcher.round rest =
      (rest.take dispatcher.worldSize, rest.drop dispatcher.worldSize) ∧
      (rest.drop dispatcher.worldSize).length / dispatcher.worldSize = count := by
  have enough : dispatcher.worldSize ≤ rest.length := by
    have whole := Nat.div_mul_le_self rest.length dispatcher.worldSize
    rw [full, Nat.succ_mul] at whole
    omega
  refine ⟨by rw [round, nextBatches, if_pos enough, Option.getD_some], ?_⟩
  have less := Nat.sub_mul_div rest.length dispatcher.worldSize 1
  rw [Nat.mul_one, full, Nat.add_sub_cancel] at less
  rwa [length_drop]

theorem afterScatter_of_full {rest : List (Option α)}
    (full : ∀ rank < dispatcher.worldSize, rest.getD rank none ≠ none) :
    dispatcher.afterScatter fuel (rest.take dispatcher.worldSize)
        (rest.drop dispatcher.worldSize) given =
      dispatcher.loops fuel (rest.drop dispatcher.worldSize)
        fun rank => given rank ++ (rest.getD rank none).toList := by
  refine map_congr_left fun rank isRank => ?_
  have isRank := mem_range.mp isRank
  have same : (rest.take dispatcher.worldSize).getD rank none = rest.getD rank none := by
    rw [getD_eq_getElem?_getD, getElem?_take_of_lt isRank, getD_eq_getElem?_getD]
  obtain ⟨batch, isBatch⟩ := Option.ne_none_iff_exists'.mp (full rank isRank)
  simp only [same, isBatch, Option.toList_some]

/-- Full rounds are sent, and the placeholders behind them stop all ranks. -/
theorem completes_of_full {count : ℕ} {rest : List (Option α)} (given : ℕ → List α)
    (rounds : rest.length / dispatcher.worldSize = count) (full : dispatcher.Full count rest)
    (enough : count < fuel) :
    ∃ scattered, Completes ofSource (dispatcher.loops fuel rest given) scattered
      ((range dispatcher.worldSize).map fun rank =>
        .stopped (given rank ++ dispatcher.sent count rest rank)) := by
  induction count generalizing fuel rest given with
  | zero =>
    obtain ⟨fuel, rfl⟩ := Nat.exists_eq_succ_of_ne_zero (Nat.ne_of_gt enough)
    rw [Nat.succ_eq_add_one, completes_loops_iff, round_of_short rounds]
    refine ⟨[], ?_⟩
    have stops : dispatcher.afterScatter fuel (replicate dispatcher.worldSize none) [] given =
        ((range dispatcher.worldSize).map fun rank =>
          Ending.stopped (given rank ++ dispatcher.sent 0 rest rank)).map .returns := by
      rw [map_map]
      refine map_congr_left fun rank isRank => ?_
      have isRank := mem_range.mp isRank
      simp [sent, isRank]
    rw [stops]
    exact .returned _
  | succ count ih =>
    obtain ⟨fuel, rfl⟩ := Nat.exists_eq_succ_of_ne_zero (Nat.ne_of_gt (Nat.zero_lt_of_lt enough))
    obtain ⟨taken, rounds⟩ := round_of_full rounds
    have first : ∀ rank < dispatcher.worldSize, rest.getD rank none ≠ none := by
      intro rank isRank
      refine full rank ?_
      rw [Nat.succ_mul]
      omega
    have later : dispatcher.Full count (rest.drop dispatcher.worldSize) := by
      intro place isPlace
      have isLater := full (dispatcher.worldSize + place) (by rw [Nat.succ_mul]; omega)
      rwa [getD_eq_getElem?_getD, getElem?_drop, ← getD_eq_getElem?_getD]
    rw [Nat.succ_eq_add_one, completes_loops_iff, taken, afterScatter_of_full first]
    have completes := ih (fun rank => given rank ++ (rest.getD rank none).toList) rounds later
      (Nat.lt_of_succ_lt_succ enough)
    simpa only [sent_succ, append_assoc] using completes

/-- A rank that is sent a placeholder stops early. -/
theorem full_of_completes {count : ℕ} {rest : List (Option α)} {sent : ℕ → List α}
    (rounds : rest.length / dispatcher.worldSize = count) (enough : count < fuel)
    (all : ∀ rank < dispatcher.worldSize, (sent rank).length = (given rank).length + count)
    (completes : ∃ scattered, Completes ofSource (dispatcher.loops fuel rest given) scattered
      ((range dispatcher.worldSize).map fun rank => .stopped (sent rank))) :
    dispatcher.Full count rest := by
  induction count generalizing fuel rest given with
  | zero =>
    intro place isPlace
    rw [Nat.zero_mul] at isPlace
    exact absurd isPlace (Nat.not_lt_zero _)
  | succ count ih =>
    obtain ⟨fuel, rfl⟩ := Nat.exists_eq_succ_of_ne_zero (Nat.ne_of_gt (Nat.zero_lt_of_lt enough))
    obtain ⟨taken, rounds⟩ := round_of_full rounds
    rw [Nat.succ_eq_add_one, completes_loops_iff, taken] at completes
    have first : ∀ rank < dispatcher.worldSize, rest.getD rank none ≠ none := by
      intro rank isRank isNone
      obtain ⟨scattered, completes⟩ := completes
      have same : (rest.take dispatcher.worldSize).getD rank none = none := by
        rwa [getD_eq_getElem?_getD, getElem?_take_of_lt isRank,
          ← getD_eq_getElem?_getD]
      have stops : .returns (.stopped (given rank)) ∈
          dispatcher.afterScatter fuel (rest.take dispatcher.worldSize)
            (rest.drop dispatcher.worldSize) given := by
        refine mem_map.mpr ⟨rank, mem_range.mpr isRank, ?_⟩
        rw [same]
      have equal := completes.of_returns stops
      rw [afterScatter, map_map] at equal
      have atRank := map_inj_left.mp equal rank (mem_range.mpr isRank)
      simp only [same, Function.comp_apply, Program.returns.injEq, Ending.stopped.injEq] at atRank
      have length := all rank isRank
      rw [← atRank] at length
      omega
    rw [afterScatter_of_full first] at completes
    have later := ih rounds (Nat.lt_of_succ_lt_succ enough) (fun rank isRank => by
      obtain ⟨batch, isBatch⟩ := Option.ne_none_iff_exists'.mp (first rank isRank)
      rw [all rank isRank, length_append, isBatch, Option.toList_some, length_singleton]
      omega) completes
    intro place isPlace
    by_cases isFirst : place < dispatcher.worldSize
    · exact first place isFirst
    · have isLater := later (place - dispatcher.worldSize) (by rw [Nat.succ_mul] at isPlace; omega)
      rwa [getD_eq_getElem?_getD, getElem?_drop, Nat.add_sub_cancel' (by omega),
        ← getD_eq_getElem?_getD] at isLater

end Rounds

/-! ## Where every rank gets its batches -/

theorem skipRounds_eq (count : ℕ) (rest : List (Option α)) :
    dispatcher.skipRounds count rest =
      if count * dispatcher.worldSize ≤ rest.length then
        some (rest.drop (count * dispatcher.worldSize)) else none := by
  induction count generalizing rest with
  | zero => simp [skipRounds]
  | succ count ih =>
    rw [skipRounds, nextBatches]
    by_cases enough : dispatcher.worldSize ≤ rest.length
    · rw [if_pos enough, Option.bind_eq_bind, Option.bind_some, ih, length_drop,
        drop_drop, Nat.succ_mul, Nat.add_comm dispatcher.worldSize]
      by_cases more : count * dispatcher.worldSize + dispatcher.worldSize ≤ rest.length
      · rw [if_pos more, if_pos (by omega)]
      · rw [if_neg more, if_neg (by omega)]
    · rw [if_neg enough, if_neg (by rw [Nat.succ_mul]; omega)]
      rfl

theorem skipped_zero : dispatcher.skipped 0 =
    dispatcher.skipRounds dispatcher.skipBatches dispatcher.baseDataloader := by
  rw [skipped]
  split
  · rfl
  · rename_i noSkip
    have isZero : dispatcher.skipBatches = 0 := by
      by_contra isSome
      exact noSkip ⟨rfl, Nat.pos_of_ne_zero isSome⟩
    rw [isZero, skipRounds]

/-- The loader has the batches that are skipped. -/
abbrev Enough : Prop :=
  dispatcher.skipBatches * dispatcher.worldSize ≤ dispatcher.baseDataloader.length

/-- What is left behind the skipped batches. -/
def left : List (Option α) :=
  dispatcher.baseDataloader.drop (dispatcher.skipBatches * dispatcher.worldSize)

section Iterators

variable {dispatcher}

theorem iter_zero_of_short (short : ¬ dispatcher.Enough) (fuel : ℕ) :
    dispatcher.iter fuel 0 = .returns (.raised []) := by
  rw [iter, skipped_zero, skipRounds_eq, if_neg short]

theorem programs_eq_loops (enough : dispatcher.Enough) (fuel : ℕ) :
    dispatcher.programs fuel = dispatcher.loops fuel dispatcher.left fun _ => [] := by
  refine map_congr_left fun rank _ => ?_
  by_cases isSource : rank = 0
  · rw [isSource, iter, skipped_zero, skipRounds_eq, if_pos enough, if_pos rfl, left]
  · rw [iter, skipped, if_neg (fun both => isSource both.1), if_neg isSource]

theorem rounds_left : dispatcher.left.length / dispatcher.worldSize = dispatcher.rounds := by
  rw [left, length_drop, rounds, Nat.mul_comm, Nat.sub_mul_div]

theorem getD_left (place : ℕ) : dispatcher.left.getD place none =
    dispatcher.baseDataloader.getD
      (dispatcher.skipBatches * dispatcher.worldSize + place) none := by
  rw [left, getD_eq_getElem?_getD, getElem?_drop, ← getD_eq_getElem?_getD]

theorem lt_length_of_lt {round rank : ℕ} (isRound : round < dispatcher.rounds)
    (isRank : rank < dispatcher.worldSize) :
    (dispatcher.skipBatches + round) * dispatcher.worldSize + rank <
      dispatcher.baseDataloader.length := by
  have whole := Nat.div_mul_le_self dispatcher.baseDataloader.length dispatcher.worldSize
  have later : dispatcher.skipBatches + round + 1 ≤
      dispatcher.baseDataloader.length / dispatcher.worldSize := by
    unfold rounds at isRound
    omega
  have upTo := Nat.mul_le_mul_right dispatcher.worldSize later
  rw [Nat.succ_mul] at upTo
  omega

theorem ownBatches_sent (full : dispatcher.Full dispatcher.rounds dispatcher.left) {rank : ℕ}
    (isRank : rank < dispatcher.worldSize) :
    dispatcher.OwnBatches rank (dispatcher.sent dispatcher.rounds dispatcher.left rank) := by
  have batches : ∀ round < dispatcher.rounds,
      (dispatcher.left.getD (round * dispatcher.worldSize + rank) none).isSome := by
    intro round isRound
    refine Option.isSome_iff_ne_none.mpr (full _ ?_)
    have upTo := Nat.mul_le_mul_right dispatcher.worldSize isRound
    rw [Nat.succ_mul] at upTo
    omega
  refine ⟨length_filterMap_range batches, fun round isRound => ?_⟩
  rw [sent, getElem?_filterMap_range batches isRound, getD_left, ← Nat.add_assoc,
    ← Nat.add_mul, getD_eq_getElem?_getD]
  have isPlace := lt_length_of_lt isRound isRank
  have isSome := batches round isRound
  rw [getD_left, ← Nat.add_assoc, ← Nat.add_mul, getD_eq_getElem?_getD,
    getElem?_eq_getElem isPlace, Option.getD_some] at isSome
  rw [getElem?_eq_getElem isPlace, Option.getD_some]
  obtain ⟨batch, isBatch⟩ := Option.isSome_iff_exists.mp isSome
  rw [isBatch, Option.map_some]

theorem full_left_iff (enough : dispatcher.Enough) :
    dispatcher.Full dispatcher.rounds dispatcher.left ↔
      ∀ place, dispatcher.skipBatches * dispatcher.worldSize ≤ place →
        place < dispatcher.baseDataloader.length / dispatcher.worldSize * dispatcher.worldSize →
        dispatcher.baseDataloader[place]? ≠ some none := by
  have bound : dispatcher.skipBatches * dispatcher.worldSize +
      dispatcher.rounds * dispatcher.worldSize =
        dispatcher.baseDataloader.length / dispatcher.worldSize * dispatcher.worldSize := by
    have few : dispatcher.skipBatches ≤
        dispatcher.baseDataloader.length / dispatcher.worldSize :=
      (Nat.le_div_iff_mul_le dispatcher.some_rank).mpr enough
    rw [← Nat.add_mul, rounds, Nat.add_sub_cancel' few]
  have whole := Nat.div_mul_le_self dispatcher.baseDataloader.length dispatcher.worldSize
  have same : ∀ place < dispatcher.baseDataloader.length,
      dispatcher.baseDataloader.getD place none ≠ none ↔
        dispatcher.baseDataloader[place]? ≠ some none := by
    intro place isPlace
    rw [getD_eq_getElem?_getD, getElem?_eq_getElem isPlace, Option.getD_some]
    simp
  constructor
  · intro full place from_ isPlace
    have isFull := full (place - dispatcher.skipBatches * dispatcher.worldSize) (by omega)
    rw [getD_left, Nat.add_sub_cancel' from_] at isFull
    exact (same place (by omega)).mp isFull
  · intro batches place isPlace
    rw [getD_left]
    exact (same _ (by omega)).mpr (batches _ (by omega) (by omega))

/-- **Where the loader ends among the skipped batches, rank 0 raises and another rank waits
without end.** -/
theorem exists_waiting_of_short (short : ¬ dispatcher.Enough)
    (initialized : dispatcher.isInitialized = true) (several : 1 < dispatcher.worldSize)
    (fuel : ℕ) :
    ∃ ranks, Relation.ReflTransGen (Step ofSource)
        ((dispatcher.programs (fuel + 1)).map .running) ranks ∧
      Terminal ofSource ranks ∧ ∃ value next, Rank.waiting value next ∈ ranks := by
  have calls : ∃ next, dispatcher.iter (fuel + 1) 1 = .calls none next := by
    simp [iter, skipped, loop, scatterObjectList, initialized]
  obtain ⟨next, calls⟩ := calls
  have source := mem_range.mpr dispatcher.some_rank
  exact exists_waiting_of_mixed
    ⟨⟨.raised [], mem_map.mpr ⟨0, source, iter_zero_of_short short _⟩⟩,
      none, next, mem_map.mpr ⟨1, mem_range.mpr several, calls⟩⟩

theorem enough_of_dispatches (dispatches : dispatcher.Dispatches) : dispatcher.Enough := by
  obtain ⟨given, -, runs⟩ := dispatches
  obtain ⟨scattered, completes⟩ := runs _ (Nat.lt_succ_self _)
  by_contra short
  have raises := iter_zero_of_short short (dispatcher.rounds + 1)
  have isSource := mem_range.mpr dispatcher.some_rank
  have equal := completes.of_returns (mem_map.mpr ⟨0, isSource, raises⟩)
  rw [programs, map_map] at equal
  have atSource := map_inj_left.mp equal 0 isSource
  simp [raises] at atSource

end Iterators

/-- **Every rank gets its batches and all stop in one round exactly where the loader has the
batches that are skipped, and no batch of the full rounds behind them is `None`.** -/
theorem dispatches_iff : dispatcher.Dispatches ↔
    dispatcher.skipBatches * dispatcher.worldSize ≤ dispatcher.baseDataloader.length ∧
      ∀ place, dispatcher.skipBatches * dispatcher.worldSize ≤ place →
        place < dispatcher.baseDataloader.length / dispatcher.worldSize * dispatcher.worldSize →
        dispatcher.baseDataloader[place]? ≠ some none := by
  constructor
  · intro dispatches
    have enough := enough_of_dispatches dispatches
    obtain ⟨given, own, runs⟩ := dispatches
    obtain ⟨scattered, completes⟩ := runs _ (Nat.lt_succ_self _)
    rw [programs_eq_loops enough] at completes
    have full := full_of_completes rounds_left (Nat.lt_succ_self _)
      (fun rank isRank => by simpa using (own rank isRank).1) ⟨scattered, completes⟩
    exact ⟨enough, (full_left_iff enough).mp full⟩
  · rintro ⟨enough, batches⟩
    have full := (full_left_iff enough).mpr batches
    refine ⟨dispatcher.sent dispatcher.rounds dispatcher.left,
      fun rank isRank => ownBatches_sent full isRank, fun fuel more => ?_⟩
    rw [programs_eq_loops enough]
    simpa using completes_of_full (fun _ => []) rounds_left full more

end DataLoaderDispatcher

def twoOfThreeBatches : DataLoaderDispatcher ℕ where
  baseDataloader := [some 0, some 1, some 2]
  skipBatches := 2
  worldSize := 2
  isInitialized := true
  some_rank := Nat.two_pos
  alone := fun isAlone => absurd isAlone (by decide)

theorem exists_waiting_of_short_twoOfThreeBatches :
    ∃ ranks, Relation.ReflTransGen (Step ofSource)
        ((twoOfThreeBatches.programs 1).map .running) ranks ∧
      Terminal ofSource ranks ∧
        ∃ value next, Rank.waiting value next ∈ ranks :=
  twoOfThreeBatches.exists_waiting_of_short (by decide) rfl (by decide) 0

theorem not_dispatches_twoOfThreeBatches : ¬ twoOfThreeBatches.Dispatches := by
  intro dispatches
  exact absurd (DataLoaderDispatcher.enough_of_dispatches dispatches) (by decide)

end Geobench.Dataset
