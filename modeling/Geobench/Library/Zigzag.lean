import Geobench.Library.ListSlices

/-!
# Sequences shared out from both ends

Every sequence of a list is cut into twice as many parts as there are ranks. A rank has
one part counted from the front and one counted from the back. The parts are put back with
writes into a buffer (`regroup`), and give the sequences again (`regroup_zigzag`): what is
written is a piece of the target (`IsPiece`), and every place is written to.
-/

namespace Geobench.Library

open List

universe u

variable {α : Type u}

/-! ## Parts -/

/-- Parts of a list, of one size but for the last ones. -/
def chunk (parts : ℕ) (items : List α) : List (List α) :=
  cutAt (· * ((items.length + parts - 1) / parts)) parts items

theorem flatten_chunk {parts : ℕ} (some : 0 < parts) (items : List α) :
    (chunk parts items).flatten = items := by
  apply flatten_cutAt_mul
  rw [Nat.mul_comm]
  exact le_ceilDiv_mul items.length some

theorem getD_chunk {parts size index : ℕ} {items : List α} (length : items.length = parts * size)
    (inside : index < parts) :
    (chunk parts items).getD index [] = slice items (index * size) ((index + 1) * size) := by
  have sizes : (items.length + parts - 1) / parts = size := by
    rw [length]
    apply Nat.div_eq_of_lt_le
    · rw [Nat.mul_comm]
      omega
    · rw [Nat.succ_mul, Nat.mul_comm]
      omega
  rw [chunk, cutAt, sizes, getD_eq_getElem?_getD, getElem?_map, getElem?_range inside]
  rfl

def zigzagPart (ranks rank : ℕ) (items : List α) : List α :=
  (chunk (2 * ranks) items).getD rank [] ++
    (chunk (2 * ranks) items).getD (2 * ranks - 1 - rank) []

/-- What a rank has of all sequences. -/
def zigzag (ranks rank : ℕ) (sequences : List (List α)) : List α :=
  sequences.flatMap (zigzagPart ranks rank)

theorem map_range_getD {β : Type u} (lists : List (List β)) :
    (range lists.length).map (fun index => lists.getD index []) = lists := by
  apply ext_getElem
  · rw [length_map, length_range]
  · intro index _ inside
    rw [getElem_map, getElem_range, getD_eq_getElem?_getD,
      getElem?_eq_getElem inside, Option.getD_some]

/-- The numbers below twice a number, from both ends. -/
theorem perm_range_two_mul (count : ℕ) :
    (range count ++ (range count).map (2 * count - 1 - ·)).Perm
      (range (2 * count)) := by
  have back : (range count).map (2 * count - 1 - ·) = (List.range' count count).reverse := by
    rw [reverse_range']
    refine map_congr_left fun index _ => ?_
    omega
  have whole : range (2 * count) = range count ++ List.range' count count := by
    rw [Nat.two_mul, range_add, range'_eq_map_range]
  rw [back, whole]
  exact (reverse_perm _).append_left _

theorem perm_zigzagPart {ranks : ℕ} (some : 0 < ranks) (items : List α) :
    ((range ranks).flatMap fun rank => zigzagPart ranks rank items).Perm items := by
  have parts := map_range_getD (chunk (2 * ranks) items)
  rw [chunk, length_cutAt, ← chunk] at parts
  have all : ((range ranks ++ (range ranks).map (2 * ranks - 1 - ·)).flatMap
      fun index => (chunk (2 * ranks) items).getD index []).Perm items := by
    refine ((perm_range_two_mul ranks).flatMap_right _).trans ?_
    rw [flatMap_def, parts, flatten_chunk (by omega)]
  refine (List.flatMap_append_perm _ _ _).symm.trans ?_
  rwa [flatMap_append, flatMap_map] at all

theorem perm_zigzag {ranks : ℕ} (some : 0 < ranks) (sequences : List (List α)) :
    ((range ranks).flatMap fun rank => zigzag ranks rank sequences).Perm
      sequences.flatten := by
  induction sequences with
  | nil => simp [zigzag]
  | cons items sequences ih =>
    have split : ((range ranks).flatMap fun rank => zigzag ranks rank (items :: sequences)) =
        (range ranks).flatMap fun rank =>
          zigzagPart ranks rank items ++ zigzag ranks rank sequences := by
      simp only [zigzag, flatMap_cons]
    rw [split, flatten_cons]
    exact (List.flatMap_append_perm _ _ _).symm.trans ((perm_zigzagPart some items).append ih)

/-! ## Writes -/

/-- Values written into a buffer from a place on. -/
def writeSlice (buffer : List α) (write : ℕ × List α) : List α :=
  buffer.take write.1 ++ write.2 ++ buffer.drop (write.1 + write.2.length)

/-- The writes that bring back what a rank has of sequences with given lengths. -/
def zigzagWrites (ranks rank : ℕ) (rankItems : List α) : ℕ → List ℕ → List (ℕ × List α)
  | _, [] => []
  | accumulated, length :: lengths =>
    let localLength := length / ranks
    let localItems := slice rankItems accumulated (localLength + accumulated)
    let chunkSize := localLength / 2
    (accumulated * ranks + rank * chunkSize, localItems.take chunkSize) ::
      (accumulated * ranks + (2 * ranks - rank - 1) * chunkSize, localItems.drop chunkSize) ::
        zigzagWrites ranks rank rankItems (localLength + accumulated) lengths

/-- The sequences from what all ranks have. -/
def regroup (ranks : ℕ) (zero : α) (rankItems : List (List α)) (lengths : List ℕ) : List α :=
  (rankItems.zipIdx.flatMap fun items => zigzagWrites ranks items.2 items.1 0 lengths).foldl
    writeSlice (List.replicate lengths.sum zero)

/-- A write of a piece of a target to its place. -/
structure IsPiece (target : List α) (write : ℕ × List α) : Prop where
  inside : write.1 + write.2.length ≤ target.length
  piece : write.2 = slice target write.1 (write.1 + write.2.length)

/-- The places that are written to. -/
def Covers (write : ℕ × List α) (place : ℕ) : Prop :=
  write.1 ≤ place ∧ place < write.1 + write.2.length

variable {target buffer : List α}

theorem length_writeSlice {write : ℕ × List α} (isPiece : IsPiece target write)
    (sameLength : buffer.length = target.length) :
    (writeSlice buffer write).length = target.length := by
  have inside := isPiece.inside
  rw [writeSlice, length_append, length_append, length_take, length_drop]
  omega

variable {place : ℕ}

/-- A write of a piece brings its places to the target and leaves the others. -/
theorem getElem?_writeSlice {write : ℕ × List α} (isPiece : IsPiece target write)
    (sameLength : buffer.length = target.length)
    (reached : Covers write place ∨ buffer[place]? = target[place]?) :
    (writeSlice buffer write)[place]? = target[place]? := by
  have inside := isPiece.inside
  have before : (buffer.take write.1).length = write.1 := by
    rw [length_take]
    omega
  rw [writeSlice, append_assoc]
  by_cases early : place < write.1
  · rw [getElem?_append_left (by omega), getElem?_take_of_lt early]
    rcases reached with covered | agrees
    · exact absurd covered.1 (not_le.mpr early)
    · exact agrees
  · rw [getElem?_append_right (by omega), before]
    by_cases written : place < write.1 + write.2.length
    · rw [getElem?_append_left (by omega), isPiece.piece, slice, getElem?_drop,
        Nat.add_sub_cancel' (not_lt.mp early), getElem?_take_of_lt written]
    · rw [getElem?_append_right (by omega), getElem?_drop]
      rcases reached with covered | agrees
      · exact absurd covered.2 written
      · rw [← agrees]
        congr 1
        omega

/-- Writes of pieces bring every place that one of them covers to the target. -/
theorem getElem?_foldl_writeSlice {writes : List (ℕ × List α)}
    (pieces : ∀ write ∈ writes, IsPiece target write) (sameLength : buffer.length = target.length)
    (reached : (∃ write ∈ writes, Covers write place) ∨ buffer[place]? = target[place]?) :
    (writes.foldl writeSlice buffer)[place]? = target[place]? := by
  induction writes generalizing buffer with
  | nil =>
    rcases reached with ⟨write, isWrite, _⟩ | agrees
    · cases isWrite
    · exact agrees
  | cons write writes ih =>
    have isPiece := pieces write mem_cons_self
    rw [foldl_cons]
    apply ih (fun other isOther => pieces other (mem_cons_of_mem _ isOther))
      (length_writeSlice isPiece sameLength)
    rcases reached with ⟨other, isOther, covered⟩ | agrees
    · rcases mem_cons.mp isOther with rfl | later
      · exact Or.inr (getElem?_writeSlice isPiece sameLength (Or.inl covered))
      · exact Or.inl ⟨other, later, covered⟩
    · exact Or.inr (getElem?_writeSlice isPiece sameLength (Or.inr agrees))

theorem isPiece_of_slice (before items after : List α) {start stop : ℕ} (order : start ≤ stop)
    (inside : stop ≤ items.length) :
    IsPiece (before ++ (items ++ after)) (before.length + start, slice items start stop) := by
  have length : (slice items start stop).length = stop - start := by
    rw [length_slice]
    omega
  constructor
  · dsimp only
    rw [length, length_append, length_append]
    omega
  · dsimp only
    rw [length, Nat.add_assoc, Nat.add_sub_cancel' order, slice, slice, take_length_add_append,
      take_append_of_le_length inside, drop_length_add_append]

/-! ## The parts of a sequence -/

section Parts

variable {ranks rank size : ℕ} {items : List α}

variable (length : items.length = 2 * ranks * size)
include length

/-- The two parts of a sequence whose length is a multiple of the parts. -/
theorem zigzagPart_eq (inside : rank < ranks) :
    zigzagPart ranks rank items =
      slice items (rank * size) ((rank + 1) * size) ++
        slice items ((2 * ranks - rank - 1) * size) ((2 * ranks - rank - 1 + 1) * size) := by
  have back : 2 * ranks - 1 - rank = 2 * ranks - rank - 1 := by omega
  rw [zigzagPart, getD_chunk length (by omega), getD_chunk length (by omega), back]

theorem length_part {index : ℕ} (inside : index < 2 * ranks) :
    (slice items (index * size) ((index + 1) * size)).length = size := by
  have fits : (index + 1) * size ≤ 2 * ranks * size := Nat.mul_le_mul_right size inside
  rw [length_slice, length, Nat.min_eq_left fits, Nat.succ_mul, Nat.add_sub_cancel_left]

theorem length_zigzagPart (inside : rank < ranks) :
    (zigzagPart ranks rank items).length = 2 * size := by
  rw [zigzagPart_eq length inside, length_append, length_part length (by omega),
    length_part length (by omega)]
  omega

/-- The two writes that bring back a sequence, and those for the sequences after it. -/
theorem zigzagWrites_cons (inside : rank < ranks) (before rest : List α) (lengths : List ℕ) :
    zigzagWrites ranks rank (before ++ (zigzagPart ranks rank items ++ rest)) before.length
        (items.length :: lengths) =
      (before.length * ranks + rank * size,
          slice items (rank * size) ((rank + 1) * size)) ::
        (before.length * ranks + (2 * ranks - rank - 1) * size,
          slice items ((2 * ranks - rank - 1) * size) ((2 * ranks - rank - 1 + 1) * size)) ::
        zigzagWrites ranks rank (before ++ (zigzagPart ranks rank items ++ rest))
          (before.length + 2 * size) lengths := by
  have localLength : 2 * ranks * size / ranks = 2 * size := by
    have commuted : 2 * ranks * size = 2 * size * ranks := by
      rw [Nat.mul_right_comm]
    rw [commuted, Nat.mul_div_cancel _ (Nat.zero_lt_of_lt inside)]
  have half : 2 * size / 2 = size := Nat.mul_div_cancel_left size Nat.two_pos
  have localItems : slice (before ++ (zigzagPart ranks rank items ++ rest)) before.length
      (2 * size + before.length) = zigzagPart ranks rank items := by
    rw [Nat.add_comm, slice_append_left, ← length_zigzagPart length inside, take_left]
  have first := length_part length (show rank < 2 * ranks by omega)
  have front : (zigzagPart ranks rank items).take size =
      slice items (rank * size) ((rank + 1) * size) := by
    rw [zigzagPart_eq length inside, take_left' first]
  have back : (zigzagPart ranks rank items).drop size =
      slice items ((2 * ranks - rank - 1) * size) ((2 * ranks - rank - 1 + 1) * size) := by
    rw [zigzagPart_eq length inside, drop_left' first]
  rw [zigzagWrites, length]
  simp only [localLength, half, localItems, front, back]
  rw [Nat.add_comm (2 * size)]

end Parts

/-! ## All sequences -/

variable {sequences : List (List α)}

theorem isPiece_zigzagWrites {ranks rank : ℕ} (inside : rank < ranks)
    (divides : ∀ items ∈ sequences, 2 * ranks ∣ items.length) {done doneLocal : List α}
    (aligned : done.length = doneLocal.length * ranks) :
    ∀ write ∈ zigzagWrites ranks rank (doneLocal ++ zigzag ranks rank sequences) doneLocal.length
        (sequences.map length), IsPiece (done ++ sequences.flatten) write := by
  induction sequences generalizing done doneLocal with
  | nil =>
    intro write isWrite
    cases isWrite
  | cons items sequences ih =>
    obtain ⟨size, length⟩ := divides items mem_cons_self
    have partLength := length_zigzagPart length inside
    have nextAligned : (done ++ items).length =
        (doneLocal ++ zigzagPart ranks rank items).length * ranks := by
      rw [length_append, length_append, aligned, partLength, length, Nat.add_mul,
        Nat.mul_right_comm 2 ranks size]
    have rest := ih (fun other isOther => divides other (mem_cons_of_mem _ isOther))
      nextAligned
    rw [zigzag, flatMap_cons, map_cons, zigzagWrites_cons length inside, ← aligned, flatten_cons]
    rw [length_append, partLength, append_assoc, append_assoc] at rest
    intro write isWrite
    rcases mem_cons.mp isWrite with rfl | isWrite
    · apply isPiece_of_slice
      · exact Nat.mul_le_mul_right size (Nat.le_succ rank)
      · rw [length]
        exact Nat.mul_le_mul_right size (by omega)
    · rcases mem_cons.mp isWrite with rfl | isWrite
      · apply isPiece_of_slice
        · exact Nat.mul_le_mul_right size (Nat.le_succ _)
        · rw [length]
          exact Nat.mul_le_mul_right size (by omega)
      · exact rest write isWrite

theorem covers_part {ranks size index start : ℕ} {items : List α}
    (length : items.length = 2 * ranks * size) (inside : index < 2 * ranks) (after : start ≤ place)
    (isIndex : (place - start) / size = index) (positive : 0 < size) :
    Covers (start + index * size, slice items (index * size) ((index + 1) * size)) place := by
  have lower := Nat.div_mul_le_self (place - start) size
  have upper := Nat.lt_mul_of_div_lt (Nat.lt_succ_self ((place - start) / size)) positive
  rw [isIndex] at lower
  rw [isIndex, Nat.succ_mul] at upper
  constructor
  · dsimp only
    omega
  · dsimp only
    rw [length_part length inside]
    omega

theorem exists_covers {ranks : ℕ} (divides : ∀ items ∈ sequences, 2 * ranks ∣ items.length)
    {done : List α} {doneLocal : ℕ → List α}
    (aligned : ∀ rank < ranks, done.length = (doneLocal rank).length * ranks)
    (after : done.length ≤ place) (before : place < (done ++ sequences.flatten).length) :
    ∃ rank < ranks, ∃ write ∈ zigzagWrites ranks rank
      (doneLocal rank ++ zigzag ranks rank sequences) (doneLocal rank).length
      (sequences.map length), Covers write place := by
  induction sequences generalizing done doneLocal with
  | nil =>
    rw [flatten_nil, append_nil] at before
    omega
  | cons items sequences ih =>
    obtain ⟨size, length⟩ := divides items mem_cons_self
    by_cases here : place < done.length + items.length
    · have positive : 0 < size := by
        apply Nat.pos_of_ne_zero
        rintro rfl
        omega
      have isPart : (place - done.length) / size < 2 * ranks := by
        rw [Nat.div_lt_iff_lt_mul positive, ← length]
        omega
      have covers := covers_part length isPart after rfl positive
      by_cases front : (place - done.length) / size < ranks
      · refine ⟨(place - done.length) / size, front, _, ?_, covers⟩
        rw [zigzag, flatMap_cons, map_cons, zigzagWrites_cons length front, ← aligned _ front]
        exact mem_cons_self
      · have rank : 2 * ranks - 1 - (place - done.length) / size < ranks := by omega
        have same : 2 * ranks - (2 * ranks - 1 - (place - done.length) / size) - 1 =
            (place - done.length) / size := by omega
        refine ⟨2 * ranks - 1 - (place - done.length) / size, rank, _, ?_, covers⟩
        rw [zigzag, flatMap_cons, map_cons, zigzagWrites_cons length rank, ← aligned _ rank, same]
        exact mem_cons_of_mem _ mem_cons_self
    · have nextAligned : ∀ rank < ranks, (done ++ items).length =
          (doneLocal rank ++ zigzagPart ranks rank items).length * ranks := by
        intro rank inside
        rw [length_append, length_append, aligned rank inside,
          length_zigzagPart length inside, length, Nat.add_mul, Nat.mul_right_comm 2 ranks size]
      obtain ⟨rank, inside, write, isWrite, covers⟩ := ih
        (fun other isOther => divides other (mem_cons_of_mem _ isOther)) nextAligned
        (by rw [length_append]; omega)
        (by rw [append_assoc]; exact before)
      refine ⟨rank, inside, write, ?_, covers⟩
      rw [length_append, length_zigzagPart length inside, append_assoc] at isWrite
      rw [zigzag, flatMap_cons, map_cons, zigzagWrites_cons length inside]
      exact mem_cons_of_mem _ (mem_cons_of_mem _ isWrite)

/-- What all ranks have of the sequences gives them again. -/
theorem regroup_zigzag {ranks : ℕ} (divides : ∀ items ∈ sequences, 2 * ranks ∣ items.length)
    (zero : α) :
    regroup ranks zero ((range ranks).map fun rank => zigzag ranks rank sequences)
      (sequences.map length) = sequences.flatten := by
  have ofRank : ∀ items ∈ ((range ranks).map fun rank =>
      zigzag ranks rank sequences).zipIdx,
      items.2 < ranks ∧ items.1 = zigzag ranks items.2 sequences := by
    intro items isRank
    have found := mem_zipIdx_iff_getElem?.mp isRank
    rw [getElem?_map] at found
    by_cases inside : items.2 < ranks
    · rw [getElem?_range inside, Option.map_some] at found
      exact ⟨inside, (Option.some.inj found).symm⟩
    · rw [getElem?_eq_none (by rw [length_range]; exact not_lt.mp inside)] at found
      cases found
  have pieces : ∀ write ∈ (((range ranks).map fun rank =>
      zigzag ranks rank sequences).zipIdx.flatMap fun items =>
        zigzagWrites ranks items.2 items.1 0 (sequences.map length)),
      IsPiece sequences.flatten write := by
    intro write isWrite
    obtain ⟨items, isItems, isWrite⟩ := mem_flatMap.mp isWrite
    obtain ⟨inside, local_eq⟩ := ofRank items isItems
    rw [local_eq] at isWrite
    have aligned : ([] : List α).length = ([] : List α).length * ranks := (Nat.zero_mul _).symm
    exact isPiece_zigzagWrites inside divides aligned write isWrite
  have sameLength : (replicate (sequences.map length).sum zero).length =
      sequences.flatten.length := by
    rw [length_replicate, length_flatten]
  rw [regroup]
  apply ext_getElem?
  intro place
  apply getElem?_foldl_writeSlice pieces sameLength
  by_cases inside : place < sequences.flatten.length
  · have aligned : ∀ rank < ranks, ([] : List α).length =
        ((fun _ => []) rank : List α).length * ranks := fun _ _ => (Nat.zero_mul _).symm
    obtain ⟨rank, isRank, write, isWrite, covers⟩ :=
      exists_covers divides aligned (Nat.zero_le place) inside
    refine Or.inl ⟨write, mem_flatMap.mpr ⟨(zigzag ranks rank sequences, rank), ?_, isWrite⟩,
      covers⟩
    rw [mem_zipIdx_iff_getElem?, getElem?_map, getElem?_range isRank]
    rfl
  · right
    rw [getElem?_eq_none (sameLength ▸ not_lt.mp inside), getElem?_eq_none (not_lt.mp inside)]

end Geobench.Library
