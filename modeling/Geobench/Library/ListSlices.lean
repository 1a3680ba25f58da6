import Geobench.Library.Loop
import Mathlib.Data.List.GetD
import Mathlib.Algebra.BigOperators.Group.List.Basic
import Mathlib.Data.List.MinMax
import Mathlib.Data.List.Nodup
import Mathlib.Order.Nat
import Mathlib.Algebra.GroupWithZero.Nat

/-!
# Cutting a list into slices

`cutAt cut parts items` are the slices of a list between consecutive cuts. When the cuts
increase from the start of the list to its end, no item is lost or doubled
(`flatten_cutAt`), and items that are related position by position are related within
each slice (`forall₂_cutAt`).

Two rules for the cuts: `offset`, where the lists that were put together to one begin in
it (`cutAt_offset`), and `evenCut`, which gives every part the same number of items and
one more to the first parts (`evenShares`).
-/

namespace Geobench.Library

open List

universe u v

variable {α : Type u} {β : Type v}

/-! ## Slices -/

/-- The items from a position on and before another one. -/
def slice (items : List α) (start stop : ℕ) : List α := (items.take stop).drop start

theorem length_slice (items : List α) (start stop : ℕ) :
    (slice items start stop).length = min stop items.length - start := by
  rw [slice, length_drop, length_take]

variable {start stop : ℕ}

theorem slice_append_slice (items : List α) {middle : ℕ} (before : start ≤ middle)
    (after : middle ≤ stop) :
    slice items start middle ++ slice items middle stop = slice items start stop := by
  have whole : items.take stop = items.take middle ++ slice items middle stop := by
    have parts := take_append_drop middle (items.take stop)
    rw [take_take, Nat.min_eq_left after] at parts
    exact parts.symm
  have cut : slice items start stop =
      slice items start middle ++
        (slice items middle stop).drop (start - (items.take middle).length) := by
    rw [slice, whole, drop_append]
    rfl
  rw [cut, length_take]
  by_cases short : items.length < middle
  · have nothing : slice items middle stop = [] := by
      refine length_eq_zero_iff.mp ?_
      rw [length_slice]
      omega
    rw [nothing, drop_nil]
  · have reached : start - min middle items.length = 0 := by omega
    rw [reached, drop_zero]

theorem slice_append_drop (items : List α) (before : start ≤ stop) :
    slice items start stop ++ items.drop stop = items.drop start := by
  have rest : items.drop stop = (items.drop start).drop (stop - start) := by
    rw [drop_drop, Nat.add_sub_cancel' before]
  rw [slice, drop_take, rest, take_append_drop]

theorem slice_zero (items : List α) (covers : items.length ≤ stop) :
    slice items 0 stop = items := by
  rw [slice, drop_zero, take_of_length_le covers]

theorem slice_eq_nil (items : List α) (empty : min stop items.length ≤ start) :
    slice items start stop = [] := by
  refine length_eq_zero_iff.mp ?_
  rw [length_slice]
  omega

variable {index : ℕ}

theorem getElem_mem_slice (items : List α) (after : start ≤ index) (before : index < stop)
    (inside : index < items.length) : items[index] ∈ slice items start stop := by
  rw [slice, mem_iff_getElem?]
  refine ⟨index - start, ?_⟩
  rw [getElem?_drop, Nat.add_sub_cancel' after, getElem?_take_of_lt before,
    getElem?_eq_getElem inside]

variable {place : ℕ}

theorem getElem?_slice (items : List α) (inside : start + place < stop) :
    (slice items start stop)[place]? = items[start + place]? := by
  rw [slice, getElem?_drop, getElem?_take_of_lt inside]

theorem map_slice (f : α → β) (items : List α) (start stop : ℕ) :
    (slice items start stop).map f = slice (items.map f) start stop := by
  rw [slice, slice, map_drop, map_take]

theorem slice_zipWith {γ : Type v} (f : α → β → γ) (items : List α) (others : List β)
    (start stop : ℕ) :
    slice (zipWith f items others) start stop =
      zipWith f (slice items start stop) (slice others start stop) := by
  rw [slice, slice, slice, take_zipWith, drop_zipWith]

variable {items : List α}

theorem forall₂_slice {R : α → β → Prop} {others : List β} (related : List.Forall₂ R items others)
    (start stop : ℕ) : List.Forall₂ R (slice items start stop) (slice others start stop) :=
  forall₂_drop start (forall₂_take stop related)

/-! ## Ends counted from either side -/

/-- A place in a list, counted from the end of the list when it is negative. -/
def signedIndex (length : ℕ) (index : ℤ) : ℕ :=
  if index < 0 then (length + index).toNat else min index.toNat length

/-- The items from a place on and before another one, either counted from either side. -/
def signedSlice (items : List α) (start stop : ℤ) : List α :=
  slice items (signedIndex items.length start) (signedIndex items.length stop)

theorem signedIndex_natCast {length : ℕ} (inside : index ≤ length) :
    signedIndex length index = index := by
  rw [signedIndex, if_neg (by omega), Int.toNat_natCast, Nat.min_eq_left inside]

theorem signedSlice_natCast (items : List α) (before : start ≤ items.length)
    (inside : stop ≤ items.length) : signedSlice items start stop = slice items start stop := by
  rw [signedSlice, signedIndex_natCast before, signedIndex_natCast inside]

variable {count : ℕ}

theorem signedSlice_neg (items : List α) (some : 0 < count) (inside : count ≤ items.length) :
    signedSlice items (-(count : ℤ)) (-1) =
      slice items (items.length - count) (items.length - 1) := by
  have start : signedIndex items.length (-(count : ℤ)) = items.length - count := by
    rw [signedIndex, if_pos (by omega)]
    omega
  have stop : signedIndex items.length (-1) = items.length - 1 := by
    rw [signedIndex, if_pos (by omega)]
    omega
  rw [signedSlice, start, stop]

/-! ## Slices between cuts -/

/-- The slices between consecutive cuts. -/
def cutAt (cut : ℕ → ℕ) (parts : ℕ) (items : List α) : List (List α) :=
  (List.range parts).map fun index => slice items (cut index) (cut (index + 1))

@[simp] theorem length_cutAt (cut : ℕ → ℕ) (parts : ℕ) (items : List α) :
    (cutAt cut parts items).length = parts := by
  rw [cutAt, length_map, length_range]

theorem cutAt_succ (cut : ℕ → ℕ) (parts : ℕ) (items : List α) :
    cutAt cut (parts + 1) items =
      cutAt cut parts items ++ [slice items (cut parts) (cut (parts + 1))] := by
  rw [cutAt, range_succ, map_append]
  rfl

theorem flatten_cutAt_eq_slice {cut : ℕ → ℕ} (increasing : Monotone cut) (parts : ℕ)
    (items : List α) : (cutAt cut parts items).flatten = slice items (cut 0) (cut parts) := by
  induction parts with
  | zero => exact (slice_eq_nil items (Nat.min_le_left _ _)).symm
  | succ parts ih =>
    rw [cutAt_succ, flatten_append, flatten_singleton, ih]
    exact slice_append_slice items (increasing (Nat.zero_le parts))
      (increasing (Nat.le_succ parts))

variable {parts : ℕ}

/-- Cuts that increase from the start of a list to its end lose no item and double
none. -/
theorem flatten_cutAt {cut : ℕ → ℕ} (increasing : Monotone cut) (start : cut 0 = 0)
    (covers : items.length ≤ cut parts) : (cutAt cut parts items).flatten = items := by
  rw [flatten_cutAt_eq_slice increasing, start, slice_zero items covers]

theorem map_length_cutAt_congr {others : List β} (same : items.length = others.length) (cut : ℕ → ℕ)
    (parts : ℕ) :
    (cutAt cut parts items).map length = (cutAt cut parts others).map length := by
  rw [cutAt, cutAt, map_map, map_map]
  refine map_congr_left fun index _ => ?_
  rw [Function.comp_apply, Function.comp_apply, length_slice, length_slice, same]

/-! ## Slices of one size -/

variable {size : ℕ}

/-- Enough slices of a size cover a list. -/
theorem le_ceilDiv_mul (n : ℕ) (positive : 0 < size) : n ≤ (n + size - 1) / size * size := by
  have below := Nat.lt_mul_of_div_lt (Nat.lt_succ_self ((n + size - 1) / size)) positive
  rw [Nat.succ_mul] at below
  omega

/-- As many slices of a size are enough as cover a list. -/
theorem ceilDiv_le_iff {n : ℕ} (positive : 0 < size) :
    (n + size - 1) / size ≤ parts ↔ n ≤ parts * size := by
  constructor
  · intro few
    exact (le_ceilDiv_mul n positive).trans (Nat.mul_le_mul_right size few)
  · intro covers
    apply Nat.le_of_lt_succ
    rw [Nat.div_lt_iff_lt_mul positive, Nat.succ_mul]
    omega

/-- Slices of one size, enough of them, put together are the list. -/
theorem flatten_cutAt_mul (covers : items.length ≤ parts * size) :
    (cutAt (· * size) parts items).flatten = items :=
  flatten_cutAt (fun _ _ before => Nat.mul_le_mul_right _ before) (Nat.zero_mul _) covers

/-- The least multiple of a unit that is not below a number. -/
def roundUp (unit n : ℕ) : ℕ := (n + unit - 1) / unit * unit

theorem le_roundUp {unit : ℕ} (positive : 0 < unit) (n : ℕ) : n ≤ roundUp unit n :=
  le_ceilDiv_mul n positive

theorem dvd_roundUp (unit n : ℕ) : unit ∣ roundUp unit n := Dvd.intro_left _ rfl

/-! ## The greatest of a list of numbers -/

theorem le_foldr_max {numbers : List ℕ} {number : ℕ} (member : number ∈ numbers) :
    number ≤ numbers.foldr max 0 := by
  change number ≤ numbers.foldr max ⊥
  exact le_max_of_le member le_rfl

theorem foldr_max_le {numbers : List ℕ} {bound : ℕ} (bounded : ∀ number ∈ numbers, number ≤ bound) :
    numbers.foldr max 0 ≤ bound := by
  change numbers.foldr max ⊥ ≤ bound
  exact max_le_of_forall_le numbers bound bounded

/-! ## Where a list begins in the lists put together -/

/-- The position at which a list begins when the lists are put together. -/
def offset (lengths : List ℕ) (index : ℕ) : ℕ := (lengths.take index).sum

variable (lengths : List ℕ)

theorem offset_succ (inside : index < lengths.length) :
    offset lengths (index + 1) = offset lengths index + lengths[index] := by
  rw [offset, offset, sum_take_succ _ _ inside]

theorem offset_monotone : Monotone (offset lengths) := by
  apply monotone_nat_of_le_succ
  intro index
  rw [offset, offset, take_add_one, List.sum_append]
  exact Nat.le_add_right _ _

theorem offset_length : offset lengths lengths.length = lengths.sum := by
  rw [offset, take_length]

/-- The places where lists of given lengths begin when they are put together, and where the last
of them ends. -/
def places (lengths : List ℕ) : List ℕ := (List.range (lengths.length + 1)).map (offset lengths)

theorem offset_append {lengths : List ℕ} (more : List ℕ) (inside : index ≤ lengths.length) :
    offset (lengths ++ more) index = offset lengths index := by
  rw [offset, offset, take_append_of_le_length inside]

theorem places_concat (last : ℕ) :
    places (lengths ++ [last]) = places lengths ++ [lengths.sum + last] := by
  rw [places, places, length_append, length_singleton, range_succ, map_append]
  congr 1
  · apply map_congr_left
    intro index isIndex
    exact offset_append _ (Nat.le_of_lt_succ (mem_range.mp isIndex))
  · have whole := offset_length (lengths ++ [last])
    rw [length_append, length_singleton] at whole
    rw [map_singleton, whole, List.sum_append, sum_singleton]

theorem places_cons (first : ℕ) (lengths : List ℕ) :
    places (first :: lengths) = 0 :: (places lengths).map (first + ·) := by
  rw [places, places, length_cons, range_succ_eq_map, map_cons, map_map, map_map]
  congr 1

theorem getLastD_places : (places lengths).getLastD 0 = lengths.sum := by
  rw [places, range_succ, map_append, map_singleton, getLastD_concat, offset_length]

theorem getElem?_places {lengths : List ℕ} (inside : index ≤ lengths.length) :
    (places lengths)[index]? = some (offset lengths index) := by
  rw [places, getElem?_map, getElem?_range (Nat.lt_succ_of_le inside)]
  rfl

/-- The slices between neighbouring places. -/
theorem map_zip_places (items : List α) :
    ((places lengths).zip (places lengths).tail).map (fun place => slice items place.1 place.2) =
      cutAt (offset lengths) lengths.length items := by
  have neighbours : (places lengths).zip (places lengths).tail =
      (range lengths.length).map fun index =>
        (offset lengths index, offset lengths (index + 1)) := by
    refine ext_getElem ?_ fun index _ inside => ?_
    · simp [places]
    · simp [places]
  rw [neighbours, map_map, cutAt]
  rfl

theorem slice_append_left (first rest : List α) (stop : ℕ) :
    slice (first ++ rest) first.length (first.length + stop) = rest.take stop := by
  rw [slice, take_length_add_append, drop_left]

/-- The slices of given lengths: the first one, and those of what is left. -/
theorem cutAt_offset_cons (length : ℕ) (lengths : List ℕ) (items : List α) :
    cutAt (offset (length :: lengths)) (lengths.length + 1) items =
      items.take length :: cutAt (offset lengths) lengths.length (items.drop length) := by
  have next : ∀ index, offset (length :: lengths) (index + 1) = length + offset lengths index := by
    intro index
    rw [offset, take_succ_cons, sum_cons, offset]
  rw [cutAt, range_succ_eq_map, map_cons, map_map, cutAt]
  congr 1
  · refine map_congr_left fun index _ => ?_
    rw [Function.comp_apply, Nat.succ_eq_add_one, next, next, slice, slice, ← drop_drop,
      drop_take, Nat.add_sub_cancel_left]

variable (lists : List (List α))

/-- The lists that were put together are the slices between their offsets. -/
theorem slice_offset (inside : index < lists.length) :
    slice lists.flatten (offset (lists.map length) index)
      (offset (lists.map length) index + lists[index].length) = lists[index] := by
  have parts : lists.flatten = (lists.take index).flatten ++ (lists.drop index).flatten := by
    rw [← flatten_append, take_append_drop]
  have start : offset (lists.map length) index = (lists.take index).flatten.length := by
    rw [offset, length_flatten, map_take]
  rw [parts, start, slice_append_left, drop_eq_getElem_cons inside, flatten_cons, take_left]

theorem getElem?_flatten_offset (inside : index < lists.length)
    (within : place < lists[index].length) :
    lists.flatten[offset (lists.map length) index + place]? = lists[index][place]? := by
  have part := slice_offset lists inside
  conv_rhs => rw [← part]
  exact (getElem?_slice _ (Nat.add_lt_add_left within _)).symm

theorem exists_offset (inside : place < lists.flatten.length) :
    ∃ index, ∃ isIndex : index < lists.length, ∃ within < lists[index].length,
      place = offset (lists.map length) index + within := by
  induction lists generalizing place with
  | nil => exact absurd inside (Nat.not_lt_zero place)
  | cons first rest ih =>
    by_cases here : place < first.length
    · exact ⟨0, Nat.zero_lt_succ _, place, here, (Nat.zero_add place).symm⟩
    · rw [flatten_cons, length_append] at inside
      obtain ⟨index, isIndex, within, isWithin, isPlace⟩ := ih
        (show place - first.length < rest.flatten.length by omega)
      refine ⟨index + 1, Nat.succ_lt_succ isIndex, within, isWithin, ?_⟩
      have next : offset ((first :: rest).map length) (index + 1) =
          first.length + offset (rest.map length) index := by
        rw [offset, map_cons, take_succ_cons, sum_cons, offset]
      rw [next]
      omega

theorem cutAt_offset :
    cutAt (offset (lists.map length)) lists.length lists.flatten = lists := by
  apply ext_getElem (length_cutAt _ _ _)
  intro index _ inside
  have next : offset (lists.map length) (index + 1) =
      offset (lists.map length) index + lists[index].length := by
    rw [offset_succ _ (by rw [length_map]; exact inside), getElem_map]
  have part := slice_offset lists inside
  rw [← next] at part
  simpa only [cutAt, getElem_map, getElem_range] using part

/-- Lists that are related when they are put together are related one by one, if none of the
others is longer. -/
theorem forall₂_of_flatten {R : α → β → Prop} {lists : List (List α)} {others : List (List β)}
    (short : List.Forall₂ (fun first second => second.length ≤ first.length) lists others)
    (related : List.Forall₂ R lists.flatten others.flatten) :
    List.Forall₂ (List.Forall₂ R) lists others := by
  induction short with
  | nil => exact .nil
  | @cons first second lists others shorter rest ih =>
    have restShort : others.flatten.length ≤ lists.flatten.length := by
      clear related ih
      induction rest with
      | nil => exact le_rfl
      | cons shorter _ ih =>
        rw [flatten_cons, flatten_cons, length_append, length_append]
        exact Nat.add_le_add shorter ih
    have total := related.length_eq
    rw [flatten_cons, flatten_cons, length_append, length_append] at total
    have same : second.length = first.length := by omega
    have firsts := forall₂_take_append _ second others.flatten related
    have rests := forall₂_drop_append _ second others.flatten related
    rw [flatten_cons, same, take_left] at firsts
    rw [flatten_cons, same, drop_left] at rests
    exact .cons firsts (ih rests)

/-! ## Even shares -/

/-- Where an even share begins: every share has the same number of items, and the first
ones have one more. -/
def evenCut (total parts index : ℕ) : ℕ := index * (total / parts) + min index (total % parts)

variable (total : ℕ)

theorem evenCut_zero (parts : ℕ) : evenCut total parts 0 = 0 := by
  rw [evenCut, Nat.zero_mul, Nat.zero_min]

theorem evenCut_succ (parts index : ℕ) :
    evenCut total parts (index + 1) =
      evenCut total parts index + (total / parts + if index < total % parts then 1 else 0) := by
  rw [evenCut, evenCut, Nat.succ_mul]
  split <;> omega

theorem evenCut_monotone (parts : ℕ) : Monotone (evenCut total parts) := by
  refine monotone_nat_of_le_succ fun index => ?_
  rw [evenCut_succ]
  exact Nat.le_add_right _ _

theorem evenCut_parts (some : 0 < parts) : evenCut total parts parts = total := by
  rw [evenCut, Nat.min_eq_right (Nat.le_of_lt (Nat.mod_lt total some))]
  exact Nat.div_add_mod total parts

def evenShares (parts : ℕ) (items : List α) : List (List α) :=
  cutAt (evenCut items.length parts) parts items

@[simp] theorem length_evenShares (parts : ℕ) (items : List α) :
    (evenShares parts items).length = parts :=
  length_cutAt _ _ _

theorem map_evenShares (f : α → β) (parts : ℕ) (items : List α) :
    evenShares parts (items.map f) = (evenShares parts items).map (map f) := by
  rw [evenShares, evenShares, cutAt, cutAt, map_map, length_map]
  exact map_congr_left fun index _ => (map_slice f items _ _).symm

theorem flatten_evenShares (some : 0 < parts) (items : List α) :
    (evenShares parts items).flatten = items :=
  flatten_cutAt (evenCut_monotone _ _) (evenCut_zero _ _)
    (Nat.le_of_eq (evenCut_parts _ some).symm)

theorem getElem_evenShares (parts : ℕ) (items : List α)
    (inside : index < (evenShares parts items).length) :
    (evenShares parts items)[index] =
      slice items (evenCut items.length parts index) (evenCut items.length parts (index + 1)) := by
  simp only [evenShares, cutAt, getElem_map, getElem_range]

theorem length_getElem_evenShares (items : List α)
    (inside : index < (evenShares parts items).length) :
    (evenShares parts items)[index].length =
      items.length / parts + if index < items.length % parts then 1 else 0 := by
  have isPart : index < parts := by
    rwa [length_evenShares] at inside
  have covered : evenCut items.length parts (index + 1) ≤ items.length := by
    have cuts := evenCut_monotone items.length parts (Nat.succ_le_of_lt isPart)
    rwa [evenCut_parts _ (Nat.zero_lt_of_lt isPart)] at cuts
  rw [getElem_evenShares, length_slice, Nat.min_eq_left covered, evenCut_succ,
    Nat.add_sub_cancel_left]

/-! ## Blocks of one size -/

theorem range_add_block (blocks size : ℕ) :
    range ((blocks + 1) * size) =
      range (blocks * size) ++ (range size).map (blocks * size + ·) := by
  rw [Nat.succ_mul, range_add]

theorem block_div {blocks : ℕ} (inside : index < size) :
    (blocks * size + index) / size = blocks := by
  rw [Nat.mul_comm, Nat.mul_add_div (Nat.zero_lt_of_lt inside), Nat.div_eq_of_lt inside,
    Nat.add_zero]

/-- A value for every block, repeated for every position of the block. -/
theorem map_range_div (value : ℕ → α) (blocks size : ℕ) :
    (range (blocks * size)).map (fun index => value (index / size)) =
      (range blocks).flatMap fun block => replicate size (value block) := by
  induction blocks with
  | zero => rw [Nat.zero_mul]; rfl
  | succ blocks ih =>
    have last : ((range size).map (blocks * size + ·)).map
        (fun index => value (index / size)) = replicate size (value blocks) := by
      rw [map_map, eq_replicate_iff]
      refine ⟨by rw [length_map, length_range], fun other isOther => ?_⟩
      obtain ⟨index, isIndex, rfl⟩ := mem_map.mp isOther
      exact congrArg value (block_div (mem_range.mp isIndex))
    rw [range_add_block, map_append, ih, last, range_succ, flatMap_append, flatMap_singleton]

/-- The positions of the blocks that satisfy a condition. -/
theorem filter_range_div (keep : ℕ → Bool) (blocks size : ℕ) :
    (range (blocks * size)).filter (fun index => keep (index / size)) =
      ((range blocks).filter keep).flatMap fun block => (range size).map (block * size + ·) := by
  induction blocks with
  | zero => simp
  | succ blocks ih =>
    have last : ((range size).map (blocks * size + ·)).filter (fun index => keep (index / size)) =
        if keep blocks then (range size).map (blocks * size + ·) else [] := by
      have same : ∀ index ∈ range size,
          ((fun index => keep (index / size)) ∘ (blocks * size + ·)) index = keep blocks :=
        fun index isIndex => congrArg keep (block_div (mem_range.mp isIndex))
      rw [filter_map, filter_congr same]
      cases keep blocks <;> simp
    rw [range_add_block, filter_append, ih, last, range_succ, filter_append, flatMap_append]
    cases isKept : keep blocks <;> simp [isKept]

theorem take_flatMap_uniform {f : α → List β} (uniform : ∀ item, (f item).length = size)
    (items : List α) (count : ℕ) :
    (items.flatMap f).take (count * size) = (items.take count).flatMap f := by
  induction items generalizing count with
  | nil => rw [flatMap_nil, take_nil, take_nil, flatMap_nil]
  | cons item items ih =>
    cases count with
    | zero => rw [Nat.zero_mul, take_zero, take_zero, flatMap_nil]
    | succ count =>
      rw [flatMap_cons, Nat.succ_mul, Nat.add_comm, ← uniform item,
        take_length_add_append, uniform item, ih, take_succ_cons, flatMap_cons]

theorem drop_flatMap_uniform {f : α → List β} (uniform : ∀ item, (f item).length = size)
    (items : List α) (count : ℕ) :
    (items.flatMap f).drop (count * size) = (items.drop count).flatMap f := by
  have parts := take_append_drop (count * size) (items.flatMap f)
  rw [take_flatMap_uniform uniform] at parts
  refine append_cancel_left (parts.trans ?_)
  rw [← flatMap_append, take_append_drop]

/-! ## One item out of every so many -/

/-- The items from a place on, one for each step. -/
def stride (start step : ℕ) (items : List α) : List α :=
  (List.range ((items.length - start + (step - 1)) / step)).filterMap fun place =>
    items[start + place * step]?

variable {step : ℕ}

theorem stride_place_lt (some : 0 < step)
    (inside : place < (items.length - start + (step - 1)) / step) :
    start + place * step < items.length := by
  rw [Nat.lt_div_iff_mul_lt some] at inside
  omega

theorem length_stride (some : 0 < step) (start : ℕ) (items : List α) :
    (stride start step items).length = (items.length - start + (step - 1)) / step := by
  have each : ∀ place ∈ range ((items.length - start + (step - 1)) / step),
      (items[start + place * step]?).isSome = true := by
    intro place isPlace
    rw [getElem?_eq_getElem (stride_place_lt some (mem_range.mp isPlace))]
    rfl
  rw [stride, length_filterMap_eq_countP, countP_eq_length.mpr each, length_range]

theorem getElem?_stride (some : 0 < step) (start : ℕ) (items : List α) (index : ℕ) :
    (stride start step items)[index]? = items[start + index * step]? := by
  have found : ∀ places : List ℕ, (∀ place ∈ places, (items[start + place * step]?).isSome) →
      (places.filterMap fun place => items[start + place * step]?)[index]? =
        places[index]?.bind fun place => items[start + place * step]? := by
    intro places all
    induction places generalizing index with
    | nil => simp
    | cons place places inductionHypothesis =>
      obtain ⟨item, isItem⟩ := Option.isSome_iff_exists.mp (all place mem_cons_self)
      have others := fun other member => all other (mem_cons_of_mem _ member)
      simp only [filterMap_cons, isItem]
      cases index with
      | zero => simp [isItem]
      | succ index => simpa using inductionHypothesis index others
  rw [stride, found]
  · by_cases inside : index < (items.length - start + (step - 1)) / step
    · simp [inside]
    · have beyond : items.length ≤ start + index * step := by
        rw [Nat.lt_div_iff_mul_lt some] at inside
        omega
      simp [inside, getElem?_eq_none beyond]
  · intro place isPlace
    rw [getElem?_eq_getElem (stride_place_lt some (mem_range.mp isPlace))]
    rfl

/-- Whole steps that are dropped before a stride are dropped from it. -/
theorem stride_drop (some : 0 < step) (start : ℕ) (items : List α) (count : ℕ) :
    stride start step (items.drop (step * count)) = (stride start step items).drop count := by
  refine ext_getElem? fun index => ?_
  rw [getElem?_stride some, getElem?_drop, getElem?_drop, getElem?_stride some]
  rw [Nat.add_mul, Nat.mul_comm step count]
  congr 1
  omega

/-- Strides from different places have no item in common, and none twice. -/
theorem nodup_flatMap_stride (nodup : items.Nodup) :
    ((range step).flatMap fun start => stride start step items).Nodup := by
  have position : ∀ {start other place otherPlace : ℕ} {item : α},
      items[start + place * step]? = some item → items[other + otherPlace * step]? = some item →
        start + place * step = other + otherPlace * step := by
    intro start other place otherPlace item isItem isOther
    obtain ⟨inside, found⟩ := List.getElem?_eq_some_iff.mp isItem
    obtain ⟨otherInside, otherFound⟩ := List.getElem?_eq_some_iff.mp isOther
    exact (nodup.getElem_inj_iff).mp (found.trans otherFound.symm)
  rw [nodup_flatMap]
  constructor
  · intro start isStart
    have some : 0 < step := Nat.zero_lt_of_lt (mem_range.mp isStart)
    apply List.Nodup.filterMap _ nodup_range
    intro place other item isItem isOther
    exact Nat.eq_of_mul_eq_mul_right some (Nat.add_left_cancel (position isItem isOther))
  · apply List.Pairwise.imp_of_mem _ nodup_range
    intro start other isStart isOther different
    refine disjoint_left.mpr ?_
    intro item isItem otherItem
    obtain ⟨place, _, found⟩ := mem_filterMap.mp isItem
    obtain ⟨otherPlace, _, otherFound⟩ := mem_filterMap.mp otherItem
    have same := congrArg (· % step) (position found otherFound)
    simp only [Nat.add_mul_mod_self_right] at same
    rw [Nat.mod_eq_of_lt (mem_range.mp isStart), Nat.mod_eq_of_lt (mem_range.mp isOther)] at same
    exact different same

theorem length_filterMap_range {α : Type u} {f : ℕ → Option α}
    (items : ∀ place < count, (f place).isSome) :
    ((range count).filterMap f).length = count := by
  rw [length_filterMap_eq_countP, countP_eq_length.mpr, length_range]
  exact fun place isPlace => items place (mem_range.mp isPlace)

/-- Where there is an item at each place, a list has the items at their places. -/
theorem getElem?_filterMap_range {α : Type u} {f : ℕ → Option α}
    (items : ∀ place < count, (f place).isSome) (isPlace : place < count) :
    ((range count).filterMap f)[place]? = f place := by
  obtain ⟨later, rfl⟩ := Nat.exists_eq_add_of_le (Nat.succ_le_of_lt isPlace)
  have first : ((range place).filterMap f).length = place :=
    length_filterMap_range fun other isOther => items other (by omega)
  obtain ⟨item, isItem⟩ := Option.isSome_iff_exists.mp (items place isPlace)
  rw [range_add, filterMap_append, range_succ, filterMap_append,
    append_assoc, getElem?_append_right (by omega), first]
  simp [isItem]

/-! ## A function that may fail, on every item -/

variable {ε : Type u}

theorem mapM_eq_ok_iff {α β : Type v} {f : α → Except ε β} {items : List α} {results : List β} :
    items.mapM f = .ok results ↔
      List.Forall₂ (fun item result => f item = .ok result) items results := by
  induction items generalizing results with
  | nil =>
    rw [mapM_nil, forall₂_nil_left_iff]
    exact ⟨fun isOk => (Except.ok.inj isOk).symm, fun isNil => congrArg _ isNil.symm⟩
  | cons item items ih =>
    rw [mapM_cons, forall₂_cons_left_iff]
    constructor
    · intro isOk
      obtain ⟨result, first, isRest⟩ := bind_eq_ok.mp isOk
      obtain ⟨rest, others, isResult⟩ := bind_eq_ok.mp isRest
      exact ⟨result, rest, first, ih.mp others, (Except.ok.inj isResult).symm⟩
    · rintro ⟨result, rest, first, others, rfl⟩
      exact bind_eq_ok.mpr ⟨result, first, bind_eq_ok.mpr ⟨rest, ih.mpr others, rfl⟩⟩

theorem mapM_eq_some {α β : Type} {f : α → Option β} {g : α → β} {values : List α}
    (numbers : ∀ value ∈ values, f value = some (g value)) :
    values.mapM f = some (values.map g) := by
  induction values with
  | nil => rfl
  | cons value values ih =>
    rw [mapM_cons, numbers value mem_cons_self,
      ih fun other isOther => numbers other (mem_cons_of_mem _ isOther)]
    rfl

theorem mapM_eq_none {α β : Type} {f : α → Option β} {values : List α} {value : α}
    (member : value ∈ values) (missing : f value = none) : values.mapM f = none := by
  induction values with
  | nil => exact absurd member not_mem_nil
  | cons first values ih =>
    rw [mapM_cons]
    rcases mem_cons.mp member with rfl | later
    · rw [missing]
      rfl
    · rw [ih later]
      cases f first <;> rfl

theorem mapM_eq_some_iff {α β : Type} {f : α → Option β} {items : List α} {results : List β} :
    items.mapM f = some results ↔
      List.Forall₂ (fun item result => f item = some result) items results := by
  induction items generalizing results with
  | nil =>
    rw [mapM_nil, forall₂_nil_left_iff]
    exact ⟨fun isSome => (Option.some.inj isSome).symm, fun isNil => congrArg _ isNil.symm⟩
  | cons item items ih =>
    rw [mapM_cons, forall₂_cons_left_iff]
    constructor
    · intro isSome
      obtain ⟨result, first, isRest⟩ := Option.bind_eq_some_iff.mp isSome
      obtain ⟨rest, others, isResult⟩ := Option.bind_eq_some_iff.mp isRest
      exact ⟨result, rest, first, ih.mp others, (Option.some.inj isResult).symm⟩
    · rintro ⟨result, rest, first, others, rfl⟩
      exact Option.bind_eq_some_iff.mpr ⟨result, first,
        Option.bind_eq_some_iff.mpr ⟨rest, ih.mpr others, rfl⟩⟩

theorem mapM_congr {α β : Type v} {f g : α → Except ε β} {items : List α}
    (agree : ∀ item ∈ items, f item = g item) : items.mapM f = items.mapM g := by
  induction items with
  | nil => rfl
  | cons item items ih =>
    rw [mapM_cons, mapM_cons, agree item mem_cons_self,
      ih fun other isOther => agree other (mem_cons_of_mem _ isOther)]

/-- Lists one after the other, or put together first. -/
theorem mapM_flatten {α β : Type v} (f : α → Except ε β) (lists : List (List α)) :
    lists.flatten.mapM f =
      (lists.mapM fun items : List α => items.mapM f).map flatten := by
  induction lists with
  | nil => rfl
  | cons items lists ih =>
    rw [flatten_cons, mapM_append, mapM_cons, ih]
    cases items.mapM f with
    | error failure => rfl
    | ok results =>
      cases lists.mapM fun items : List α => items.mapM f with
      | error failure => rfl
      | ok others => rfl

theorem mapM_eq_ok_map {α β : Type v} {f : α → Except ε β} {g : α → β} {items : List α}
    (each : ∀ item ∈ items, f item = .ok (g item)) : items.mapM f = .ok (items.map g) := by
  apply mapM_eq_ok_iff.mpr
  rw [forall₂_map_right_iff, forall₂_same]
  exact each

/-- A function of the places of items gives what each place gives. -/
theorem mapM_range_eq_ok {ε α β : Type} {f : ℕ → Except ε β} {g : α → β} {items : List α}
    (each : ∀ i item, items[i]? = some item → f i = .ok (g item)) :
    (range items.length).mapM f = .ok (items.map g) := by
  refine mapM_eq_ok_iff.mpr (forall₂_iff_get.mpr ⟨by simp, fun i inside _ => ?_⟩)
  rw [length_range] at inside
  simpa using each i items[i] (getElem?_eq_getElem inside)

/-- Lists related in two ways relate each item to one partner in both. -/
theorem exists_both_of_forall₂ {α β : Type*} {R S : α → β → Prop} {items : List α}
    {partners : List β} (left : List.Forall₂ R items partners)
    (right : List.Forall₂ S items partners) {item : α} (member : item ∈ items) :
    ∃ partner, R item partner ∧ S item partner := by
  induction left with
  | nil => exact absurd member not_mem_nil
  | cons first _ ih =>
    rw [forall₂_cons] at right
    rcases mem_cons.mp member with rfl | later
    · exact ⟨_, first, right.1⟩
    · exact ih right.2 later

/-- When the function does not fail on the items, it does not fail on any of them. -/
theorem succeeds_of_mapM_eq_ok {α β : Type v} {f : α → Except ε β} {items : List α}
    {results : List β} (isOk : items.mapM f = .ok results) {item : α} (member : item ∈ items) :
    ∃ result, f item = .ok result := by
  have each := mapM_eq_ok_iff.mp isOk
  clear isOk
  induction each with
  | nil => exact absurd member not_mem_nil
  | cons first _ ih =>
    rcases mem_cons.mp member with rfl | later
    · exact ⟨_, first⟩
    · exact ih later

theorem getElem?_of_mapM_eq_ok {α β : Type v} {f : α → Except ε β} {items : List α}
    {results : List β} (isOk : items.mapM f = .ok results) {item : α}
    (isItem : items[index]? = some item) :
    ∃ result, results[index]? = some result ∧ f item = .ok result := by
  have each := mapM_eq_ok_iff.mp isOk
  clear isOk
  induction each generalizing index with
  | nil => cases isItem
  | cons first _ ih =>
    cases index with
    | zero =>
      obtain rfl := Option.some.inj isItem
      exact ⟨_, rfl, first⟩
    | succ index => exact ih isItem

/-- What each item gives relates the items to their results. -/
theorem exists_mapM_forall₂ {α β : Type v} {f : α → Except ε β} {Related : α → β → Prop}
    {items : List α}
    (succeeds : ∀ item ∈ items, ∃ result, f item = .ok result ∧ Related item result) :
    ∃ results, items.mapM f = .ok results ∧ List.Forall₂ Related items results := by
  induction items with
  | nil => exact ⟨[], rfl, .nil⟩
  | cons item items ih =>
    obtain ⟨result, first, related⟩ := succeeds item mem_cons_self
    obtain ⟨rest, others, relatedRest⟩ :=
      ih fun other isOther => succeeds other (mem_cons_of_mem _ isOther)
    exact ⟨result :: rest, mapM_eq_ok_iff.mpr (.cons first (mapM_eq_ok_iff.mp others)),
      .cons related relatedRest⟩

theorem exists_mapM_eq_ok {α β : Type v} {f : α → Except ε β} {items : List α}
    (succeeds : ∀ item ∈ items, ∃ result, f item = .ok result) :
    ∃ results, items.mapM f = .ok results := by
  obtain ⟨results, isOk, -⟩ := @exists_mapM_forall₂ _ _ _ f (fun _ _ => True) items
    fun item isItem => (succeeds item isItem).imp fun _ isOk => ⟨isOk, trivial⟩
  exact ⟨results, isOk⟩

/-- Related lists have the same values of functions that agree on related items. -/
theorem map_eq_of_forall₂ {α β γ : Type*} {R : α → β → Prop} {f : α → γ} {g : β → γ}
    {items : List α} {partners : List β} (related : List.Forall₂ R items partners)
    (agree : ∀ item partner, R item partner → f item = g partner) :
    items.map f = partners.map g := by
  induction related with
  | nil => rfl
  | cons first _ ih => rw [map_cons, map_cons, agree _ _ first, ih]

theorem map_getD_range {α : Type} (values : List α) (default : α) :
    (range values.length).map (values.getD · default) = values := by
  refine ext_getElem (by rw [length_map, length_range]) fun index _ inside => ?_
  rw [getElem_map, getElem_range, getD_eq_getElem _ _ inside]

end Geobench.Library
