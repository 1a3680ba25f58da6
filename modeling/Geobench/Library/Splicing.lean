import Geobench.Library.ListSlices

/-!
# Splicing

A list is put in the place of one item (`spliceAt`). When this is done for several places from left
to right, each place has moved by what the earlier ones have added. `spliceAt_append` is one such
step, on a list whose first part is done.

The result is to be the list in which each item is replaced in its own place (`replaceEach`).
-/

namespace Geobench.Library

open List

variable {α : Type}

/-- `items[:place] + new + items[place + 1:]` -/
def spliceAt (items : List α) (place : ℤ) (new : List α) : List α :=
  signedSlice items 0 place ++ new ++ signedSlice items (place + 1) items.length

/-- `items[place]` -/
def entryAt (items : List α) (place : ℤ) : Option α :=
  if -(items.length : ℤ) ≤ place ∧ place < items.length then
    items[signedIndex items.length place]?
  else none

/-- Replace each item by the list that `change` has for it at its place, if there is one. -/
def replaceEach (change : ℕ → α → Option (List α)) (start : ℕ) (items : List α) : List α :=
  (items.zipIdx start).flatMap fun placed => (change placed.2 placed.1).getD [placed.1]

theorem replaceEach_append (change : ℕ → α → Option (List α)) (start : ℕ) (first rest : List α) :
    replaceEach change start (first ++ rest) =
      replaceEach change start first ++ replaceEach change (start + first.length) rest := by
  rw [replaceEach, zipIdx_append, flatMap_append]
  rfl

theorem replaceEach_cons (change : ℕ → α → Option (List α)) (start : ℕ) (item : α)
    (rest : List α) :
    replaceEach change start (item :: rest) =
      (change start item).getD [item] ++ replaceEach change (start + 1) rest := by
  rw [replaceEach, zipIdx_cons, flatMap_cons]
  rfl

variable {start : ℕ}

theorem replaceEach_congr {change other : ℕ → α → Option (List α)} {items : List α}
    (same : ∀ place, start ≤ place → ∀ item, change place item = other place item) :
    replaceEach change start items = replaceEach other start items := by
  refine flatMap_congr fun placed isPlaced => ?_
  rw [same placed.2 (le_snd_of_mem_zipIdx isPlaced)]

/-- Where nothing is replaced the items stay. -/
theorem replaceEach_eq_self {change : ℕ → α → Option (List α)} {items : List α}
    (kept : ∀ place, start ≤ place → place < start + items.length → ∀ item,
      change place item = none) : replaceEach change start items = items := by
  induction items generalizing start with
  | nil => rfl
  | cons item rest ih =>
    rw [length_cons] at kept
    rw [replaceEach_cons, kept start le_rfl (by omega), ih fun place after before =>
      kept place (by omega) (by omega)]
    rfl

theorem signedSlice_take (items : List α) (stop : ℕ) :
    signedSlice items 0 stop = items.take stop := by
  have start : signedIndex items.length 0 = 0 := signedIndex_natCast (Nat.zero_le _)
  rw [signedSlice, start, signedIndex, if_neg (by omega), Int.toNat_natCast, slice, drop_zero,
    ← take_eq_take_min]

/-- `items[-count:]` -/
theorem signedSlice_last (items : List α) {count : ℕ} (some : 0 < count) :
    signedSlice items (-(count : ℤ)) items.length = items.drop (items.length - count) := by
  have start : signedIndex items.length (-(count : ℤ)) = items.length - count := by
    rw [signedIndex, if_pos (by omega)]
    omega
  rw [signedSlice, start, signedIndex_natCast le_rfl, slice, take_length]

theorem signedSlice_drop (items : List α) (inside : start ≤ items.length) :
    signedSlice items start items.length = items.drop start := by
  rw [signedSlice_natCast items inside le_rfl, slice, take_length]

/-- A splice behind the part that is done. -/
theorem spliceAt_append (before between rest new : List α) (item : α) {place : ℤ}
    (isPlace : place = before.length + between.length) :
    spliceAt (before ++ (between ++ item :: rest)) place new =
      before ++ between ++ new ++ rest := by
  have whole : before ++ (between ++ item :: rest) = (before ++ between) ++ item :: rest := by
    rw [append_assoc]
  have start : place = ((before ++ between).length : ℕ) := by
    rw [isPlace, length_append, Int.natCast_add]
  have next : place + 1 = ((before ++ between).length + 1 : ℕ) := by
    rw [start, Int.natCast_add, Int.natCast_one]
  have length : (before ++ between ++ item :: rest).length =
      (before ++ between).length + 1 + rest.length := by
    rw [length_append, length_cons]
    omega
  have tail : (before ++ between ++ item :: rest).drop ((before ++ between).length + 1) = rest := by
    rw [← drop_drop, drop_left, drop_one, tail_cons]
  rw [spliceAt, whole, next, start, signedSlice_take, take_left,
    signedSlice_drop _ (by omega), tail]

theorem entryAt_append (before between rest : List α) (item : α) {place : ℤ}
    (isPlace : place = before.length + between.length) :
    entryAt (before ++ (between ++ item :: rest)) place = some item := by
  have length : (before ++ (between ++ item :: rest)).length =
      (before ++ between).length + 1 + rest.length := by
    simp only [length_append, length_cons]
    omega
  have start : place = ((before ++ between).length : ℕ) := by
    rw [isPlace, length_append, Int.natCast_add]
  rw [entryAt, if_pos (by omega), start, signedIndex_natCast (by omega), ← append_assoc,
    getElem?_append_right le_rfl, Nat.sub_self]
  rfl

end Geobench.Library
