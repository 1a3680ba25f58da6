import Geobench.Library.ListSlices
import Mathlib.Data.List.Range
import Mathlib.Algebra.Order.Group.Synonym
import Mathlib.Data.List.Sort
import Mathlib.Data.Prod.Lex

/-!
# Ranks

An order of a list of values lists their places from the smallest value on. Equal values may come
in any order. An order of the order then gives each place its rank, and where the values are
different this is the number of smaller values (`rank_eq_countP`). A stable order puts an earlier
value before an equal later one, which counts as smaller (`stableRank_eq_countP`).
-/

namespace Geobench.Library

open List

variable {α : Type} [LinearOrder α] [Zero α]

/-- The places of the values, from the smallest value on. -/
structure IsArgsort (values : List α) (order : List ℕ) : Prop where
  perm : order.Perm (List.range values.length)
  sorted : (order.map (values.getD · 0)).Pairwise (· ≤ ·)

/-- The order that leaves equal values as they are. -/
def stableArgsort (values : List α) : List ℕ :=
  (List.range values.length).insertionSort fun first second =>
    values.getD first 0 ≤ values.getD second 0

theorem isArgsort_stableArgsort (values : List α) : IsArgsort values (stableArgsort values) where
  perm := perm_insertionSort _ _
  sorted := by
    have total : Std.Total fun first second : ℕ => values.getD first 0 ≤ values.getD second 0 :=
      ⟨fun _ _ => le_total _ _⟩
    have transitive : IsTrans ℕ fun first second => values.getD first 0 ≤ values.getD second 0 :=
      ⟨fun _ _ _ => le_trans⟩
    rw [pairwise_map]
    exact pairwise_insertionSort _ _

namespace IsArgsort

variable {values : List α} {order ranks : List ℕ}

theorem length_eq (isOrder : IsArgsort values order) : order.length = values.length := by
  rw [isOrder.perm.length_eq, length_range]

theorem perm_values (isOrder : IsArgsort values order) :
    (order.map (values.getD · 0)).Perm values := by
  have rearranged := isOrder.perm.map (values.getD · 0)
  rwa [map_getD_range] at rearranged

/-- The order of an order is its inverse. -/
theorem getD_getD (isOrder : IsArgsort values order) (isRank : IsArgsort order ranks) {place : ℕ}
    (inside : place < values.length) : order.getD (ranks.getD place 0) 0 = place := by
  have inOrder : ranks.map (order.getD · 0) = range values.length :=
    (isRank.perm_values.trans isOrder.perm).eq_of_pairwise (fun _ _ _ _ => le_antisymm)
      isRank.sorted pairwise_le_range
  have isPlace : place < ranks.length := by
    rw [isRank.length_eq, isOrder.length_eq]
    exact inside
  have found : (ranks.map (order.getD · 0)).getD place 0 = place := by
    rw [inOrder, getD_eq_getElem _ _ (by rwa [length_range]), getElem_range]
  rw [getD_eq_getElem _ _ (by rwa [length_map]), getElem_map] at found
  rwa [getD_eq_getElem _ _ isPlace]

end IsArgsort

/-- In a strictly increasing list, as many values are smaller than one as come before it. -/
theorem countP_lt_of_sorted {values : List α} (sorted : values.Pairwise (· < ·)) {place : ℕ}
    (inside : place < values.length) : values.countP (· < values.getD place 0) = place := by
  induction values generalizing place with
  | nil => cases inside
  | cons first rest ih =>
    obtain ⟨smallest, sortedRest⟩ := pairwise_cons.mp sorted
    cases place with
    | zero =>
      refine countP_eq_zero.mpr fun value isValue => ?_
      rcases mem_cons.mp isValue with rfl | isLater
      · simp
      · simpa using (smallest value isLater).le
    | succ place =>
      have insideRest : place < rest.length := Nat.lt_of_succ_lt_succ inside
      have smaller : first < rest.getD place 0 := by
        rw [getD_eq_getElem _ _ insideRest]
        exact smallest _ (getElem_mem insideRest)
      rw [getD_cons_succ, countP_cons_of_pos (by simpa using smaller), ih sortedRest insideRest]

/-- The rank of one of several different values is the number of smaller ones. -/
theorem rank_eq_countP {values : List α} {order ranks : List ℕ} (isOrder : IsArgsort values order)
    (isRank : IsArgsort order ranks) (different : values.Nodup) {place : ℕ}
    (inside : place < values.length) :
    ranks.getD place 0 = values.countP (· < values.getD place 0) := by
  have rearranged := isOrder.perm_values
  have sorted : (order.map (values.getD · 0)).Pairwise (· < ·) := by
    have nodup := rearranged.nodup_iff.mpr different
    exact (isOrder.sorted.and nodup).imp fun both => lt_of_le_of_ne both.1 both.2
  have isRankPlace : place < ranks.length := by
    rw [isRank.length_eq, isOrder.length_eq]
    exact inside
  have insideOrder : ranks.getD place 0 < order.length := by
    rw [getD_eq_getElem _ _ isRankPlace]
    exact mem_range.mp (isRank.perm.mem_iff.mp (getElem_mem isRankPlace))
  have value : (order.map (values.getD · 0)).getD (ranks.getD place 0) 0 = values.getD place 0 := by
    have found := isOrder.getD_getD isRank inside
    rw [getD_eq_getElem _ _ insideOrder] at found
    rw [getD_eq_getElem _ _ (by rwa [length_map]), getElem_map, found]
  rw [← rearranged.countP_eq, ← value, countP_lt_of_sorted sorted (by rwa [length_map])]

/-! ## Stable ranks -/

section Stable

variable (values : List α)

/-- A place has a smaller value, or an equal one and is earlier. -/
def Precedes (first second : ℕ) : Prop :=
  values.getD first 0 < values.getD second 0 ∨
    values.getD first 0 = values.getD second 0 ∧ first < second

instance (first second : ℕ) : Decidable (Precedes values first second) :=
  inferInstanceAs (Decidable (_ ∨ _))

def placedAt (place : ℕ) : α ×ₗ ℕ := toLex (values.getD place 0, place)

variable {values}

theorem placedAt_lt_iff {first second : ℕ} :
    placedAt values first < placedAt values second ↔ Precedes values first second :=
  Prod.Lex.toLex_lt_toLex

theorem Precedes.trans {first second third : ℕ} (before : Precedes values first second)
    (after : Precedes values second third) : Precedes values first third := by
  rw [← placedAt_lt_iff] at *
  exact lt_trans before after

theorem orderedInsert_placedAt {place : ℕ} {places : List ℕ}
    (earlier : ∀ other ∈ places, place < other) :
    places.orderedInsert (fun first second => values.getD first 0 ≤ values.getD second 0) place =
      places.orderedInsert (fun first second => placedAt values first ≤ placedAt values second)
        place := by
  induction places with
  | nil => rfl
  | cons other rest ih =>
    have same : values.getD place 0 ≤ values.getD other 0 ↔
        placedAt values place ≤ placedAt values other := by
      rw [placedAt, placedAt, Prod.Lex.toLex_le_toLex, le_iff_lt_or_eq]
      have before := (earlier other mem_cons_self).le
      simp [before]
    rw [orderedInsert_cons, orderedInsert_cons, ih fun later isLater =>
      earlier later (mem_cons_of_mem _ isLater)]
    simp only [same]

theorem insertionSort_placedAt {places : List ℕ} (increasing : places.Pairwise (· < ·)) :
    places.insertionSort (fun first second => values.getD first 0 ≤ values.getD second 0) =
      places.insertionSort fun first second => placedAt values first ≤ placedAt values second := by
  induction increasing with
  | nil => rfl
  | cons earlier _ ih =>
    rw [insertionSort_cons, insertionSort_cons, ← ih]
    exact orderedInsert_placedAt fun other isOther =>
      earlier other ((perm_insertionSort _ _).mem_iff.mp isOther)

theorem sorted_stableArgsort (values : List α) :
    ((stableArgsort values).map (placedAt values)).Pairwise (· < ·) := by
  have total : Std.Total fun first second => placedAt values first ≤ placedAt values second :=
    ⟨fun _ _ => le_total _ _⟩
  have transitive : IsTrans ℕ fun first second => placedAt values first ≤ placedAt values second :=
    ⟨fun _ _ _ => le_trans⟩
  have nodup : (stableArgsort values).Nodup :=
    (perm_insertionSort _ _).nodup_iff.mpr nodup_range
  rw [pairwise_map]
  rw [stableArgsort, insertionSort_placedAt pairwise_lt_range] at nodup ⊢
  have sorted := pairwise_insertionSort
    (fun first second => placedAt values first ≤ placedAt values second)
    (range values.length)
  refine (sorted.and nodup).imp fun both => lt_of_le_of_ne both.1 fun same => both.2 ?_
  exact congrArg (fun placed => (ofLex placed).2) same

/-- The stable rank of a place is the number of places that precede it. -/
theorem stableRank_eq_countP {values : List α} {place : ℕ} (inside : place < values.length) :
    (stableArgsort (stableArgsort values)).getD place 0 =
      (range values.length).countP (Precedes values · place) := by
  have isOrder := isArgsort_stableArgsort values
  have isRank := isArgsort_stableArgsort (stableArgsort values)
  have found := isOrder.getD_getD isRank inside
  have insideRanks : place < (stableArgsort (stableArgsort values)).length := by
    rwa [isRank.length_eq, isOrder.length_eq]
  have insideOrder :
      (stableArgsort (stableArgsort values)).getD place 0 < (stableArgsort values).length := by
    rw [getD_eq_getElem _ _ insideRanks]
    exact mem_range.mp (isRank.perm.mem_iff.mp (getElem_mem insideRanks))
  have count := countP_lt_of_sorted (sorted_stableArgsort values)
    (by rwa [length_map])
  rw [getD_eq_getElem _ _ (by rwa [length_map]), getElem_map,
    ← getD_eq_getElem _ 0 insideOrder, found, countP_map] at count
  rw [← isOrder.perm.countP_eq, ← count]
  refine countP_congr fun other _ => ?_
  simp [placedAt_lt_iff]

end Stable

end Geobench.Library
