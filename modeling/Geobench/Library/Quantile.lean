import Mathlib.Algebra.Order.Floor.Semiring
import Mathlib.Algebra.Order.Field.Basic
import Mathlib.Data.List.GetD
import Mathlib.Data.List.Sort
import Mathlib.Tactic.FieldSimp
import Mathlib.Tactic.Linarith

/-!
# Quantiles of a list of numbers

`quantile fraction numbers` is the number at a fraction of the way through the sorted
list, interpolated between the two entries next to it. Which numbers it reaches depends on
counts only: it is at most an entry exactly when as many entries are at most that entry as
the fraction asks for (`quantile_le_iff`). `nanquantile` leaves the missing entries out.
-/

namespace Geobench.Library

open List

variable {F : Type} [LinearOrder F]

/-! ## Sorted lists -/

variable {sorted : List F}

/-- In a sorted list the entries up to a number come first. -/
theorem getElem_le_iff_lt_countP (increasing : sorted.Pairwise (· ≤ ·)) (number : F) {index : ℕ}
    (inside : index < sorted.length) :
    sorted[index] ≤ number ↔ index < sorted.countP (· ≤ number) := by
  induction sorted generalizing index with
  | nil => exact absurd inside (Nat.not_lt_zero _)
  | cons first rest ih =>
    obtain ⟨least, restIncreasing⟩ := pairwise_cons.mp increasing
    by_cases small : first ≤ number
    · rw [countP_cons_of_pos (by simpa using small)]
      cases index with
      | zero => exact iff_of_true small (Nat.succ_pos _)
      | succ index =>
        rw [getElem_cons_succ, ih restIncreasing (Nat.lt_of_succ_lt_succ inside)]
        exact Nat.succ_lt_succ_iff.symm
    · have none : (first :: rest).countP (· ≤ number) = 0 := by
        refine countP_eq_zero.mpr fun entry member => ?_
        rw [decide_eq_true_eq]
        rcases mem_cons.mp member with rfl | later
        · exact small
        · exact fun reached => small ((least entry later).trans reached)
      rw [none]
      refine iff_of_false (fun reached => small ?_) (Nat.not_lt_zero _)
      rcases mem_cons.mp (getElem_mem inside) with isFirst | later
      · exact isFirst ▸ reached
      · exact (least _ later).trans reached

/-- In a strictly sorted list as many entries are at most an entry as its place says. -/
theorem countP_le_getElem (increasing : sorted.Pairwise (· < ·)) {index : ℕ}
    (inside : index < sorted.length) : sorted.countP (· ≤ sorted[index]) = index + 1 := by
  have weakly : sorted.Pairwise (· ≤ ·) := increasing.imp le_of_lt
  have reached : index < sorted.countP (· ≤ sorted[index]) :=
    (getElem_le_iff_lt_countP weakly _ inside).mp le_rfl
  refine le_antisymm (not_lt.mp fun more => ?_) reached
  have next : index + 1 < sorted.length := more.trans_le countP_le_length
  have bound := (getElem_le_iff_lt_countP weakly sorted[index] next).mpr more
  exact absurd (pairwise_iff_getElem.mp increasing index (index + 1) inside next
    (Nat.lt_succ_self index)) (not_lt.mpr bound)

/-! ## The quantile -/

variable [Field F] [FloorSemiring F]

/-- The number at a fraction of the way through the sorted list, interpolated between the
two entries next to it. -/
def quantile (fraction : F) (numbers : List F) : F :=
  let sorted := numbers.insertionSort (· ≤ ·)
  let position := fraction * ((numbers.length - 1 : ℕ) : F)
  let below := sorted.getD ⌊position⌋₊ 0
  let above := sorted.getD ⌈position⌉₊ 0
  below + (position - (⌊position⌋₊ : F)) * (above - below)

/-- The quantile of the entries that are numbers. -/
def nanquantile (fraction : F) (entries : List (Option F)) : Option F :=
  let numbers := entries.filterMap id
  if numbers = [] then none else some (quantile fraction numbers)

variable {numbers : List F}

theorem quantile_perm {others : List F} (isPerm : numbers.Perm others) (fraction : F) :
    quantile fraction numbers = quantile fraction others := by
  have sortedEq : numbers.insertionSort (· ≤ ·) = others.insertionSort (· ≤ ·) :=
    List.Perm.eq_of_pairwise (fun _ _ _ _ => le_antisymm)
      (pairwise_insertionSort _ _) (pairwise_insertionSort _ _)
      ((perm_insertionSort _ _).trans (isPerm.trans (perm_insertionSort _ _).symm))
  rw [quantile, quantile, sortedEq, isPerm.length_eq]

variable [IsStrictOrderedRing F]

variable {fraction : F}

/-- The quantile is at most an entry exactly when the fraction asks for no more entries
than are at most that entry. -/
theorem quantile_le_iff (nonneg : 0 ≤ fraction) (atMostOne : fraction ≤ 1) {entry : F}
    (member : entry ∈ numbers) :
    quantile fraction numbers ≤ entry ↔
      fraction * ((numbers.length - 1 : ℕ) : F) + 1 ≤ numbers.countP (· ≤ entry) := by
  have sortedPerm := perm_insertionSort (α := F) (· ≤ ·) numbers
  have increasing := pairwise_insertionSort (α := F) (· ≤ ·) numbers
  have lengthEq := sortedPerm.length_eq
  have countEq := sortedPerm.countP_eq (fun number => decide (number ≤ entry))
  have sortedMember := sortedPerm.mem_iff.mpr member
  rw [quantile]
  generalize numbers.insertionSort (· ≤ ·) = sorted at *
  generalize positionEq : fraction * ((numbers.length - 1 : ℕ) : F) = position
  have someNumber : 0 < numbers.length := length_pos_of_mem member
  have positionNonneg : 0 ≤ position := positionEq ▸ mul_nonneg nonneg (Nat.cast_nonneg _)
  have positionLe : position ≤ ((numbers.length - 1 : ℕ) : F) :=
    positionEq ▸ mul_le_of_le_one_left (Nat.cast_nonneg _) atMostOne
  have floorLe : (⌊position⌋₊ : F) ≤ position := Nat.floor_le positionNonneg
  have leCeil : position ≤ (⌈position⌉₊ : F) := Nat.le_ceil position
  have ceilInside : ⌈position⌉₊ < sorted.length := by
    have : ⌈position⌉₊ ≤ numbers.length - 1 := Nat.ceil_le.mpr positionLe
    omega
  have floorInside : ⌊position⌋₊ < sorted.length :=
    (Nat.floor_le_ceil position).trans_lt ceilInside
  rw [getD_eq_getElem _ _ ceilInside, getD_eq_getElem _ _ floorInside, ← countEq]
  have weightNonneg : 0 ≤ position - (⌊position⌋₊ : F) := sub_nonneg.mpr floorLe
  have weightLe : position - (⌊position⌋₊ : F) ≤ 1 := by
    have := (Nat.lt_floor_add_one position).le
    linarith
  constructor
  · -- were there fewer entries, both neighbours would be at least the entry, one more
    intro bound
    by_contra few
    have count : ((sorted.countP (· ≤ entry) : ℕ) : F) < position + 1 := not_le.mp few
    obtain ⟨place, placeInside, isEntry⟩ := mem_iff_getElem.mp sortedMember
    have placeBefore : place < sorted.countP (· ≤ entry) :=
      (getElem_le_iff_lt_countP increasing entry placeInside).mp isEntry.le
    have countPos : 0 < sorted.countP (· ≤ entry) := (Nat.zero_le _).trans_lt placeBefore
    have ceilAfter : sorted.countP (· ≤ entry) ≤ ⌈position⌉₊ := by
      have : sorted.countP (· ≤ entry) - 1 < ⌈position⌉₊ := by
        rw [Nat.lt_ceil, Nat.cast_sub countPos, Nat.cast_one]
        linarith
      omega
    have above : entry < sorted[⌈position⌉₊] := not_le.mp fun reached =>
      absurd ((getElem_le_iff_lt_countP increasing entry ceilInside).mp reached)
        (not_lt.mpr ceilAfter)
    have floorAfter : sorted.countP (· ≤ entry) - 1 ≤ ⌊position⌋₊ := by
      have : sorted.countP (· ≤ entry) < ⌊position⌋₊ + 2 := by
        have := Nat.lt_floor_add_one position
        have : ((sorted.countP (· ≤ entry) : ℕ) : F) < ((⌊position⌋₊ + 2 : ℕ) : F) := by
          push_cast
          linarith
        exact Nat.cast_lt.mp this
      omega
    have below : entry ≤ sorted[⌊position⌋₊] := by
      rw [← isEntry]
      rcases Nat.lt_or_ge place ⌊position⌋₊ with earlier | later
      · exact pairwise_iff_getElem.mp increasing _ _ placeInside floorInside earlier
      · have same : place = ⌊position⌋₊ := by omega
        exact le_of_eq (by simp only [same])
    rcases eq_or_lt_of_le weightNonneg with whole | between
    · -- the position is a place of the list
      have same : ⌈position⌉₊ = ⌊position⌋₊ := by
        have : position = (⌊position⌋₊ : F) := by linarith
        rw [this, Nat.ceil_natCast, Nat.floor_natCast]
      rw [← whole, zero_mul, add_zero] at bound
      simp only [same] at above
      exact absurd bound (not_le.mpr above)
    · nlinarith
  · intro count
    have ceilBefore : ⌈position⌉₊ < sorted.countP (· ≤ entry) := by
      have countPos : 0 < sorted.countP (· ≤ entry) := by
        have : (0 : F) < (sorted.countP (· ≤ entry) : ℕ) := by linarith
        exact Nat.cast_pos.mp this
      have : ⌈position⌉₊ ≤ sorted.countP (· ≤ entry) - 1 := by
        rw [Nat.ceil_le, Nat.cast_sub countPos, Nat.cast_one]
        linarith
      omega
    have above := (getElem_le_iff_lt_countP increasing entry ceilInside).mpr ceilBefore
    have below := (getElem_le_iff_lt_countP increasing entry floorInside).mpr
      ((Nat.floor_le_ceil position).trans_lt ceilBefore)
    nlinarith

theorem quantile_le_of_forall_le (nonneg : 0 ≤ fraction) (atMostOne : fraction ≤ 1) {entry : F}
    (member : entry ∈ numbers) (greatest : ∀ number ∈ numbers, number ≤ entry) :
    quantile fraction numbers ≤ entry := by
  refine (quantile_le_iff nonneg atMostOne member).mpr ?_
  have all : numbers.countP (· ≤ entry) = numbers.length :=
    countP_eq_length.mpr fun number isNumber =>
      decide_eq_true (greatest number isNumber)
  have someNumber : 0 < numbers.length := length_pos_of_mem member
  have bound : fraction * ((numbers.length - 1 : ℕ) : F) ≤ ((numbers.length - 1 : ℕ) : F) :=
    mul_le_of_le_one_left (Nat.cast_nonneg _) atMostOne
  rw [all]
  rw [Nat.cast_sub someNumber, Nat.cast_one] at bound ⊢
  linarith

/-- Of any number of entries, more by some, the fraction asks for another count from above
or from below. -/
theorem exists_count_between (pos : 0 < fraction) (atMostOne : fraction ≤ 1) {count added : ℕ}
    (someCount : 0 < count) (someAdded : 0 < added) :
    ∃ rank, 0 < rank ∧ rank ≤ count ∧
      ((fraction * ((count - 1 : ℕ) : F) + 1 ≤ rank ∧
          (rank : F) < fraction * ((count + added - 1 : ℕ) : F) + 1) ∨
        ((rank : F) < fraction * ((count - 1 : ℕ) : F) + 1 ∧
          fraction * ((count + added - 1 : ℕ) : F) + 1 ≤ ((rank + added : ℕ) : F))) := by
  generalize fewEq : fraction * ((count - 1 : ℕ) : F) = few
  have fewLe : few ≤ ((count - 1 : ℕ) : F) :=
    fewEq ▸ mul_le_of_le_one_left (Nat.cast_nonneg _) atMostOne
  have manyPos : 0 < fraction * ((count + added - 1 : ℕ) : F) :=
    mul_pos pos (Nat.cast_pos.mpr (by omega))
  generalize fraction * ((count + added - 1 : ℕ) : F) = many at manyPos
  have ceilLe : ⌈few⌉₊ + 1 ≤ count := by
    have := Nat.ceil_le.mpr fewLe
    omega
  by_cases between : ((⌈few⌉₊ + 1 : ℕ) : F) < many + 1
  · refine ⟨⌈few⌉₊ + 1, Nat.succ_pos _, ceilLe, .inl ⟨?_, between⟩⟩
    have := Nat.le_ceil few
    push_cast
    linarith
  · have manyLe : many ≤ (⌈few⌉₊ : F) := by
      have := not_lt.mp between
      push_cast at this
      linarith
    have ceilPos : 0 < ⌈few⌉₊ := Nat.cast_pos.mp (manyPos.trans_le manyLe)
    refine ⟨⌈few⌉₊, ceilPos, by omega, .inr ⟨?_, ?_⟩⟩
    · have : ⌈few⌉₊ - 1 < ⌈few⌉₊ := Nat.sub_lt ceilPos one_pos
      rw [Nat.lt_ceil, Nat.cast_sub ceilPos, Nat.cast_one] at this
      linarith
    · have : (1 : F) ≤ added := Nat.one_le_cast.mpr someAdded
      push_cast
      linarith

/-- More entries move the quantile over an entry, upwards when they are great, or
downwards when they are small. -/
theorem exists_quantile_append (pos : 0 < fraction) (atMostOne : fraction ≤ 1)
    (increasing : sorted.Pairwise (· < ·)) (nonempty : sorted ≠ []) {added : ℕ}
    (someAdded : 0 < added) :
    ∃ entry ∈ sorted, ∃ other,
      (quantile fraction sorted ≤ entry ∧
          entry < quantile fraction (sorted ++ replicate added other)) ∨
        (quantile fraction (sorted ++ replicate added other) ≤ entry ∧
          entry < quantile fraction sorted) := by
  obtain ⟨rank, rankPos, rankLe, cases⟩ :=
    exists_count_between pos atMostOne (length_pos_iff.mpr nonempty) someAdded
  have inside : rank - 1 < sorted.length := by omega
  have count : sorted.countP (· ≤ sorted[rank - 1]) = rank := by
    rw [countP_le_getElem increasing inside, Nat.sub_add_cancel rankPos]
  have member : sorted[rank - 1] ∈ sorted := getElem_mem inside
  generalize sorted[rank - 1] = entry at count member
  have few := quantile_le_iff pos.le atMostOne member
  have many := fun other => quantile_le_iff pos.le atMostOne
    (mem_append_left (replicate added other) member)
  rw [count] at few
  simp only [length_append, length_replicate, countP_append,
    countP_replicate, count, decide_eq_true_eq] at many
  refine ⟨entry, member, ?_⟩
  rcases cases with ⟨reached, missed⟩ | ⟨missed, reached⟩
  · refine ⟨entry + 1, .inl ⟨few.mpr reached, not_le.mp fun bound => ?_⟩⟩
    have counted := (many (entry + 1)).mp bound
    rw [if_neg (not_le.mpr (lt_add_one entry)), Nat.add_zero] at counted
    exact absurd missed (not_lt.mpr counted)
  · refine ⟨entry, .inr ⟨(many entry).mpr ?_, not_le.mp fun bound => ?_⟩⟩
    · rw [if_pos le_rfl]
      exact reached
    · exact absurd missed (not_lt.mpr (few.mp bound))

end Geobench.Library
