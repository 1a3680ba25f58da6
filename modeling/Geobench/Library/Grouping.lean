import Mathlib.Algebra.Order.BigOperators.Group.List
import Mathlib.Algebra.Order.Ring.Rat
import Mathlib.Tactic.FieldSimp
import Geobench.Library.Records

/-!
# Groups and weighted means

Items are grouped by a key. A sum over all items is the sum over the groups of their sums
(`sum_groupBy`), and a ratio of two sums is the mean of the ratios of the groups, weighted by
their denominators (**`weightedMean_ratio`**).
-/

namespace Geobench.Library

open List

variable {κ α β : Type} [DecidableEq κ]

/-! ## Groups -/

def groupBy (key : α → κ) (items : List α) : List (κ × List α) :=
  items.foldl (fun groups item => append groups (key item) item) []

/-- The groups in the order of their keys. -/
def sortedGroups [LE κ] [DecidableLE κ] (groups : List (κ × List α)) : List (κ × List α) :=
  groups.mergeSort fun first second => decide (first.1 ≤ second.1)

variable {M : Type}

theorem sum_append [AddCommMonoid M] (f : α → M) (groups : List (κ × List α)) (key : κ) (item : α) :
    ((append groups key item).map fun group => (group.2.map f).sum).sum =
      (groups.map fun group => (group.2.map f).sum).sum + f item := by
  induction groups with
  | nil => simp [append]
  | cons group groups inductionHypothesis =>
    rw [append]
    split
    · simp [add_assoc, add_comm (f item)]
    · simp [inductionHypothesis, add_assoc]

theorem sum_groupBy [AddCommMonoid M] (f : α → M) (key : α → κ) (items : List α) :
    ((groupBy key items).map fun group => (group.2.map f).sum).sum = (items.map f).sum := by
  have kept : ∀ groups : List (κ × List α),
      ((items.foldl (fun groups item => append groups (key item) item) groups).map
        fun group => (group.2.map f).sum).sum =
        (groups.map fun group => (group.2.map f).sum).sum + (items.map f).sum := by
    induction items with
    | nil => simp
    | cons item items inductionHypothesis =>
      intro groups
      rw [foldl_cons, inductionHypothesis, sum_append, map_cons, sum_cons, add_assoc]
  simpa [groupBy] using kept []

theorem nodup_keys_groupBy (key : α → κ) (items : List α) :
    ((groupBy key items).map Prod.fst).Nodup := by
  have none : (([] : List (κ × List α)).map Prod.fst).Nodup := nodup_nil
  exact nodup_keys_foldl_label key items none

theorem eq_filter_of_mem_groupBy {key : α → κ} {items : List α} {group : κ × List α}
    (isGroup : group ∈ groupBy key items) :
    group.2 = items.filter fun item => key item = group.1 := by
  have isColumn := column_eq_of_mem (nodup_keys_groupBy key items) isGroup
  rw [groupBy, column_foldl_label] at isColumn
  exact isColumn.symm

theorem mem_keys_groupBy {key : α → κ} {items : List α} {label : κ} :
    label ∈ (groupBy key items).map Prod.fst ↔ ∃ item ∈ items, key item = label := by
  rw [groupBy, mem_keys_foldl_label]
  simp

theorem flatMap_append_perm (groups : List (κ × List α)) (key : κ) (item : α) :
    ((append groups key item).flatMap Prod.snd).Perm (item :: groups.flatMap Prod.snd) := by
  induction groups with
  | nil => simp [append]
  | cons group groups inductionHypothesis =>
    rw [append, flatMap_cons]
    split
    · rw [flatMap_cons, append_assoc]
      exact perm_middle
    · rw [flatMap_cons]
      exact (inductionHypothesis.append_left group.2).trans perm_middle

theorem flatMap_groupBy_perm (key : α → κ) (items : List α) :
    ((groupBy key items).flatMap Prod.snd).Perm items := by
  have kept : ∀ groups : List (κ × List α),
      ((items.foldl (fun groups item => append groups (key item) item) groups).flatMap
        Prod.snd).Perm (groups.flatMap Prod.snd ++ items) := by
    induction items with
    | nil => simp
    | cons item items inductionHypothesis =>
      intro groups
      refine (inductionHypothesis _).trans ?_
      refine ((flatMap_append_perm groups (key item) item).append_right items).trans ?_
      exact perm_middle.symm
  simpa [groupBy] using kept []

theorem countP_flatMap_group {γ : Type} {groups : List (κ × List α)}
    (different : (groups.map Prod.fst).Nodup) {gives : κ × List α → List γ} {label : γ → κ}
    (labelled : ∀ group ∈ groups, ∀ given ∈ gives group, label given = group.1)
    (counts : γ → Bool) {group : κ × List α} (isGroup : group ∈ groups) :
    (groups.flatMap gives).countP (fun given => decide (label given = group.1) && counts given) =
      (gives group).countP counts := by
  induction groups with
  | nil => cases isGroup
  | cons first rest inductionHypothesis =>
    rw [map_cons, nodup_cons] at different
    rw [flatMap_cons, countP_append]
    have labelledRest := fun group isGroup => labelled group (mem_cons_of_mem _ isGroup)
    rcases mem_cons.mp isGroup with rfl | isLater
    · have none : (rest.flatMap gives).countP
          (fun given => decide (label given = group.1) && counts given) = 0 := by
        rw [countP_eq_zero]
        intro given isGiven
        obtain ⟨other, isOther, isGiven⟩ := mem_flatMap.mp isGiven
        have differs : label given ≠ group.1 := fun same => different.1
          (mem_map.mpr ⟨other, isOther, (labelledRest other isOther given isGiven).symm.trans
            same⟩)
        simp [differs]
      rw [none, Nat.add_zero]
      refine countP_congr fun given isGiven => ?_
      simp [labelled group mem_cons_self given isGiven]
    · have none : (gives first).countP
          (fun given => decide (label given = group.1) && counts given) = 0 := by
        rw [countP_eq_zero]
        intro given isGiven
        have differs : label given ≠ group.1 := fun same => different.1
          (mem_map.mpr ⟨group, isLater,
            same.symm.trans (labelled first mem_cons_self given isGiven)⟩)
        simp [differs]
      rw [none, Nat.zero_add]
      exact inductionHypothesis different.2 labelledRest isLater

omit [DecidableEq κ] in
theorem sum_sortedGroups [AddCommMonoid M] [LE κ] [DecidableLE κ] (measure : κ × List α → M)
    (groups : List (κ × List α)) :
    ((sortedGroups groups).map measure).sum = (groups.map measure).sum :=
  ((mergeSort_perm groups _).map measure).sum_eq

/-! ## Weighted means -/

/-- The mean of values with weights, which is zero where no value has a weight. -/
def weightedMean (values : List (ℚ × ℕ)) : ℚ :=
  (values.map fun value => value.1 * (value.2 : ℚ)).sum / ((values.map Prod.snd).sum : ℕ)

theorem weightedMean_ratio (total : β → ℚ) (weight : β → ℕ) {parts : List β}
    (empty : ∀ part ∈ parts, weight part = 0 → total part = 0) :
    weightedMean (parts.map fun part => (total part / weight part, weight part)) =
      (parts.map total).sum / ((parts.map weight).sum : ℕ) := by
  have weighed : ∀ part ∈ parts, total part / weight part * weight part = total part := by
    intro part member
    by_cases weightless : weight part = 0
    · simp [weightless, empty part member weightless]
    · have nonzero : (weight part : ℚ) ≠ 0 := by exact_mod_cast weightless
      field_simp
  have totals : (parts.map fun part => total part / weight part * weight part) =
      parts.map total := map_congr_left weighed
  simp [weightedMean, map_map, Function.comp_def, totals]

end Geobench.Library
