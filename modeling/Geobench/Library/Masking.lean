import Geobench.Library.ListSlices
import Mathlib.Data.List.Range

/-!
# Masks

A mask keeps some items of a list, which are those at certain places (`maskSelect_map_range`). A
part of a list without repetitions is what is left of the list when the items of the part are kept
(`filter_mem_of_sublist`).
-/

namespace Geobench.Library

open List

variable {α : Type}

/-- `values[mask]`, for a mask of the same length -/
def maskSelect (mask : List Bool) (values : List α) : List α :=
  ((values.zip mask).filter fun entry => entry.2).map Prod.fst

/-- The items at some places. -/
def selectAt (places : List ℕ) (values : List α) : List α := places.filterMap (values[·]?)

variable {places : List ℕ} {values : List α}

theorem length_selectAt (inside : ∀ place ∈ places, place < values.length) :
    (selectAt places values).length = places.length := by
  induction places with
  | nil => rfl
  | cons place rest ih =>
    have isIn := inside place mem_cons_self
    rw [selectAt, filterMap_cons, getElem?_eq_getElem isIn]
    exact congrArg Nat.succ (ih fun other isOther => inside other (mem_cons_of_mem _ isOther))

theorem selectAt_map {β : Type} (f : α → β) (places : List ℕ) (values : List α) :
    selectAt places (values.map f) = (selectAt places values).map f := by
  rw [selectAt, selectAt, map_filterMap]
  exact filterMap_congr fun place _ => getElem?_map

theorem selectAt_eq_of_map {selected : List α}
    (same : places.map (values[·]?) = selected.map some) :
    selectAt places values = selected := by
  have kept : places.filterMap (values[·]?) = (places.map (values[·]?)).filterMap id := by
    rw [filterMap_map]
    rfl
  rw [selectAt, kept, same, filterMap_map]
  exact filterMap_some

theorem map_getElem?_selectAt (inside : ∀ place ∈ places, place < values.length) :
    places.map (values[·]?) = (selectAt places values).map some := by
  induction places with
  | nil => rfl
  | cons place rest ih =>
    have isIn := inside place mem_cons_self
    rw [selectAt, filterMap_cons, map_cons, getElem?_eq_getElem isIn,
      map_cons, ih fun other isOther => inside other (mem_cons_of_mem _ isOther)]
    rfl

theorem map_getElem?_range (values : List α) :
    (range values.length).map (values[·]?) = values.map some := by
  refine ext_getElem (by simp) fun place isPlace isOther => ?_
  rw [length_map, length_range] at isPlace
  simp [isPlace]

/-- The items at a slice of all places are a slice of the items. -/
theorem selectAt_slice (values : List α) (start stop : ℕ) :
    selectAt (slice (range values.length) start stop) values = slice values start stop := by
  refine selectAt_eq_of_map ?_
  rw [map_slice, map_getElem?_range, map_slice]

theorem maskSelect_map_range (keep : ℕ → Bool) (values : List α) :
    maskSelect ((range values.length).map keep) values =
      selectAt ((range values.length).filter keep) values := by
  induction values using List.reverseRecOn with
  | nil => rfl
  | append_singleton before last ih =>
    have length : (before ++ [last]).length = before.length + 1 := length_append
    have earlier : selectAt ((range before.length).filter keep) (before ++ [last]) =
        selectAt ((range before.length).filter keep) before := by
      refine filterMap_congr fun place isIn => ?_
      exact getElem?_append_left (mem_range.mp (mem_filter.mp isIn).1)
    have same : before.length = ((range before.length).map keep).length := by
      rw [length_map, length_range]
    rw [maskSelect, length, range_succ, map_append, zip_append same,
      filter_append, map_append, filter_append, selectAt, filterMap_append]
    rw [maskSelect] at ih
    rw [ih, ← earlier]
    refine congrArg (selectAt _ (before ++ [last]) ++ ·) ?_
    cases isKept : keep before.length <;> simp [isKept]

theorem filter_mem_of_sublist [DecidableEq α] {items part : List α} (nodup : items.Nodup)
    (sublist : part.Sublist items) : items.filter (fun item => decide (item ∈ part)) = part := by
  induction sublist with
  | slnil => rfl
  | cons item within ih =>
    obtain ⟨fresh, nodup⟩ := nodup_cons.mp nodup
    have isOther : item ∉ _ := fun isIn => fresh (within.subset isIn)
    rw [filter_cons, if_neg (by simpa using isOther), ih nodup]
  | cons_cons item within ih =>
    obtain ⟨fresh, nodup⟩ := nodup_cons.mp nodup
    rw [filter_cons, if_pos (by simp)]
    refine congrArg (item :: ·) ((filter_congr fun other isOther => ?_).trans (ih nodup))
    have differs : other ≠ item := by
      rintro rfl
      exact fresh isOther
    simp [differs]

end Geobench.Library
