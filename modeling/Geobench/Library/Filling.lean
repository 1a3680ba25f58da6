import Mathlib.Data.List.Induction

/-!
# Filling boxes in order

Items are put into boxes in their order. When the box that is filled has items and the next one
would make it too large, it is closed first, and a new one begins. What is too large is a predicate
of the items of a box, so there may be no limit at all.

The boxes hold the items in their order (`flatten_boxes`). **`of_mem_boxes`**: none is empty, and
each one that is too large has a single item. **`two_le_length_boxes_iff`**: where more items
never make a box smaller, there are several boxes exactly when all items together are too large for
one and are several.
-/

namespace Geobench.Library

open List

variable {α : Type}

/-- The boxes that are closed, in their order, and the one that is filled. -/
structure Filling (α : Type) where
  closed : List (List α)
  current : List α

namespace Filling

/-- No item was put. -/
def empty : Filling α := ⟨[], []⟩

/-- Close the box that is filled, if it has items. -/
def finish (filling : Filling α) : Filling α :=
  if filling.current = [] then filling else ⟨filling.closed ++ [filling.current], []⟩

variable (tooLarge : List α → Prop) [DecidablePred tooLarge]

def put (filling : Filling α) (item : α) : Filling α :=
  if filling.current ≠ [] ∧ tooLarge (filling.current ++ [item]) then
    ⟨filling.closed ++ [filling.current], [item]⟩
  else ⟨filling.closed, filling.current ++ [item]⟩

def fill (items : List α) : Filling α := items.foldl (put tooLarge) empty

def boxes (items : List α) : List (List α) := (fill tooLarge items).finish.closed

variable (items : List α)

theorem fill_concat (item : α) :
    fill tooLarge (items ++ [item]) = (fill tooLarge items).put tooLarge item := by
  simp [fill]

/-! ## The items of the boxes -/

/-- All items that were put, in their order. -/
def contents (filling : Filling α) : List α := filling.closed.flatten ++ filling.current

variable (filling : Filling α)

theorem contents_finish : filling.finish.contents = filling.contents := by
  unfold finish
  split
  · rfl
  · simp [contents]

theorem contents_put (item : α) :
    (filling.put tooLarge item).contents = filling.contents ++ [item] := by
  unfold put
  split <;> simp [contents]

theorem contents_fill : (fill tooLarge items).contents = items := by
  induction items using List.reverseRecOn with
  | nil => rfl
  | append_singleton items item ih => rw [fill_concat, contents_put, ih]

theorem current_put_ne_nil (item : α) : (filling.put tooLarge item).current ≠ [] := by
  unfold put
  split <;> simp

theorem current_fill_eq_nil_iff : (fill tooLarge items).current = [] ↔ items = [] := by
  induction items using List.reverseRecOn with
  | nil => simp [fill, empty]
  | append_singleton items item _ =>
    rw [fill_concat]
    simp [current_put_ne_nil]

theorem finish_current : filling.finish.current = [] := by
  unfold finish
  split
  · assumption
  · rfl

theorem flatten_boxes : (boxes tooLarge items).flatten = items := by
  have all := contents_finish (fill tooLarge items)
  rw [contents_fill, contents, finish_current, append_nil] at all
  exact all

/-! ## The size of the boxes -/

/-- A box as it is closed: it has items, and a single one if it is too large. -/
def Fits (box : List α) : Prop := box ≠ [] ∧ (¬ tooLarge box ∨ box.length = 1)

/-- Each closed box fits, and the one that is filled does once it has items. -/
structure Sound (filling : Filling α) : Prop where
  closed : ∀ box ∈ filling.closed, Fits tooLarge box
  current : filling.current ≠ [] → Fits tooLarge filling.current

omit [DecidablePred tooLarge] in
theorem sound_empty : Sound tooLarge (empty : Filling α) where
  closed := by simp [empty]
  current := by simp [empty]

variable {tooLarge}

theorem Sound.put {filling : Filling α} (sound : Sound tooLarge filling) (item : α) :
    Sound tooLarge (filling.put tooLarge item) := by
  unfold Filling.put
  split
  · rename_i closes
    refine ⟨fun box isBox => ?_, fun _ => ⟨cons_ne_nil _ _, .inr rfl⟩⟩
    rcases mem_append.mp isBox with isOld | isCurrent
    · exact sound.closed box isOld
    · rw [mem_singleton.mp isCurrent]
      exact sound.current closes.1
  · rename_i stays
    refine ⟨sound.closed, fun _ => ⟨by simp, ?_⟩⟩
    by_cases isFirst : filling.current = []
    · exact .inr (by simp [isFirst])
    · exact .inl fun large => stays ⟨isFirst, large⟩

omit [DecidablePred tooLarge] in
theorem Sound.finish {filling : Filling α} (sound : Sound tooLarge filling) :
    Sound tooLarge filling.finish := by
  unfold Filling.finish
  split
  · exact sound
  · rename_i isSome
    refine ⟨fun box isBox => ?_, fun absurdSome => absurd rfl absurdSome⟩
    rcases mem_append.mp isBox with isOld | isCurrent
    · exact sound.closed box isOld
    · rw [mem_singleton.mp isCurrent]
      exact sound.current isSome

variable (tooLarge)

theorem sound_fill : Sound tooLarge (fill tooLarge items) := by
  induction items using List.reverseRecOn with
  | nil => exact sound_empty tooLarge
  | append_singleton items item ih =>
    rw [fill_concat]
    exact ih.put item

theorem of_mem_boxes {items box : List α} (isBox : box ∈ boxes tooLarge items) :
    Fits tooLarge box :=
  (sound_fill tooLarge items).finish.closed box isBox

/-! ## The number of the boxes -/

variable {tooLarge}

variable (grows : ∀ (box : List α) (item : α), tooLarge box → tooLarge (box ++ [item]))
include grows

/-- No box is closed before the end where all items fit into one. -/
theorem closed_fill_eq_nil_iff (items : List α) :
    (fill tooLarge items).closed = [] ↔ items.length ≤ 1 ∨ ¬ tooLarge items := by
  induction items using List.reverseRecOn with
  | nil => simp [fill, empty]
  | append_singleton items item ih =>
    have whole : (fill tooLarge items).closed = [] → (fill tooLarge items).current = items := by
      intro none
      have all := contents_fill tooLarge items
      rwa [contents, none, flatten_nil, nil_append] at all
    have isFirst := current_fill_eq_nil_iff tooLarge items
    have small : (items ++ [item]).length ≤ 1 ↔ items = [] := by
      cases items <;> simp
    rw [fill_concat, put, small]
    by_cases none : (fill tooLarge items).closed = []
    · rw [whole none]
      by_cases isNil : items = []
      · simp [isNil, fill, empty]
      · by_cases large : tooLarge (items ++ [item]) <;> simp [isNil, large, none]
    · have large : tooLarge items := by
        by_contra fits
        exact none (ih.mpr (.inr fits))
      have isNil : items ≠ [] := by
        rintro rfl
        exact none rfl
      have larger := grows items item large
      split <;> simp [none, isNil, larger]

/-- There are several boxes exactly when several items are together too large for one. -/
theorem two_le_length_boxes_iff (items : List α) :
    2 ≤ (boxes tooLarge items).length ↔ 2 ≤ items.length ∧ tooLarge items := by
  have oneBox := closed_fill_eq_nil_iff grows items
  have isFirst := current_fill_eq_nil_iff tooLarge items
  have several : 2 ≤ (boxes tooLarge items).length ↔ (fill tooLarge items).closed ≠ [] := by
    rw [boxes, finish]
    split
    · rename_i isNil
      obtain rfl := isFirst.mp isNil
      simp [fill, empty]
    · rw [length_append, length_singleton]
      cases (fill tooLarge items).closed <;> simp
  rw [several, ne_eq, oneBox, not_or, not_not, Nat.not_le]
  rfl

theorem boxes_eq_singleton {items : List α} (isSome : items ≠ [])
    (oneBox : ¬ (2 ≤ items.length ∧ tooLarge items)) : boxes tooLarge items = [items] := by
  have all := flatten_boxes tooLarge items
  have few := mt (two_le_length_boxes_iff grows items).mp oneBox
  match isBoxes : boxes tooLarge items with
  | [] => simp [isBoxes, isSome.symm] at all
  | [box] => simpa [isBoxes] using all
  | _ :: _ :: _ => simp [isBoxes] at few

end Filling

end Geobench.Library
