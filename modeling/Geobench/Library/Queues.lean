import Geobench.Library.Loop
import Mathlib.Data.List.Perm.Basic
import Mathlib.Algebra.GroupWithZero.Nat

/-!
# Queues that are emptied into one list

Items wait in queues, one queue for each key, and are taken from the front of one queue or
another until none is left. `Drains` relates what has been taken to what is still waiting: of
each key, the items taken and the items waiting are, in this order, the queue at the start.

Taking an item keeps the relation (`Drains.popleft`), and so does taking several queues whole
(`Drains.extend`). Once the queues are empty, **`Drains.filter_eq`** gives the items of each key
in the order of their queue, and **`Drains.perm`** gives the list as a permutation of any list
with the same items under each key.
-/

namespace Geobench.Library

open List

variable {δ α : Type} [DecidableEq δ]

/-- The items that wait under each key. -/
abbrev Queues (δ α : Type) := δ → List α

/-- Take the first item of a queue. -/
def popleft (queues : Queues δ α) (key : δ) : Option (α × Queues δ α) :=
  match queues key with
  | [] => none
  | item :: rest => some (item, Function.update queues key rest)

variable {queues : Queues δ α} {key : δ} {item : α}

theorem popleft_eq_some_iff {left : Queues δ α} :
    popleft queues key = some (item, left) ↔
      ∃ rest, queues key = item :: rest ∧ left = Function.update queues key rest := by
  rw [popleft]
  cases queues key with
  | nil => simp
  | cons first rest =>
    simp only [Option.some.injEq, Prod.mk.injEq, List.cons.injEq]
    constructor
    · rintro ⟨rfl, rfl⟩
      exact ⟨rest, ⟨rfl, rfl⟩, rfl⟩
    · rintro ⟨other, ⟨rfl, rfl⟩, rfl⟩
      exact ⟨rfl, rfl⟩

/-- No item waits under the given keys. -/
def noneWaits (keys : List δ) (queues : Queues δ α) : Bool := keys.all fun key => (queues key).isEmpty

variable {keys : List δ}

omit [DecidableEq δ] in
theorem noneWaits_iff : noneWaits keys queues = true ↔ ∀ key ∈ keys, queues key = [] := by
  simp [noneWaits]

omit [DecidableEq δ] in
theorem exists_waits (waits : noneWaits keys queues = false) : ∃ key ∈ keys, queues key ≠ [] := by
  by_contra none
  push Not at none
  rw [noneWaits_iff.mpr none] at waits
  cases waits

/-! ## How many items wait -/

def waiting (keys : List δ) (queues : Queues δ α) : ℕ := (keys.map fun key => (queues key).length).sum

omit [DecidableEq δ] in
theorem waiting_cons (key : δ) (keys : List δ) (queues : Queues δ α) :
    waiting (key :: keys) queues = (queues key).length + waiting keys queues :=
  sum_cons

omit [DecidableEq δ] in
theorem waiting_le {left : Queues δ α} (shorter : ∀ key, (left key).length ≤ (queues key).length) :
    waiting keys left ≤ waiting keys queues := by
  induction keys with
  | nil => exact Nat.le_refl _
  | cons first rest ih =>
    rw [waiting_cons, waiting_cons]
    exact Nat.add_le_add (shorter first) ih

omit [DecidableEq δ] in
theorem waiting_lt {left : Queues δ α} (isKey : key ∈ keys)
    (shorter : ∀ key, (left key).length ≤ (queues key).length)
    (shorterAt : (left key).length < (queues key).length) :
    waiting keys left < waiting keys queues := by
  induction keys with
  | nil => cases isKey
  | cons first rest ih =>
    rw [waiting_cons, waiting_cons]
    rcases mem_cons.mp isKey with rfl | inRest
    · exact Nat.add_lt_add_of_lt_of_le shorterAt (waiting_le shorter)
    · exact Nat.add_lt_add_of_le_of_lt (shorter first) (ih inRest)

/-- Taking an item makes its queue shorter, and no queue longer. -/
theorem length_popleft {left : Queues δ α} (popped : popleft queues key = some (item, left)) :
    (∀ other, (left other).length ≤ (queues other).length) ∧
      (left key).length < (queues key).length := by
  obtain ⟨rest, isQueue, rfl⟩ := popleft_eq_some_iff.mp popped
  constructor
  · intro other
    by_cases same : other = key
    · subst same
      rw [Function.update_self, isQueue, length_cons]
      exact Nat.le_succ _
    · exact Nat.le_of_eq (by rw [Function.update_of_ne same])
  · rw [Function.update_self, isQueue, length_cons]
    exact Nat.lt_succ_self _

/-! ## What has been taken -/

/-- Of each key, what has been taken and what waits are together the queue at the start. -/
structure Drains (label : α → δ) (filled left : Queues δ α) (taken : List α) : Prop where
  labelled : ∀ key, ∀ item ∈ filled key, label item = key
  parts : ∀ key, taken.filter (fun item => label item = key) ++ left key = filled key

variable {label : α → δ} {filled left left' : Queues δ α} {taken : List α}

theorem Drains.start (labelled : ∀ key, ∀ item ∈ filled key, label item = key) :
    Drains label filled filled [] where
  labelled := labelled
  parts _ := rfl

theorem Drains.label_of_mem (drains : Drains label filled left taken) (waits : item ∈ left key) :
    label item = key :=
  drains.labelled key item (by
    rw [← drains.parts key]
    exact mem_append_right _ waits)

/-- An item is taken from the front of a queue. -/
theorem Drains.popleft (drains : Drains label filled left taken)
    (popped : popleft left key = some (item, left')) :
    Drains label filled left' (taken ++ [item]) := by
  obtain ⟨rest, isQueue, rfl⟩ := popleft_eq_some_iff.mp popped
  have isLabel : label item = key :=
    drains.label_of_mem (by rw [isQueue]; exact mem_cons_self)
  refine ⟨drains.labelled, fun other => ?_⟩
  rw [← drains.parts other, filter_append]
  by_cases same : other = key
  · subst same
    rw [Function.update_self, isQueue, filter_cons_of_pos (by simpa using isLabel)]
    simp
  · have differs : label item ≠ other := fun isOther => same (isOther.symm.trans isLabel)
    rw [Function.update_of_ne same, filter_cons_of_neg (by simpa using differs)]
    simp

theorem filter_flatMap (labelled : ∀ key, ∀ item ∈ left key, label item = key)
    (different : keys.Nodup) (key : δ) :
    (keys.flatMap left).filter (fun item => label item = key) =
      if key ∈ keys then left key else [] := by
  induction keys with
  | nil => rfl
  | cons first rest ih =>
    obtain ⟨notIn, different⟩ := nodup_cons.mp different
    rw [flatMap_cons, filter_append, ih different]
    by_cases same : key = first
    · subst same
      have all : (left key).filter (fun item => label item = key) = left key :=
        filter_eq_self.mpr fun item isIn => by simpa using labelled key item isIn
      rw [all, if_neg notIn, if_pos mem_cons_self, append_nil]
    · have none : (left first).filter (fun item => label item = key) = [] :=
        filter_eq_nil_iff.mpr fun item isIn => by
          simpa [labelled first item isIn] using fun isKey => same isKey.symm
      rw [none, nil_append]
      simp [same]

section

variable (drains : Drains label filled left taken)
include drains

/-- From each of some queues as many items are taken as are wanted from it. -/
theorem Drains.take (different : keys.Nodup) (wanted : δ → ℕ) :
    Drains label filled
      (fun key => if key ∈ keys then (left key).drop (wanted key) else left key)
      (taken ++ keys.flatMap fun key => (left key).take (wanted key)) := by
  refine ⟨drains.labelled, fun key => ?_⟩
  have labelled : ∀ key, ∀ item ∈ (left key).take (wanted key), label item = key :=
    fun key item isIn => drains.label_of_mem (mem_of_mem_take isIn)
  have ofKey := filter_flatMap labelled different key
  rw [← drains.parts key, filter_append, append_assoc, ofKey]
  split
  · rw [take_append_drop]
  · rw [nil_append]

/-- Queues are taken whole, one after the other. -/
theorem Drains.extend (different : keys.Nodup) :
    Drains label filled (fun key => if key ∈ keys then [] else left key)
      (taken ++ keys.flatMap left) := by
  simpa using drains.take different fun key => (left key).length

/-- Once no item waits, the items of each key are those of its queue, in its order. -/
theorem Drains.filter_eq (empty : ∀ key, left key = []) (key : δ) :
    taken.filter (fun item => label item = key) = filled key := by
  rw [← drains.parts key, empty key, append_nil]

theorem Drains.left_eq_nil (empty : filled key = []) : left key = [] := by
  have parts := drains.parts key
  rw [empty] at parts
  exact (append_eq_nil_iff.mp parts).2

/-- When no item waits under the keys of filled queues, no item waits at all. -/
theorem Drains.filter_eq_of_noneWaits (covers : ∀ key, filled key ≠ [] → key ∈ keys)
    (empty : noneWaits keys left = true) (key : δ) :
    taken.filter (fun item => label item = key) = filled key := by
  refine drains.filter_eq (fun key => ?_) key
  by_cases isFilled : filled key = []
  · exact drains.left_eq_nil isFilled
  · exact noneWaits_iff.mp empty key (covers key isFilled)

end

/-- Lists with the same items under each key are permutations of each other. -/
theorem perm_of_filter_perm (label : α → δ) {first second : List α}
    (same : ∀ key, (first.filter fun item => label item = key).Perm
      (second.filter fun item => label item = key)) :
    first.Perm second := by
  classical
  refine perm_iff_count.mpr fun item => ?_
  have counts := (same (label item)).count_eq item
  rwa [count_filter (by simp), count_filter (by simp)] at counts

/-- Once no item waits, the items that were taken are all the items. -/
theorem Drains.perm (drains : Drains label filled left taken) (empty : ∀ key, left key = [])
    {items : List α}
    (same : ∀ key, (filled key).Perm (items.filter fun item => label item = key)) :
    taken.Perm items :=
  perm_of_filter_perm label fun key => by
    rw [drains.filter_eq empty key]
    exact same key

end Geobench.Library
