import Mathlib.Data.List.SplitBy
import Mathlib.Data.List.TakeWhile

/-!
# Runs

The runs of a list are its longest parts whose items have one key. A list is empty, or it is a run
and a list that begins with another key (`runs_induction`), whose runs are the rest of the runs
(`runs_append`).
-/

namespace Geobench.Library

open List

variable {α κ : Type} [DecidableEq κ] (key : α → κ)

/-- The longest parts of a list whose items have one key. -/
def runs (items : List α) : List (List α) :=
  items.splitBy fun first second => key first = key second

/-- Items that all have one key, of which there are some. -/
structure IsRun (run : List α) (value : κ) : Prop where
  some : run ≠ []
  keys : ∀ item ∈ run, key item = value

/-- The first item does not have the key. -/
def BeginsElsewhere (value : κ) (items : List α) : Prop := ∀ item ∈ items.head?, key item ≠ value

variable {key}

@[simp] theorem runs_nil : runs key ([] : List α) = [] := rfl

variable (key) in
@[simp] theorem flatten_runs (items : List α) : (runs key items).flatten = items :=
  flatten_splitBy _ _

variable {run : List α}

theorem runs_of_isRun {value : κ} (isRun : IsRun key run value) : runs key run = [run] := by
  refine splitBy_of_isChain isRun.some (List.Pairwise.isChain ?_)
  refine pairwise_of_forall_mem_list fun first isFirst second isSecond => ?_
  rw [decide_eq_true_iff, isRun.keys first isFirst, isRun.keys second isSecond]

theorem runs_append_of_ne {first rest : List α}
    (differ : ∀ last ∈ first.getLast?, ∀ next ∈ rest.head?, key last ≠ key next) :
    runs key (first ++ rest) = runs key first ++ runs key rest := by
  refine splitBy_append fun last isLast next isNext => ?_
  rw [decide_eq_false_iff_not]
  exact differ last isLast next isNext

theorem runs_append {rest : List α} {value : κ} (isRun : IsRun key run value)
    (elsewhere : BeginsElsewhere key value rest) :
    runs key (run ++ rest) = run :: runs key rest := by
  rw [runs_append_of_ne fun last isLast next isNext => ?_, runs_of_isRun isRun, singleton_append]
  rw [isRun.keys last (mem_of_getLast? isLast)]
  exact (elsewhere next isNext).symm

variable (key) in
theorem runs_induction {motive : List α → Prop} (nil : motive [])
    (append : ∀ run rest value, IsRun key run value → BeginsElsewhere key value rest →
      motive rest → motive (run ++ rest)) (items : List α) : motive items := by
  induction length : items.length using Nat.strong_induction_on generalizing items with
  | _ length ih =>
    cases items with
    | nil => exact nil
    | cons first items =>
      have isWhole := takeWhile_append_dropWhile
        (p := fun item => decide (key item = key first)) (l := items)
      rw [← isWhole, ← cons_append]
      refine append _ _ (key first) ⟨cons_ne_nil _ _, ?_⟩ (fun item isItem => ?_) ?_
      · rw [forall_mem_cons]
        exact ⟨rfl, fun item isItem => by simpa using mem_takeWhile_imp isItem⟩
      · have stops := head?_dropWhile_not (fun item => decide (key item = key first)) items
        rw [isItem] at stops
        simpa using stops
      · refine ih _ ?_ _ rfl
        have shorter := (dropWhile_sublist
          (fun item => decide (key item = key first)) (l := items)).length_le
        rw [length_cons] at length
        omega

theorem isRun_of_mem_runs {items : List α} (isRun : run ∈ runs key items) :
    ∃ value, IsRun key run value := by
  induction items using runs_induction key with
  | nil => cases isRun
  | append first rest value isFirst elsewhere ih =>
    rw [runs_append isFirst elsewhere] at isRun
    rcases mem_cons.mp isRun with rfl | isRun
    · exact ⟨value, isFirst⟩
    · exact ih isRun

theorem isRun_of_mem_head? {items : List α} (isFirst : run ∈ (runs key items).head?) :
    ∃ first ∈ items.head?, IsRun key run (key first) := by
  induction items using runs_induction key with
  | nil => cases isFirst
  | append other rest value isRun elsewhere =>
    rw [runs_append isRun elsewhere] at isFirst
    obtain rfl := Option.some.inj isFirst
    obtain ⟨first, others, rfl⟩ := exists_cons_of_ne_nil isRun.some
    exact ⟨first, rfl, isRun.keys first mem_cons_self ▸ isRun⟩

end Geobench.Library
