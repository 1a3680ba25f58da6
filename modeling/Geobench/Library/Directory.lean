import Mathlib.Tactic.Common

/-!
# Directories

A directory has at most one file under each name. Writing a file replaces the one that was there,
and so does moving one to a new name.

A row of files that is moved from the names `old i` to other names `new i` is then under its new
names (`moveAll_new`) and nothing else has changed (`moveAll_of_ne`).
-/

namespace Geobench.Library

/-- The file under each name, if there is one. -/
abbrev Directory (κ φ : Type) : Type := κ → Option φ

namespace Directory

variable {κ φ : Type} [DecidableEq κ]

def write (directory : Directory κ φ) (name : κ) (file : φ) : Directory κ φ :=
  Function.update directory name (some file)

/-- Move a file, if it is there, over the one that has the new name. -/
def move (directory : Directory κ φ) (old new : κ) : Directory κ φ :=
  match directory old with
  | some file => write (Function.update directory old none) new file
  | none => directory

/-- Move the first files of a row, one after the other. -/
def moveAll (directory : Directory κ φ) (old new : ℕ → κ) (count : ℕ) : Directory κ φ :=
  (List.range count).foldl (fun moved index => move moved (old index) (new index)) directory

@[simp] theorem write_self (directory : Directory κ φ) (name : κ) (file : φ) :
    write directory name file name = some file := by
  simp [write]

variable {name : κ}

theorem write_of_ne (directory : Directory κ φ) {other : κ} (differs : other ≠ name) (file : φ) :
    write directory name file other = directory other := by
  simp [write, differs]

variable {directory : Directory κ φ} {old : κ}

theorem move_new (present : (directory old).isSome) (new : κ) :
    move directory old new new = directory old := by
  obtain ⟨file, isFile⟩ := Option.isSome_iff_exists.mp present
  simp [move, isFile]

theorem move_old {new : κ} (differs : old ≠ new) : move directory old new old = none := by
  cases isFile : directory old with
  | none => simp [move, isFile]
  | some file => simp [move, isFile, write, differs]

theorem move_of_ne (directory : Directory κ φ) {new : κ} (notOld : name ≠ old)
    (notNew : name ≠ new) :
    move directory old new name = directory name := by
  cases isFile : directory old with
  | none => simp [move, isFile]
  | some file => simp [move, isFile, write, notOld, notNew]

/-! ## Rows of files -/

theorem moveAll_succ (directory : Directory κ φ) (old new : ℕ → κ) (count : ℕ) :
    moveAll directory old new (count + 1) =
      move (moveAll directory old new count) (old count) (new count) := by
  simp [moveAll, List.range_succ]

variable {new : ℕ → κ} {count : ℕ}

/-- A name that is neither an old nor a new one keeps its file. -/
theorem moveAll_of_ne (directory : Directory κ φ) {old : ℕ → κ}
    (notOld : ∀ index < count, name ≠ old index) (notNew : ∀ index < count, name ≠ new index) :
    moveAll directory old new count name = directory name := by
  induction count with
  | zero => rfl
  | succ count ih =>
    rw [moveAll_succ, move_of_ne _ (notOld count count.lt_succ_self)
      (notNew count count.lt_succ_self)]
    exact ih (fun index inside => notOld index (Nat.lt_succ_of_lt inside))
      (fun index inside => notNew index (Nat.lt_succ_of_lt inside))

/-- The old names of the row are free. -/
theorem moveAll_old (directory : Directory κ φ) {old : ℕ → κ}
    (apart : ∀ index other, old index ≠ new other) {index : ℕ} (inside : index < count) :
    moveAll directory old new count (old index) = none := by
  induction count with
  | zero => exact absurd inside (Nat.not_lt_zero index)
  | succ count ih =>
    rw [moveAll_succ]
    by_cases isLast : old index = old count
    · rw [isLast, move_old (apart count count)]
    · rw [move_of_ne _ isLast (apart index count)]
      refine ih ((Nat.lt_succ_iff_lt_or_eq.mp inside).resolve_right ?_)
      rintro rfl
      exact isLast rfl

/-- Each file of the row is under its new name. -/
theorem moveAll_new {old : ℕ → κ} (oldInj : Function.Injective old)
    (newInj : ∀ index other, index < other → other < count → new index ≠ new other)
    (apart : ∀ index other, old index ≠ new other)
    (present : ∀ index < count, (directory (old index)).isSome) {index : ℕ}
    (inside : index < count) :
    moveAll directory old new count (new index) = directory (old index) := by
  induction count with
  | zero => exact absurd inside (Nat.not_lt_zero index)
  | succ count ih =>
    have kept : moveAll directory old new count (old count) = directory (old count) :=
      moveAll_of_ne directory (fun other before => oldInj.ne (Nat.ne_of_gt before))
        (fun other _ => apart count other)
    rw [moveAll_succ]
    rcases Nat.lt_succ_iff_lt_or_eq.mp inside with before | rfl
    · rw [move_of_ne _ (apart count index).symm (newInj index count before count.lt_succ_self)]
      exact ih (fun first second order within => newInj first second order
        (Nat.lt_succ_of_lt within)) (fun other within => present other (Nat.lt_succ_of_lt within))
        before
    · rw [move_new (by rw [kept]; exact present index index.lt_succ_self), kept]

end Directory

end Geobench.Library
