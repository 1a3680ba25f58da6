import Mathlib.Algebra.BigOperators.Group.List.Basic
import Mathlib.Algebra.Ring.Defs
import Mathlib.Order.WithBot

/-!
# Tensors of at most two dimensions

Products, masks and concatenations of scalars, vectors and matrices. An operation is `none` where
it raises for its shapes. An entry of `-inf` is `⊥`.

A matrix that comes from a list row by row is a `byRow`. The operations on rows keep this form, so
that a computation over matrices is read off as one over a single row.
-/

namespace Geobench.Library

open List

variable {R E α : Type}

inductive Tensor (E : Type) where
  | scalar (entry : E)
  | vector (entries : List E)
  | matrix (width : ℕ) (rows : List (List E))

namespace Tensor

/-! ## Products -/

/-- The inner product. -/
def dot [Semiring R] (left right : List R) : R := (List.zipWith (· * ·) left right).sum

/-- The matrix of rows of one width, without its second dimension where this is one:
`rows.squeeze(1)` -/
def squeeze (width : ℕ) (rows : List (List E)) : Tensor E :=
  if width = 1 then .vector rows.flatten else .matrix width rows

/-- `torch.matmul(left, right.T)` -/
def matmulT [Semiring R] : (left right : Tensor R) → Option (Tensor (WithBot R))
  | .matrix width rows, .matrix width' rows' =>
    if width = width' then
      some (.matrix rows'.length
        (rows.map fun row => rows'.map fun row' => ((dot row row' : R) : WithBot R)))
    else none
  | .vector entries, .matrix width rows =>
    if entries.length = width then some (.vector (rows.map fun row => ↑(dot entries row)))
    else none
  | .matrix width rows, .vector entries =>
    if width = entries.length then some (.vector (rows.map fun row => ↑(dot row entries)))
    else none
  | .vector entries, .vector entries' =>
    if entries.length = entries'.length then some (.scalar ↑(dot entries entries')) else none
  | _, _ => none

/-! ## Rows of a matrix -/

/-- `matrix[i, column(i)] = entry`, for every row `i` -/
def setEach (column : ℕ → ℕ) (entry : E) : Tensor E → Option (Tensor E)
  | .matrix width rows =>
    some (.matrix width (rows.mapIdx fun index row => row.set (column index) entry))
  | _ => none

/-- `matrix[i, column(i)]`, for every row `i` -/
def pick (column : ℕ → ℕ) : Tensor E → Option (List E)
  | .matrix _ rows => (rows.mapIdx fun index row => row[column index]?).mapM id
  | _ => none

/-- The entries of a row with `-inf` in place of those above the threshold. -/
def maskRow [LT E] [DecidableLT E] [Bot E] (threshold : E) (row : List E) : List E :=
  row.map fun entry => if threshold < entry then ⊥ else entry

/-- `matrix[matrix > thresholds] = float('-inf')` -/
def maskAbove [LT E] [DecidableLT E] [Bot E] (thresholds : List E) :
    Tensor E → Option (Tensor E)
  | .matrix width rows => some (.matrix width (List.zipWith maskRow thresholds rows))
  | _ => none

/-- `torch.cat(tensors, dim=1)` -/
def catColumns : List (Tensor E) → Option (List (List E))
  | [.matrix _ rows] => some rows
  | .matrix _ rows :: next :: rest => do
      some (List.zipWith (· ++ ·) rows (← catColumns (next :: rest)))
  | _ => none

/-! ## Matrices by row -/

def byRow (width : ℕ) (row : ℕ → α → List E) (elements : List α) : Tensor E :=
  .matrix width (elements.mapIdx row)

section ByRow

variable (width : ℕ) (row : ℕ → α → List E) (elements : List α)

variable {β : Type}

theorem zipWith_mapIdx {γ δ : Type} (combine : β → γ → δ) (first : ℕ → α → β) (second : ℕ → α → γ) :
    zipWith combine (elements.mapIdx first) (elements.mapIdx second) =
      elements.mapIdx fun index element => combine (first index element) (second index element) := by
  apply ext_getElem?
  intro index
  rw [getElem?_zipWith, getElem?_mapIdx, getElem?_mapIdx, getElem?_mapIdx]
  cases elements[index]? <;> rfl

theorem map_eq_mapIdx (f : α → β) :
    elements.map f = elements.mapIdx fun _ element => f element := by
  apply ext_getElem?
  intro index
  rw [getElem?_map, getElem?_mapIdx]

theorem matmulT_byRow [Semiring R] {left : α → List R} {right : β → List R} {others : List β} :
    matmulT (.matrix width (elements.map left)) (.matrix width (others.map right)) =
      some (byRow others.length
        (fun _ element => others.map fun other => ((dot (left element) (right other) : R) : WithBot R))
        elements) := by
  rw [matmulT, if_pos rfl, byRow, length_map, map_map, map_eq_mapIdx]
  simp only [map_map]
  rfl

theorem setEach_byRow (column : ℕ → ℕ) (entry : E) :
    (byRow width row elements).setEach column entry =
      some (byRow width (fun index element => (row index element).set (column index) entry)
        elements) := by
  rw [byRow, setEach, byRow, mapIdx_mapIdx]
  rfl

/-- The induction is on the elements. -/
theorem pick_byRow {column : ℕ → ℕ} {entry : ℕ → α → E}
    (isEntry : ∀ index element, elements[index]? = some element →
      (row index element)[column index]? = some (entry index element)) :
    (byRow width row elements).pick column = some (elements.mapIdx entry) := by
  rw [byRow, pick, mapIdx_mapIdx]
  induction elements generalizing column row entry with
  | nil => rfl
  | cons element rest ih =>
    have later := @ih (fun index => row (index + 1)) (fun index => column (index + 1))
      (fun index => entry (index + 1)) fun index other isOther =>
        isEntry (index + 1) other isOther
    rw [mapIdx_cons, mapM_cons, mapIdx_cons]
    rw [show id ((fun index => (fun row => row[column index]?) ∘ row index) 0 element) =
      some (entry 0 element) from isEntry 0 element rfl]
    exact congrArg (fun found : Option (List E) => found.bind fun entries =>
      some (entry 0 element :: entries)) later

theorem maskAbove_byRow [LT E] [DecidableLT E] [Bot E] (threshold : ℕ → α → E) :
    (byRow width row elements).maskAbove (elements.mapIdx threshold) =
      some (byRow width (fun index element =>
        maskRow (threshold index element) (row index element)) elements) := by
  rw [byRow, maskAbove, zipWith_mapIdx]
  rfl

/-- The columns of matrices by row. The induction is on the matrices after the first. -/
theorem catColumns_byRow (blocks : List (ℕ × (ℕ → α → List E))) :
    catColumns (byRow width row elements ::
        blocks.map fun block => byRow block.1 block.2 elements) =
      some (elements.mapIdx fun index element =>
        row index element ++ blocks.flatMap fun block => block.2 index element) := by
  induction blocks generalizing width row with
  | nil => simp [byRow, catColumns]
  | cons block rest ih =>
    rw [map_cons, byRow, catColumns, ih]
    exact congrArg some (zipWith_mapIdx elements (· ++ ·) row fun index element =>
      block.2 index element ++ rest.flatMap fun block => block.2 index element)

end ByRow

theorem catColumns_vector (entries : List E) (rest : List (Tensor E)) :
    catColumns (.vector entries :: rest) = none := by
  cases rest <;> rfl

/-- The product of a vector with a matrix is no matrix. -/
theorem matmulT_vector [Semiring R] {entries : List R} {width : ℕ} {rows : List (List R)}
    {product : Tensor (WithBot R)}
    (isProduct : matmulT (.vector entries) (.matrix width rows) = some product) :
    ∃ entries', product = .vector entries' := by
  rw [matmulT] at isProduct
  split at isProduct
  · exact ⟨_, (Option.some.inj isProduct).symm⟩
  · cases isProduct

end Tensor

end Geobench.Library
