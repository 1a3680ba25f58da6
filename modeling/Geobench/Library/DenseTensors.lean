import Mathlib.Algebra.BigOperators.Group.List.Basic
import Mathlib.Data.List.GetD
import Mathlib.Tactic.Ring

/-!
# Tensors of any number of dimensions

The entries of a tensor lie behind each other in row-major order, so that `reshape` only changes
the shape, while `permute` moves the entries. A tensor is read at an index of a coordinate for each
dimension (`Dense.get`), and two tensors are the same when they agree at every index inside their
shape (`Dense.same_of_get`).
-/

namespace Geobench.Library

open List

/-- The entries with numbers below the product of the shape are those of the tensor. -/
structure Dense (α : Type) where
  shape : List ℕ
  entry : ℕ → α

/-! ## Places of entries -/

/-- The place of the entry at an index, in row-major order. -/
def ravel : List ℕ → List ℕ → ℕ
  | _ :: shape, coordinate :: index => coordinate * shape.prod + ravel shape index
  | _, _ => 0

/-- The index of the entry at a place. -/
def unravel : List ℕ → ℕ → List ℕ
  | [], _ => []
  | _ :: shape, place => place / shape.prod :: unravel shape (place % shape.prod)

/-- Every coordinate is below the size of its dimension. -/
abbrev InShape (shape index : List ℕ) : Prop := List.Forall₂ (· < ·) index shape

variable {shape index : List ℕ}

theorem ravel_lt (inside : InShape shape index) : ravel shape index < shape.prod := by
  induction inside with
  | nil => exact Nat.one_pos
  | @cons coordinate size index shape below _ ih =>
    rw [ravel, prod_cons]
    calc coordinate * shape.prod + ravel shape index
        < (coordinate + 1) * shape.prod := by
          rw [Nat.add_one_mul]
          exact Nat.add_lt_add_left ih _
      _ ≤ size * shape.prod := Nat.mul_le_mul_right _ below

theorem unravel_ravel (inside : InShape shape index) : unravel shape (ravel shape index) = index := by
  induction inside with
  | nil => rfl
  | @cons coordinate size index shape _ rest ih =>
    have below := ravel_lt rest
    have positive : 0 < shape.prod := Nat.zero_lt_of_lt below
    rw [ravel, unravel, Nat.mul_comm, Nat.mul_add_div positive, Nat.div_eq_of_lt below,
      Nat.add_zero, Nat.mul_add_mod, Nat.mod_eq_of_lt below, ih]

/-- Every place is that of an index. -/
theorem unravel_spec {place : ℕ} (inside : place < shape.prod) :
    InShape shape (unravel shape place) ∧ ravel shape (unravel shape place) = place := by
  induction shape generalizing place with
  | nil => exact ⟨.nil, (Nat.lt_one_iff.mp inside).symm⟩
  | cons size shape ih =>
    rw [prod_cons] at inside
    have positive : 0 < shape.prod := Nat.pos_of_ne_zero fun zero => by
      rw [zero, Nat.mul_zero] at inside
      exact Nat.not_lt_zero _ inside
    obtain ⟨within, same⟩ := ih (Nat.mod_lt place positive)
    refine ⟨.cons (Nat.div_lt_of_lt_mul (Nat.mul_comm size _ ▸ inside)) within, ?_⟩
    rw [unravel, ravel, same, Nat.div_add_mod']

theorem prod_merge (before after : List ℕ) (size next : ℕ) :
    (before ++ size :: next :: after).prod = (before ++ size * next :: after).prod := by
  simp only [prod_append, prod_cons]
  ring

/-- Two neighbouring dimensions are one in row-major order. -/
theorem ravel_merge {before first : List ℕ} (same : before.length = first.length)
    (after last : List ℕ) (size next coordinate within : ℕ) :
    ravel (before ++ size :: next :: after) (first ++ coordinate :: within :: last) =
      ravel (before ++ size * next :: after) (first ++ (coordinate * next + within) :: last) := by
  induction before generalizing first with
  | nil =>
    obtain rfl := length_eq_zero_iff.mp same.symm
    simp only [nil_append, ravel, prod_cons]
    ring
  | cons dimension before ih =>
    cases first with
    | nil => exact absurd same (Nat.succ_ne_zero _)
    | cons start first =>
      rw [cons_append, cons_append, cons_append, cons_append, ravel, ravel,
        prod_merge, ih (Nat.succ.inj same)]

/-! ## Operations -/

namespace Dense

variable {α : Type}

def get (tensor : Dense α) (index : List ℕ) : α := tensor.entry (ravel tensor.shape index)

/-- The same entries in another shape. -/
def withShape (shape : List ℕ) (tensor : Dense α) : Dense α := ⟨shape, tensor.entry⟩

/-- `tensor.reshape(shape)`, which raises for another number of entries -/
def reshape (shape : List ℕ) (tensor : Dense α) : Option (Dense α) :=
  if shape.prod = tensor.shape.prod then some (tensor.withShape shape) else none

/-- The index in a tensor of the entry that has an index after its dimensions are permuted. -/
def indexBefore (order index : List ℕ) : List ℕ :=
  (List.range order.length).map fun dimension => index.getD (order.idxOf dimension) 0

/-- `tensor.permute(order).contiguous()` -/
def permute (order : List ℕ) (tensor : Dense α) : Dense α :=
  let shape := order.map fun dimension => tensor.shape.getD dimension 0
  { shape := shape
    entry := fun place => tensor.get (indexBefore order (unravel shape place)) }

/-- Tensors of one shape with the same entries. -/
def Same (tensor other : Dense α) : Prop :=
  tensor.shape = other.shape ∧
    ∀ place < tensor.shape.prod, tensor.entry place = other.entry place

theorem get_permute (order : List ℕ) (tensor : Dense α)
    (inside : InShape (order.map fun dimension => tensor.shape.getD dimension 0) index) :
    (permute order tensor).get index = tensor.get (indexBefore order index) := by
  rw [get, permute]
  dsimp only
  rw [unravel_ravel inside]

theorem same_of_get {tensor other : Dense α} (shapes : tensor.shape = other.shape)
    (agree : ∀ index, InShape tensor.shape index → tensor.get index = other.get index) :
    tensor.Same other := by
  refine ⟨shapes, fun place inside => ?_⟩
  obtain ⟨within, same⟩ := unravel_spec inside
  have entries := agree _ within
  rwa [get, get, ← shapes, same] at entries

theorem get_split {tensor : Dense α} {before first : List ℕ} (same : before.length = first.length)
    {after last : List ℕ} {size next : ℕ} (shape_eq : tensor.shape = before ++ size * next :: after)
    (coordinate within : ℕ) :
    (tensor.withShape (before ++ size :: next :: after)).get
        (first ++ coordinate :: within :: last) =
      tensor.get (first ++ (coordinate * next + within) :: last) := by
  rw [get, get, shape_eq, withShape, ravel_merge same]

/-! ## Exchanges -/

/-- `dist.all_to_all_single`: every process sends an equal part of its entries to each process, and
puts the parts it gets behind each other. -/
def allToAllSingle (tensors : List (Dense α)) : List (Dense α) :=
  tensors.mapIdx fun rank own =>
    let size := own.shape.prod / tensors.length
    { own with
      entry := fun place => (tensors.getD (place / size) own).entry (rank * size + place % size) }

theorem length_allToAllSingle (tensors : List (Dense α)) :
    (allToAllSingle tensors).length = tensors.length :=
  length_mapIdx

/-- Tensors with a first dimension of the processes swap it with their process. -/
theorem get_allToAllSingle {tensors : List (Dense α)} {rank peer : ℕ}
    (isRank : rank < (allToAllSingle tensors).length) (isPeer : peer < tensors.length)
    (shapes : ∀ tensor ∈ tensors, tensor.shape = tensors.length :: shape)
    (inside : InShape shape index) :
    (allToAllSingle tensors)[rank].get (peer :: index) = tensors[peer].get (rank :: index) := by
  have isOwn : rank < tensors.length := by rwa [length_allToAllSingle] at isRank
  have below := ravel_lt inside
  have positive : 0 < shape.prod := Nat.zero_lt_of_lt below
  have size : tensors[rank].shape.prod / tensors.length = shape.prod := by
    rw [shapes _ (getElem_mem isOwn), prod_cons,
      Nat.mul_div_cancel_left _ (Nat.zero_lt_of_lt isOwn)]
  have part : (peer * shape.prod + ravel shape index) / shape.prod = peer := by
    rw [Nat.mul_comm, Nat.mul_add_div positive, Nat.div_eq_of_lt below, Nat.add_zero]
  have within : (peer * shape.prod + ravel shape index) % shape.prod = ravel shape index := by
    rw [Nat.mul_comm, Nat.mul_add_mod, Nat.mod_eq_of_lt below]
  simp only [allToAllSingle, getElem_mapIdx, get, size]
  rw [shapes _ (getElem_mem isOwn), shapes _ (getElem_mem isPeer), ravel, ravel, part, within,
    getD_eq_getElem _ _ isPeer]

end Dense

end Geobench.Library
