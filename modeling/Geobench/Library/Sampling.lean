import Geobench.Library.Loop
import Mathlib.Data.List.Rotate
import Mathlib.Data.Rat.Defs
import Mathlib.Algebra.GroupWithZero.Nat

/-!
# Random choices

A source of random choices draws positions without replacement from its state (`Sampler`): as many
as are asked for, all different. Any source may be taken for a program that draws from it; one of
them is to start at a given position (`rotating`). Another kind of source shuffles whole lists and
chooses one position (`Rng`).

A program that draws threads the state of the source through a list (`mapAccumM`). What follows
from its value at each element follows along the list (`mapAccumM_of_ok`).
-/

namespace Geobench.Library

open List

/-! ## Sources -/

/-- A source of random choices without replacement. -/
structure Sampler (σ : Type) where
  draw : ℕ → ℕ → σ → List ℕ × σ
  length_draw : ∀ {population count : ℕ}, count ≤ population → ∀ state,
    (draw population count state).1.length = count
  nodup_draw : ∀ {population count : ℕ}, count ≤ population → ∀ state,
    (draw population count state).1.Nodup
  lt_of_mem_draw : ∀ {population count : ℕ}, count ≤ population → ∀ {state},
    ∀ place ∈ (draw population count state).1, place < population

/-- The source that takes the positions in order, from a given one on. -/
def rotating (shift : ℕ) : Sampler Unit where
  draw population count _ := (((List.range population).rotate shift).take count, ())
  length_draw le _ := by simp [le]
  nodup_draw _ _ := (nodup_rotate.mpr nodup_range).sublist (take_sublist _ _)
  lt_of_mem_draw _ _ place drawn := by
    simpa using mem_of_mem_take drawn

/-- The source draws the position it starts at. -/
theorem mem_draw_rotating {shift population count : ℕ} (inside : shift < population)
    (positive : 0 < count) : shift ∈ ((rotating shift).draw population count ()).1 := by
  have first : ((range population).rotate shift)[0]? = some shift := by
    rw [← head?_eq_getElem?, head?_rotate (by simpa using inside)]
    simp [inside]
  have taken : (((range population).rotate shift).take count)[0]? = some shift := by
    rw [getElem?_take_of_lt positive, first]
  exact mem_of_getElem? taken

/-- A source that shuffles lists and chooses positions, one of a count or one of a list of
weights. -/
structure Rng (σ : Type) where
  shuffle : {α : Type} → List α → σ → List α × σ
  shuffle_perm : ∀ {α : Type} (items : List α) state, (shuffle items state).1.Perm items
  choice : ℕ → σ → ℕ × σ
  choice_lt : ∀ {count : ℕ}, 0 < count → ∀ state, (choice count state).1 < count
  choices : List ℚ → σ → ℕ × σ
  choices_lt : ∀ {weights : List ℚ}, weights ≠ [] → ∀ state,
    (choices weights state).1 < weights.length

/-- The source that shuffles nothing and chooses the first position. -/
def firstRng : Rng Unit where
  shuffle items state := (items, state)
  shuffle_perm items _ := List.Perm.refl items
  choice _ state := (0, state)
  choice_lt positive _ := positive
  choices _ state := (0, state)
  choices_lt nonempty _ := length_pos_iff.mpr nonempty

/-! ## State threaded through a list -/

variable {ε σ α β γ : Type}

/-- Run a step at each element, one after the other. -/
def mapAccumM (step : α → σ → Except ε (β × σ)) : List α → σ → Except ε (List β × σ)
  | [], state => .ok ([], state)
  | item :: rest, state =>
    (step item state).bind fun found =>
      (mapAccumM step rest found.2).bind fun later => .ok (found.1 :: later.1, later.2)

variable {step : α → σ → Except ε (β × σ)} {state : σ} {result : List β × σ}

theorem mapAccumM_cons_eq_ok {item : α} {rest : List α} :
    mapAccumM step (item :: rest) state = .ok result ↔
      ∃ found later, step item state = .ok found ∧ mapAccumM step rest found.2 = .ok later ∧
        result = (found.1 :: later.1, later.2) := by
  rw [mapAccumM, bind_eq_ok]
  constructor
  · rintro ⟨found, atItem, atRest⟩
    obtain ⟨later, atRest, same⟩ := bind_eq_ok.mp atRest
    exact ⟨found, later, atItem, atRest, (Except.ok.inj same).symm⟩
  · rintro ⟨found, later, atItem, atRest, rfl⟩
    exact ⟨found, atItem, bind_eq_ok.mpr ⟨later, atRest, rfl⟩⟩

variable {items : List α}

/-- A run gives a value when each element gives one in any state. -/
theorem mapAccumM_succeeds
    (succeeds : ∀ item ∈ items, ∀ state, ∃ found, step item state = .ok found) (state : σ) :
    ∃ result, mapAccumM step items state = .ok result := by
  induction items generalizing state with
  | nil => exact ⟨_, rfl⟩
  | cons item rest ih =>
    obtain ⟨found, atItem⟩ := succeeds item mem_cons_self state
    obtain ⟨later, atRest⟩ :=
      ih (fun item isItem => succeeds item (mem_cons_of_mem _ isItem)) found.2
    exact ⟨_, mapAccumM_cons_eq_ok.mpr ⟨found, later, atItem, atRest, rfl⟩⟩

/-- What each element gives in any state, a run gives along the list. -/
theorem forall₂_of_mapAccumM {Related : α → β → Prop}
    (each : ∀ item ∈ items, ∀ state, ∃ found, step item state = .ok found ∧ Related item found.1)
    (state : σ) :
    ∃ result, mapAccumM step items state = .ok result ∧ List.Forall₂ Related items result.1 := by
  induction items generalizing state with
  | nil => exact ⟨_, rfl, .nil⟩
  | cons item rest ih =>
    obtain ⟨found, atItem, related⟩ := each item mem_cons_self state
    obtain ⟨later, atRest, relatedRest⟩ :=
      ih (fun item isItem => each item (mem_cons_of_mem _ isItem)) found.2
    exact ⟨_, mapAccumM_cons_eq_ok.mpr ⟨found, later, atItem, atRest, rfl⟩,
      .cons related relatedRest⟩

/-- A run that gives a value has one from each element. -/
theorem exists_value_of_mapAccumM (ran : mapAccumM step items state = .ok result) {item : α}
    (isItem : item ∈ items) : ∃ state found, step item state = .ok found ∧ found.1 ∈ result.1 := by
  induction items generalizing state result with
  | nil => cases isItem
  | cons first rest ih =>
    obtain ⟨found, later, atFirst, atRest, rfl⟩ := mapAccumM_cons_eq_ok.mp ran
    rcases mem_cons.mp isItem with rfl | inRest
    · exact ⟨state, found, atFirst, mem_cons_self⟩
    · obtain ⟨between, value, atItem, isValue⟩ := ih atRest inRest
      exact ⟨between, value, atItem, mem_cons_of_mem _ isValue⟩

theorem exists_item_of_mapAccumM (ran : mapAccumM step items state = .ok result) {value : β}
    (isValue : value ∈ result.1) :
    ∃ item ∈ items, ∃ state found, step item state = .ok found ∧ found.1 = value := by
  induction items generalizing state result with
  | nil =>
    obtain rfl := Except.ok.inj ran
    cases isValue
  | cons first rest ih =>
    obtain ⟨found, later, atFirst, atRest, rfl⟩ := mapAccumM_cons_eq_ok.mp ran
    rcases mem_cons.mp isValue with rfl | inRest
    · exact ⟨first, mem_cons_self, state, found, atFirst, rfl⟩
    · obtain ⟨item, isItem, rest⟩ := ih atRest inRest
      exact ⟨item, mem_cons_of_mem _ isItem, rest⟩

/-- What each value tells about its element, the values tell about the list. -/
theorem map_eq_of_mapAccumM {origin : β → α}
    (tells : ∀ item ∈ items, ∀ state found, step item state = .ok found → origin found.1 = item)
    (ran : mapAccumM step items state = .ok result) : result.1.map origin = items := by
  induction items generalizing state result with
  | nil =>
    obtain rfl := Except.ok.inj ran
    rfl
  | cons item rest ih =>
    obtain ⟨found, later, atItem, atRest, rfl⟩ := mapAccumM_cons_eq_ok.mp ran
    rw [map_cons, tells item mem_cons_self state found atItem,
      ih (fun item isItem => tells item (mem_cons_of_mem _ isItem)) atRest]

/-- What follows at each element from a value follows along the list. -/
theorem mapAccumM_of_ok {Related : γ → β → Prop} {α' : Type} (source : α' → α)
    {step' : α' → σ → Except ε (γ × σ)} {items : List α'}
    (follows : ∀ item ∈ items, ∀ state found, step (source item) state = .ok found →
      ∃ other, step' item state = .ok (other, found.2) ∧ Related other found.1)
    (ran : mapAccumM step (items.map source) state = .ok result) :
    ∃ others, mapAccumM step' items state = .ok (others, result.2) ∧
      List.Forall₂ Related others result.1 := by
  induction items generalizing state result with
  | nil =>
    obtain rfl := Except.ok.inj ran
    exact ⟨[], rfl, .nil⟩
  | cons item rest ih =>
    obtain ⟨found, later, atItem, atRest, rfl⟩ := mapAccumM_cons_eq_ok.mp ran
    obtain ⟨other, atItem', related⟩ := follows item mem_cons_self state found atItem
    obtain ⟨others, atRest', relatedRest⟩ :=
      ih (fun item isItem => follows item (mem_cons_of_mem _ isItem)) atRest
    exact ⟨other :: others, mapAccumM_cons_eq_ok.mpr ⟨_, _, atItem', atRest', rfl⟩,
      .cons related relatedRest⟩

end Geobench.Library
