import Mathlib.Data.Nat.Init
import Mathlib.Tactic.Common

/-!
# Loops with a body that stops, goes on or fails

A loop body takes the number of the pass and a state, and gives the next state,
a final result or an error. A run of the loop is the chain of states it passes
through (`Reaches`), and it yields a result when one of these states makes the
body stop (`Yields`).

A property of the states that the body preserves holds in every state a run passes
through (`Reaches.invariant`). The executable reading of a loop spends one unit of fuel
for each pass (`execute`); a loop yields a result exactly when some fuel is enough for
it (`execute_eq_some_iff`).
-/

namespace Geobench.Library

universe u v w

variable {ε : Type u} {σ : Type v} {β : Type w}

/-- The body of a loop: at a pass and a state it goes on with a new state, stops
with a result, or fails. -/
abbrev LoopBody (ε : Type u) (σ : Type v) (β : Type w) : Type (max u v w) :=
  ℕ → σ → Except ε (σ ⊕ β)

/-- A bind gives a value when its first part does and the rest does from there. -/
theorem bind_eq_ok {α : Type v} {first : Except ε α} {rest : α → Except ε β} {result : β} :
    first.bind rest = .ok result ↔ ∃ value, first = .ok value ∧ rest value = .ok result := by
  cases first with
  | error failure => simp [Except.bind]
  | ok value => simp [Except.bind]

/-- The rest of a computation goes on from the value that its first part gives. -/
theorem ok_bind {α β : Type v} (value : α) (rest : α → Except ε β) :
    (Except.ok value >>= rest) = rest value :=
  rfl

theorem map_eq_ok {α γ : Type*} {result : Except ε α} {f : α → γ} {value : γ} :
    result.map f = .ok value ↔ ∃ inner, result = .ok inner ∧ f inner = value := by
  cases result with
  | error failure => simp [Except.map]
  | ok inner => simp [Except.map]

namespace LoopBody

/-- The states a loop passes through from a first pass and state. -/
inductive Reaches (body : LoopBody ε σ β) (first : ℕ) (start : σ) : ℕ → σ → Prop where
  | refl : Reaches body first start first start
  | next {pass : ℕ} {state state' : σ} :
      Reaches body first start pass state → body pass state = .ok (.inl state') →
        Reaches body first start (pass + 1) state'

/-- The loop stops with a result at a state it passes through. -/
def Yields (body : LoopBody ε σ β) (first : ℕ) (start : σ) (result : β) : Prop :=
  ∃ pass state, Reaches body first start pass state ∧ body pass state = .ok (.inr result)

/-- Run the loop for at most `fuel` passes. `none` is a loop still running. -/
def execute (body : LoopBody ε σ β) : ℕ → ℕ → σ → Except ε (Option β)
  | 0, _, _ => .ok none
  | fuel + 1, pass, state =>
    match body pass state with
    | .error failure => .error failure
    | .ok (.inl state') => execute body fuel (pass + 1) state'
    | .ok (.inr result) => .ok (some result)

variable {body : LoopBody ε σ β} {first : ℕ} {start : σ}

/-! ## Runs -/

variable {pass : ℕ} {state : σ}

theorem Reaches.first_le (reached : Reaches body first start pass state) : first ≤ pass := by
  induction reached with
  | refl => exact Nat.le_refl _
  | next _ _ ih => exact Nat.le_succ_of_le ih

theorem Reaches.trans {later : ℕ} {final : σ} (reached : Reaches body first start pass state)
    (further : Reaches body pass state later final) : Reaches body first start later final := by
  induction further with
  | refl => exact reached
  | next _ step ih => exact .next ih step

/-- A run that begins with a step is the step and the run from its target. -/
theorem Reaches.of_step {state' : σ} (step : body first start = .ok (.inl state'))
    (reached : Reaches body (first + 1) state' pass state) : Reaches body first start pass state :=
  (Reaches.next .refl step).trans reached

/-- A run is empty, or it begins with a step. -/
theorem Reaches.cases_step (reached : Reaches body first start pass state) :
    (pass = first ∧ state = start) ∨
      ∃ state', body first start = .ok (.inl state') ∧
        Reaches body (first + 1) state' pass state := by
  induction reached with
  | refl => exact .inl ⟨rfl, rfl⟩
  | next _ step ih =>
    rcases ih with ⟨rfl, rfl⟩ | ⟨state', firstStep, rest⟩
    · exact .inr ⟨_, step, .refl⟩
    · exact .inr ⟨state', firstStep, .next rest step⟩

/-- What holds at the start and is preserved by the body holds along the run. -/
theorem Reaches.invariant (Inv : ℕ → σ → Prop) (reached : Reaches body first start pass state)
    (initial : Inv first start)
    (preserved : ∀ pass state state', first ≤ pass → Inv pass state →
      body pass state = .ok (.inl state') → Inv (pass + 1) state') : Inv pass state := by
  induction reached with
  | refl => exact initial
  | next reached step ih => exact preserved _ _ _ reached.first_le ih step

theorem Reaches.unique {other : σ} (reached : Reaches body first start pass state)
    (reachedOther : Reaches body first start pass other) : state = other := by
  induction reached generalizing other with
  | refl =>
    cases reachedOther with
    | refl => rfl
    | next earlier _ => exact absurd earlier.first_le (by omega)
  | next earlier step ih =>
    cases reachedOther with
    | refl => exact absurd earlier.first_le (by omega)
    | next earlierOther stepOther =>
      have same := ih earlierOther
      subst same
      simpa using step.symm.trans stepOther

variable {result : β}

theorem Reaches.le_of_stop {later : ℕ} {final : σ} (reached : Reaches body first start pass state)
    (stops : body pass state = .ok (.inr result)) (further : Reaches body first start later final) :
    later ≤ pass := by
  induction further with
  | refl => exact reached.first_le
  | @next middle stateMiddle _ earlier step ih =>
    rcases Nat.lt_or_ge middle pass with before | after
    · exact before
    · have same : middle = pass := Nat.le_antisymm ih after
      subst same
      have := reached.unique earlier
      subst this
      rw [stops] at step
      cases step

theorem Yields.unique {other : β} (yields : Yields body first start result)
    (yieldsOther : Yields body first start other) : result = other := by
  obtain ⟨pass, state, reached, stops⟩ := yields
  obtain ⟨pass', state', reached', stops'⟩ := yieldsOther
  have same : pass = pass' :=
    Nat.le_antisymm (reached'.le_of_stop stops' reached) (reached.le_of_stop stops reached')
  subst same
  have := reached.unique reached'
  subst this
  simpa using stops.symm.trans stops'

theorem yields_of_step {state' : σ} (step : body first start = .ok (.inl state')) :
    Yields body first start result ↔ Yields body (first + 1) state' result := by
  constructor
  · rintro ⟨pass, state, reached, stops⟩
    rcases reached.cases_step with ⟨rfl, rfl⟩ | ⟨other, firstStep, rest⟩
    · rw [step] at stops
      cases stops
    · rw [step] at firstStep
      cases firstStep
      exact ⟨pass, state, rest, stops⟩
  · rintro ⟨pass, state, reached, stops⟩
    exact ⟨pass, state, .of_step step reached, stops⟩

/-- A loop whose passes make a measure smaller yields a result. -/
theorem exists_yields_of_measure (Inv : σ → Prop) (measure : σ → ℕ)
    (progress : ∀ pass state, Inv state →
      (∃ result, body pass state = .ok (.inr result)) ∨
        ∃ state', body pass state = .ok (.inl state') ∧ Inv state' ∧
          measure state' < measure state)
    (initial : Inv start) : ∃ result, Yields body first start result := by
  induction size : measure start using Nat.strong_induction_on generalizing first start with
  | _ size ih =>
    rcases progress first start initial with ⟨result, stops⟩ | ⟨state', step, inv, smaller⟩
    · exact ⟨result, first, start, .refl, stops⟩
    · obtain ⟨result, yields⟩ := ih (measure state') (size ▸ smaller) inv rfl
      exact ⟨result, (yields_of_step step).mpr yields⟩

/-! ## Execution -/

theorem execute_eq_some_iff :
    (∃ fuel, execute body fuel first start = .ok (some result)) ↔
      Yields body first start result := by
  constructor
  · rintro ⟨fuel, ran⟩
    induction fuel generalizing first start with
    | zero => simp [execute] at ran
    | succ fuel ih =>
      cases step : body first start with
      | error failure => simp [execute, step] at ran
      | ok outcome =>
        cases outcome with
        | inl state' =>
          simp only [execute, step] at ran
          exact (yields_of_step step).mpr (ih ran)
        | inr final =>
          simp only [execute, step, Except.ok.injEq, Option.some.injEq] at ran
          exact ⟨first, start, .refl, ran ▸ step⟩
  · rintro ⟨pass, state, reached, stops⟩
    obtain ⟨passes, count⟩ : ∃ passes, pass = first + passes :=
      ⟨pass - first, by have := reached.first_le; omega⟩
    refine ⟨passes + 1, ?_⟩
    induction passes generalizing first start with
    | zero =>
      subst count
      have same := reached.unique .refl
      subst same
      simp [execute, stops]
    | succ passes ih =>
      rcases reached.cases_step with ⟨same, -⟩ | ⟨state', step, rest⟩
      · omega
      · have run := ih rest (by omega)
        rw [execute, step]
        exact run

end LoopBody

end Geobench.Library
