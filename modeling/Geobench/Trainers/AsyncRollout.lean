import Mathlib.Data.List.Infix
import Mathlib.Data.List.TakeDrop
import Mathlib.Logic.Relation

/-!
# Generating one step ahead

With `async_generate` the trainer submits the batch of a step to an executor with one worker and
goes on with what is first on its queue, where it has put the results of a first batch before. A
result is put there when its inference ends, and an inference that raises puts nothing. Before the
weights are moved to the engine, the trainer waits until the queue has a result.

**`asyncRollout_spec`**: in every interleaving the steps get the results in the order of their
batches, and no inference runs while the weights are moved. The trainer gets through all steps
exactly when none of them finds an inference that has raised and moves the weights, or a second one.
-/

namespace Geobench.Trainers

open List

/-- A run of the trainer: whether each step moves the weights, what the inference of each step
returns unless it raises, and the results of `_prefetch`. -/
structure AsyncTrainer (Result : Type) where
  moves : List Bool
  infer : ℕ → Option Result
  prefetched : Result

/-- The steps whose batches were submitted, the inferences that have ended, whether the trainer
waits for `_queue.get()`, the queue, and what the steps got. -/
structure AsyncRollout (Result : Type) where
  submitted : ℕ
  finished : ℕ
  waiting : Bool
  queue : List Result
  used : List Result

namespace AsyncTrainer

variable {Result : Type} (trainer : AsyncTrainer Result)

def start : AsyncRollout Result := ⟨0, 0, false, [trainer.prefetched], []⟩

/-- A step of the trainer in `_fast_infer`, or of the worker in `async_generate_rollout`. -/
inductive Step : AsyncRollout Result → AsyncRollout Result → Prop
  | submit {state : AsyncRollout Result} {move : Bool} (ready : state.waiting = false)
      (isNext : trainer.moves[state.submitted]? = some move)
      (waitQueue : move = true → state.queue ≠ []) :
      Step state { state with submitted := state.submitted + 1, waiting := true }
  | done {state : AsyncRollout Result} (running : state.finished < state.submitted) :
      Step state { state with
        finished := state.finished + 1
        queue := state.queue ++ (trainer.infer state.finished).toList }
  | get {state : AsyncRollout Result} {result : Result} {rest : List Result}
      (waits : state.waiting = true) (isQueue : state.queue = result :: rest) :
      Step state { state with waiting := false, queue := rest, used := state.used ++ [result] }

/-- The results of the first inferences. -/
def results (count : ℕ) : List Result := (List.range count).filterMap trainer.infer

/-- How many of the first inferences raise. -/
def raised (count : ℕ) : ℕ := (List.range count).countP fun number => (trainer.infer number).isNone

/-- A step finds no inference that has raised if it moves the weights, and never two of them. -/
def Passes (number : ℕ) : Prop :=
  (trainer.moves[number]? = some true → trainer.raised number = 0) ∧ trainer.raised (number + 1) ≤ 1

/-- Nothing can happen any more. -/
def Terminal (state : AsyncRollout Result) : Prop := ∀ next, ¬ trainer.Step state next

theorem results_succ (count : ℕ) :
    trainer.results (count + 1) = trainer.results count ++ (trainer.infer count).toList := by
  rw [results, range_succ, filterMap_append, results]
  cases isResult : trainer.infer count <;> simp [isResult]

theorem length_results (count : ℕ) : (trainer.results count).length + trainer.raised count = count := by
  induction count with
  | zero => rfl
  | succ count ih =>
    rw [results_succ, length_append, raised, range_succ, countP_append, ← raised]
    cases isResult : trainer.infer count <;> simp [isResult] <;> omega

theorem results_prefix {count total : ℕ} (few : count ≤ total) :
    trainer.results count <+: trainer.results total := by
  obtain ⟨more, rfl⟩ := Nat.exists_eq_add_of_le few
  rw [results, results, range_add, filterMap_append]
  exact List.prefix_append _ _

theorem raised_le {count total : ℕ} (few : count ≤ total) :
    trainer.raised total ≤ trainer.raised count + (total - count) := by
  have prefixes := (trainer.results_prefix few).length_le
  have first := trainer.length_results count
  have all := trainer.length_results total
  omega

/-- What holds in every run: the results are used in their order, and the steps so far passed. -/
structure Inv (state : AsyncRollout Result) : Prop where
  inOrder : state.used ++ state.queue = trainer.prefetched :: trainer.results state.finished
  finished : state.finished ≤ state.submitted
  submitted : state.submitted ≤ trainer.moves.length
  used : state.used.length + state.waiting.toNat = state.submitted
  passed : ∀ number < state.used.length, trainer.Passes number
  moved : ∀ number < state.submitted,
    trainer.moves[number]? = some true → trainer.raised number = 0

variable {trainer} {state next : AsyncRollout Result}

theorem Inv.length (inv : trainer.Inv state) :
    state.used.length + state.queue.length + trainer.raised state.finished = state.finished + 1 := by
  have lengths := congrArg List.length inv.inOrder
  have count := trainer.length_results state.finished
  rw [length_append, length_cons] at lengths
  omega

/-- **When the trainer finds a result before it submits, no inference runs.** -/
theorem Inv.idle (inv : trainer.Inv state) (ready : state.waiting = false)
    (found : state.queue ≠ []) :
    state.finished = state.submitted ∧ trainer.raised state.submitted = 0 := by
  have lengths := inv.length
  have some := length_pos_iff.mpr found
  have finished := inv.finished
  have used := inv.used
  rw [ready, Bool.toNat_false] at used
  have same : state.finished = state.submitted := by omega
  exact ⟨same, by rw [← same]; omega⟩

theorem Inv.step (inv : trainer.Inv state) (step : trainer.Step state next) : trainer.Inv next := by
  cases step with
  | @submit move ready isNext waitQueue =>
    obtain ⟨inside, -⟩ := List.getElem?_eq_some_iff.mp isNext
    have used := inv.used
    rw [ready, Bool.toNat_false] at used
    refine ⟨inv.inOrder, inv.finished.trans (Nat.le_succ _), inside, ?_, inv.passed, ?_⟩
    · rw [Bool.toNat_true, ← used, Nat.add_zero]
    · intro number before isMove
      rcases Nat.lt_succ_iff_lt_or_eq.mp before with earlier | rfl
      · exact inv.moved number earlier isMove
      · exact (inv.idle ready (waitQueue (Option.some.inj (isNext.symm.trans isMove)))).2
  | done running =>
    refine ⟨?_, running, inv.submitted, inv.used, inv.passed, inv.moved⟩
    rw [results_succ, ← append_assoc, inv.inOrder, cons_append]
  | @get result rest waits isQueue =>
    have used := inv.used
    have lengths := inv.length
    have finished := inv.finished
    rw [waits, Bool.toNat_true] at used
    rw [isQueue, length_cons] at lengths
    refine ⟨?_, inv.finished, inv.submitted, ?_, ?_, inv.moved⟩
    · rw [append_assoc, singleton_append, ← isQueue, inv.inOrder]
    · rw [length_append, length_singleton, Bool.toNat_false, Nat.add_zero, used]
    · intro number before
      rw [length_append, length_singleton] at before
      rcases Nat.lt_succ_iff_lt_or_eq.mp before with earlier | rfl
      · exact inv.passed number earlier
      · refine ⟨inv.moved _ (by omega), ?_⟩
        have few := trainer.raised_le finished
        rw [used]
        omega

theorem Inv.run (run : Relation.ReflTransGen trainer.Step trainer.start state) :
    trainer.Inv state := by
  induction run with
  | refl => exact ⟨rfl, le_rfl, Nat.zero_le _, rfl, nofun, nofun⟩
  | tail _ step ih => exact ih.step step

/-- Where nothing can happen any more, all steps are through when they pass. -/
theorem Inv.length_used_iff (inv : trainer.Inv state) (terminal : trainer.Terminal state) :
    state.used.length = trainer.moves.length ↔ ∀ number < trainer.moves.length, trainer.Passes number := by
  refine ⟨fun all => all ▸ inv.passed, fun passes => ?_⟩
  have finished : state.finished = state.submitted :=
    inv.finished.antisymm (not_lt.mp fun running => terminal _ (.done running))
  have lengths := inv.length
  have used := inv.used
  rw [finished] at lengths
  cases isWaiting : state.waiting with
  | true =>
    rw [isWaiting, Bool.toNat_true] at used
    have second := (passes state.used.length (by have := inv.submitted; omega)).2
    rw [used] at second
    have found : state.queue ≠ [] := length_pos_iff.mp (by omega)
    obtain ⟨result, rest, isQueue⟩ := exists_cons_of_ne_nil found
    exact absurd (.get isWaiting isQueue) (terminal _)
  | false =>
    rw [isWaiting, Bool.toNat_false, Nat.add_zero] at used
    by_contra more
    have inside : state.submitted < trainer.moves.length := by have := inv.submitted; omega
    refine terminal _ (.submit isWaiting (getElem?_eq_getElem inside) fun isMove => ?_)
    have none := (passes _ inside).1 (isMove ▸ getElem?_eq_getElem inside)
    exact length_pos_iff.mp (by omega)

/-- How many steps are left at most. -/
def work (trainer : AsyncTrainer Result) (state : AsyncRollout Result) : ℕ :=
  3 * (trainer.moves.length - state.submitted) + (state.submitted - state.finished) +
    state.waiting.toNat

theorem Inv.work_lt (inv : trainer.Inv state) (step : trainer.Step state next) :
    trainer.work next < trainer.work state := by
  have finished := inv.finished
  cases step with
  | submit ready isNext =>
    obtain ⟨inside, -⟩ := List.getElem?_eq_some_iff.mp isNext
    rw [work, work, ready, Bool.toNat_false, Bool.toNat_true]
    dsimp only
    omega
  | done running =>
    rw [work, work]
    dsimp only
    omega
  | get waits =>
    rw [work, work, waits, Bool.toNat_false, Bool.toNat_true]
    dsimp only
    omega

theorem Inv.exists_terminal (inv : trainer.Inv state) :
    ∃ last, Relation.ReflTransGen trainer.Step state last ∧ trainer.Terminal last := by
  induction size : trainer.work state using Nat.strong_induction_on generalizing state with
  | _ size ih =>
    by_cases terminal : trainer.Terminal state
    · exact ⟨state, .refl, terminal⟩
    · simp only [Terminal, not_forall, not_not] at terminal
      obtain ⟨next, step⟩ := terminal
      obtain ⟨last, run, isLast⟩ := ih _ (size ▸ inv.work_lt step) (inv.step step) rfl
      exact ⟨last, .head step run, isLast⟩

end AsyncTrainer

/-- **Generating one step ahead is in order and safe, and ends when the steps pass**, in every
interleaving of the trainer and the worker. -/
theorem asyncRollout_spec {Result : Type} (trainer : AsyncTrainer Result)
    (state : AsyncRollout Result) (run : Relation.ReflTransGen trainer.Step trainer.start state) :
    state.used <+: trainer.prefetched :: trainer.results trainer.moves.length ∧
      (state.waiting = false → state.queue ≠ [] → state.finished = state.submitted) ∧
      (trainer.Terminal state → (state.used.length = trainer.moves.length ↔
        ∀ number < trainer.moves.length, trainer.Passes number)) ∧
      ∃ last, Relation.ReflTransGen trainer.Step state last ∧ trainer.Terminal last := by
  have inv := AsyncTrainer.Inv.run run
  refine ⟨?_, fun ready found => (inv.idle ready found).1, inv.length_used_iff, inv.exists_terminal⟩
  refine (inv.inOrder ▸ List.prefix_append state.used state.queue).trans ?_
  exact List.cons_prefix_cons.mpr
    ⟨rfl, trainer.results_prefix (inv.finished.trans inv.submitted)⟩

/-- One step, which moves the weights. -/
def oneMove : AsyncTrainer ℕ := ⟨[true], some, 7⟩

theorem asyncRollout_spec_oneMove :
    ∃ last, Relation.ReflTransGen oneMove.Step ⟨1, 1, false, [0], [7]⟩ last ∧ oneMove.Terminal last :=
  (asyncRollout_spec oneMove _ (.tail (.tail (.single (.submit rfl rfl fun _ => cons_ne_nil 7 []))
    (.done Nat.one_pos)) (.get rfl rfl))).2.2.2

end Geobench.Trainers
