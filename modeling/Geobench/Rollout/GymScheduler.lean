import Geobench.Library.Loop
import Geobench.Rollout.Protocol
import Mathlib.Algebra.Ring.Int.Defs

/-!
# Rollouts in an environment

`GymScheduler.run` creates an environment, and lets the engine and the environment take turns until
the environment signals that it is done, or the turns reach their limit. The environment is closed
once, whatever is raised on the way.

A turn that is not the last one of the environment is counted before the limit is looked at. Where
the limit ends the loop, the output then has one turn more than there were (`numTurns_of_undone`).

**`keepsCount_iff`**: the output counts what took place where the environment is done within the
limit.
-/

namespace Geobench.Rollout

open Library List

variable {ε ρ ι : Type}

/-! ## Environments and schedulers -/

/-- What `env.step` returns. -/
structure StepOutcome (ρ ι : Type) where
  nextObs : Content
  reward : ρ
  done : Bool
  info : ι

/-- What `env.reset` returns. -/
structure ResetOutcome (ι : Type) where
  observation : Content
  info : ι
  systemMessage : Content

/-- An environment and an engine, and what they raise. A reply may be different at each turn. The
context manager returns the history as it is. -/
structure GymScheduler (ε ρ ι : Type) where
  maxTurns : Option ℤ
  createEnv : Except ε Unit
  createContextManager : Except ε Unit
  reset : Except ε (ResetOutcome ι)
  inferAsync : (currentTurn : ℕ) → Messages → Except ε ChatCompletionResponse
  step : (currentTurn : ℕ) → Messages → Except ε (StepOutcome ρ ι)
  close : Except ε Unit

/-- What a run raises: an exception of the code it calls, or that `response` has no value. -/
inductive RunError (ε : Type) where
  | raised (error : ε)
  | unboundLocalError

/-- The output of a rollout, with the entries of `rollout_infos`. -/
structure GymOutput (ρ ι : Type) where
  response : ChatCompletionResponse
  messages : Messages
  numTurns : ℕ
  trajectoryId : Option String
  totalReward : ρ
  stepRewards : List ρ
  trajectoryInfo : List ι

structure GymState (ρ ι : Type) where
  messages : Messages
  response : Option ChatCompletionResponse
  totalReward : ρ
  stepRewards : List ρ
  trajectoryInfo : List ι

/-- A run: its result, which is `none` as long as it goes on, and how often the environment was
closed. -/
structure GymRun (ε ρ ι : Type) where
  result : Except (RunError ε) (Option (GymOutput ρ ι))
  closed : ℕ

/-! ## The rollout -/

/-- `current_turn <= (self.max_turns or float('inf'))` -/
def withinTurns (maxTurns : Option ℤ) (currentTurn : ℕ) : Bool :=
  match maxTurns with
  | none => true
  | some limit => limit = 0 || (currentTurn : ℤ) ≤ limit

/-- The messages of the first turn. -/
def ResetOutcome.messages (outcome : ResetOutcome ι) : Messages :=
  (if outcome.systemMessage.truthy then [⟨.system, outcome.systemMessage⟩] else []) ++
    [⟨.user, outcome.observation⟩]

namespace GymScheduler

section Run

variable [Add ρ] [Zero ρ] (scheduler : GymScheduler ε ρ ι) (uuid : Option String)

/-- An exception of the code that is called. -/
def raise {α : Type} : Except ε α → Except (RunError ε) α
  | .ok value => .ok value
  | .error error => .error (.raised error)

omit [Add ρ] [Zero ρ] in
theorem raise_eq_ok {α : Type} {call : Except ε α} {value : α} :
    raise call = .ok value ↔ call = .ok value := by
  cases call <;> simp [raise]

/-- The output after the loop. -/
def output (currentTurn : ℕ) (state : GymState ρ ι) : Except (RunError ε) (GymOutput ρ ι) :=
  match state.response with
  | none => .error .unboundLocalError
  | some response =>
    .ok
      { response := response
        messages := state.messages
        numTurns := currentTurn
        trajectoryId := uuid
        totalReward := state.totalReward
        stepRewards := state.stepRewards
        trajectoryInfo := state.trajectoryInfo }

/-- One pass of the loop. -/
def turn : LoopBody (RunError ε) (GymState ρ ι) (GymOutput ρ ι) := fun currentTurn state =>
  if withinTurns scheduler.maxTurns currentTurn then do
    let messages := (removeResponse state.messages).2
    let response ← raise (scheduler.inferAsync currentTurn messages)
    let messages := messages ++ [⟨.assistant, .text response.choice.content⟩]
    let outcome ← raise (scheduler.step currentTurn messages)
    let state' : GymState ρ ι :=
      { messages := messages
        response := some response
        totalReward := state.totalReward + outcome.reward
        stepRewards := state.stepRewards ++ [outcome.reward]
        trajectoryInfo := state.trajectoryInfo ++ [outcome.info] }
    if outcome.done then .inr <$> output uuid currentTurn state'
    else return .inl { state' with messages := messages ++ [⟨.user, outcome.nextObs⟩] }
  else .inr <$> output uuid currentTurn state

/-- The state before the first turn. -/
def start (outcome : ResetOutcome ι) : GymState ρ ι where
  messages := outcome.messages
  response := none
  totalReward := 0
  stepRewards := []
  trajectoryInfo := [outcome.info]

/-- What follows the creation of the environment, for at most `fuel` turns. -/
def rollout (fuel : ℕ) : Except (RunError ε) (Option (GymOutput ρ ι)) := do
  raise scheduler.createContextManager
  let outcome ← raise scheduler.reset
  (scheduler.turn uuid).execute fuel 1 (start outcome)

/-- `_close_env_async`: an exception of `close` is logged. -/
def closeEnvAsync (closed : ℕ) : ℕ :=
  match scheduler.close with
  | .ok () => closed + 1
  | .error _ => closed + 1

/-- Run a request for at most `fuel` turns. -/
def run (fuel : ℕ) : GymRun ε ρ ι :=
  match scheduler.createEnv with
  | .error error => ⟨.error (.raised error), 0⟩
  | .ok () =>
    match scheduler.rollout uuid fuel with
    | .ok none => ⟨.ok none, 0⟩
    | result => ⟨result, scheduler.closeEnvAsync 0⟩

end Run

/-! ## Conversations that go on -/

/-- The messages after some turns, when the environment is not done. -/
inductive Undone (scheduler : GymScheduler ε ρ ι) : ℕ → Messages → Prop where
  | start {outcome : ResetOutcome ι} :
      scheduler.createEnv = .ok () → scheduler.createContextManager = .ok () →
      scheduler.reset = .ok outcome → Undone scheduler 0 outcome.messages
  | next {turns : ℕ} {messages : Messages} {response : ChatCompletionResponse}
      {outcome : StepOutcome ρ ι} :
      Undone scheduler turns messages →
      scheduler.inferAsync (turns + 1) messages = .ok response →
      scheduler.step (turns + 1)
        (messages ++ [⟨.assistant, .text response.choice.content⟩]) = .ok outcome →
      outcome.done = false →
      Undone scheduler (turns + 1) (messages ++ [⟨.assistant, .text response.choice.content⟩] ++
        [⟨.user, outcome.nextObs⟩])

theorem Undone.before {scheduler : GymScheduler ε ρ ι} {turns earlier : ℕ} {messages : Messages}
    (undone : Undone scheduler turns messages) (notAfter : earlier ≤ turns) :
    ∃ messages, Undone scheduler earlier messages := by
  induction undone with
  | start created managed isReset =>
    obtain rfl := Nat.le_zero.mp notAfter
    exact ⟨_, .start created managed isReset⟩
  | next undone isResponse isOutcome isUndone ih =>
    rcases Nat.le_succ_iff.mp notAfter with before | rfl
    · exact ih before
    · exact ⟨_, undone.next isResponse isOutcome isUndone⟩

/-- The roles of a number of turns, after the system prompt if there is one. -/
def turnRoles (system : Bool) (turns : ℕ) : List Role :=
  (if system then [.system] else []) ++ (List.replicate turns [Role.user, .assistant]).flatten

theorem turnRoles_succ (system : Bool) (turns : ℕ) :
    turnRoles system (turns + 1) = turnRoles system turns ++ [.user, .assistant] := by
  rw [turnRoles, turnRoles, replicate_succ', flatten_concat, append_assoc]

theorem count_turnRoles (system : Bool) (turns : ℕ) :
    (turnRoles system turns).count .assistant = turns := by
  induction turns with
  | zero => cases system <;> rfl
  | succ turns ih => rw [turnRoles_succ, count_append, ih]; rfl

/-- What the output counts: turns, rewards, infos, and messages whose roles alternate. The last of
them may be an observation that the engine did not answer. -/
structure CountsTurns [Add ρ] [Zero ρ] (output : GymOutput ρ ι) : Prop where
  numTurns_eq : output.numTurns = output.stepRewards.length
  assistantCount_eq : assistantCount output.messages = output.stepRewards.length
  totalReward_eq : output.totalReward = output.stepRewards.foldl (· + ·) 0
  length_trajectoryInfo : output.trajectoryInfo.length = output.stepRewards.length + 1
  roles : ∃ system tail, (tail = [] ∨ tail = [Role.user]) ∧
    output.messages.map Message.role = turnRoles system output.stepRewards.length ++ tail

section Invariant

variable [Add ρ] [Zero ρ] (scheduler : GymScheduler ε ρ ι) (uuid : Option String)

/-- What holds before a turn. -/
structure TurnInv (currentTurn : ℕ) (state : GymState ρ ι) : Prop where
  currentTurn_eq : currentTurn = state.stepRewards.length + 1
  undone : Undone scheduler state.stepRewards.length state.messages
  totalReward_eq : state.totalReward = state.stepRewards.foldl (· + ·) 0
  length_trajectoryInfo : state.trajectoryInfo.length = state.stepRewards.length + 1
  roles : ∃ system, state.messages.map Message.role =
    turnRoles system state.stepRewards.length ++ [.user]
  isSome_response : state.stepRewards ≠ [] → state.response.isSome

/-- The state after the step of the environment. -/
def stepped (state : GymState ρ ι) (response : ChatCompletionResponse)
    (outcome : StepOutcome ρ ι) : GymState ρ ι where
  messages := state.messages ++ [⟨.assistant, .text response.choice.content⟩]
  response := some response
  totalReward := state.totalReward + outcome.reward
  stepRewards := state.stepRewards ++ [outcome.reward]
  trajectoryInfo := state.trajectoryInfo ++ [outcome.info]

variable {scheduler}

variable {currentTurn : ℕ} {state : GymState ρ ι}

/-- The conversation ends in an observation, so that no response is removed from it. -/
theorem TurnInv.removeResponse_eq (inv : TurnInv scheduler currentTurn state) :
    (removeResponse state.messages).2 = state.messages := by
  obtain ⟨system, roles⟩ := inv.roles
  refine removeResponse_of_ne fun last isLast => ?_
  have lastRole : (state.messages.map Message.role).getLast? = some last.role := by
    rw [getLast?_map, isLast]
    rfl
  rw [roles, getLast?_concat, Option.some.injEq] at lastRole
  rw [← lastRole]
  decide

/-- One turn. The limit is reached, or the engine and the environment answer, and the
environment is done or not. -/
theorem TurnInv.turn_cases (inv : TurnInv scheduler currentTurn state)
    {result : GymState ρ ι ⊕ GymOutput ρ ι}
    (isResult : scheduler.turn uuid currentTurn state = .ok result) :
    (withinTurns scheduler.maxTurns currentTurn = false ∧
        ∃ final, output (ε := ε) uuid currentTurn state = .ok final ∧ result = .inr final) ∨
      withinTurns scheduler.maxTurns currentTurn = true ∧ ∃ response outcome,
        scheduler.inferAsync currentTurn state.messages = .ok response ∧
        scheduler.step currentTurn
          (state.messages ++ [⟨.assistant, .text response.choice.content⟩]) = .ok outcome ∧
        ((outcome.done = true ∧ ∃ final,
            output (ε := ε) uuid currentTurn (stepped state response outcome) = .ok final ∧
              result = .inr final) ∨
          (outcome.done = false ∧ result = .inl { stepped state response outcome with
            messages := (stepped state response outcome).messages ++
              [⟨.user, outcome.nextObs⟩] })) := by
  cases isWithin : withinTurns scheduler.maxTurns currentTurn with
  | false =>
    rw [turn, isWithin, if_neg Bool.false_ne_true] at isResult
    obtain ⟨final, isFinal, same⟩ := map_eq_ok.mp isResult
    exact Or.inl ⟨rfl, final, isFinal, same.symm⟩
  | true =>
    refine Or.inr ⟨rfl, ?_⟩
    simp only [turn, isWithin, if_true, inv.removeResponse_eq] at isResult
    obtain ⟨response, isResponse, isResult⟩ := bind_eq_ok.mp isResult
    obtain ⟨outcome, isOutcome, isResult⟩ := bind_eq_ok.mp isResult
    refine ⟨response, outcome, raise_eq_ok.mp isResponse, raise_eq_ok.mp isOutcome, ?_⟩
    cases isDone : outcome.done with
    | true =>
      rw [isDone, if_pos rfl] at isResult
      obtain ⟨final, isFinal, same⟩ := map_eq_ok.mp isResult
      exact Or.inl ⟨rfl, final, isFinal, same.symm⟩
    | false =>
      rw [isDone, if_neg Bool.false_ne_true] at isResult
      exact Or.inr ⟨rfl, (Except.ok.inj isResult).symm⟩

omit [Zero ρ] in
theorem turnRoles_stepped (response : ChatCompletionResponse) (outcome : StepOutcome ρ ι)
    {system : Bool}
    (roles : state.messages.map Message.role =
      turnRoles system state.stepRewards.length ++ [.user]) :
    (stepped state response outcome).messages.map Message.role =
      turnRoles system (stepped state response outcome).stepRewards.length := by
  rw [stepped]
  dsimp only
  rw [map_append, roles, length_append, length_singleton, turnRoles_succ, append_assoc]
  rfl

/-- A turn that goes on keeps the counts. -/
theorem TurnInv.next {state' : GymState ρ ι} (inv : TurnInv scheduler currentTurn state)
    (goesOn : scheduler.turn uuid currentTurn state = .ok (.inl state')) :
    TurnInv scheduler (currentTurn + 1) state' := by
  rcases inv.turn_cases uuid goesOn with ⟨-, final, -, same⟩ |
    ⟨-, response, outcome, isResponse, isOutcome, ⟨-, final, -, same⟩ | ⟨isUndone, same⟩⟩
  · cases same
  · cases same
  · obtain rfl := Sum.inl.inj same
    have turns : (stepped state response outcome).stepRewards.length = currentTurn := by
      rw [stepped, length_append, length_singleton, ← inv.currentTurn_eq]
    obtain ⟨system, roles⟩ := inv.roles
    rw [inv.currentTurn_eq] at isResponse isOutcome
    refine ⟨congrArg (· + 1) turns.symm, ?_, ?_, ?_, ⟨system, ?_⟩, fun _ => rfl⟩
    · have undone := inv.undone.next isResponse isOutcome isUndone
      rw [← inv.currentTurn_eq] at undone
      rw [turns]
      exact undone
    · simp only [stepped, inv.totalReward_eq, foldl_append, foldl_cons, foldl_nil]
    · simp only [stepped, length_append, inv.length_trajectoryInfo, length_singleton]
    · dsimp only
      rw [map_append, turnRoles_stepped response outcome roles]
      rfl

theorem countsTurns_of_output {final : GymOutput ρ ι}
    (isFinal : output (ε := ε) uuid currentTurn state = .ok final)
    (turns : currentTurn = state.stepRewards.length)
    (total : state.totalReward = state.stepRewards.foldl (· + ·) 0)
    (infos : state.trajectoryInfo.length = state.stepRewards.length + 1) {system : Bool}
    (roles : state.messages.map Message.role = turnRoles system state.stepRewards.length) :
    CountsTurns final := by
  rw [output] at isFinal
  split at isFinal
  · exact absurd isFinal (by rintro ⟨⟩)
  · obtain rfl := Except.ok.inj isFinal
    refine ⟨turns, ?_, total, infos, system, [], Or.inl rfl, by rw [append_nil, roles]⟩
    rw [assistantCount_eq_count_role, roles, count_turnRoles]

/-- The state before the first turn. -/
theorem turnInv_start {outcome : ResetOutcome ι} (created : scheduler.createEnv = .ok ())
    (managed : scheduler.createContextManager = .ok ())
    (isReset : scheduler.reset = .ok outcome) :
    TurnInv scheduler 1 (start outcome) := by
  refine ⟨rfl, .start created managed isReset, rfl, rfl, ?_, fun some => absurd rfl some⟩
  refine ⟨outcome.systemMessage.truthy, ?_⟩
  rw [start, ResetOutcome.messages, turnRoles]
  cases outcome.systemMessage.truthy <;> rfl

theorem TurnInv.turn_of_undone (inv : TurnInv scheduler currentTurn state)
    (isWithin : withinTurns scheduler.maxTurns currentTurn = true)
    {response : ChatCompletionResponse} {outcome : StepOutcome ρ ι}
    (isResponse : scheduler.inferAsync currentTurn state.messages = .ok response)
    (isOutcome : scheduler.step currentTurn
      (state.messages ++ [⟨.assistant, .text response.choice.content⟩]) = .ok outcome)
    (isUndone : outcome.done = false) :
    ∃ state', scheduler.turn uuid currentTurn state = .ok (.inl state') ∧
      state'.messages = state.messages ++ [⟨.assistant, .text response.choice.content⟩] ++
        [⟨.user, outcome.nextObs⟩] := by
  refine ⟨{ stepped state response outcome with
    messages := (stepped state response outcome).messages ++ [⟨.user, outcome.nextObs⟩] }, ?_, rfl⟩
  simp only [turn, isWithin, if_true, inv.removeResponse_eq]
  rw [raise_eq_ok.mpr isResponse, ok_bind, raise_eq_ok.mpr isOutcome, ok_bind, isUndone]
  rfl

/-- The loop passes through the conversations of an environment that is not done. The induction
is on the turns. -/
theorem reaches_of_undone {turns : ℕ} {messages : Messages}
    (undone : Undone scheduler turns messages)
    (isWithin : ∀ turn, 1 ≤ turn → turn ≤ turns → withinTurns scheduler.maxTurns turn = true) :
    ∃ outcome state, scheduler.createEnv = .ok () ∧ scheduler.createContextManager = .ok () ∧
      scheduler.reset = .ok outcome ∧
      LoopBody.Reaches (scheduler.turn uuid) 1 (start outcome) (turns + 1) state ∧
      state.messages = messages ∧ TurnInv scheduler (turns + 1) state := by
  induction undone with
  | @start outcome created managed isReset =>
    exact ⟨outcome, _, created, managed, isReset, .refl, rfl,
      turnInv_start created managed isReset⟩
  | @next turns messages response outcome _ isResponse isOutcome isUndone ih =>
    obtain ⟨first, state, created, managed, isReset, reached, rfl, inv⟩ :=
      ih fun turn some inside => isWithin turn some (Nat.le_succ_of_le inside)
    obtain ⟨state', goesOn, isMessages⟩ := inv.turn_of_undone uuid
      (isWithin (turns + 1) (Nat.le_add_left 1 turns) le_rfl) isResponse isOutcome isUndone
    exact ⟨first, state', created, managed, isReset, reached.next goesOn, isMessages,
      inv.next uuid goesOn⟩

variable (scheduler)

/-- What `run` counts, and how often it closes the environment. -/
def KeepsCount : Prop :=
  ∀ fuel,
    (∀ final, (scheduler.run uuid fuel).result = .ok (some final) → CountsTurns final) ∧
    (∀ error, scheduler.createEnv = .error error → (scheduler.run uuid fuel).closed = 0) ∧
    (scheduler.createEnv = .ok () → (∀ running, (scheduler.run uuid fuel).result = .ok running →
      running.isSome) → (scheduler.run uuid fuel).closed = 1)

theorem closed_run (fuel : ℕ) :
    (∀ error, scheduler.createEnv = .error error → (scheduler.run uuid fuel).closed = 0) ∧
    (scheduler.createEnv = .ok () → (∀ running, (scheduler.run uuid fuel).result = .ok running →
      running.isSome) → (scheduler.run uuid fuel).closed = 1) := by
  have once : scheduler.closeEnvAsync 0 = 1 := by
    rw [closeEnvAsync]
    split <;> rfl
  constructor
  · intro error notCreated
    rw [run, notCreated]
  · intro created ended
    rw [run, created] at ended ⊢
    dsimp only at ended ⊢
    split
    · rename_i isRunning
      rw [isRunning] at ended
      exact absurd (ended none rfl) Bool.false_ne_true
    · exact once

theorem result_run_eq_some {fuel : ℕ} {final : GymOutput ρ ι} :
    (scheduler.run uuid fuel).result = .ok (some final) ↔
      scheduler.createEnv = .ok () ∧ scheduler.rollout uuid fuel = .ok (some final) := by
  rw [run]
  cases scheduler.createEnv with
  | error error => simp
  | ok =>
    dsimp only
    split
    · rename_i isRunning
      simp [isRunning]
    · simp

theorem rollout_eq_some {fuel : ℕ} {result : Option (GymOutput ρ ι)} :
    scheduler.rollout uuid fuel = .ok result ↔
      scheduler.createContextManager = .ok () ∧ ∃ outcome, scheduler.reset = .ok outcome ∧
        (scheduler.turn uuid).execute fuel 1 (start outcome) = .ok result := by
  constructor
  · intro isResult
    obtain ⟨_, managed, isResult⟩ := bind_eq_ok.mp isResult
    obtain ⟨outcome, isReset, isResult⟩ := bind_eq_ok.mp isResult
    exact ⟨raise_eq_ok.mp managed, outcome, raise_eq_ok.mp isReset, isResult⟩
  · rintro ⟨managed, outcome, isReset, isResult⟩
    rw [rollout, raise_eq_ok.mpr managed, ok_bind, raise_eq_ok.mpr isReset, ok_bind, isResult]

/-- A turn after the limit takes place nowhere. -/
theorem withinTurns_eq_false_iff {maxTurns : Option ℤ} :
    withinTurns maxTurns currentTurn = false ↔
      ∃ limit, maxTurns = some limit ∧ limit ≠ 0 ∧ limit < currentTurn := by
  cases maxTurns with
  | none => simp [withinTurns]
  | some limit => simp [withinTurns]

/-- The limit counts one turn too many. The environment is not done after the last turn. -/
theorem numTurns_of_undone {limit : ℕ} (isLimit : scheduler.maxTurns = some (limit : ℤ))
    (positive : 0 < limit) {messages : Messages} (undone : Undone scheduler limit messages) :
    ∃ fuel final, (scheduler.run uuid fuel).result = .ok (some final) ∧
      final.numTurns = limit + 1 ∧ final.stepRewards.length = limit := by
  have within : ∀ turn : ℕ, 1 ≤ turn → turn ≤ limit →
      withinTurns scheduler.maxTurns turn = true := by
    intro turn _ inside
    rw [isLimit, withinTurns, Bool.or_eq_true, decide_eq_true_eq, decide_eq_true_eq]
    exact Or.inr (by omega)
  obtain ⟨outcome, state, created, managed, isReset, reached, -, inv⟩ :=
    reaches_of_undone uuid undone within
  have outside : withinTurns scheduler.maxTurns (limit + 1) = false :=
    withinTurns_eq_false_iff.mpr ⟨limit, isLimit, by omega, by omega⟩
  have rewards : state.stepRewards.length = limit := by
    have turns := inv.currentTurn_eq
    omega
  obtain ⟨response, isResponse⟩ := Option.isSome_iff_exists.mp (inv.isSome_response (by
    rw [← length_pos_iff]
    omega))
  have stops : ∃ final, scheduler.turn uuid (limit + 1) state = .ok (.inr final) ∧
      final.numTurns = limit + 1 ∧ final.stepRewards = state.stepRewards := by
    rw [turn, outside, if_neg Bool.false_ne_true, output, isResponse]
    exact ⟨_, rfl, rfl, rfl⟩
  obtain ⟨final, isFinal, numTurns, isRewards⟩ := stops
  obtain ⟨fuel, isResult⟩ := LoopBody.execute_eq_some_iff.mpr ⟨limit + 1, state, reached, isFinal⟩
  refine ⟨fuel, final, (scheduler.result_run_eq_some uuid).mpr ⟨created, ?_⟩, numTurns,
    isRewards ▸ rewards⟩
  exact (scheduler.rollout_eq_some uuid).mpr ⟨managed, outcome, isReset, isResult⟩

/-- **The output counts what took place where the environment is done within the limit, and the
environment is closed once whatever is raised.** -/
theorem keepsCount_iff (limits : ∀ limit ∈ scheduler.maxTurns, 1 ≤ limit) :
    scheduler.KeepsCount uuid ↔
      ∀ limit : ℕ, scheduler.maxTurns = some (limit : ℤ) →
        ∀ messages, ¬ Undone scheduler limit messages := by
  constructor
  · intro keeps limit isLimit messages undone
    obtain ⟨fuel, final, isFinal, numTurns, rewards⟩ :=
      scheduler.numTurns_of_undone uuid isLimit (by
        have positive := limits limit isLimit
        omega) undone
    have counts := ((keeps fuel).1 final isFinal).numTurns_eq
    omega
  · intro isDone fuel
    refine ⟨fun final isFinal => ?_, scheduler.closed_run uuid fuel⟩
    obtain ⟨created, isRollout⟩ := (scheduler.result_run_eq_some uuid).mp isFinal
    obtain ⟨managed, outcome, isReset, isResult⟩ := (scheduler.rollout_eq_some uuid).mp isRollout
    obtain ⟨currentTurn, state, reached, stops⟩ :=
      LoopBody.execute_eq_some_iff.mp ⟨fuel, isResult⟩
    have inv : TurnInv scheduler currentTurn state :=
      reached.invariant (TurnInv scheduler) (turnInv_start created managed isReset)
        fun _ _ _ _ inv goesOn => inv.next uuid goesOn
    rcases inv.turn_cases uuid stops with ⟨outside, _⟩ |
      ⟨-, response, outcome, -, -, ⟨-, final', isOutput, same⟩ | ⟨-, same⟩⟩
    · obtain ⟨limit, isLimit, -, passed⟩ := withinTurns_eq_false_iff.mp outside
      have natural : ((limit.toNat : ℕ) : ℤ) = limit :=
        Int.toNat_of_nonneg (Int.le_trans (by decide) (limits limit isLimit))
      have notAfter : limit.toNat ≤ state.stepRewards.length := by
        have turns := inv.currentTurn_eq
        omega
      obtain ⟨messages, undone⟩ := inv.undone.before notAfter
      exact absurd undone (isDone limit.toNat (natural ▸ isLimit) messages)
    · obtain rfl := Sum.inr.inj same
      obtain ⟨system, roles⟩ := inv.roles
      refine countsTurns_of_output uuid isOutput ?_ ?_ ?_
        (turnRoles_stepped response outcome roles)
      · simp only [stepped, length_append, length_singleton, inv.currentTurn_eq]
      · simp only [stepped, inv.totalReward_eq, foldl_append, foldl_cons, foldl_nil]
      · simp only [stepped, length_append, inv.length_trajectoryInfo, length_singleton]
    · cases same

end Invariant

end GymScheduler

/-! ### One turn -/

def oneReply : ChatCompletionResponse := ⟨"", ⟨"", none, none, none⟩⟩

/-- An environment with a limit of one turn, which is done after its first step or not. -/
def oneTurn (done : Bool) : GymScheduler Unit ℤ Unit where
  maxTurns := some 1
  createEnv := .ok ()
  createContextManager := .ok ()
  reset := .ok ⟨.text "", (), .none⟩
  inferAsync _ _ := .ok oneReply
  step _ _ := .ok ⟨.text "", 1, done, ()⟩
  close := .ok ()

theorem limits_oneTurn (done : Bool) : ∀ limit ∈ (oneTurn done).maxTurns, 1 ≤ limit := by
  intro limit isLimit
  obtain rfl : 1 = limit := Option.some.inj isLimit
  exact Int.le_refl 1

theorem keepsCount_oneTurn : (oneTurn true).KeepsCount none := by
  refine ((oneTurn true).keepsCount_iff none (limits_oneTurn true)).mpr
    fun limit isLimit messages undone => ?_
  obtain rfl : limit = 1 := by
    have same := Option.some.inj isLimit
    omega
  cases undone with
  | next _ _ isOutcome isUndone =>
    rw [← Except.ok.inj isOutcome] at isUndone
    exact absurd isUndone (by decide)

/-- Two turns are counted where there was one. -/
theorem not_keepsCount_oneTurn : ¬ (oneTurn false).KeepsCount none := by
  intro keeps
  have undone : GymScheduler.Undone (oneTurn false) 1 _ :=
    .next (.start rfl rfl rfl) rfl rfl rfl
  obtain ⟨fuel, final, isFinal, numTurns, rewards⟩ :=
    (oneTurn false).numTurns_of_undone none rfl Nat.one_pos undone
  have counts := ((keeps fuel).1 final isFinal).numTurns_eq
  omega

end Geobench.Rollout
