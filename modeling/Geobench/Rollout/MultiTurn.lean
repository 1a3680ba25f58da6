import Geobench.Library.Loop
import Geobench.Rollout.Protocol
import Mathlib.Data.List.ModifyLast
import Mathlib.Algebra.Ring.Int.Defs

/-!
# Multi-turn rollouts

A multi-turn scheduler alternates between the engine and its own `step`. Each turn
writes the completion into the conversation, either as a new assistant message or,
when the conversation already ends in one, as its continuation. `checkFinished` and
the limit on turns decide whether the rollout stops there. Otherwise `step` gives
the request of the next turn, and may give the ids, the loss mask and the log
probabilities of the turn. When the new request ends in an assistant message, a dummy
message without content is appended; it is removed again after the next reply.

There are two loops over the same scheduler: `MultiTurnScheduler.turn` is the body of the one on the
rollout server, and `colocateTurn` of the one in colocate mode, one request of a batch at a time.
They record the last turn by different code (`ResponseLists.finishRun`,
`ResponseLists.finishColocate`).

Schedulers are pure functions, and the reply of the engine at each turn is given.
-/

namespace Geobench.Rollout

open Library

/-! ## Schedulers -/

/-- What `step` returns. A missing key is `none`. -/
structure StepResult where
  inferRequest : RolloutInferRequest
  responseTokenIds : Option (List ℕ)
  responseLossMask : Option (List ℤ)
  rolloutInfos : Option RolloutInfos
  rolloutLogprobs : Option (List Logprob)

structure MultiTurnScheduler where
  maxTurns : Option ℤ
  checkFinished : RolloutInferRequest → ChatCompletionResponseChoice → ℕ → Bool
  step : RolloutInferRequest → ChatCompletionResponseChoice → ℕ → StepResult

/-- `max_turns and current_turn >= max_turns`. Neither `None` nor `0` is a limit. -/
def reachedMaxTurns (maxTurns : Option ℤ) (currentTurn : ℕ) : Bool :=
  match maxTurns with
  | none => false
  | some limit => decide (limit ≠ 0) && decide (limit ≤ currentTurn)

/-- The `check_finished` a scheduler inherits when it does not override it. -/
def baseCheckFinished (maxTurns : Option ℤ) (_ : RolloutInferRequest)
    (responseChoice : ChatCompletionResponseChoice) (currentTurn : ℕ) : Bool :=
  responseChoice.finishReason = some .length || reachedMaxTurns maxTurns currentTurn

/-- The check of the scheduler, and then the limit on turns once more. -/
def MultiTurnScheduler.shouldStop (scheduler : MultiTurnScheduler)
    (request : RolloutInferRequest) (responseChoice : ChatCompletionResponseChoice)
    (currentTurn : ℕ) : Bool :=
  scheduler.checkFinished request responseChoice currentTurn ||
    reachedMaxTurns scheduler.maxTurns currentTurn

/-! ## The lists that run over the turns -/

/-- The ids, the loss masks and the log probabilities recorded so far, a list for
each recorded turn that is not a continuation. -/
structure ResponseLists where
  tokenIds : List (List ℕ)
  lossMask : List (List ℤ)
  logprobs : List (List Logprob)
  deriving DecidableEq, Repr

def ResponseLists.empty : ResponseLists := ⟨[], [], []⟩

/-- `turns[-1].extend(turn)` -/
def extendLast {α : Type} (turns : List (List α)) (turn : List α) : List (List α) :=
  turns.modifyLast (· ++ turn)

@[simp] theorem extendLast_concat {α : Type} (turns : List (List α)) (last turn : List α) :
    extendLast (turns ++ [last]) turn = turns ++ [last ++ turn] :=
  List.modifyLast_concat _ _ _

/-- A continuation extends the last recorded turn, and any other turn is appended. -/
def recordTurn {α : Type} (isContinuation : Bool) (turns : List (List α)) (turn : List α) :
    List (List α) :=
  if isContinuation ∧ turns ≠ [] then extendLast turns turn else turns ++ [turn]

def onesMask (tokenIds : List ℕ) : List ℤ := List.replicate tokenIds.length 1

/-- The last turn continues the last recorded one. `extend(None)` is a type error. -/
def ResponseLists.continueLast (lists : ResponseLists)
    (responseChoice : ChatCompletionResponseChoice) : Except PyError ResponseLists :=
  let currentLogprobs := extractLogprobsFromChoice responseChoice
  match responseChoice.tokenIds with
  | none => .error .typeError
  | some finalTokenIds =>
    .ok {
      tokenIds := extendLast lists.tokenIds finalTokenIds
      lossMask :=
        if lists.lossMask ≠ [] then extendLast lists.lossMask (onesMask finalTokenIds)
        else lists.lossMask
      logprobs :=
        if lists.logprobs ≠ [] ∧ currentLogprobs ≠ [] then
          extendLast lists.logprobs currentLogprobs
        else lists.logprobs }

/-- The last turn is the first one with ids: the lists start with it. -/
def ResponseLists.startLast (lists : ResponseLists)
    (responseChoice : ChatCompletionResponseChoice) : ResponseLists :=
  let currentLogprobs := extractLogprobsFromChoice responseChoice
  let finalTokenIds := responseChoice.tokenIds.getD []
  { tokenIds := if finalTokenIds ≠ [] then [finalTokenIds] else lists.tokenIds
    lossMask := if finalTokenIds ≠ [] then [onesMask finalTokenIds] else lists.lossMask
    logprobs := if currentLogprobs ≠ [] then [currentLogprobs] else lists.logprobs }

/-- The last turn is appended as a turn of its own. -/
def ResponseLists.appendLast (lists : ResponseLists)
    (responseChoice : ChatCompletionResponseChoice) : ResponseLists :=
  let currentLogprobs := extractLogprobsFromChoice responseChoice
  let finalTokenIds := responseChoice.tokenIds.getD []
  { tokenIds :=
      if finalTokenIds ≠ [] then lists.tokenIds ++ [finalTokenIds] else lists.tokenIds
    lossMask :=
      if finalTokenIds ≠ [] then lists.lossMask ++ [onesMask finalTokenIds] else lists.lossMask
    logprobs :=
      if currentLogprobs ≠ [] then lists.logprobs ++ [currentLogprobs] else lists.logprobs }

/-- How many log probabilities the recorded turns must have: one for each token the
loss mask keeps, or one for each token when there is no mask. -/
def ResponseLists.trainedCount (lists : ResponseLists) : ℤ :=
  if lists.lossMask ≠ [] then (lists.lossMask.map List.sum).sum
  else (lists.tokenIds.map List.length).sum

/-- How many log probabilities the recorded turns have. -/
def ResponseLists.logprobCount (lists : ResponseLists) : ℤ :=
  (lists.logprobs.map List.length).sum

/-- Log probabilities that do not match the recorded tokens are cleared. -/
def ResponseLists.finalRolloutLogprobs (lists : ResponseLists) : List (List Logprob) :=
  if lists.logprobs = [] then []
  else if lists.lossMask = [] ∧ lists.tokenIds = [] then []
  else if lists.trainedCount ≠ lists.logprobCount then []
  else lists.logprobs

/-- How the server records the last turn. Nothing is recorded for a turn that is
neither a continuation nor the first one with ids. -/
def ResponseLists.finishRun (lists : ResponseLists) (isContinuation : Bool)
    (responseChoice : ChatCompletionResponseChoice) : Except PyError ResponseLists :=
  if isContinuation ∧ lists.tokenIds ≠ [] then lists.continueLast responseChoice
  else if lists.tokenIds = [] then .ok (lists.startLast responseChoice)
  else .ok lists

/-- How the colocate loop records the last turn. -/
def ResponseLists.finishColocate (lists : ResponseLists) (isContinuation : Bool)
    (responseChoice : ChatCompletionResponseChoice) : Except PyError ResponseLists :=
  if isContinuation ∧ lists.tokenIds ≠ [] then lists.continueLast responseChoice
  else if lists.tokenIds = [] then .ok (lists.startLast responseChoice)
  else .ok (lists.appendLast responseChoice)

/-! ## The steps of a turn -/

/-- What a loop carries from one turn to the next. -/
structure TurnState where
  currentRequest : RolloutInferRequest
  rolloutInfos : RolloutInfos
  lists : ResponseLists

/-- Before the first turn nothing is recorded. -/
def TurnState.initial (request : RolloutInferRequest) : TurnState :=
  ⟨request, ∅, ResponseLists.empty⟩

/-- The completion continues a trailing assistant message, or becomes a new one. The
second component tells which. -/
def appendCompletion (messages : Messages) (completion : String) :
    Except PyError (Messages × Bool) := do
  let last ← lastMessage messages
  if last.role = .assistant then
    let content ← last.content.addText completion
    return (messages.dropLast ++ [{ last with content := content }], true)
  else
    return (messages ++ [⟨.assistant, .text completion⟩], false)

/-- Record the ids of a turn, when `step` returned them. -/
def ResponseLists.recordTokenIds (lists : ResponseLists) (isContinuation : Bool)
    (ret : StepResult) : List (List ℕ) :=
  match ret.responseTokenIds with
  | none => lists.tokenIds
  | some ids => recordTurn isContinuation lists.tokenIds ids

/-- Record the loss mask of a turn, when `step` returned it. It must come with ids of
its length. The text of the first assertion differs between the two loops. -/
def ResponseLists.recordLossMask (lists : ResponseLists) (missingIds : String)
    (isContinuation : Bool) (ret : StepResult) : Except PyError (List (List ℤ)) :=
  match ret.responseLossMask, ret.responseTokenIds with
  | none, _ => .ok lists.lossMask
  | some _, none => .error (.assertionError missingIds)
  | some mask, some ids =>
    if mask.length = ids.length then
      .ok (recordTurn isContinuation lists.lossMask mask)
    else
      .error (.assertionError
        "response_loss_mask must have the same length as response_token_ids")

/-- The log probabilities of a turn: those `step` returned, or those of the reply. -/
def turnLogprobs (responseChoice : ChatCompletionResponseChoice) (ret : StepResult) :
    List Logprob :=
  match ret.rolloutLogprobs with
  | some (logprob :: logprobs) => logprob :: logprobs
  | some [] | none => extractLogprobsFromChoice responseChoice

/-- Record the log probabilities of a turn, when it has any. -/
def ResponseLists.recordLogprobs (lists : ResponseLists) (isContinuation : Bool)
    (currentLogprobs : List Logprob) : List (List Logprob) :=
  if currentLogprobs ≠ [] then recordTurn isContinuation lists.logprobs currentLogprobs
  else lists.logprobs

/-- A dummy message lets the engine continue a trailing assistant message. -/
def addDummy (messages : Messages) : Except PyError Messages := do
  let last ← lastMessage messages
  return if last.role = .assistant then messages ++ [⟨.assistant, .none⟩] else messages

/-- Record what `step` returned for a turn, and give the state of the next turn. -/
def TurnState.prepareNextTurn (state : TurnState) (missingIds : String) (isContinuation : Bool)
    (responseChoice : ChatCompletionResponseChoice) (ret : StepResult) :
    Except PyError TurnState := do
  let tokenIds := state.lists.recordTokenIds isContinuation ret
  let lossMask ← state.lists.recordLossMask missingIds isContinuation ret
  let rolloutInfos := (ret.rolloutInfos.getD ∅) ∪ state.rolloutInfos
  let logprobs := state.lists.recordLogprobs isContinuation (turnLogprobs responseChoice ret)
  let messages ← addDummy ret.inferRequest.messages
  return {
    currentRequest := { ret.inferRequest with messages := messages }
    rolloutInfos := rolloutInfos
    lists := ⟨tokenIds, lossMask, logprobs⟩ }

def rolloutOutput (response : ChatCompletionResponse) (messages : Messages)
    (lists : ResponseLists) (rolloutInfos : RolloutInfos) (currentTurn : ℕ) : RolloutOutput where
  response := response
  messages := messages
  responseTokenIds := lists.tokenIds
  responseLossMask := lists.lossMask
  rolloutInfos := rolloutInfos.insert "num_turns" (.int currentTurn)
  rolloutLogprobs := lists.finalRolloutLogprobs

/-! ## The loop on the server -/

/-- The conversation the server writes the completion of a turn into. A trailing
assistant message is popped at the first turn; later on it is popped when its
content is empty. -/
def runMessages (currentTurn : ℕ) (messages : Messages) : Except PyError Messages := do
  let messages := if currentTurn = 1 then (removeResponse messages).2 else messages
  if currentTurn > 1 then
    let last ← lastMessage messages
    return if last.content.truthy then messages else (removeResponse messages).2
  else
    return messages

/-- One turn of `MultiTurnScheduler.run`. -/
def MultiTurnScheduler.turn (scheduler : MultiTurnScheduler)
    (replies : ℕ → ChatCompletionResponse) : LoopBody PyError TurnState RolloutOutput :=
  fun currentTurn state => do
    let response := replies currentTurn
    let messages ← runMessages currentTurn state.currentRequest.messages
    let (messages, isContinuation) ← appendCompletion messages response.choice.content
    let request := { state.currentRequest with messages := messages }
    if scheduler.shouldStop request response.choice currentTurn then
      let lists ← state.lists.finishRun isContinuation response.choice
      return .inr (rolloutOutput response messages lists state.rolloutInfos currentTurn)
    else
      let state' ← state.prepareNextTurn
        "You must return response_token_ids if you want to return response_loss_mask"
        isContinuation response.choice (scheduler.step request response.choice currentTurn)
      return .inl state'

/-- Run a request on the server for at most `fuel` turns. -/
def MultiTurnScheduler.run (scheduler : MultiTurnScheduler)
    (replies : ℕ → ChatCompletionResponse) (inferRequest : RolloutInferRequest) (fuel : ℕ) :
    Except PyError (Option RolloutOutput) :=
  (scheduler.turn replies).execute fuel 1 (.initial inferRequest)

/-! ## The loop in colocate mode -/

/-- The conversation the colocate loop writes the completion of a turn into. A trailing
assistant message is popped when its content is `None`. -/
def colocateMessages (messages : Messages) : Except PyError Messages := do
  let last ← lastMessage messages
  return if last.content = .none then (removeResponse messages).2 else messages

/-- A request of the batch is still being rolled out, or it has its output. -/
inductive ColocateEntry where
  | pending (state : TurnState)
  | finished (output : RolloutOutput)

def ColocateEntry.output? : ColocateEntry → Option RolloutOutput
  | .pending _ => none
  | .finished output => some output

/-- One turn of `_colocate_multi_turn_infer` for one pending request. -/
def colocateTurn (scheduler : MultiTurnScheduler) (response : ChatCompletionResponse)
    (currentTurn : ℕ) (state : TurnState) : Except PyError ColocateEntry := do
  let messages ← colocateMessages state.currentRequest.messages
  let (messages, isContinuation) ← appendCompletion messages response.choice.content
  let request := { state.currentRequest with messages := messages }
  if scheduler.shouldStop request response.choice currentTurn then
    let lists ← state.lists.finishColocate isContinuation response.choice
    return .finished (rolloutOutput response messages lists state.rolloutInfos currentTurn)
  else
    let state' ← state.prepareNextTurn
      "You must return response_token_ids with response_loss_mask return"
      isContinuation response.choice (scheduler.step request response.choice currentTurn)
    return .pending state'

/-- One pass of the loop over a batch. The requests do not share data, so the pass
takes them one by one; it ends when every request has its output. -/
def colocatePass (scheduler : MultiTurnScheduler) (replies : ℕ → ℕ → ChatCompletionResponse) :
    LoopBody PyError (List ColocateEntry) (List RolloutOutput) :=
  fun currentTurn entries =>
    match entries.mapM ColocateEntry.output? with
    | some outputs => .ok (.inr outputs)
    | none => do
        let entries' ← entries.zipIdx.mapM fun (entry, index) =>
          match entry with
          | .finished output => .ok (.finished output)
          | .pending state =>
            colocateTurn scheduler (replies index currentTurn) currentTurn state
        return .inl entries'

/-- Run a batch in colocate mode for at most `fuel` passes. -/
def colocateMultiTurnInfer (scheduler : MultiTurnScheduler)
    (replies : ℕ → ℕ → ChatCompletionResponse) (inferRequests : List RolloutInferRequest)
    (fuel : ℕ) : Except PyError (Option (List RolloutOutput)) :=
  (colocatePass scheduler replies).execute fuel 1
    (inferRequests.map fun request => .pending (.initial request))

end Geobench.Rollout
