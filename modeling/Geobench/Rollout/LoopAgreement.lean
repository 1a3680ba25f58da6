import Geobench.Rollout.MultiTurn

/-!
# When the two multi-turn loops agree

The loop on the server and the loop in colocate mode write the same conversation at
every turn of a request whose messages do not end in an assistant message with a
content (`Resumable`): a dummy message is the only trailing assistant message either
of them meets, and both remove it (`runMessages_bind`, `colocateMessages_bind`). They
go on to the same state, so they pass through the same states, and they stop at the same
turn.

The last turn is recorded by different code. The records agree when it continues an assistant
message, when no ids were recorded before it, or when it brings nothing that could be recorded
(`FinalTurnAgrees`), and in no other case. The loops produce the same exactly when the turn they stop
at is of this kind (`run_agrees_colocate_iff`).
-/

namespace Geobench.Rollout

open Library Library.LoopBody List

/-! ## What a rollout shows -/

/-- The part of an output that the two loops are compared on. -/
structure Observed where
  messages : Messages
  responseTokenIds : List (List ℕ)
  responseLossMask : List (List ℤ)
  rolloutLogprobs : List (List Logprob)
  deriving DecidableEq, Repr

def RolloutOutput.observed (output : RolloutOutput) : Observed :=
  ⟨output.messages, output.responseTokenIds, output.responseLossMask, output.rolloutLogprobs⟩

/-- What an output shows of its recorded lists. -/
def ResponseLists.observed (lists : ResponseLists) (messages : Messages) : Observed :=
  ⟨messages, lists.tokenIds, lists.lossMask, lists.finalRolloutLogprobs⟩

/-- The server finishes the request and shows this. -/
def ServerProduces (scheduler : MultiTurnScheduler) (replies : ℕ → ChatCompletionResponse)
    (request : RolloutInferRequest) (observed : Observed) : Prop :=
  ∃ fuel output, scheduler.run replies request fuel = .ok (some output) ∧
    output.observed = observed

/-- The colocate loop finishes a batch of this one request and shows this. -/
def ColocateProduces (scheduler : MultiTurnScheduler) (replies : ℕ → ChatCompletionResponse)
    (request : RolloutInferRequest) (observed : Observed) : Prop :=
  ∃ fuel output,
    colocateMultiTurnInfer scheduler (fun _ => replies) [request] fuel = .ok (some [output]) ∧
      output.observed = observed

/-! ## The conversation of a turn -/

/-- A conversation whose trailing assistant message, if there is one, is a dummy. -/
def Resumable (messages : Messages) : Prop :=
  ∀ last ∈ messages.getLast?, last.role = .assistant → last.content = .none

def endsInAssistant (messages : Messages) : Bool :=
  messages.getLast?.any (·.role = .assistant)

theorem resumable_concat_dummy (messages : Messages) :
    Resumable (messages ++ [⟨.assistant, .none⟩]) := by
  intro last isLast _
  simp only [getLast?_append, getLast?_singleton, Option.some_or, Option.mem_def,
    Option.some.injEq] at isLast
  exact isLast ▸ rfl

variable {messages : Messages}

/-- A dummy message is the only thing either loop removes. -/
theorem Resumable.removeResponse_eq {last : Message} (resumable : Resumable messages)
    (isLast : messages.getLast? = some last) :
    (last.content ≠ .none ∧ last.role ≠ .assistant) ∧ (removeResponse messages).2 = messages ∨
      last.content = .none := by
  by_cases empty : last.content = .none
  · exact .inr empty
  · have notAssistant : last.role ≠ .assistant := fun isAssistant =>
      empty (resumable last isLast isAssistant)
    refine .inl ⟨⟨empty, notAssistant⟩, removeResponse_of_ne ?_⟩
    intro other isOther
    rw [isLast, Option.mem_some_iff] at isOther
    exact isOther ▸ notAssistant

variable {currentTurn : ℕ}

/-- The server writes the completion into the conversation without its dummy message. -/
theorem runMessages_bind (resumable : Resumable messages) (turnPos : 1 ≤ currentTurn)
    (completion : String) :
    ((runMessages currentTurn messages).bind fun prepared =>
      appendCompletion prepared completion) =
      appendCompletion (removeResponse messages).2 completion := by
  rcases Nat.lt_or_ge 1 currentTurn with later | first
  · have notFirst : currentTurn ≠ 1 := by omega
    cases isLast : messages.getLast? with
    | none =>
      simp [runMessages, notFirst, later, lastMessage, isLast, removeResponse,
        appendCompletion, bind, Except.bind]
    | some last =>
      simp only [runMessages, if_neg notFirst, if_pos later, lastMessage, isLast, bind,
        Except.bind, pure, Except.pure]
      rcases resumable.removeResponse_eq isLast with ⟨⟨_, notAssistant⟩, same⟩ | empty
      · rw [same, ite_self]
      · rw [if_neg (by simp [empty, Content.truthy])]
  · have isFirst : currentTurn = 1 := by omega
    subst isFirst
    simp [runMessages, pure, Except.pure, Except.bind]

/-- So does the colocate loop. -/
theorem colocateMessages_bind (resumable : Resumable messages) (completion : String) :
    ((colocateMessages messages).bind fun prepared => appendCompletion prepared completion) =
      appendCompletion (removeResponse messages).2 completion := by
  cases isLast : messages.getLast? with
  | none =>
    simp [colocateMessages, lastMessage, isLast, removeResponse, appendCompletion, bind,
      Except.bind]
  | some last =>
    simp only [colocateMessages, lastMessage, isLast, bind, Except.bind, pure, Except.pure]
    rcases resumable.removeResponse_eq isLast with ⟨⟨present, _⟩, same⟩ | empty
    · rw [if_neg present, same]
    · rw [if_pos empty]

variable {isContinuation : Bool}

/-- A completion is a continuation exactly when the conversation ends in an assistant
message. -/
theorem appendCompletion_isContinuation {messages' : Messages} {completion : String}
    (appended : appendCompletion messages completion = .ok (messages', isContinuation)) :
    isContinuation = endsInAssistant messages := by
  cases isLast : messages.getLast? with
  | none => simp [appendCompletion, lastMessage, isLast, bind, Except.bind] at appended
  | some last =>
    simp only [appendCompletion, lastMessage, isLast, bind, Except.bind] at appended
    by_cases isAssistant : last.role = .assistant
    · rw [if_pos isAssistant] at appended
      cases added : last.content.addText completion with
      | error failure => simp [added] at appended
      | ok content =>
        simp only [added, pure, Except.pure, Except.ok.injEq, Prod.mk.injEq] at appended
        simp [endsInAssistant, isLast, isAssistant, ← appended.2]
    · rw [if_neg isAssistant] at appended
      simp only [pure, Except.pure, Except.ok.injEq, Prod.mk.injEq] at appended
      simp [endsInAssistant, isLast, isAssistant, ← appended.2]

/-! ## One turn of either loop -/

/-- How a turn ends: the code that records the last turn is a parameter. -/
def turnFrom (finish : ResponseLists → Bool → ChatCompletionResponseChoice →
      Except PyError ResponseLists) (missingIds : String) (scheduler : MultiTurnScheduler)
    (response : ChatCompletionResponse) (currentTurn : ℕ) (state : TurnState)
    (appended : Messages × Bool) : Except PyError (TurnState ⊕ RolloutOutput) :=
  let request := { state.currentRequest with messages := appended.1 }
  if scheduler.shouldStop request response.choice currentTurn then
    (finish state.lists appended.2 response.choice).map fun lists =>
      .inr (rolloutOutput response appended.1 lists state.rolloutInfos currentTurn)
  else
    (state.prepareNextTurn missingIds appended.2 response.choice
      (scheduler.step request response.choice currentTurn)).map .inl

/-- The conversation of a turn with the completion of the reply in it. -/
def completedMessages (response : ChatCompletionResponse) (state : TurnState) :
    Except PyError (Messages × Bool) :=
  appendCompletion (removeResponse state.currentRequest.messages).2 response.choice.content

def runMissingIds : String :=
  "You must return response_token_ids if you want to return response_loss_mask"

def colocateMissingIds : String :=
  "You must return response_token_ids with response_loss_mask return"

def ColocateEntry.ofTurn : TurnState ⊕ RolloutOutput → ColocateEntry
  | .inl state => .pending state
  | .inr output => .finished output

variable {state : TurnState}

theorem turn_eq_turnFrom (scheduler : MultiTurnScheduler) (replies : ℕ → ChatCompletionResponse)
    (turnPos : 1 ≤ currentTurn) (resumable : Resumable state.currentRequest.messages) :
    scheduler.turn replies currentTurn state =
      (completedMessages (replies currentTurn) state).bind
        (turnFrom ResponseLists.finishRun runMissingIds scheduler (replies currentTurn)
          currentTurn state) := by
  rw [completedMessages, ← runMessages_bind resumable turnPos]
  simp only [MultiTurnScheduler.turn, bind, pure, Except.pure]
  cases runMessages currentTurn state.currentRequest.messages with
  | error failure => rfl
  | ok messages =>
    simp only [Except.bind]
    cases appendCompletion messages (replies currentTurn).choice.content with
    | error failure => rfl
    | ok appended =>
      simp only [turnFrom, runMissingIds]
      split
      · cases state.lists.finishRun appended.2 (replies currentTurn).choice <;> rfl
      · cases state.prepareNextTurn _ appended.2 (replies currentTurn).choice _ <;> rfl

theorem colocateTurn_eq_turnFrom (scheduler : MultiTurnScheduler)
    (response : ChatCompletionResponse) (currentTurn : ℕ)
    (resumable : Resumable state.currentRequest.messages) :
    colocateTurn scheduler response currentTurn state =
      ((completedMessages response state).bind
        (turnFrom ResponseLists.finishColocate colocateMissingIds scheduler response
          currentTurn state)).map ColocateEntry.ofTurn := by
  rw [completedMessages, ← colocateMessages_bind resumable]
  simp only [colocateTurn, bind, pure, Except.pure]
  cases colocateMessages state.currentRequest.messages with
  | error failure => rfl
  | ok messages =>
    simp only [Except.bind]
    cases appendCompletion messages response.choice.content with
    | error failure => rfl
    | ok appended =>
      simp only [turnFrom, colocateMissingIds]
      split
      · cases state.lists.finishColocate appended.2 response.choice <;> rfl
      · cases state.prepareNextTurn _ appended.2 response.choice _ <;> rfl

variable {state' : TurnState} {responseChoice : ChatCompletionResponseChoice} {ret : StepResult}

/-- What a turn goes on to, when it goes on. -/
theorem prepareNextTurn_eq_ok_iff {missingIds : String} :
    state.prepareNextTurn missingIds isContinuation responseChoice ret = .ok state' ↔
      ∃ lossMask messages,
        state.lists.recordLossMask missingIds isContinuation ret = .ok lossMask ∧
        addDummy ret.inferRequest.messages = .ok messages ∧
        state' = {
          currentRequest := { ret.inferRequest with messages := messages }
          rolloutInfos := (ret.rolloutInfos.getD ∅) ∪ state.rolloutInfos
          lists := ⟨state.lists.recordTokenIds isContinuation ret, lossMask,
            state.lists.recordLogprobs isContinuation (turnLogprobs responseChoice ret)⟩ } := by
  unfold TurnState.prepareNextTurn
  constructor
  · intro prepared
    obtain ⟨lossMask, recorded, rest⟩ := bind_eq_ok.mp prepared
    obtain ⟨messages, dummy, rest⟩ := bind_eq_ok.mp rest
    simp only [pure, Except.pure, Except.ok.injEq] at rest
    exact ⟨lossMask, messages, recorded, dummy, rest.symm⟩
  · rintro ⟨lossMask, messages, recorded, dummy, rfl⟩
    simp only [bind, Except.bind, recorded, dummy, pure, Except.pure]

/-- The text of an assertion does not change what a mask is recorded as. -/
theorem recordLossMask_ok_iff (missingIds missingIds' : String) {lists : ResponseLists}
    {lossMask : List (List ℤ)} :
    lists.recordLossMask missingIds isContinuation ret = .ok lossMask ↔
      lists.recordLossMask missingIds' isContinuation ret = .ok lossMask := by
  unfold ResponseLists.recordLossMask
  cases ret.responseLossMask with
  | none => exact Iff.rfl
  | some mask =>
    cases ret.responseTokenIds with
    | none => simp
    | some ids => exact Iff.rfl

theorem prepareNextTurn_ok_iff (missingIds missingIds' : String) :
    state.prepareNextTurn missingIds isContinuation responseChoice ret = .ok state' ↔
      state.prepareNextTurn missingIds' isContinuation responseChoice ret = .ok state' := by
  simp only [prepareNextTurn_eq_ok_iff, recordLossMask_ok_iff missingIds missingIds']

theorem addDummy_resumable {messages' : Messages} (added : addDummy messages = .ok messages') :
    Resumable messages' := by
  obtain ⟨last, isLast, rest⟩ := bind_eq_ok.mp added
  simp only [pure, Except.pure, Except.ok.injEq] at rest
  subst rest
  by_cases isAssistant : last.role = .assistant
  · simpa only [if_pos isAssistant] using resumable_concat_dummy messages
  · intro other isOther otherAssistant
    rw [if_neg isAssistant, Option.mem_def] at isOther
    rw [lastMessage, isOther] at isLast
    cases isLast
    exact absurd otherAssistant isAssistant

theorem prepareNextTurn_resumable {missingIds : String}
    (prepared : state.prepareNextTurn missingIds isContinuation responseChoice ret = .ok state') :
    Resumable state'.currentRequest.messages := by
  obtain ⟨_, messages, -, dummy, rfl⟩ := prepareNextTurn_eq_ok_iff.mp prepared
  exact addDummy_resumable dummy

/-- Two ways to record the last turn go on to the same states. -/
theorem turnFrom_goesOn_iff
    (finish finish' : ResponseLists → Bool →
      ChatCompletionResponseChoice → Except PyError ResponseLists) (missingIds missingIds' : String)
    {scheduler : MultiTurnScheduler} {response : ChatCompletionResponse}
    {appended : Messages × Bool} :
    turnFrom finish missingIds scheduler response currentTurn state appended = .ok (.inl state') ↔
      turnFrom finish' missingIds' scheduler response currentTurn state appended =
        .ok (.inl state') := by
  unfold turnFrom
  dsimp only
  split
  · constructor
    · intro stopped
      cases recorded : finish state.lists appended.2 response.choice <;>
        simp [recorded, Except.map] at stopped
    · intro stopped
      cases recorded : finish' state.lists appended.2 response.choice <;>
        simp [recorded, Except.map] at stopped
  · have same : state.prepareNextTurn missingIds appended.2 response.choice
          (scheduler.step { state.currentRequest with messages := appended.1 }
            response.choice currentTurn) = .ok state' ↔
        state.prepareNextTurn missingIds' appended.2 response.choice
          (scheduler.step { state.currentRequest with messages := appended.1 }
            response.choice currentTurn) = .ok state' :=
      prepareNextTurn_ok_iff missingIds missingIds'
    cases first : state.prepareNextTurn missingIds appended.2 response.choice
        (scheduler.step { state.currentRequest with messages := appended.1 }
          response.choice currentTurn) <;>
      cases second : state.prepareNextTurn missingIds' appended.2 response.choice
        (scheduler.step { state.currentRequest with messages := appended.1 }
          response.choice currentTurn) <;>
      simp_all [Except.map]

/-! ## The runs of the two loops -/

section Runs

variable (scheduler : MultiTurnScheduler) (replies : ℕ → ChatCompletionResponse)
  (request : RolloutInferRequest)

/-- The server passes through this state at the beginning of a turn. -/
def RunReaches (currentTurn : ℕ) (state : TurnState) : Prop :=
  Reaches (scheduler.turn replies) 1 (.initial request) currentTurn state

/-- The scheduler stops at this turn. -/
def StopsAt (currentTurn : ℕ) (state : TurnState) : Prop :=
  ∃ appended, completedMessages (replies currentTurn) state = .ok appended ∧
    scheduler.shouldStop { state.currentRequest with messages := appended.1 }
      (replies currentTurn).choice currentTurn = true

/-- A turn that stops with a recorded last turn, whatever code records it. -/
def FinishesWith (finish : ResponseLists → Bool → ChatCompletionResponseChoice →
      Except PyError ResponseLists) (currentTurn : ℕ) (state : TurnState)
    (output : RolloutOutput) : Prop :=
  ∃ appended lists, completedMessages (replies currentTurn) state = .ok appended ∧
    scheduler.shouldStop { state.currentRequest with messages := appended.1 }
      (replies currentTurn).choice currentTurn = true ∧
    finish state.lists appended.2 (replies currentTurn).choice = .ok lists ∧
    output = rolloutOutput (replies currentTurn) appended.1 lists state.rolloutInfos currentTurn

variable {scheduler replies request}

variable {currentTurn : ℕ} {state state' : TurnState}

/-- A turn goes on when the scheduler does not stop and the next turn can be prepared. -/
theorem turn_goesOn_iff (turnPos : 1 ≤ currentTurn)
    (resumable : Resumable state.currentRequest.messages) :
    scheduler.turn replies currentTurn state = .ok (.inl state') ↔
      ∃ appended, completedMessages (replies currentTurn) state = .ok appended ∧
        ¬ scheduler.shouldStop { state.currentRequest with messages := appended.1 }
          (replies currentTurn).choice currentTurn = true ∧
        state.prepareNextTurn runMissingIds appended.2 (replies currentTurn).choice
          (scheduler.step { state.currentRequest with messages := appended.1 }
            (replies currentTurn).choice currentTurn) = .ok state' := by
  rw [turn_eq_turnFrom scheduler replies turnPos resumable, bind_eq_ok]
  refine exists_congr fun appended => and_congr_right fun _ => ?_
  unfold turnFrom
  dsimp only
  split
  · rename_i stops
    cases recorded : state.lists.finishRun appended.2 (replies currentTurn).choice <;>
      simp [stops, Except.map]
  · rename_i goesOn
    cases prepared : state.prepareNextTurn runMissingIds appended.2 (replies currentTurn).choice
        (scheduler.step { state.currentRequest with messages := appended.1 }
          (replies currentTurn).choice currentTurn) <;>
      simp [goesOn, Except.map]

theorem turn_resumable (turnPos : 1 ≤ currentTurn)
    (resumable : Resumable state.currentRequest.messages)
    (goesOn : scheduler.turn replies currentTurn state = .ok (.inl state')) :
    Resumable state'.currentRequest.messages := by
  obtain ⟨_, -, -, prepared⟩ := (turn_goesOn_iff turnPos resumable).mp goesOn
  exact prepareNextTurn_resumable prepared

theorem RunReaches.resumable (entry : Resumable request.messages) {currentTurn : ℕ}
    {state : TurnState} (reached : RunReaches scheduler replies request currentTurn state) :
    Resumable state.currentRequest.messages :=
  Reaches.invariant (fun _ state => Resumable state.currentRequest.messages)
    reached entry fun _ _ _ turnPos resumable goesOn => turn_resumable turnPos resumable goesOn

theorem colocatePass_pending (currentTurn : ℕ) (state : TurnState) :
    colocatePass scheduler (fun _ => replies) currentTurn [.pending state] =
      (colocateTurn scheduler (replies currentTurn) currentTurn state).map
        fun entry => .inl [entry] := by
  simp only [colocatePass, ColocateEntry.output?, mapM_cons, mapM_nil,
    Option.bind_none, zipIdx_cons, zipIdx_nil, pure, bind]
  cases colocateTurn scheduler (replies currentTurn) currentTurn state <;> rfl

theorem colocatePass_finished (currentTurn : ℕ) (output : RolloutOutput) :
    colocatePass scheduler (fun _ => replies) currentTurn [.finished output] =
      .ok (.inr [output]) := rfl

/-- The server goes on exactly when the colocate loop does, and to the same state. -/
theorem colocateTurn_goesOn_iff (turnPos : 1 ≤ currentTurn)
    (resumable : Resumable state.currentRequest.messages) :
    colocateTurn scheduler (replies currentTurn) currentTurn state = .ok (.pending state') ↔
      scheduler.turn replies currentTurn state = .ok (.inl state') := by
  rw [turn_eq_turnFrom scheduler replies turnPos resumable,
    colocateTurn_eq_turnFrom scheduler _ _ resumable]
  cases completedMessages (replies currentTurn) state with
  | error failure => simp [Except.bind, Except.map]
  | ok appended =>
    simp only [Except.bind]
    rw [turnFrom_goesOn_iff _ ResponseLists.finishColocate _ colocateMissingIds]
    cases turnFrom ResponseLists.finishColocate colocateMissingIds scheduler
        (replies currentTurn) currentTurn state appended with
    | error failure => simp [Except.map]
    | ok outcome => cases outcome <;> simp [Except.map, ColocateEntry.ofTurn]

variable {output : RolloutOutput}

theorem turnFrom_stops_iff
    {finish : ResponseLists → Bool → ChatCompletionResponseChoice → Except PyError ResponseLists}
    (missingIds : String) :
    (completedMessages (replies currentTurn) state).bind
        (turnFrom finish missingIds scheduler (replies currentTurn) currentTurn state) =
        .ok (.inr output) ↔
      FinishesWith scheduler replies finish currentTurn state
        output := by
  unfold FinishesWith
  rw [bind_eq_ok]
  refine exists_congr fun appended => ?_
  constructor
  · rintro ⟨completed, ended⟩
    unfold turnFrom at ended
    dsimp only at ended
    split at ended
    · rename_i stops
      cases recorded : finish state.lists appended.2 (replies currentTurn).choice with
      | error failure => simp [recorded, Except.map] at ended
      | ok lists =>
        simp only [recorded, Except.map, Except.ok.injEq, Sum.inr.injEq] at ended
        exact ⟨lists, completed, stops, rfl, ended.symm⟩
    · cases prepared : state.prepareNextTurn missingIds appended.2 (replies currentTurn).choice
          (scheduler.step { state.currentRequest with messages := appended.1 }
            (replies currentTurn).choice currentTurn) <;>
        simp [prepared, Except.map] at ended
  · rintro ⟨lists, completed, stops, recorded, rfl⟩
    exact ⟨completed, by simp [turnFrom, stops, recorded, Except.map]⟩

theorem turn_stops_iff (turnPos : 1 ≤ currentTurn)
    (resumable : Resumable state.currentRequest.messages) :
    scheduler.turn replies currentTurn state = .ok (.inr output) ↔
      FinishesWith scheduler replies ResponseLists.finishRun
        currentTurn state output := by
  rw [turn_eq_turnFrom scheduler replies turnPos resumable, turnFrom_stops_iff]

theorem colocateTurn_finished_iff (resumable : Resumable state.currentRequest.messages) :
    colocateTurn scheduler (replies currentTurn) currentTurn state = .ok (.finished output) ↔
      FinishesWith scheduler replies ResponseLists.finishColocate
        currentTurn state output := by
  rw [colocateTurn_eq_turnFrom scheduler _ _ resumable, ← turnFrom_stops_iff
    colocateMissingIds]
  cases (completedMessages (replies currentTurn) state).bind
      (turnFrom ResponseLists.finishColocate colocateMissingIds scheduler (replies currentTurn)
        currentTurn state) with
  | error failure => simp [Except.map]
  | ok outcome => cases outcome <;> simp [Except.map, ColocateEntry.ofTurn]

section

variable (entry : Resumable request.messages)
include entry

/-- What the server produces: the record of the turn at which the scheduler stops. -/
theorem serverProduces_iff (observed : Observed) :
    ServerProduces scheduler replies request observed ↔
      ∃ currentTurn state output, RunReaches scheduler replies request currentTurn state ∧
        FinishesWith scheduler replies ResponseLists.finishRun
          currentTurn state output ∧ output.observed = observed := by
  constructor
  · rintro ⟨fuel, output, ran, shown⟩
    obtain ⟨currentTurn, state, reached, stops⟩ := execute_eq_some_iff.mp ⟨fuel, ran⟩
    exact ⟨currentTurn, state, output, reached,
      (turn_stops_iff reached.first_le (RunReaches.resumable entry reached)).mp stops, shown⟩
  · rintro ⟨currentTurn, state, output, reached, finishes, shown⟩
    have stops := (turn_stops_iff reached.first_le
      (RunReaches.resumable entry reached)).mpr finishes
    obtain ⟨fuel, ran⟩ := execute_eq_some_iff.mpr ⟨currentTurn, state, reached, stops⟩
    exact ⟨fuel, output, ran, shown⟩

/-- While the server goes on, the colocate loop holds the same pending state. -/
theorem colocate_reaches (reached : RunReaches scheduler replies request currentTurn state) :
    Reaches (colocatePass scheduler fun _ => replies) 1 [.pending (.initial request)] currentTurn
      [.pending state] := by
  induction reached with
  | refl => exact .refl
  | next earlier goesOn ih =>
    have next := (colocateTurn_goesOn_iff earlier.first_le
      (RunReaches.resumable entry earlier)).mpr goesOn
    exact .next ih (by rw [colocatePass_pending, next]; rfl)

/-- What the colocate loop holds is a state the server passes through, or the output of
a turn that starts from one. -/
theorem colocate_reached_cases {pass : ℕ} {entries : List ColocateEntry}
    (reached : Reaches (colocatePass scheduler fun _ => replies) 1
      [.pending (.initial request)] pass entries) :
    (∃ state, entries = [.pending state] ∧ RunReaches scheduler replies request pass state) ∨
      ∃ currentTurn state output, entries = [.finished output] ∧
        RunReaches scheduler replies request currentTurn state ∧
        FinishesWith scheduler replies ResponseLists.finishColocate
          currentTurn state output := by
  induction reached with
  | refl => exact .inl ⟨_, rfl, .refl⟩
  | @next pass _ entries' _ goesOn ih =>
    rcases ih with ⟨state, rfl, reachedState⟩ | ⟨_, _, output, rfl, _, _⟩
    · have resumable := RunReaches.resumable entry reachedState
      rw [colocatePass_pending] at goesOn
      cases turned : colocateTurn scheduler (replies pass) pass state with
      | error failure => simp [turned, Except.map] at goesOn
      | ok ended =>
        simp only [turned, Except.map, Except.ok.injEq, Sum.inl.injEq] at goesOn
        subst goesOn
        cases ended with
        | pending state' =>
          exact .inl ⟨state', rfl, .next reachedState
            ((colocateTurn_goesOn_iff reachedState.first_le resumable).mp turned)⟩
        | finished output =>
          exact .inr ⟨pass, state, output, rfl, reachedState,
            (colocateTurn_finished_iff resumable).mp turned⟩
    · rw [colocatePass_finished] at goesOn
      cases goesOn

/-- What the colocate loop produces: its own record of the turn at which the scheduler
stops. -/
theorem colocateProduces_iff (observed : Observed) :
    ColocateProduces scheduler replies request observed ↔
      ∃ currentTurn state output, RunReaches scheduler replies request currentTurn state ∧
        FinishesWith scheduler replies ResponseLists.finishColocate
          currentTurn state output ∧ output.observed = observed := by
  constructor
  · rintro ⟨fuel, output, ran, shown⟩
    obtain ⟨pass, entries, reached, stops⟩ := execute_eq_some_iff.mp ⟨fuel, ran⟩
    rcases colocate_reached_cases entry reached with
      ⟨state, rfl, -⟩ | ⟨currentTurn, state, output', rfl, reachedState, finishes⟩
    · rw [colocatePass_pending] at stops
      cases turned : colocateTurn scheduler (replies pass) pass state <;>
        simp [turned, Except.map] at stops
    · rw [colocatePass_finished] at stops
      simp only [Except.ok.injEq, Sum.inr.injEq, List.cons.injEq, and_true] at stops
      subst stops
      exact ⟨currentTurn, state, output', reachedState, finishes, shown⟩
  · rintro ⟨currentTurn, state, output, reached, finishes, shown⟩
    have turned := (colocateTurn_finished_iff (RunReaches.resumable entry reached)).mpr finishes
    have reachedOutput : Reaches (colocatePass scheduler fun _ => replies) 1
        [.pending (.initial request)] (currentTurn + 1) [.finished output] :=
      .next (colocate_reaches entry reached) (by rw [colocatePass_pending, turned]; rfl)
    obtain ⟨fuel, ran⟩ := execute_eq_some_iff.mpr
      ⟨_, _, reachedOutput, colocatePass_finished _ output⟩
    exact ⟨fuel, output, ran, shown⟩

end

theorem colocateProduces_unique {first second : Observed}
    (produces : ColocateProduces scheduler replies request first)
    (producesSecond : ColocateProduces scheduler replies request second) : first = second := by
  obtain ⟨fuel, output, ran, rfl⟩ := produces
  obtain ⟨fuel', output', ran', rfl⟩ := producesSecond
  have same : [output] = [output'] :=
    Yields.unique (execute_eq_some_iff.mp ⟨fuel, ran⟩) (execute_eq_some_iff.mp ⟨fuel', ran'⟩)
  simpa using congrArg (map RolloutOutput.observed) same

theorem serverProduces_unique {first second : Observed}
    (produces : ServerProduces scheduler replies request first)
    (producesSecond : ServerProduces scheduler replies request second) : first = second := by
  obtain ⟨fuel, output, ran, rfl⟩ := produces
  obtain ⟨fuel', output', ran', rfl⟩ := producesSecond
  have same : output = output' :=
    Yields.unique (execute_eq_some_iff.mp ⟨fuel, ran⟩) (execute_eq_some_iff.mp ⟨fuel', ran'⟩)
  rw [same]

/-! ## The record of the last turn -/

/-- A reply without token ids adds nothing to the log probabilities an output shows: it
has none, or they match the recorded tokens neither with nor without it. -/
def LogprobsAgree (lists : ResponseLists) (responseChoice : ChatCompletionResponseChoice) :
    Prop :=
  extractLogprobsFromChoice responseChoice = [] ∨
    lists.trainedCount ≠
        lists.logprobCount + (extractLogprobsFromChoice responseChoice).length ∧
      (lists.logprobs = [] ∨ lists.trainedCount ≠ lists.logprobCount)

/-- The two loops record the last turn alike: it continues an assistant message, or no
ids are recorded yet, or its reply has no ids and nothing to add to the log
probabilities. -/
def FinalTurnAgrees (state : TurnState) (responseChoice : ChatCompletionResponseChoice) :
    Prop :=
  endsInAssistant (removeResponse state.currentRequest.messages).2 = true ∨
    state.lists.tokenIds = [] ∨
    (responseChoice.tokenIds.getD [] = [] ∧ LogprobsAgree state.lists responseChoice)

variable {lists : ResponseLists}

/-- A last turn without ids only appends its log probabilities. -/
theorem appendLast_of_noIds {responseChoice : ChatCompletionResponseChoice}
    (noIds : responseChoice.tokenIds.getD [] = [])
    (someLogprobs : extractLogprobsFromChoice responseChoice ≠ []) :
    lists.appendLast responseChoice =
      { lists with logprobs := lists.logprobs ++ [extractLogprobsFromChoice responseChoice] } := by
  simp [ResponseLists.appendLast, noIds, someLogprobs]

theorem finalRolloutLogprobs_of_recorded (recorded : lists.tokenIds ≠ []) :
    lists.finalRolloutLogprobs =
      if lists.logprobs = [] ∨ lists.trainedCount ≠ lists.logprobCount then []
      else lists.logprobs := by
  by_cases noLogprobs : lists.logprobs = [] <;>
    simp [ResponseLists.finalRolloutLogprobs, recorded, noLogprobs]

/-- Appending the last turn shows nothing new exactly when it has no ids and its log
probabilities agree. -/
theorem observed_appendLast_iff (recorded : lists.tokenIds ≠ [])
    (responseChoice : ChatCompletionResponseChoice) (messages : Messages) :
    lists.observed messages = (lists.appendLast responseChoice).observed messages ↔
      responseChoice.tokenIds.getD [] = [] ∧ LogprobsAgree lists responseChoice := by
  by_cases noIds : responseChoice.tokenIds.getD [] = []
  · by_cases noLogprobs : extractLogprobsFromChoice responseChoice = []
    · simp [ResponseLists.observed, ResponseLists.appendLast, noIds, noLogprobs, LogprobsAgree,
        ResponseLists.finalRolloutLogprobs, ResponseLists.trainedCount, ResponseLists.logprobCount]
    · rw [appendLast_of_noIds noIds noLogprobs]
      set current := extractLogprobsFromChoice responseChoice with isCurrent
      have counted : ({ lists with logprobs := lists.logprobs ++ [current] } :
          ResponseLists).logprobCount = lists.logprobCount + current.length := by
        simp [ResponseLists.logprobCount]
      have trained : ({ lists with logprobs := lists.logprobs ++ [current] } :
          ResponseLists).trainedCount = lists.trainedCount := rfl
      simp only [ResponseLists.observed, Observed.mk.injEq, true_and, LogprobsAgree, noIds,
        ← isCurrent, noLogprobs, false_or, finalRolloutLogprobs_of_recorded recorded]
      have final := finalRolloutLogprobs_of_recorded (show ({ lists with
          logprobs := lists.logprobs ++ [current] } : ResponseLists).tokenIds ≠ [] from recorded)
      rw [final, counted, trained]
      by_cases matchesNew : lists.trainedCount = lists.logprobCount + current.length
      · -- the longer list is kept, and it is not what the shorter one shows
        have notOld : lists.trainedCount ≠ lists.logprobCount := by
          have : current.length ≠ 0 := by simpa using noLogprobs
          omega
        rw [if_pos (.inr notOld), if_neg (by simp [matchesNew])]
        simp [matchesNew]
      · rw [if_pos (c := _ ∨ lists.trainedCount ≠ lists.logprobCount + _) (.inr matchesNew)]
        by_cases cleared : lists.logprobs = [] ∨ lists.trainedCount ≠ lists.logprobCount
        · rw [if_pos cleared]
          exact ⟨fun _ => ⟨matchesNew, cleared⟩, fun _ => rfl⟩
        · rw [if_neg cleared]
          exact ⟨fun none => absurd (.inl none) cleared, fun agrees => absurd agrees.2 cleared⟩
  · simp [ResponseLists.observed, ResponseLists.appendLast, noIds]

/-- The two records of a turn succeed together and show the same exactly when the last
turn agrees. -/
theorem observed_finish_eq_iff {appended : Messages × Bool} {runLists : ResponseLists}
    (completed : completedMessages (replies currentTurn) state = .ok appended)
    (recorded : state.lists.finishRun appended.2 (replies currentTurn).choice = .ok runLists) :
    (∃ colocateLists,
        state.lists.finishColocate appended.2 (replies currentTurn).choice = .ok colocateLists ∧
        colocateLists.observed appended.1 = runLists.observed appended.1) ↔
      FinalTurnAgrees state (replies currentTurn).choice := by
  have continues := appendCompletion_isContinuation completed
  unfold FinalTurnAgrees
  rw [← continues]
  unfold ResponseLists.finishRun at recorded
  unfold ResponseLists.finishColocate
  by_cases continuation : appended.2 = true ∧ state.lists.tokenIds ≠ []
  · rw [if_pos continuation] at recorded ⊢
    simp [recorded, continuation.1]
  · rw [if_neg continuation] at recorded ⊢
    by_cases noIds : state.lists.tokenIds = []
    · rw [if_pos noIds] at recorded ⊢
      simp [recorded, noIds]
    · rw [if_neg noIds] at recorded ⊢
      cases recorded
      have notContinuation : ¬ appended.2 = true := fun isContinuation =>
        continuation ⟨isContinuation, noIds⟩
      simp only [Except.ok.injEq, exists_eq_left', notContinuation, noIds, false_or,
        Bool.false_eq_true]
      rw [eq_comm, observed_appendLast_iff noIds]

/-- The records of a turn fail together. -/
theorem finishRun_isOk_of_finishColocate {colocateLists : ResponseLists} {isContinuation : Bool}
    {responseChoice : ChatCompletionResponseChoice}
    (recorded : lists.finishColocate isContinuation responseChoice = .ok colocateLists) :
    ∃ runLists, lists.finishRun isContinuation responseChoice = .ok runLists := by
  unfold ResponseLists.finishColocate at recorded
  unfold ResponseLists.finishRun
  by_cases continuation : isContinuation = true ∧ lists.tokenIds ≠ []
  · rw [if_pos continuation] at recorded ⊢
    exact ⟨_, recorded⟩
  · rw [if_neg continuation]
    by_cases noIds : lists.tokenIds = []
    · exact ⟨_, if_pos noIds⟩
    · exact ⟨_, if_neg noIds⟩

/-- **The two loops produce the same conversation, ids, loss masks and log probabilities
exactly when they agree on the turn at which they stop**, for a request that does not
end in an assistant message with a content. -/
theorem run_agrees_colocate_iff (scheduler : MultiTurnScheduler)
    (replies : ℕ → ChatCompletionResponse) (request : RolloutInferRequest)
    (entry : Resumable request.messages) :
    (∀ observed, ServerProduces scheduler replies request observed ↔
        ColocateProduces scheduler replies request observed) ↔
      ∀ currentTurn state, RunReaches scheduler replies request currentTurn state →
        StopsAt scheduler replies currentTurn state →
          FinalTurnAgrees state (replies currentTurn).choice := by
  constructor
  · intro same currentTurn state reached stops
    obtain ⟨appended, completed, stop⟩ := stops
    by_cases continuation : appended.2 = true ∧ state.lists.tokenIds ≠ []
    · exact .inl (appendCompletion_isContinuation completed ▸ continuation.1)
    by_cases noIds : state.lists.tokenIds = []
    · exact .inr (.inl noIds)
    -- here the server records nothing and the colocate loop appends the turn
    have recordedRun : state.lists.finishRun appended.2 (replies currentTurn).choice =
        .ok state.lists := by
      rw [ResponseLists.finishRun, if_neg continuation, if_neg noIds]
    have recordedColocate : state.lists.finishColocate appended.2 (replies currentTurn).choice =
        .ok (state.lists.appendLast (replies currentTurn).choice) := by
      rw [ResponseLists.finishColocate, if_neg continuation, if_neg noIds]
    have server := (serverProduces_iff entry _).mpr
      ⟨currentTurn, state, _, reached, ⟨appended, _, completed, stop, recordedRun, rfl⟩, rfl⟩
    have colocate := (colocateProduces_iff entry _).mpr
      ⟨currentTurn, state, _, reached, ⟨appended, _, completed, stop, recordedColocate, rfl⟩, rfl⟩
    have shown := colocateProduces_unique ((same _).mp server) colocate
    exact (observed_finish_eq_iff completed recordedRun).mp ⟨_, recordedColocate, shown.symm⟩
  · intro agrees observed
    rw [serverProduces_iff entry, colocateProduces_iff entry]
    constructor
    · rintro ⟨currentTurn, state, _, reached, ⟨appended, runLists, completed, stop, recorded, rfl⟩,
        rfl⟩
      obtain ⟨colocateLists, recordedColocate, shown⟩ :=
        (observed_finish_eq_iff completed recorded).mpr
          (agrees currentTurn state reached ⟨appended, completed, stop⟩)
      exact ⟨currentTurn, state, _, reached,
        ⟨appended, colocateLists, completed, stop, recordedColocate, rfl⟩, shown⟩
    · rintro ⟨currentTurn, state, _, reached,
        ⟨appended, colocateLists, completed, stop, recorded, rfl⟩, rfl⟩
      obtain ⟨runLists, recordedRun⟩ := finishRun_isOk_of_finishColocate recorded
      obtain ⟨otherLists, recordedOther, shown⟩ :=
        (observed_finish_eq_iff completed recordedRun).mpr
          (agrees currentTurn state reached ⟨appended, completed, stop⟩)
      rw [recorded] at recordedOther
      cases recordedOther
      exact ⟨currentTurn, state, _, reached,
        ⟨appended, runLists, completed, stop, recordedRun, rfl⟩, shown.symm⟩

end Runs

/-- A scheduler of two turns that asks again after the first reply, and records the ids
of each turn. -/
def askAgain : MultiTurnScheduler where
  maxTurns := some 2
  checkFinished := baseCheckFinished (some 2)
  step request responseChoice _ := {
    inferRequest := { request with
      messages := request.messages ++ [⟨.user, .text "Are you sure?"⟩] }
    responseTokenIds := some (responseChoice.tokenIds.getD [])
    responseLossMask := some (onesMask (responseChoice.tokenIds.getD []))
    rolloutInfos := none
    rolloutLogprobs := none }

/-- A request with one user message. -/
def question : RolloutInferRequest where
  messages := [⟨.user, .text "Where was this photo taken?"⟩]
  images := ["photo.jpg"]
  audios := []
  videos := []
  tools := none
  objects := []
  dataDict := []
  uuid := some "request-0"

/-- The reply at a turn is one word with one id, the number of the turn. -/
def numberedReply (currentTurn : ℕ) : ChatCompletionResponse where
  id := "request-0"
  choice := {
    content := "Paris"
    finishReason := some .stop
    logprobs := none
    tokenIds := some [currentTurn] }

theorem run_agrees_colocate_askAgain :
    (∀ observed, ServerProduces askAgain numberedReply question observed ↔
        ColocateProduces askAgain numberedReply question observed) ↔
      ∀ currentTurn state, RunReaches askAgain numberedReply question currentTurn state →
        StopsAt askAgain numberedReply currentTurn state →
          FinalTurnAgrees state (numberedReply currentTurn).choice :=
  run_agrees_colocate_iff askAgain numberedReply question (by
    intro last isLast isAssistant
    cases isLast
    cases isAssistant)

/-- The conversation of `askAgain` after its second turn. -/
def askedAgain : Messages :=
  [⟨.user, .text "Where was this photo taken?"⟩, ⟨.assistant, .text "Paris"⟩,
    ⟨.user, .text "Are you sure?"⟩, ⟨.assistant, .text "Paris"⟩]

/-- **The two loops do not agree on a new assistant message in the last turn**: the
server returns the ids of the first turn only. -/
theorem server_drops_last_turn :
    ServerProduces askAgain numberedReply question ⟨askedAgain, [[1]], [[1]], []⟩ ∧
      ColocateProduces askAgain numberedReply question
        ⟨askedAgain, [[1], [2]], [[1], [1]], []⟩ ∧
      ¬ ∀ observed, ServerProduces askAgain numberedReply question observed ↔
        ColocateProduces askAgain numberedReply question observed := by
  have server : ServerProduces askAgain numberedReply question ⟨askedAgain, [[1]], [[1]], []⟩ :=
    ⟨2, _, rfl, rfl⟩
  have colocate : ColocateProduces askAgain numberedReply question
      ⟨askedAgain, [[1], [2]], [[1], [1]], []⟩ := ⟨3, _, rfl, rfl⟩
  refine ⟨server, colocate, fun same => ?_⟩
  have equal := serverProduces_unique server ((same _).mpr colocate)
  exact absurd equal (by decide)

/-- A request that ends in an assistant message with a content is entered differently: the server
pops the message, and the colocate loop continues it. -/
theorem entry_messages_differ {messages : Messages} (answered : ¬ Resumable messages) :
    runMessages 1 messages ≠ colocateMessages messages := by
  simp only [Resumable, not_forall] at answered
  obtain ⟨last, isLast, isAssistant, present⟩ := answered
  rw [Option.mem_def] at isLast
  have entered : runMessages 1 messages = .ok messages.dropLast := by
    simp [runMessages, removeResponse, isLast, isAssistant, pure, Except.pure]
  have kept : colocateMessages messages = .ok messages := by
    simp [colocateMessages, lastMessage, isLast, present, bind, Except.bind, pure, Except.pure]
  have nonempty : messages ≠ [] := by
    rintro rfl
    simp at isLast
  rw [entered, kept]
  intro same
  have lengths := congrArg List.length (Except.ok.inj same)
  rw [length_dropLast] at lengths
  have := length_pos_iff.mpr nonempty
  omega

end Geobench.Rollout
