import Geobench.Rollout.LoopAgreement
import Mathlib.Data.List.Induction

/-!
# The ids of the assistant messages

A run of the server is logged: each turn adds a record of the assistant message its
completion was written to and of the ids generated at the turn (`LoggedRun`). The ids
generated for a message are the ids of its records, in order (`generatedIds`).

A scheduler keeps its turns when `step` returns the ids of its turn with a loss mask of
their length, and gives the next turn a conversation with the same roles and perhaps
further messages that are not assistant messages (`KeepsTurns`). For such a scheduler
the recorded lists are, at the beginning of every turn, the generated ids of the
assistant messages in message order (`RecordInv`, `LoggedRun.recordInv`).

At the last turn this stays true when the turn continues an assistant message, or is the first turn
and its reply has ids. Only then has the output one list of ids for each assistant message
(`run_ids_per_message_iff`).
-/

namespace Geobench.Rollout

open Library Library.LoopBody List

/-! ## Replacing from the end is replacing in order -/

/-- Give the contents to the assistant messages, in message order. -/
def assignContents : Messages → List Content → Messages
  | [], _ => []
  | message :: rest, contents =>
    if message.role = .assistant then
      match contents with
      | [] => message :: assignContents rest []
      | content :: contents => { message with content := content } :: assignContents rest contents
    else
      message :: assignContents rest contents

theorem assignContents_concat_assistant (messages : Messages) (message : Message)
    (isAssistant : message.role = .assistant) (contents : List Content) (content : Content)
    (counted : contents.length = assistantCount messages) :
    assignContents (messages ++ [message]) (contents ++ [content]) =
      assignContents messages contents ++ [{ message with content := content }] := by
  induction messages generalizing contents with
  | nil =>
    obtain rfl : contents = [] := length_eq_zero_iff.mp counted
    simp [assignContents, isAssistant]
  | cons first rest ih =>
    by_cases firstAssistant : first.role = .assistant
    · cases contents with
      | nil => simp [assistantCount, firstAssistant] at counted
      | cons head tail =>
        simp only [assistantCount, length_cons, firstAssistant, decide_true,
          countP_cons_of_pos, Nat.add_right_cancel_iff] at counted
        simp [assignContents, firstAssistant, ih tail counted]
    · simp only [assistantCount, firstAssistant, decide_false, Bool.false_eq_true,
        not_false_eq_true, countP_cons_of_neg] at counted
      simp [assignContents, firstAssistant, ih contents counted]

theorem assignContents_concat_other (messages : Messages) (message : Message)
    (notAssistant : message.role ≠ .assistant) (contents : List Content) :
    assignContents (messages ++ [message]) contents =
      assignContents messages contents ++ [message] := by
  induction messages generalizing contents with
  | nil => simp [assignContents, notAssistant]
  | cons first rest ih =>
    by_cases firstAssistant : first.role = .assistant
    · cases contents <;> simp [assignContents, firstAssistant, ih]
    · simp [assignContents, firstAssistant, ih]

/-- With one content for each assistant message, the walk from the end gives each
message the content of its place. -/
theorem replaceReversed_reverse (messages : Messages) (contents : List Content)
    (counted : contents.length = assistantCount messages) :
    (replaceReversed messages.reverse contents.reverse).reverse =
      assignContents messages contents := by
  induction messages using List.reverseRecOn generalizing contents with
  | nil => cases contents <;> simp [replaceReversed, assignContents]
  | append_singleton messages last ih =>
    by_cases isAssistant : last.role = .assistant
    · cases contents using List.reverseRecOn with
      | nil => simp [assistantCount, isAssistant] at counted
      | append_singleton contents content =>
        have countedInit : contents.length = assistantCount messages := by
          simpa [assistantCount, isAssistant] using counted
        rw [assignContents_concat_assistant _ _ isAssistant _ _ countedInit]
        simp [replaceReversed, isAssistant, ih contents countedInit]
    · have countedInit : contents.length = assistantCount messages := by
        simpa [assistantCount, isAssistant] using counted
      rw [assignContents_concat_other _ _ isAssistant]
      have walk := ih contents countedInit
      rw [reverse_append, reverse_singleton, singleton_append, ← walk]
      cases contents.reverse with
      | nil => cases messages.reverse <;> simp [replaceReversed]
      | cons content rest => simp [replaceReversed, isAssistant]

/-! ## Recording a turn -/

@[simp] theorem flatten_recordTurn {α : Type} (isContinuation : Bool) (turns : List (List α))
    (turn : List α) : (recordTurn isContinuation turns turn).flatten = turns.flatten ++ turn := by
  unfold recordTurn
  split
  · rename_i continuation
    obtain ⟨init, last, rfl⟩ := eq_nil_or_concat'.{0} turns |>.resolve_left continuation.2
    simp
  · simp

theorem map_length_recordTurn {α β : Type} (isContinuation : Bool) {turns : List (List α)}
    {turn : List α} {masks : List (List β)} {mask : List β}
    (lengths : masks.map List.length = turns.map List.length)
    (length : mask.length = turn.length) :
    (recordTurn isContinuation masks mask).map List.length =
      (recordTurn isContinuation turns turn).map List.length := by
  have emptyIff : masks = [] ↔ turns = [] := by
    rw [← map_eq_nil_iff (f := List.length), lengths, map_eq_nil_iff]
  by_cases continuation : isContinuation = true ∧ turns ≠ []
  · have continuationMask : isContinuation = true ∧ masks ≠ [] :=
      ⟨continuation.1, fun empty => continuation.2 (emptyIff.mp empty)⟩
    rw [recordTurn, if_pos continuationMask, recordTurn, if_pos continuation]
    obtain ⟨init, last, rfl⟩ := (eq_nil_or_concat' turns).resolve_left continuation.2
    obtain ⟨initMask, lastMask, rfl⟩ :=
      (eq_nil_or_concat' masks).resolve_left continuationMask.2
    simp only [map_append, map_cons, map_nil] at lengths
    obtain ⟨inits, lasts⟩ := append_inj' lengths rfl
    simp only [List.cons.injEq, and_true] at lasts
    simp [inits, lasts, length]
  · have continuationMask : ¬(isContinuation = true ∧ masks ≠ []) := fun both =>
      continuation ⟨both.1, fun empty => both.2 (emptyIff.mpr empty)⟩
    rw [recordTurn, if_neg continuationMask, recordTurn, if_neg continuation]
    simp [lengths, length]

/-! ## The log of a run -/

/-- A turn writes its completion to an assistant message, counted from the first one,
and generates ids. -/
structure TurnRecord where
  message : ℕ
  ids : List ℕ
  deriving DecidableEq, Repr

def generatedIds (log : List TurnRecord) (message : ℕ) : List ℕ :=
  (log.filter (·.message = message)).flatMap TurnRecord.ids

theorem generatedIds_concat (log : List TurnRecord) (record : TurnRecord) (message : ℕ) :
    generatedIds (log ++ [record]) message =
      generatedIds log message ++ if record.message = message then record.ids else [] := by
  by_cases same : record.message = message <;> simp [generatedIds, filter_append, same]

theorem generatedIds_eq_nil {log : List TurnRecord} {count : ℕ}
    (bounded : ∀ record ∈ log, record.message < count) : generatedIds log count = [] := by
  have none : log.filter (·.message = count) = [] := by
    rw [filter_eq_nil_iff]
    intro record member
    have := bounded record member
    simp only [decide_eq_true_eq]
    omega
  rw [generatedIds, none, flatMap_nil]

/-- Recording a turn keeps the recorded lists the generated ids of the messages. A
continuation belongs to the last message, and any other turn to a new one. -/
theorem recordTurn_generatedIds {log : List TurnRecord} {count : ℕ} {isContinuation : Bool}
    (bounded : ∀ record ∈ log, record.message < count)
    (continues : isContinuation = true → 0 < count) (ids : List ℕ) :
    recordTurn isContinuation ((List.range count).map (generatedIds log)) ids =
      (List.range (count + if isContinuation then 0 else 1)).map
        (generatedIds (log ++ [⟨(count + if isContinuation then 0 else 1) - 1, ids⟩])) := by
  cases isContinuation with
  | true =>
    obtain ⟨earlier, rfl⟩ : ∃ earlier, count = earlier + 1 :=
      ⟨count - 1, by have := continues rfl; omega⟩
    have unchanged : (List.range earlier).map (generatedIds (log ++ [⟨earlier, ids⟩])) =
        (List.range earlier).map (generatedIds log) := by
      refine map_congr_left fun message member => ?_
      have before := mem_range.mp member
      rw [generatedIds_concat, if_neg (by simp only; omega), append_nil]
    simp [recordTurn, range_succ, generatedIds_concat, unchanged]
  | false =>
    have unchanged : (List.range count).map (generatedIds (log ++ [⟨count, ids⟩])) =
        (List.range count).map (generatedIds log) := by
      refine map_congr_left fun message member => ?_
      have before := mem_range.mp member
      rw [generatedIds_concat, if_neg (by simp only; omega), append_nil]
    simp [recordTurn, range_succ, generatedIds_concat, unchanged, generatedIds_eq_nil bounded]

/-! ## Schedulers that keep their turns -/

/-- A scheduler whose `step` returns the ids of its turn with a loss mask of their length,
and keeps the messages of the conversation: it may rewrite contents and append messages
that are not assistant messages. -/
structure KeepsTurns (scheduler : MultiTurnScheduler) : Prop where
  returnsIds : ∀ request responseChoice currentTurn, ∃ ids mask,
    (scheduler.step request responseChoice currentTurn).responseTokenIds = some ids ∧
    (scheduler.step request responseChoice currentTurn).responseLossMask = some mask ∧
    mask.length = ids.length ∧ ∀ weight ∈ mask, weight = 0 ∨ weight = 1
  keepsMessages : ∀ request responseChoice currentTurn, ∃ added, Role.assistant ∉ added ∧
    (scheduler.step request responseChoice currentTurn).inferRequest.messages.map Message.role =
      request.messages.map Message.role ++ added

section Log

variable (scheduler : MultiTurnScheduler) (replies : ℕ → ChatCompletionResponse)
  (request : RolloutInferRequest)

/-- What `step` returns at a turn. -/
def stepResult (currentTurn : ℕ) (state : TurnState) (messages : Messages) : StepResult :=
  scheduler.step { state.currentRequest with messages := messages }
    (replies currentTurn).choice currentTurn

/-- The states a run passes through, each with the records of the turns before it. -/
inductive LoggedRun : ℕ → TurnState → List TurnRecord → Prop where
  | start : LoggedRun 1 (.initial request) []
  | turn {currentTurn : ℕ} {state state' : TurnState} {log : List TurnRecord}
      {appended : Messages × Bool} :
      LoggedRun currentTurn state log →
        completedMessages (replies currentTurn) state = .ok appended →
        scheduler.turn replies currentTurn state = .ok (.inl state') →
        LoggedRun (currentTurn + 1) state' (log ++ [{
          message := assistantCount appended.1 - 1
          ids := ((stepResult scheduler replies currentTurn state
            appended.1).responseTokenIds).getD [] }])

/-- A run that stops at a turn, with the records of all its turns and its output. The ids
generated at the last turn are those of its reply. -/
def FinishedRun (lastTurn : ℕ) (state : TurnState) (log : List TurnRecord)
    (output : RolloutOutput) : Prop :=
  ∃ earlier appended, LoggedRun scheduler replies request lastTurn state earlier ∧
    completedMessages (replies lastTurn) state = .ok appended ∧
    scheduler.turn replies lastTurn state = .ok (.inr output) ∧
    log = earlier ++ [{
      message := assistantCount appended.1 - 1
      ids := (replies lastTurn).choice.tokenIds.getD [] }]

/-! ## The conversation of a turn -/

/-- The conversation a turn writes its completion into: a dummy message is removed. -/
def TurnState.conversation (state : TurnState) : Messages :=
  (removeResponse state.currentRequest.messages).2

variable {messages : Messages}

/-- The dummy message is removed again at the next turn. -/
theorem removeResponse_addDummy {messages' : Messages} (added : addDummy messages = .ok messages') :
    (removeResponse messages').2 = messages := by
  obtain ⟨last, isLast, rest⟩ := bind_eq_ok.mp added
  simp only [pure, Except.pure, Except.ok.injEq] at rest
  subst rest
  by_cases isAssistant : last.role = .assistant
  · rw [if_pos isAssistant, removeResponse_concat_assistant]
  · rw [if_neg isAssistant]
    apply removeResponse_of_ne
    intro other isOther
    rw [lastMessage, Option.mem_def.mp isOther] at isLast
    cases isLast
    exact isAssistant

/-- A new assistant message counts one more, and a continuation needs one to continue. -/
theorem assistantCount_appendCompletion {messages' : Messages} {completion : String}
    {isContinuation : Bool}
    (appended : appendCompletion messages completion = .ok (messages', isContinuation)) :
    assistantCount messages' = assistantCount messages + (if isContinuation then 0 else 1) ∧
      (isContinuation = true → 0 < assistantCount messages) := by
  obtain ⟨last, isLast, rest⟩ := bind_eq_ok.mp appended
  have split : messages = messages.dropLast ++ [last] := by
    unfold lastMessage at isLast
    cases found : messages.getLast? with
    | none => simp [found] at isLast
    | some final =>
      simp only [found, Except.ok.injEq] at isLast
      rw [← isLast]
      exact (dropLast_append_getLast? final found).symm
  by_cases isAssistant : last.role = .assistant
  · rw [if_pos isAssistant] at rest
    obtain ⟨content, -, written⟩ := bind_eq_ok.mp rest
    simp only [pure, Except.pure, Except.ok.injEq, Prod.mk.injEq] at written
    obtain ⟨rfl, rfl⟩ := written
    have one (message : Message) (is : message.role = .assistant) :
        assistantCount [message] = 1 := by
      simp [assistantCount, is]
    have counted : assistantCount messages = assistantCount messages.dropLast + 1 := by
      conv_lhs => rw [split]
      rw [assistantCount_append, one last isAssistant]
    constructor
    · rw [assistantCount_append, counted, one { last with content := content } isAssistant]
      rfl
    · intro _
      omega
  · rw [if_neg isAssistant] at rest
    simp only [pure, Except.pure, Except.ok.injEq, Prod.mk.injEq] at rest
    obtain ⟨rfl, rfl⟩ := rest
    refine ⟨?_, fun continuation => absurd continuation (by decide)⟩
    rw [assistantCount_append]
    rfl

theorem KeepsTurns.assistantCount_step {scheduler : MultiTurnScheduler}
    (keeps : KeepsTurns scheduler) (request : RolloutInferRequest)
    (responseChoice : ChatCompletionResponseChoice) (currentTurn : ℕ) :
    assistantCount (scheduler.step request responseChoice currentTurn).inferRequest.messages =
      assistantCount request.messages := by
  obtain ⟨added, noAssistant, roles⟩ := keeps.keepsMessages request responseChoice currentTurn
  rw [assistantCount_eq_count_role, roles, count_append,
    count_eq_zero_of_not_mem noAssistant, ← assistantCount_eq_count_role, Nat.add_zero]

/-! ## The invariant of a run -/

/-- At the beginning of a turn the recorded ids are the generated ids of the assistant
messages, each with a loss mask of its length. -/
structure RecordInv (currentTurn : ℕ) (state : TurnState) (log : List TurnRecord) : Prop where
  resumable : Resumable state.currentRequest.messages
  tokenIds : state.lists.tokenIds =
    (List.range (assistantCount state.conversation)).map (generatedIds log)
  lossMask : state.lists.lossMask.map List.length = state.lists.tokenIds.map List.length
  weights : ∀ weight ∈ state.lists.lossMask.flatten, weight = 0 ∨ weight = 1
  bounded : ∀ record ∈ log, record.message < assistantCount state.conversation
  turnPos : 1 ≤ currentTurn
  first : currentTurn = 1 ↔ assistantCount state.conversation = 0

variable {scheduler replies request}

theorem recordInv_initial (noAssistant : assistantCount request.messages = 0) :
    RecordInv 1 (.initial request) [] := by
  have notAssistant : ∀ last ∈ request.messages.getLast?, last.role ≠ .assistant := by
    intro last isLast isAssistant
    have member := mem_of_getLast? isLast
    rw [assistantCount, countP_eq_zero] at noAssistant
    exact noAssistant last member (by simpa using isAssistant)
  have same : (TurnState.initial request).conversation = request.messages :=
    removeResponse_of_ne notAssistant
  refine {
    resumable := fun last isLast isAssistant => absurd isAssistant (notAssistant last isLast)
    tokenIds := ?_
    lossMask := rfl
    weights := ?_
    bounded := ?_
    turnPos := Nat.le_refl 1
    first := ?_ }
  · rw [same, noAssistant]
    rfl
  · intro weight member
    cases member
  · intro record member
    cases member
  · rw [same, noAssistant]
    simp

variable {currentTurn : ℕ}

theorem RecordInv.turn (keeps : KeepsTurns scheduler) {state state' : TurnState}
    {log : List TurnRecord} {appended : Messages × Bool} (inv : RecordInv currentTurn state log)
    (completed : completedMessages (replies currentTurn) state = .ok appended)
    (goesOn : scheduler.turn replies currentTurn state = .ok (.inl state')) :
    RecordInv (currentTurn + 1) state' (log ++ [{
      message := assistantCount appended.1 - 1
      ids := ((stepResult scheduler replies currentTurn state
        appended.1).responseTokenIds).getD [] }]) := by
  obtain ⟨other, completedOther, -, prepared⟩ :=
    (turn_goesOn_iff inv.turnPos inv.resumable).mp goesOn
  obtain rfl : appended = other := Except.ok.inj (completed.symm.trans completedOther)
  obtain ⟨counted, continues⟩ := assistantCount_appendCompletion completed
  obtain ⟨lossMask, messages, recorded, dummy, rfl⟩ := prepareNextTurn_eq_ok_iff.mp prepared
  obtain ⟨ids, mask, hasIds, hasMask, length, weights⟩ := keeps.returnsIds
    { state.currentRequest with messages := appended.1 } (replies currentTurn).choice currentTurn
  have conversation : assistantCount (removeResponse messages).2 = assistantCount appended.1 := by
    rw [removeResponse_addDummy dummy, keeps.assistantCount_step]
  have recordedMask : lossMask = recordTurn appended.2 state.lists.lossMask mask := by
    simp only [ResponseLists.recordLossMask, hasMask, hasIds, if_pos length,
      Except.ok.injEq] at recorded
    exact recorded.symm
  have recordedIds : state.lists.recordTokenIds appended.2 (scheduler.step
      { state.currentRequest with messages := appended.1 } (replies currentTurn).choice
        currentTurn) = recordTurn appended.2 state.lists.tokenIds ids := by
    simp only [ResponseLists.recordTokenIds, hasIds]
  have logged : (stepResult scheduler replies currentTurn state
      appended.1).responseTokenIds.getD [] = ids := by
    rw [stepResult, hasIds, Option.getD_some]
  rw [logged]
  refine {
    resumable := addDummy_resumable dummy
    tokenIds := ?_
    lossMask := ?_
    weights := ?_
    bounded := ?_
    turnPos := Nat.le_succ_of_le inv.turnPos
    first := ?_ }
  · simp only [TurnState.conversation, recordedIds]
    rw [conversation, inv.tokenIds, recordTurn_generatedIds inv.bounded continues, counted]
    rfl
  · simp only [recordedIds, recordedMask]
    exact map_length_recordTurn _ inv.lossMask length
  · intro weight member
    simp only [recordedMask, flatten_recordTurn, mem_append] at member
    rcases member with earlier | now
    · exact inv.weights weight earlier
    · exact weights weight now
  · intro record member
    have before : assistantCount state.conversation ≤ assistantCount appended.1 := by
      have : assistantCount appended.1 = assistantCount state.conversation + _ := counted
      omega
    have pos : 0 < assistantCount appended.1 := by
      cases continuation : appended.2 with
      | true => exact Nat.lt_of_lt_of_le (continues continuation) before
      | false =>
        rw [counted, continuation]
        exact Nat.succ_pos _
    simp only [TurnState.conversation]
    rw [conversation]
    rcases mem_append.mp member with earlier | now
    · exact Nat.lt_of_lt_of_le (inv.bounded record earlier) before
    · rw [mem_singleton.mp now]
      exact Nat.sub_one_lt_of_lt pos
  · have pos : 0 < assistantCount appended.1 := by
      cases continuation : appended.2 with
      | true => rw [counted, continuation]; exact continues continuation
      | false => rw [counted, continuation]; exact Nat.succ_pos _
    simp only [TurnState.conversation]
    rw [conversation]
    have := inv.turnPos
    omega

theorem LoggedRun.recordInv (keeps : KeepsTurns scheduler)
    (noAssistant : assistantCount request.messages = 0) {state : TurnState} {log : List TurnRecord}
    (run : LoggedRun scheduler replies request currentTurn state log) :
    RecordInv currentTurn state log := by
  induction run with
  | start => exact recordInv_initial noAssistant
  | turn _ completed goesOn ih => exact ih.turn keeps completed goesOn

/-! ## The log and the loop -/

/-- The states of a logged run are the states the server passes through. -/
theorem runReaches_iff_logged (entry : Resumable request.messages) {state : TurnState} :
    RunReaches scheduler replies request currentTurn state ↔
      ∃ log, LoggedRun scheduler replies request currentTurn state log := by
  constructor
  · intro reached
    unfold RunReaches at reached
    induction reached with
    | refl => exact ⟨[], .start⟩
    | next reached goesOn ih =>
      obtain ⟨log, run⟩ := ih
      obtain ⟨appended, completed, -⟩ :=
        (turn_goesOn_iff reached.first_le (RunReaches.resumable entry reached)).mp goesOn
      exact ⟨_, .turn run completed goesOn⟩
  · rintro ⟨log, run⟩
    induction run with
    | start => exact .refl
    | turn _ _ goesOn ih => exact .next ih goesOn

theorem run_eq_some_iff_finished (entry : Resumable request.messages) {output : RolloutOutput} :
    (∃ fuel, scheduler.run replies request fuel = .ok (some output)) ↔
      ∃ lastTurn state log, FinishedRun scheduler replies request lastTurn state log output := by
  rw [show (∃ fuel, scheduler.run replies request fuel = .ok (some output)) ↔ _ from
    execute_eq_some_iff]
  constructor
  · rintro ⟨lastTurn, state, reached, stops⟩
    obtain ⟨log, run⟩ := (runReaches_iff_logged entry).mp reached
    obtain ⟨appended, _, completed, -⟩ :=
      (turn_stops_iff reached.first_le (RunReaches.resumable entry reached)).mp stops
    exact ⟨lastTurn, state, _, log, appended, run, completed, stops, rfl⟩
  · rintro ⟨lastTurn, state, _, log, appended, run, -, stops, -⟩
    exact ⟨lastTurn, state, (runReaches_iff_logged entry).mpr ⟨log, run⟩, stops⟩

/-! ## The record of the last turn -/

/-- The server records the last turn when it continues an assistant message, or when it
is the first turn and its reply has ids. -/
def LastTurnRecorded (replies : ℕ → ChatCompletionResponse) (lastTurn : ℕ) (state : TurnState) :
    Prop :=
  endsInAssistant state.conversation = true ∨
    (lastTurn = 1 ∧ (replies 1).choice.tokenIds.getD [] ≠ [])

section LastTurn

variable {lastTurn : ℕ} {state : TurnState} {log : List TurnRecord} {appended : Messages × Bool}
  {lists : ResponseLists}

variable (inv : RecordInv lastTurn state log)
include inv

theorem RecordInv.tokenIds_eq_nil_iff : state.lists.tokenIds = [] ↔ lastTurn = 1 := by
  rw [inv.tokenIds, inv.first, map_eq_nil_iff, range_eq_nil]

theorem RecordInv.lossMask_eq_nil_iff : state.lists.lossMask = [] ↔ lastTurn = 1 := by
  rw [← inv.tokenIds_eq_nil_iff, ← map_eq_nil_iff (f := List.length), inv.lossMask, map_eq_nil_iff]

/-- A last turn that is recorded is recorded like the turns before it. -/
theorem RecordInv.finishRun_recorded
    (completed : completedMessages (replies lastTurn) state = .ok appended)
    (finished : state.lists.finishRun appended.2 (replies lastTurn).choice = .ok lists)
    (recorded : LastTurnRecorded replies lastTurn state) :
    lists.tokenIds = recordTurn appended.2 state.lists.tokenIds
        ((replies lastTurn).choice.tokenIds.getD []) ∧
      lists.lossMask = recordTurn appended.2 state.lists.lossMask
        (onesMask ((replies lastTurn).choice.tokenIds.getD [])) := by
  have continues : appended.2 = endsInAssistant state.conversation :=
    appendCompletion_isContinuation completed
  by_cases continuation : appended.2 = true
  · have later : lastTurn ≠ 1 := by
      have := (assistantCount_appendCompletion completed).2 continuation
      rw [Ne, inv.first]
      exact Nat.pos_iff_ne_zero.mp this
    have someIds : state.lists.tokenIds ≠ [] := fun none => later (inv.tokenIds_eq_nil_iff.mp none)
    have someMask : state.lists.lossMask ≠ [] := fun none => later (inv.lossMask_eq_nil_iff.mp none)
    rw [ResponseLists.finishRun, if_pos ⟨continuation, someIds⟩] at finished
    unfold ResponseLists.continueLast at finished
    cases hasIds : (replies lastTurn).choice.tokenIds with
    | none => simp [hasIds] at finished
    | some ids =>
      simp only [hasIds, Except.ok.injEq, if_pos someMask] at finished
      rw [← finished, Option.getD_some]
      exact ⟨(if_pos ⟨continuation, someIds⟩).symm, (if_pos ⟨continuation, someMask⟩).symm⟩
  · rcases recorded with isContinuation | ⟨rfl, hasIds⟩
    · exact absurd (continues.trans isContinuation) continuation
    · have noIds : state.lists.tokenIds = [] := inv.tokenIds_eq_nil_iff.mpr rfl
      have noMask : state.lists.lossMask = [] := inv.lossMask_eq_nil_iff.mpr rfl
      rw [ResponseLists.finishRun, if_neg (fun both => continuation both.1), if_pos noIds] at finished
      simp only [Except.ok.injEq, ResponseLists.startLast, if_pos hasIds] at finished
      rw [← finished, noIds, noMask]
      exact ⟨(if_neg fun both => continuation both.1).symm,
        (if_neg fun both => continuation both.1).symm⟩

/-- A last turn that is not recorded leaves fewer lists than assistant messages. -/
theorem RecordInv.finishRun_unrecorded
    (completed : completedMessages (replies lastTurn) state = .ok appended)
    (finished : state.lists.finishRun appended.2 (replies lastTurn).choice = .ok lists)
    (unrecorded : ¬ LastTurnRecorded replies lastTurn state) :
    lists.tokenIds.length < assistantCount appended.1 := by
  have continues : appended.2 = endsInAssistant state.conversation :=
    appendCompletion_isContinuation completed
  have notContinuation : ¬ appended.2 = true := fun continuation =>
    unrecorded (.inl (continues ▸ continuation))
  have counted : assistantCount appended.1 = assistantCount state.conversation + 1 := by
    rw [(assistantCount_appendCompletion completed).1, if_neg notContinuation]
    rfl
  rw [ResponseLists.finishRun, if_neg (fun both => notContinuation both.1)] at finished
  by_cases isFirst : lastTurn = 1
  · have noIds : (replies lastTurn).choice.tokenIds.getD [] = [] := by
      by_contra hasIds
      rw [isFirst] at hasIds
      exact unrecorded (.inr ⟨isFirst, hasIds⟩)
    rw [if_pos (inv.tokenIds_eq_nil_iff.mpr isFirst)] at finished
    simp only [Except.ok.injEq, ResponseLists.startLast, noIds] at finished
    rw [← finished, counted]
    simp [inv.tokenIds_eq_nil_iff.mpr isFirst]
  · rw [if_neg (fun none => isFirst (inv.tokenIds_eq_nil_iff.mp none))] at finished
    rw [← Except.ok.inj finished, counted, inv.tokenIds, length_map, length_range]
    exact Nat.lt_succ_self _

end LastTurn

/-- Log probabilities that are shown are as many as the tokens the loss mask keeps. -/
theorem finalRolloutLogprobs_length {lists : ResponseLists}
    (lengths : lists.lossMask.map List.length = lists.tokenIds.map List.length)
    (weights : ∀ weight ∈ lists.lossMask.flatten, weight = 0 ∨ weight = 1) :
    lists.finalRolloutLogprobs = [] ∨
      lists.finalRolloutLogprobs.flatten.length = lists.lossMask.flatten.count 1 := by
  have sum_eq_count (mask : List ℤ) (binary : ∀ weight ∈ mask, weight = 0 ∨ weight = 1) :
      mask.sum = mask.count 1 := by
    induction mask with
    | nil => rfl
    | cons weight rest ih =>
      have rests := ih fun other member => binary other (mem_cons_of_mem _ member)
      rcases binary weight mem_cons_self with rfl | rfl
      · rw [sum_cons, rests, count_cons_of_ne (by decide), Int.zero_add]
      · rw [sum_cons, rests, count_cons_self]
        omega
  unfold ResponseLists.finalRolloutLogprobs
  by_cases noLogprobs : lists.logprobs = []
  · exact .inl (if_pos noLogprobs)
  rw [if_neg noLogprobs]
  by_cases nothing : lists.lossMask = [] ∧ lists.tokenIds = []
  · exact .inl (if_pos nothing)
  rw [if_neg nothing]
  by_cases differ : lists.trainedCount ≠ lists.logprobCount
  · exact .inl (if_pos differ)
  · rw [if_neg differ]
    have hasMask : lists.lossMask ≠ [] := by
      intro noMask
      refine nothing ⟨noMask, ?_⟩
      rwa [noMask, map_nil, eq_comm, map_eq_nil_iff] at lengths
    have counts := not_not.mp differ
    rw [ResponseLists.trainedCount, if_pos hasMask, ResponseLists.logprobCount, ← sum_flatten,
      sum_eq_count _ weights] at counts
    rw [length_flatten]
    exact .inr (by omega)

/-! ## One list of ids for each message -/

/-- An output has one list of ids for each assistant message, in message order, with the
ids generated for the message; each with a loss mask of its length; its log probabilities
are empty or as many as the tokens the loss masks keep; and the trainer gives every
assistant message its own ids. -/
structure IdsPerMessage (log : List TurnRecord) (output : RolloutOutput) : Prop where
  tokenIds : output.responseTokenIds =
    (List.range (assistantCount output.messages)).map (generatedIds log)
  lossMask : output.responseLossMask.map List.length = output.responseTokenIds.map List.length
  logprobs : output.rolloutLogprobs = [] ∨
    output.rolloutLogprobs.flatten.length = output.responseLossMask.flatten.count 1
  replaced : replaceAssistantResponseWithIds output.messages (.nested output.responseTokenIds)
      (some (.nested output.responseLossMask)) =
    .ok (assignContents output.messages
      ((List.range (assistantCount output.messages)).map fun message =>
        .maskedTokenIds (output.responseLossMask.getD message []) (generatedIds log message)))

/-- Lists of ids with masks of their lengths are accepted, and each assistant message gets
its own. -/
theorem replaceAssistantResponseWithIds_eq {masks : List (List ℤ)} {ids : ℕ → List ℕ}
    (answered : 0 < assistantCount messages)
    (lengths : masks.map List.length =
      ((List.range (assistantCount messages)).map ids).map List.length) :
    replaceAssistantResponseWithIds messages
        (.nested ((List.range (assistantCount messages)).map ids)) (some (.nested masks)) =
      .ok (assignContents messages ((List.range (assistantCount messages)).map fun message =>
        .maskedTokenIds (masks.getD message []) (ids message))) := by
  have counted : masks.length = assistantCount messages := by
    simpa using congrArg List.length lengths
  have someIds : (List.range (assistantCount messages)).map ids ≠ [] := by
    rw [Ne, map_eq_nil_iff, range_eq_nil]
    exact Nat.pos_iff_ne_zero.mp answered
  have contents : responseContents ((List.range (assistantCount messages)).map ids) masks =
      (List.range (assistantCount messages)).map fun message =>
        .maskedTokenIds (masks.getD message []) (ids message) := by
    cases masks with
    | nil => exact absurd counted (Nat.ne_of_lt answered)
    | cons mask rest =>
      unfold responseContents
      apply ext_getElem
      · simp only [length_map, length_zip, length_range, counted, Nat.min_self]
      · intro message _ inRange
        rw [length_map, length_range] at inRange
        have place : message < (mask :: rest).length := counted ▸ inRange
        simp only [getElem_map, getElem_zip, getElem_range, List.getD,
          getElem?_eq_getElem place, Option.getD_some]
  have sameLengths : ∀ pair ∈ ((List.range (assistantCount messages)).map ids).zip masks,
      pair.1.length = pair.2.length := by
    intro pair member
    obtain ⟨place, inRange, rfl⟩ := getElem_of_mem member
    rw [getElem_zip]
    have place₁ : place < masks.length := by
      simp only [length_zip] at inRange
      omega
    have := congrArg (fun lengths => lengths[place]?) lengths
    simp only [getElem?_map, getElem?_eq_getElem place₁] at this
    rw [getElem?_eq_getElem (by simpa [counted] using place₁)] at this
    simpa using this.symm
  refine (if_neg someIds).trans ((if_neg ?_).trans ?_)
  · rintro ⟨-, refused⟩
    refine refused ⟨?_, sameLengths⟩
    simp [NestedList.normalize, counted]
  · have walk := replaceReversed_reverse messages (responseContents
      ((List.range (assistantCount messages)).map ids) masks) (by simp [contents])
    rw [contents] at walk
    simp only [NestedList.normalize, Option.map_some, Option.getD_some, contents, walk]

/-- **The output of a run has one list of ids for each assistant message exactly when its
last turn continues an assistant message, or is the first turn and its reply has ids**,
for a scheduler that keeps its turns and a request without assistant messages. The
outputs of the finished runs are those the server returns. -/
theorem run_ids_per_message_iff (scheduler : MultiTurnScheduler)
    (replies : ℕ → ChatCompletionResponse) (request : RolloutInferRequest)
    (keeps : KeepsTurns scheduler) (noAssistant : assistantCount request.messages = 0) :
    (∀ output, (∃ fuel, scheduler.run replies request fuel = .ok (some output)) ↔
      ∃ lastTurn state log, FinishedRun scheduler replies request lastTurn state log output) ∧
    ∀ lastTurn state log output, FinishedRun scheduler replies request lastTurn state log output →
      (IdsPerMessage log output ↔ LastTurnRecorded replies lastTurn state) := by
  have entry : Resumable request.messages := (recordInv_initial noAssistant).resumable
  refine ⟨fun output => run_eq_some_iff_finished entry, ?_⟩
  rintro lastTurn state _ output ⟨log, appended, run, completed, stops, rfl⟩
  have inv := run.recordInv keeps noAssistant
  obtain ⟨other, lists, completedOther, -, finished, rfl⟩ :=
    (turn_stops_iff inv.turnPos inv.resumable).mp stops
  obtain rfl : appended = other := Except.ok.inj (completed.symm.trans completedOther)
  obtain ⟨counted, continues⟩ := assistantCount_appendCompletion completed
  constructor
  · intro ids
    by_contra unrecorded
    have fewer := inv.finishRun_unrecorded completed finished unrecorded
    have count := congrArg List.length ids.tokenIds
    rw [length_map, length_range] at count
    exact Nat.ne_of_lt fewer count
  · intro recorded
    obtain ⟨tokenIds, lossMask⟩ := inv.finishRun_recorded completed finished recorded
    have lengths : lists.lossMask.map List.length = lists.tokenIds.map List.length := by
      rw [tokenIds, lossMask]
      exact map_length_recordTurn _ inv.lossMask length_replicate
    have weights : ∀ weight ∈ lists.lossMask.flatten, weight = 0 ∨ weight = 1 := by
      intro weight member
      rw [lossMask, flatten_recordTurn, mem_append] at member
      rcases member with earlier | now
      · exact inv.weights weight earlier
      · exact .inr (eq_of_mem_replicate now)
    have generated : lists.tokenIds = (List.range (assistantCount appended.1)).map
        (generatedIds (log ++ [{
          message := assistantCount appended.1 - 1
          ids := (replies lastTurn).choice.tokenIds.getD [] }])) := by
      rw [tokenIds, inv.tokenIds, recordTurn_generatedIds inv.bounded continues, counted]
      rfl
    have answered : 0 < assistantCount appended.1 := by
      cases continuation : appended.2 with
      | true => rw [counted, continuation]; exact continues continuation
      | false => rw [counted, continuation]; exact Nat.succ_pos _
    refine {
      tokenIds := generated
      lossMask := lengths
      logprobs := finalRolloutLogprobs_length lengths weights
      replaced := ?_ }
    simp only [rolloutOutput]
    rw [generated] at lengths ⊢
    exact replaceAssistantResponseWithIds_eq answered lengths

end Log

theorem keepsTurns_askAgain : KeepsTurns askAgain where
  returnsIds := by
    intro request responseChoice currentTurn
    refine ⟨_, _, rfl, rfl, length_replicate, ?_⟩
    intro weight member
    exact .inr (eq_of_mem_replicate member)
  keepsMessages := by
    intro request responseChoice currentTurn
    exact ⟨[.user], by decide, map_append⟩

theorem run_ids_per_message_askAgain :
    (∀ output, (∃ fuel, askAgain.run numberedReply question fuel = .ok (some output)) ↔
      ∃ lastTurn state log,
        FinishedRun askAgain numberedReply question lastTurn state log output) ∧
    ∀ lastTurn state log output,
      FinishedRun askAgain numberedReply question lastTurn state log output →
        (IdsPerMessage log output ↔ LastTurnRecorded numberedReply lastTurn state) :=
  run_ids_per_message_iff askAgain numberedReply question keepsTurns_askAgain rfl

/-- **The second answer of `askAgain` gets no ids**: its output has two assistant messages
and the ids of the first one. -/
theorem last_message_without_ids :
    ∃ output lastTurn state log, askAgain.run numberedReply question 2 = .ok (some output) ∧
      FinishedRun askAgain numberedReply question lastTurn state log output ∧
      assistantCount output.messages = 2 ∧ output.responseTokenIds = [[1]] ∧
      ¬ IdsPerMessage log output := by
  have ran : ∃ output, askAgain.run numberedReply question 2 = .ok (some output) ∧
      assistantCount output.messages = 2 ∧ output.responseTokenIds = [[1]] :=
    ⟨_, rfl, rfl, rfl⟩
  obtain ⟨output, returned, messages, tokenIds⟩ := ran
  obtain ⟨lastTurn, state, log, finished⟩ :=
    (run_eq_some_iff_finished (recordInv_initial rfl).resumable).mp ⟨2, returned⟩
  refine ⟨output, lastTurn, state, log, returned, finished, messages, tokenIds, fun ids => ?_⟩
  have count := congrArg List.length ids.tokenIds
  rw [tokenIds, messages, length_map, length_range] at count
  exact absurd count (by decide)

end Geobench.Rollout
