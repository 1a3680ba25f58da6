import Geobench.Library.ListSlices
import Geobench.Library.Runs
import Geobench.Rollout.Protocol

/-!
# The runs of a conversation

A template gives each run of tool calls to its agent template, which makes one assistant message of
it (`preprocessFunctionCall`). It then joins messages of one role, and gives each run of tool
messages to the agent template, together with the content of the assistant before it
(`swiftPrepareInputs`). Both loops change the list of messages while an index goes over it.

A turn of a conversation is a run of user messages, of tool messages, or of what the assistant says
and calls. **`prepareMessages_eq`**: each turn becomes one message, in which each run of the turn is
in its place, and no two messages beside each other have one role.
-/

namespace Geobench.Template

open Library Rollout List

/-- What an agent template makes of messages. -/
structure BaseAgentTemplate where
  formatToolCalls : Messages → String
  formatToolResponses : Content → Messages → Content × List String

/-! ## The loops -/

/-- The messages and the index, and what the agent template has been given. -/
structure Cursor (γ : Type) where
  messages : Messages
  index : ℕ
  given : List γ

def runStop (role : Role) (messages : Messages) (index : ℕ) : ℕ :=
  index + ((messages.drop index).takeWhile fun message => message.role = role).length

/-- `messages[start:stop] = [message]` -/
def replaceRun (messages : Messages) (start stop : ℕ) (message : Message) : Messages :=
  messages.take start ++ message :: messages.drop stop

section Loops

variable (agentTemplate : BaseAgentTemplate)

def functionCallBody : LoopBody PyError (Cursor Messages) (Messages × List Messages) :=
  fun _ cursor =>
    match cursor.messages[cursor.index]? with
    | none => .ok (.inr (cursor.messages, cursor.given))
    | some message =>
      if message.role = .toolCall then
        let stop := runStop .toolCall cursor.messages cursor.index
        let calls := slice cursor.messages cursor.index stop
        let toolContent := agentTemplate.formatToolCalls calls
        .ok (.inl ⟨replaceRun cursor.messages cursor.index stop ⟨.assistant, .text toolContent⟩,
          cursor.index + 1, cursor.given ++ [calls]⟩)
      else .ok (.inl { cursor with index := cursor.index + 1 })

/-- The loop of `_preprocess_function_call`. -/
def preprocessFunctionCall (messages : Messages) :
    Except PyError (Option (Messages × List Messages)) :=
  (functionCallBody agentTemplate).execute (messages.length + 1) 0 ⟨messages, 0, []⟩

/-- `first + second`. Lists of parts and lists of tokens are not joined here. -/
def concatContents : Content → Content → Except PyError Content
  | .text first, .text second => .ok (.text (first ++ second))
  | .parts first, .parts second => .ok (.parts (first ++ second))
  | .tokenIds first, .tokenIds second => .ok (.tokenIds (first ++ second))
  | _, _ => .error .typeError

def prepareBody (isSwift : Bool) :
    LoopBody PyError (Cursor (Content × Messages)) (Messages × List (Content × Messages)) :=
  fun _ cursor =>
    match cursor.messages[cursor.index - 1]?, cursor.messages[cursor.index]? with
    | some preMessage, some message =>
      if preMessage.role = .assistant ∧ message.role = .tool ∧ isSwift = true then
        let stop := runStop .tool cursor.messages cursor.index
        let responses := slice cursor.messages cursor.index stop
        let formatted := agentTemplate.formatToolResponses preMessage.content responses
        let messages := cursor.messages.set (cursor.index - 1)
          { preMessage with content := formatted.1 }
        .ok (.inl ⟨replaceRun messages cursor.index stop ⟨.tool, .parts formatted.2⟩,
          cursor.index + 1, cursor.given ++ [(preMessage.content, responses)]⟩)
      else if preMessage.role = .assistant ∧ message.role = .assistant ∨
          preMessage.role = .user ∧ message.role = .user then
        (concatContents preMessage.content message.content).map fun content =>
          .inl { cursor with
            messages := (cursor.messages.set (cursor.index - 1)
              { preMessage with content := content }).eraseIdx cursor.index }
      else .ok (.inl { cursor with index := cursor.index + 1 })
    | _, _ => .ok (.inr (cursor.messages, cursor.given))

def swiftPrepareInputs (isSwift : Bool) (messages : Messages) :
    Except PyError (Option (Messages × List (Content × Messages))) :=
  if messages.length < 2 then .ok (some (messages, []))
  else (prepareBody agentTemplate isSwift).execute (messages.length + 1) 0 ⟨messages, 1, []⟩

/-- Messages, and what the agent template was given for them. -/
structure Prepared where
  messages : Messages
  toolCalls : List Messages
  toolResponses : List (Content × Messages)

/-- `_preprocess_function_call`, and then `_swift_prepare_inputs` with the backend `swift`. -/
def prepareMessages (messages : Messages) : Except PyError (Option Prepared) := do
  match ← preprocessFunctionCall agentTemplate messages with
  | none => .ok none
  | some (messages, toolCalls) =>
    let prepared ← swiftPrepareInputs agentTemplate true messages
    .ok (prepared.map fun found => ⟨found.1, toolCalls, found.2⟩)

end Loops

/-! ## Turns -/

/-- The role of a turn. Tool calls are said by the assistant. -/
def speaker : Role → Role
  | .toolCall => .assistant
  | role => role

def speakerOf (message : Message) : Role := speaker message.role

def turns (messages : Messages) : List Messages := runs speakerOf messages

def turnRole (turn : Messages) : Role := (turn.head?.map speakerOf).getD .user

def textOf : Content → String
  | .text value => value
  | _ => ""

def joinTexts (messages : Messages) : String :=
  (messages.map fun message => textOf message.content).foldr (· ++ ·) ""

def IsCallRun (run : Messages) : Prop := run.head?.map Message.role = some .toolCall

instance (run : Messages) : Decidable (IsCallRun run) :=
  inferInstanceAs (Decidable (run.head?.map Message.role = some .toolCall))

section Representation

variable (agentTemplate : BaseAgentTemplate)

/-- The text of a run: the tool calls as the agent template formats them, or the joined texts. -/
def runText (run : Messages) : String :=
  if IsCallRun run then agentTemplate.formatToolCalls run else joinTexts run

def turnText (turn : Messages) : String :=
  ((runs Message.role turn).map (runText agentTemplate)).foldr (· ++ ·) ""

/-- One message for each turn, where tool messages change the content of the turn before them. -/
def represent (text : Messages → String) : List Messages → Messages
  | [] => []
  | [turn] => [⟨turnRole turn, .text (text turn)⟩]
  | turn :: next :: later =>
    if turnRole next = .tool then
      let formatted := agentTemplate.formatToolResponses (.text (text turn)) next
      ⟨turnRole turn, formatted.1⟩ :: ⟨.tool, .parts formatted.2⟩ :: represent text later
    else ⟨turnRole turn, .text (text turn)⟩ :: represent text (next :: later)

/-- The turns of tool messages, and the content before each of them. -/
def givenResponses (text : Messages → String) : List Messages → List (Content × Messages)
  | [] => []
  | [_] => []
  | turn :: next :: later =>
    if turnRole next = .tool then (.text (text turn), next) :: givenResponses text later
    else givenResponses text (next :: later)

end Representation

/-! ## Cursors -/

theorem runStop_append {role : Role} {done run rest : Messages} (isRun : IsRun Message.role run role)
    (elsewhere : BeginsElsewhere Message.role role rest) :
    runStop role (done ++ (run ++ rest)) done.length = done.length + run.length := by
  have stops : rest.takeWhile (fun message => decide (message.role = role)) = [] := by
    cases rest with
    | nil => rfl
    | cons first rest =>
      rw [takeWhile_cons_of_neg]
      simpa using elsewhere first rfl
  rw [runStop, drop_left, takeWhile_append_of_pos, stops, append_nil]
  intro message isIn
  exact decide_eq_true (isRun.keys message isIn)

theorem slice_run (done run rest : Messages) :
    slice (done ++ (run ++ rest)) done.length (done.length + run.length) = run := by
  rw [slice, ← append_assoc, ← length_append, take_left, drop_left]

theorem replaceRun_append (done run rest : Messages) (message : Message) :
    replaceRun (done ++ (run ++ rest)) done.length (done.length + run.length) message =
      done ++ message :: rest := by
  rw [replaceRun, take_left, ← append_assoc, ← length_append, drop_left]

/-! ## The calls -/

section Calls

variable (agentTemplate : BaseAgentTemplate)

def formatRun (run : Messages) : Messages :=
  if IsCallRun run then [⟨.assistant, .text (agentTemplate.formatToolCalls run)⟩] else run

def formatCalls (messages : Messages) : Messages :=
  (runs Message.role messages).flatMap (formatRun agentTemplate)

def callRuns (messages : Messages) : List Messages :=
  (runs Message.role messages).filter fun run => IsCallRun run

variable {agentTemplate}

variable {run : Messages} {role : Role}

theorem isCallRun_iff (isRun : IsRun Message.role run role) : IsCallRun run ↔ role = .toolCall := by
  obtain ⟨first, rest, rfl⟩ := exists_cons_of_ne_nil isRun.some
  rw [← isRun.keys first mem_cons_self]
  exact Option.some_inj

theorem formatCalls_append {rest : Messages} (isRun : IsRun Message.role run role)
    (elsewhere : BeginsElsewhere Message.role role rest) :
    formatCalls agentTemplate (run ++ rest) =
      formatRun agentTemplate run ++ formatCalls agentTemplate rest := by
  rw [formatCalls, runs_append isRun elsewhere, flatMap_cons, formatCalls]

theorem callRuns_append {rest : Messages} (isRun : IsRun Message.role run role)
    (elsewhere : BeginsElsewhere Message.role role rest) :
    callRuns (run ++ rest) = (if IsCallRun run then [run] else []) ++ callRuns rest := by
  rw [callRuns, runs_append isRun elsewhere, filter_cons, callRuns]
  by_cases isCall : IsCallRun run
  · rw [if_pos (decide_eq_true isCall), if_pos isCall, singleton_append]
  · rw [if_neg (by simpa using isCall), if_neg isCall, nil_append]

/-- Messages that are no calls are passed over. -/
theorem execute_pass (noCalls : ∀ message ∈ run, message.role ≠ .toolCall) (fuel pass : ℕ)
    (done rest : Messages) (given : List Messages) :
    (functionCallBody agentTemplate).execute (run.length + fuel) pass
        ⟨done ++ (run ++ rest), done.length, given⟩ =
      (functionCallBody agentTemplate).execute fuel (pass + run.length)
        ⟨(done ++ run) ++ rest, (done ++ run).length, given⟩ := by
  induction run generalizing pass done with
  | nil => simp
  | cons message run ih =>
    rw [forall_mem_cons] at noCalls
    have later := ih noCalls.2 (pass + 1) (done ++ [message])
    have here : (done ++ (message :: run ++ rest))[done.length]? = some message := by simp
    rw [length_cons, Nat.add_right_comm, LoopBody.execute, functionCallBody]
    dsimp only
    rw [here]
    dsimp only
    rw [if_neg noCalls.1]
    simpa [Nat.add_assoc, Nat.add_comm 1] using later

/-- The first loop formats the runs of calls. -/
theorem execute_functionCallBody {fuel : ℕ} (pass : ℕ) (done items : Messages)
    (given : List Messages) (enough : items.length < fuel) :
    (functionCallBody agentTemplate).execute fuel pass ⟨done ++ items, done.length, given⟩ =
      .ok (some (done ++ formatCalls agentTemplate items, given ++ callRuns items)) := by
  induction items using runs_induction Message.role generalizing fuel pass done given with
  | nil =>
    obtain ⟨fuel, rfl⟩ := Nat.exists_eq_succ_of_ne_zero (Nat.ne_of_gt enough)
    rw [LoopBody.execute, functionCallBody]
    dsimp only
    rw [append_nil, getElem?_eq_none (Nat.le_refl _)]
    dsimp only
    rw [formatCalls, callRuns, runs_nil, flatMap_nil, filter_nil, append_nil, append_nil]
  | append run rest role isRun elsewhere ih =>
    rw [length_append] at enough
    rw [formatCalls_append isRun elsewhere, callRuns_append isRun elsewhere, formatRun]
    by_cases isCall : role = .toolCall
    · subst isCall
      obtain ⟨first, others, isSome⟩ := exists_cons_of_ne_nil isRun.some
      have here : (done ++ (run ++ rest))[done.length]? = some first := by simp [isSome]
      have isFirst : first.role = .toolCall := isRun.keys first (by simp [isSome])
      have longer : 0 < run.length := length_pos_of_ne_nil isRun.some
      obtain ⟨fuel, rfl⟩ : ∃ more, fuel = more + 1 := ⟨fuel - 1, by omega⟩
      rw [LoopBody.execute, functionCallBody]
      dsimp only
      rw [here]
      dsimp only
      rw [if_pos isFirst, runStop_append isRun elsewhere, slice_run, replaceRun_append,
        if_pos ((isCallRun_iff isRun).mpr rfl), if_pos ((isCallRun_iff isRun).mpr rfl)]
      have later := ih (pass + 1)
        (done ++ [⟨.assistant, .text (agentTemplate.formatToolCalls run)⟩]) (given ++ [run])
        (show rest.length < fuel by omega)
      simpa using later
    · have noCalls : ∀ message ∈ run, message.role ≠ .toolCall := fun message isIn isTool =>
        isCall ((isRun.keys message isIn).symm.trans isTool)
      obtain ⟨fuel, rfl⟩ : ∃ more, fuel = run.length + more := ⟨fuel - run.length, by omega⟩
      have notRun : ¬ IsCallRun run := fun isCallRun => isCall ((isCallRun_iff isRun).mp isCallRun)
      rw [execute_pass noCalls, ih _ _ _ (by omega), if_neg notRun, if_neg notRun,
        append_assoc, nil_append]

theorem preprocessFunctionCall_eq (messages : Messages) :
    preprocessFunctionCall agentTemplate messages =
      .ok (some (formatCalls agentTemplate messages, callRuns messages)) :=
  execute_functionCallBody 0 [] messages [] (Nat.lt_succ_self _)

end Calls

/-! ## The joined messages -/

section Joining

variable {agentTemplate : BaseAgentTemplate}

/-- A turn whose messages have one role, and texts. -/
structure IsTurn (turn : Messages) : Prop where
  isRun : IsRun Message.role turn (turnRole turn)
  role : turnRole turn ∈ [Role.user, .assistant, .tool]
  texts : ∀ message ∈ turn, ∃ text, message.content = .text text

/-- Turns of different roles, where tool messages follow the assistant. -/
structure TakesTurns (turns : List Messages) : Prop where
  isTurn : ∀ turn ∈ turns, IsTurn turn
  alternate : turns.IsChain fun turn next =>
    turnRole turn ≠ turnRole next ∧ (turnRole next = .tool → turnRole turn = .assistant)
  starts : ∀ turn ∈ turns.head?, turnRole turn ≠ .tool

variable (done items : Messages)

theorem getElem?_pre (pre : Message) : (done ++ pre :: items)[done.length]? = some pre := by
  simp

theorem getElem?_next (pre next : Message) :
    (done ++ pre :: next :: items)[done.length + 1]? = some next := by
  simp

theorem set_pre (pre new : Message) :
    (done ++ pre :: items).set done.length new = done ++ new :: items := by
  simp

theorem eraseIdx_next (pre next : Message) :
    (done ++ pre :: next :: items).eraseIdx (done.length + 1) = done ++ pre :: items := by
  rw [eraseIdx_append_of_length_le (Nat.le_succ _)]
  simp

theorem execute_merge {role : Role} (isSpoken : role = .assistant ∨ role = .user)
    {later : Messages} (roles : ∀ message ∈ later, message.role = role)
    (texts : ∀ message ∈ later, ∃ text, message.content = .text text) (text : String)
    (fuel pass : ℕ) (done rest : Messages) (given : List (Content × Messages)) :
    (prepareBody agentTemplate true).execute (later.length + fuel) pass
        ⟨done ++ ⟨role, .text text⟩ :: (later ++ rest), done.length + 1, given⟩ =
      (prepareBody agentTemplate true).execute fuel (pass + later.length)
        ⟨done ++ ⟨role, .text (text ++ joinTexts later)⟩ :: rest, done.length + 1, given⟩ := by
  induction later generalizing text pass with
  | nil => simp [joinTexts]
  | cons message later ih =>
    obtain ⟨⟨value, isText⟩, texts⟩ := forall_mem_cons.mp texts
    obtain ⟨isRole, roles⟩ := forall_mem_cons.mp roles
    have notTool : ¬ (role = .assistant ∧ message.role = .tool ∧ true = true) := by
      rintro ⟨isAssistant, isTool, -⟩
      rw [isRole, isAssistant] at isTool
      cases isTool
    have same : role = .assistant ∧ message.role = .assistant ∨
        role = .user ∧ message.role = .user := by
      rw [isRole]
      exact isSpoken.imp (fun is => ⟨is, is⟩) fun is => ⟨is, is⟩
    rw [length_cons, Nat.add_right_comm, LoopBody.execute, prepareBody]
    dsimp only
    rw [cons_append, Nat.add_sub_cancel, getElem?_pre, getElem?_next]
    dsimp only
    rw [if_neg notTool, if_pos same, isText, concatContents, Except.map, set_pre, eraseIdx_next]
    dsimp only
    rw [ih roles texts (text ++ value) (pass + 1)]
    have joined : joinTexts (message :: later) = value ++ joinTexts later := by
      rw [joinTexts, map_cons, foldr_cons, isText]
      rfl
    rw [joined, String.append_assoc, Nat.add_assoc, Nat.add_comm 1]

variable {isSwift : Bool} {pre : Message}

/-- A message is passed over where the next one is not joined with it. -/
theorem execute_next {next : Message} (differ : pre.role ≠ next.role)
    (notTool : next.role = .tool → pre.role ≠ .assistant) (fuel pass : ℕ) (done rest : Messages)
    (given : List (Content × Messages)) :
    (prepareBody agentTemplate isSwift).execute (fuel + 1) pass
        ⟨done ++ pre :: next :: rest, done.length + 1, given⟩ =
      (prepareBody agentTemplate isSwift).execute fuel (pass + 1)
        ⟨(done ++ [pre]) ++ next :: rest, (done ++ [pre]).length + 1, given⟩ := by
  have noTool : ¬ (pre.role = .assistant ∧ next.role = .tool ∧ isSwift = true) := fun is =>
    notTool is.2.1 is.1
  have notJoined : ¬ (pre.role = .assistant ∧ next.role = .assistant ∨
      pre.role = .user ∧ next.role = .user) := by
    rintro (⟨is, isNext⟩ | ⟨is, isNext⟩) <;> exact differ (is.trans isNext.symm)
  rw [LoopBody.execute, prepareBody]
  dsimp only
  rw [Nat.add_sub_cancel, getElem?_pre, getElem?_next]
  dsimp only
  rw [if_neg noTool, if_neg notJoined, append_assoc, singleton_append,
    length_append, length_singleton]

/-- The loop ends behind the last message. -/
theorem execute_end (fuel pass : ℕ) (messages : Messages) (given : List (Content × Messages))
    {index : ℕ} (behind : messages.length ≤ index) :
    (prepareBody agentTemplate isSwift).execute (fuel + 1) pass ⟨messages, index, given⟩ =
      .ok (some (messages, given)) := by
  rw [LoopBody.execute, prepareBody]
  dsimp only
  rw [getElem?_eq_none behind]
  cases messages[index - 1]? <;> rfl

/-- Messages of which none is joined with the next one. -/
def StayApart (messages : Messages) : Prop :=
  messages.IsChain fun first next => first.role ≠ next.role ∧
    (next.role = .tool → first.role ≠ .assistant)

theorem execute_apart {items : Messages} (apart : StayApart (pre :: items)) {fuel : ℕ}
    (enough : items.length < fuel) (pass : ℕ) (done : Messages)
    (given : List (Content × Messages)) :
    (prepareBody agentTemplate isSwift).execute fuel pass
      ⟨done ++ pre :: items, done.length + 1, given⟩ = .ok (some (done ++ pre :: items, given)) := by
  induction items generalizing done pre fuel pass with
  | nil =>
    obtain ⟨fuel, rfl⟩ : ∃ more, fuel = more + 1 := ⟨fuel - 1, by omega⟩
    exact execute_end _ _ _ _ (by simp)
  | cons next items ih =>
    obtain ⟨fuel, rfl⟩ : ∃ more, fuel = more + 1 := ⟨fuel - 1, by omega⟩
    obtain ⟨⟨differ, notTool⟩, later⟩ := isChain_cons_cons.mp apart
    rw [length_cons] at enough
    rw [execute_next differ notTool, ih later (show items.length < fuel by omega),
      append_assoc, singleton_append]

theorem swiftPrepareInputs_apart {messages : Messages} (apart : StayApart messages) :
    swiftPrepareInputs agentTemplate isSwift messages = .ok (some (messages, [])) := by
  rw [swiftPrepareInputs]
  split
  · rfl
  · cases messages with
    | nil => rfl
    | cons pre items =>
      exact execute_apart apart (by rw [length_cons]; omega) 0 [] []

theorem execute_tools {content : Content} {run rest : Messages}
    (isRun : IsRun Message.role run .tool) (elsewhere : BeginsElsewhere Message.role .tool rest)
    (fuel pass : ℕ) (done : Messages) (given : List (Content × Messages)) :
    (prepareBody agentTemplate true).execute (fuel + 1) pass
        ⟨done ++ ⟨.assistant, content⟩ :: (run ++ rest), done.length + 1, given⟩ =
      (prepareBody agentTemplate true).execute fuel (pass + 1)
        ⟨(done ++ [⟨.assistant, (agentTemplate.formatToolResponses content run).1⟩]) ++
            ⟨.tool, .parts (agentTemplate.formatToolResponses content run).2⟩ :: rest,
          done.length + 2, given ++ [(content, run)]⟩ := by
  obtain ⟨first, others, isSome⟩ := exists_cons_of_ne_nil isRun.some
  have isFirst : first.role = .tool := isRun.keys first (by simp [isSome])
  have here : (done ++ ⟨.assistant, content⟩ :: (run ++ rest))[done.length + 1]? = some first := by
    rw [isSome, cons_append, getElem?_next]
  have behind (pre : Message) : done ++ pre :: (run ++ rest) = (done ++ [pre]) ++ (run ++ rest) := by
    rw [append_assoc, singleton_append]
  have after (pre : Message) : (done ++ [pre]).length = done.length + 1 := by
    rw [length_append, length_singleton]
  have stop := @runStop_append .tool (done ++ [⟨.assistant, content⟩]) run rest isRun elsewhere
  rw [LoopBody.execute, prepareBody]
  dsimp only
  rw [Nat.add_sub_cancel, getElem?_pre, here]
  dsimp only
  rw [if_pos ⟨rfl, isFirst, rfl⟩, set_pre, behind, behind, ← after ⟨.assistant, content⟩, stop,
    slice_run]
  rw [after, ← after ⟨.assistant, (agentTemplate.formatToolResponses content run).1⟩,
    replaceRun_append, after]

variable {turn : Messages} {later : List Messages}

theorem TakesTurns.tail (takes : TakesTurns (turn :: later))
    (starts : ∀ next ∈ later.head?, turnRole next ≠ .tool) : TakesTurns later :=
  ⟨fun next isNext => takes.isTurn next (mem_cons_of_mem _ isNext),
    takes.alternate.of_cons, starts⟩

theorem IsTurn.exists_first (isTurn : IsTurn turn) :
    ∃ value others, turn = ⟨turnRole turn, .text value⟩ :: others ∧
      (∀ message ∈ others, message.role = turnRole turn) ∧
      (∀ message ∈ others, ∃ text, message.content = .text text) ∧
      joinTexts turn = value ++ joinTexts others := by
  obtain ⟨first, others, isSome⟩ := exists_cons_of_ne_nil isTurn.isRun.some
  have roles := isTurn.isRun.keys
  have texts := isTurn.texts
  generalize turnRole turn = role at roles ⊢
  subst isSome
  obtain ⟨isRole, otherRoles⟩ := forall_mem_cons.mp roles
  obtain ⟨⟨value, isText⟩, otherTexts⟩ := forall_mem_cons.mp texts
  obtain ⟨firstRole, firstContent⟩ := first
  obtain rfl : firstRole = role := isRole
  obtain rfl : firstContent = .text value := isText
  exact ⟨value, others, rfl, otherRoles, otherTexts, rfl⟩

theorem IsTurn.mem_flatten (isTurn : IsTurn turn) {first : Message}
    (isFirst : first ∈ (turn :: later).flatten.head?) : first.role = turnRole turn := by
  obtain ⟨value, others, isSome, -⟩ := isTurn.exists_first
  rw [flatten_cons, isSome] at isFirst
  rw [← Option.some.inj isFirst]

/-- The turns after a turn begin with another role. -/
theorem beginsElsewhere_flatten {role : Role} (isTurn : ∀ next ∈ later, IsTurn next)
    (differ : ∀ next ∈ later.head?, role ≠ turnRole next) :
    BeginsElsewhere Message.role role later.flatten := by
  intro first isFirst
  cases later with
  | nil => cases isFirst
  | cons next later =>
    rw [(isTurn next mem_cons_self).mem_flatten isFirst]
    exact (differ next rfl).symm

variable {text : Messages → String}

theorem represent_cons (noTool : ∀ next ∈ later.head?, turnRole next ≠ .tool) :
    represent agentTemplate text (turn :: later) =
      ⟨turnRole turn, .text (text turn)⟩ :: represent agentTemplate text later := by
  cases later with
  | nil => rfl
  | cons next later => rw [represent, if_neg (noTool next rfl)]

theorem givenResponses_cons (noTool : ∀ next ∈ later.head?, turnRole next ≠ .tool) :
    givenResponses text (turn :: later) = givenResponses text later := by
  cases later with
  | nil => rfl
  | cons next later => rw [givenResponses, if_neg (noTool next rfl)]

/-- What the loop comes to from the first message of some turns. -/
def Comes (agentTemplate : BaseAgentTemplate) (turns : List Messages) (done : Messages)
    (given : List (Content × Messages)) (result : Messages × List (Content × Messages)) : Prop :=
  ∀ fuel pass, turns.flatten.length < fuel →
    (prepareBody agentTemplate true).execute fuel pass
      ⟨done ++ turns.flatten, done.length + 1, given⟩ = .ok (some result)

/-- A message that is not joined with the next turn is left as it is. -/
theorem Comes.onward {turns : List Messages} {done : Messages} {given : List (Content × Messages)}
    {result : Messages × List (Content × Messages)}
    (comes : Comes agentTemplate turns (done ++ [pre]) given result)
    (isTurn : ∀ turn ∈ turns, IsTurn turn)
    (differ : ∀ next ∈ turns.head?, pre.role ≠ turnRole next ∧
      (turnRole next = .tool → pre.role ≠ .assistant)) {fuel : ℕ} (pass : ℕ)
    (enough : turns.flatten.length + 1 < fuel) :
    (prepareBody agentTemplate true).execute fuel pass
      ⟨done ++ pre :: turns.flatten, done.length + 1, given⟩ = .ok (some result) := by
  obtain ⟨fuel, rfl⟩ : ∃ more, fuel = more + 1 := ⟨fuel - 1, by omega⟩
  cases turns with
  | nil =>
    have ended := comes 1 0 Nat.one_pos
    rw [execute_end _ _ _ _ (by simp)] at ended ⊢
    rw [← ended, flatten_nil, append_nil]
  | cons turn later =>
    obtain ⟨differ, notTool⟩ := differ turn rfl
    have isFirst := isTurn turn mem_cons_self
    have before := comes fuel (pass + 1) (by omega)
    obtain ⟨value, others, isSome, -⟩ := isFirst.exists_first
    have isFlat : (turn :: later).flatten =
        ⟨turnRole turn, .text value⟩ :: (others ++ later.flatten) := by
      rw [flatten_cons, ← cons_append, ← isSome]
    rw [isFlat] at before ⊢
    rw [execute_next differ notTool]
    exact before

/-- The second loop makes one message of each turn. -/
theorem TakesTurns.comes {turns : List Messages} (takes : TakesTurns turns) (done : Messages)
    (given : List (Content × Messages)) :
    Comes agentTemplate turns done given (done ++ represent agentTemplate joinTexts turns,
      given ++ givenResponses joinTexts turns) := by
  induction count : turns.length using Nat.strong_induction_on generalizing turns done given with
  | _ count ih =>
    intro fuel pass enough
    cases turns with
    | nil =>
      obtain ⟨fuel, rfl⟩ : ∃ more, fuel = more + 1 := ⟨fuel - 1, by omega⟩
      rw [execute_end _ _ _ _ (by simp), represent, givenResponses, flatten_nil,
        append_nil, append_nil]
    | cons turn later =>
      have isTurn := takes.isTurn turn mem_cons_self
      have laterTurns : ∀ next ∈ later, IsTurn next := fun next isNext =>
        takes.isTurn next (mem_cons_of_mem _ isNext)
      have isSpoken : turnRole turn = .assistant ∨ turnRole turn = .user := by
        have role := isTurn.role
        have notTool := takes.starts turn rfl
        simp only [mem_cons, not_mem_nil, or_false] at role
        tauto
      obtain ⟨value, others, isSome, roles, texts, joined⟩ := isTurn.exists_first
      have length : turn.length = others.length + 1 := by rw [isSome, length_cons]
      have isStart : done ++ (turn :: later).flatten =
          done ++ ⟨turnRole turn, .text value⟩ :: (others ++ later.flatten) := by
        rw [flatten_cons, ← cons_append, ← isSome]
      rw [flatten_cons, length_append] at enough
      obtain ⟨more, rfl⟩ : ∃ more, fuel = others.length + more := ⟨fuel - others.length, by omega⟩
      rw [isStart, execute_merge isSpoken roles texts, ← joined]
      rw [length_cons] at count
      by_cases isTool : ∃ next ∈ later.head?, turnRole next = .tool
      · obtain ⟨next, isNext, isTool⟩ := isTool
        obtain ⟨rest, rfl⟩ := head?_eq_some_iff.mp isNext
        obtain ⟨⟨-, follows⟩, chain⟩ := isChain_cons_cons.mp takes.alternate
        have isRun : IsRun Message.role next .tool :=
          isTool ▸ (laterTurns next mem_cons_self).isRun
        have restTurns : ∀ third ∈ rest, IsTurn third := fun third isThird =>
          laterTurns third (mem_cons_of_mem _ isThird)
        have differ : ∀ third ∈ rest.head?, Role.tool ≠ turnRole third := by
          intro third isThird
          obtain ⟨more, rfl⟩ := head?_eq_some_iff.mp isThird
          exact isTool ▸ (isChain_cons_cons.mp chain).1.1
        have restTakes : TakesTurns rest :=
          ⟨restTurns, chain.of_cons, fun third isThird => (differ third isThird).symm⟩
        rw [length_cons] at count
        rw [flatten_cons, length_append] at enough
        have some : 0 < next.length := length_pos_of_ne_nil isRun.some
        obtain ⟨more, rfl⟩ : ∃ less, more = less + 1 := ⟨more - 1, by omega⟩
        rw [follows isTool, flatten_cons,
          execute_tools isRun (beginsElsewhere_flatten restTurns differ), represent,
          givenResponses, if_pos isTool, if_pos isTool, follows isTool]
        dsimp only
        have later := ih rest.length (by omega) restTakes
          ((done ++ [⟨.assistant, (agentTemplate.formatToolResponses (.text (joinTexts turn))
            next).1⟩]) ++ [⟨.tool, .parts (agentTemplate.formatToolResponses
              (.text (joinTexts turn)) next).2⟩])
          (given ++ [(.text (joinTexts turn), next)]) rfl
        have noAssistant : Role.tool ≠ .assistant := by decide
        have onward := later.onward restTurns (fun third isThird =>
          ⟨differ third isThird, fun _ => noAssistant⟩) (pass + others.length + 1)
            (show rest.flatten.length + 1 < more by omega)
        simpa using onward
      · have noTool : ∀ next ∈ later.head?, turnRole next ≠ .tool := fun next isNext is =>
          isTool ⟨next, isNext, is⟩
        have onward := ih later.length (by omega) (takes.tail noTool)
          (done ++ [⟨turnRole turn, .text (joinTexts turn)⟩]) given rfl
        have differ : ∀ next ∈ later.head?, turnRole turn ≠ turnRole next ∧
            (turnRole next = .tool → turnRole turn ≠ .assistant) := by
          intro next isNext
          refine ⟨?_, fun is => absurd is (noTool next isNext)⟩
          obtain ⟨rest, rfl⟩ := head?_eq_some_iff.mp isNext
          exact (isChain_cons_cons.mp takes.alternate).1.1
        rw [onward.onward laterTurns differ _ (by omega), represent_cons noTool,
          givenResponses_cons noTool, append_assoc, singleton_append]

/-- No two messages beside each other have one role. -/
theorem TakesTurns.isChain {turns : List Messages} (takes : TakesTurns turns) :
    (represent agentTemplate text turns).IsChain (fun first next => first.role ≠ next.role) ∧
      ((represent agentTemplate text turns).head?.map Message.role = turns.head?.map turnRole) := by
  fun_induction represent agentTemplate text turns with
  | case1 => exact ⟨.nil, rfl⟩
  | case2 turn => exact ⟨.singleton _, rfl⟩
  | case3 turn next later isTool formatted ih =>
    obtain ⟨⟨-, follows⟩, chain⟩ := isChain_cons_cons.mp takes.alternate
    have differ : ∀ third ∈ later.head?, Role.tool ≠ turnRole third := by
      intro third isThird
      obtain ⟨more, rfl⟩ := head?_eq_some_iff.mp isThird
      exact isTool ▸ (isChain_cons_cons.mp chain).1.1
    have restTakes : TakesTurns later :=
      ⟨fun third isThird => takes.isTurn third
          (mem_cons_of_mem _ (mem_cons_of_mem _ isThird)),
        chain.of_cons, fun third isThird => (differ third isThird).symm⟩
    obtain ⟨laterChain, heads⟩ := ih restTakes
    refine ⟨.cons_cons ?_ (isChain_cons.mpr ⟨fun message isNext => ?_, laterChain⟩), rfl⟩
    · rw [follows isTool]
      exact (by decide : Role.assistant ≠ .tool)
    · rw [isNext, Option.map_some, eq_comm, Option.map_eq_some_iff] at heads
      obtain ⟨third, isThird, same⟩ := heads
      rw [← same]
      exact differ third isThird
  | case4 turn next later noTool ih =>
    obtain ⟨⟨differ, -⟩, chain⟩ := isChain_cons_cons.mp takes.alternate
    have starts : ∀ other ∈ (next :: later).head?, turnRole other ≠ .tool := by
      intro other isOther
      rw [← Option.some.inj isOther]
      exact noTool
    obtain ⟨laterChain, heads⟩ := ih (takes.tail starts)
    refine ⟨isChain_cons.mpr ⟨fun message isNext => ?_, laterChain⟩, rfl⟩
    rw [isNext] at heads
    rw [Option.some.inj heads]
    exact differ

end Joining

/-! ## The turns of a conversation -/

/-- A conversation of texts in which tool messages follow the assistant or its calls. -/
structure Conversation (messages : Messages) : Prop where
  roles : ∀ message ∈ messages, message.role ∈ [Role.user, .assistant, .tool, .toolCall]
  texts : ∀ message ∈ messages, ∃ text, message.content = .text text
  starts : ∀ first ∈ messages.head?, first.role ≠ .tool
  follows : messages.IsChain fun first next =>
    next.role = .tool → first.role ∈ [Role.assistant, .toolCall, .tool]

section Conversations

variable {agentTemplate : BaseAgentTemplate}

theorem joinTexts_append (first rest : Messages) :
    joinTexts (first ++ rest) = joinTexts first ++ joinTexts rest := by
  induction first with
  | nil => exact String.empty_append.symm
  | cons message first ih =>
    change textOf message.content ++ joinTexts (first ++ rest) =
      textOf message.content ++ joinTexts first ++ joinTexts rest
    rw [ih, String.append_assoc]

theorem joinTexts_formatRun (run : Messages) :
    joinTexts (formatRun agentTemplate run) = runText agentTemplate run := by
  rw [formatRun, runText]
  split
  · rw [joinTexts, map_singleton, foldr_cons, foldr_nil, String.append_empty]
    rfl
  · rfl

theorem joinTexts_formatCalls (turn : Messages) :
    joinTexts (formatCalls agentTemplate turn) = turnText agentTemplate turn := by
  rw [formatCalls, turnText]
  induction runs Message.role turn with
  | nil => rfl
  | cons run later ih =>
    rw [flatMap_cons, joinTexts_append, joinTexts_formatRun, ih, map_cons, foldr_cons]

variable {messages : Messages}

/-- What comes of a message has the role of its speaker. -/
theorem exists_of_mem_formatCalls
    (texts : ∀ message ∈ messages, ∃ text, message.content = .text text) {message : Message}
    (isIn : message ∈ formatCalls agentTemplate messages) :
    (∃ text, message.content = .text text) ∧
      ∃ original ∈ messages, message.role = speaker original.role := by
  obtain ⟨run, isRunIn, isIn⟩ := mem_flatMap.mp isIn
  obtain ⟨role, isRun⟩ := isRun_of_mem_runs isRunIn
  have inside : ∀ original ∈ run, original ∈ messages := by
    intro original isOriginal
    rw [← flatten_runs Message.role messages]
    exact mem_flatten_of_mem isRunIn isOriginal
  obtain ⟨first, others, isSome⟩ := exists_cons_of_ne_nil isRun.some
  have isFirst : first ∈ run := by simp [isSome]
  rw [formatRun] at isIn
  split at isIn
  · rename_i isCall
    obtain rfl := mem_singleton.mp isIn
    refine ⟨⟨_, rfl⟩, first, inside first isFirst, ?_⟩
    rw [isRun.keys first isFirst, (isCallRun_iff isRun).mp isCall]
    rfl
  · rename_i noCall
    refine ⟨texts message (inside message isIn), message, inside message isIn, ?_⟩
    have role : message.role ≠ .toolCall := by
      rw [isRun.keys message isIn]
      exact fun isCall => noCall ((isCallRun_iff isRun).mpr isCall)
    cases is : message.role with
    | toolCall => exact absurd is role
    | system => rfl
    | user => rfl
    | assistant => rfl
    | toolResponse => rfl
    | tool => rfl

theorem formatCalls_ne_nil (some : messages ≠ []) : formatCalls agentTemplate messages ≠ [] := by
  intro isNil
  rw [formatCalls, flatMap_eq_nil_iff] at isNil
  have few : runs Message.role messages ≠ [] := fun none => by
    rw [← flatten_runs Message.role messages, none] at some
    exact some rfl
  obtain ⟨run, later, isRuns⟩ := exists_cons_of_ne_nil few
  have isRun : run ∈ runs Message.role messages := by simp [isRuns]
  have none := isNil run isRun
  rw [formatRun] at none
  split at none
  · cases none
  · obtain ⟨role, isRun⟩ := isRun_of_mem_runs isRun
    exact isRun.some none

variable {turn : Messages} {role : Role}

theorem turnRole_of_isRun (isRun : IsRun speakerOf turn role) : turnRole turn = role := by
  obtain ⟨first, others, rfl⟩ := exists_cons_of_ne_nil isRun.some
  exact isRun.keys first mem_cons_self

theorem isTurn_formatCalls (isRun : IsRun speakerOf turn role)
    (roles : ∀ message ∈ turn, message.role ∈ [Role.user, .assistant, .tool, .toolCall])
    (texts : ∀ message ∈ turn, ∃ text, message.content = .text text) :
    turnRole (formatCalls agentTemplate turn) = role ∧
      IsTurn (formatCalls agentTemplate turn) := by
  have some := @formatCalls_ne_nil agentTemplate turn isRun.some
  have isRole : ∀ message ∈ formatCalls agentTemplate turn, message.role = role := by
    intro message isIn
    obtain ⟨-, original, isOriginal, same⟩ := exists_of_mem_formatCalls texts isIn
    rw [same]
    exact isRun.keys original isOriginal
  have spoken : ∀ role ∈ [Role.user, .assistant, .tool, .toolCall],
      speaker role ∈ [Role.user, .assistant, .tool] ∧ speaker (speaker role) = speaker role := by
    decide
  obtain ⟨first, others, rfl⟩ := exists_cons_of_ne_nil isRun.some
  have isFirst : speaker first.role = role := isRun.keys first mem_cons_self
  obtain ⟨known, idle⟩ := spoken first.role (roles first mem_cons_self)
  rw [isFirst] at known idle
  have same : turnRole (formatCalls agentTemplate (first :: others)) = role :=
    turnRole_of_isRun ⟨some, fun message isIn => by rw [speakerOf, isRole message isIn, idle]⟩
  refine ⟨same, ⟨some, fun message isIn => ?_⟩, ?_, fun message isIn => ?_⟩
  · rw [same, isRole message isIn]
  · rw [same]
    exact known
  · exact (exists_of_mem_formatCalls texts isIn).1

theorem formatCalls_turn {rest : Messages} (isRun : IsRun speakerOf turn role)
    (elsewhere : BeginsElsewhere speakerOf role rest) :
    formatCalls agentTemplate (turn ++ rest) =
      formatCalls agentTemplate turn ++ formatCalls agentTemplate rest := by
  have apart : runs Message.role (turn ++ rest) =
      runs Message.role turn ++ runs Message.role rest := by
    refine runs_append_of_ne fun last isLast next isNext same => elsewhere next isNext ?_
    rw [← isRun.keys last (mem_of_getLast? isLast), speakerOf, speakerOf, same]
  rw [formatCalls, apart, flatMap_append, formatCalls, formatCalls]

theorem speaker_eq_tool : speaker role = .tool ↔ role = .tool := by
  cases role <;> decide

theorem formatCalls_tools (isRun : IsRun speakerOf turn .tool) :
    formatCalls agentTemplate turn = turn := by
  have isTools : IsRun Message.role turn .tool :=
    ⟨isRun.some, fun message isIn => speaker_eq_tool.mp (isRun.keys message isIn)⟩
  have noCall : ¬ IsCallRun turn := fun isCall => by cases (isCallRun_iff isTools).mp isCall
  rw [formatCalls, runs_of_isRun isTools, flatMap_singleton, formatRun, if_neg noCall]

theorem turns_append {rest : Messages} (isRun : IsRun speakerOf turn role)
    (elsewhere : BeginsElsewhere speakerOf role rest) : turns (turn ++ rest) = turn :: turns rest :=
  runs_append isRun elsewhere

/-- The turns after the first loop are those of the conversation, with their calls
formatted. -/
theorem turns_formatCalls
    (roles : ∀ message ∈ messages, message.role ∈ [Role.user, .assistant, .tool, .toolCall])
    (texts : ∀ message ∈ messages, ∃ text, message.content = .text text)
    (follows : messages.IsChain fun first next =>
      next.role = .tool → first.role ∈ [Role.assistant, .toolCall, .tool]) :
    ((turns messages).map (formatCalls agentTemplate)).flatten =
        formatCalls agentTemplate messages ∧
      (∀ turn ∈ (turns messages).map (formatCalls agentTemplate), IsTurn turn) ∧
      ((turns messages).map (formatCalls agentTemplate)).IsChain fun turn next =>
        turnRole turn ≠ turnRole next ∧ (turnRole next = .tool → turnRole turn = .assistant) := by
  induction messages using runs_induction speakerOf with
  | nil => exact ⟨rfl, by simp [turns], .nil⟩
  | append turn rest role isRun elsewhere ih =>
    rw [forall_mem_append] at roles texts
    obtain ⟨-, restFollows, border⟩ := isChain_append.mp follows
    obtain ⟨flat, areTurns, chain⟩ := ih roles.2 texts.2 restFollows
    obtain ⟨isRole, isTurn⟩ := @isTurn_formatCalls agentTemplate _ _ isRun roles.1
      texts.1
    rw [turns_append isRun elsewhere, map_cons]
    refine ⟨?_, forall_mem_cons.mpr ⟨isTurn, areTurns⟩,
      isChain_cons.mpr ⟨fun next isNext => ?_, chain⟩⟩
    · rw [flatten_cons, flat, formatCalls_turn isRun elsewhere]
    · rw [head?_map, Option.mem_map] at isNext
      obtain ⟨nextTurn, isNext, rfl⟩ := isNext
      obtain ⟨first, isFirst, isNextRun⟩ := isRun_of_mem_head? isNext
      have isIn := mem_of_mem_head? isFirst
      have inRest : ∀ message ∈ nextTurn, message ∈ rest := by
        intro message isMessage
        rw [← flatten_runs speakerOf rest]
        exact mem_flatten_of_mem (mem_of_mem_head? isNext) isMessage
      obtain ⟨isNextRole, -⟩ := @isTurn_formatCalls agentTemplate _ _ isNextRun
        (fun message isMessage => roles.2 message (inRest message isMessage))
        fun message isMessage => texts.2 message (inRest message isMessage)
      rw [isRole, isNextRole]
      refine ⟨(elsewhere first isFirst).symm, fun isTool => ?_⟩
      obtain ⟨last, isLast⟩ : ∃ last, last ∈ turn.getLast? :=
        ⟨_, getLast_mem_getLast? isRun.some⟩
      have before := border last isLast first isFirst (speaker_eq_tool.mp isTool)
      have lastRole : speaker last.role = role := isRun.keys last (mem_of_getLast? isLast)
      have differ : speaker first.role ≠ role := elsewhere first isFirst
      rw [show speaker first.role = .tool from isTool, ← lastRole] at differ
      rw [← lastRole]
      simp only [mem_cons, not_mem_nil, or_false] at before
      rcases before with is | is | is <;> rw [is] at differ ⊢
      · rfl
      · rfl
      · exact absurd rfl differ

/-- Turns that are changed alike are represented alike. -/
theorem represent_map {text other : Messages → String} {change : Messages → Messages}
    {turns : List Messages} (roles : ∀ turn ∈ turns, turnRole (change turn) = turnRole turn)
    (texts : ∀ turn ∈ turns, text (change turn) = other turn)
    (tools : ∀ turn ∈ turns, turnRole turn = .tool → change turn = turn) :
    represent agentTemplate text (turns.map change) = represent agentTemplate other turns ∧
      givenResponses text (turns.map change) = givenResponses other turns := by
  fun_induction represent agentTemplate other turns with
  | case1 => exact ⟨rfl, rfl⟩
  | case2 turn =>
    have isIn : turn ∈ [turn] := mem_cons_self
    rw [map_singleton, represent, roles turn isIn, texts turn isIn]
    exact ⟨rfl, rfl⟩
  | case3 turn next later isTool formatted ih =>
    rw [forall_mem_cons, forall_mem_cons] at roles texts tools
    obtain ⟨same, sameGiven⟩ := ih roles.2.2 texts.2.2 tools.2.2
    rw [map_cons, map_cons, represent, givenResponses, givenResponses, roles.2.1, if_pos isTool,
      if_pos isTool, if_pos isTool, roles.1, texts.1, tools.2.1 isTool, same, sameGiven]
    exact ⟨rfl, rfl⟩
  | case4 turn next later noTool ih =>
    rw [forall_mem_cons] at roles texts tools
    obtain ⟨same, sameGiven⟩ := ih roles.2 texts.2 tools.2
    rw [map_cons] at same sameGiven ⊢
    rw [map_cons, represent, givenResponses, givenResponses, roles.2 next mem_cons_self,
      if_neg noTool, if_neg noTool, if_neg noTool, roles.1, texts.1, same, sameGiven]
    exact ⟨rfl, rfl⟩

theorem mem_of_mem_turns (isTurn : turn ∈ turns messages) :
    ∀ message ∈ turn, message ∈ messages := by
  intro message isIn
  rw [← flatten_runs speakerOf messages]
  exact mem_flatten_of_mem isTurn isIn

theorem Conversation.turnRole_formatCalls (conversation : Conversation messages)
    (isTurn : turn ∈ turns messages) (isRun : IsRun speakerOf turn role) :
    turnRole (formatCalls agentTemplate turn) = role :=
  (isTurn_formatCalls isRun
    (fun message isIn => conversation.roles message (mem_of_mem_turns isTurn message isIn))
    fun message isIn => conversation.texts message (mem_of_mem_turns isTurn message isIn)).1

theorem Conversation.takesTurns (conversation : Conversation messages) :
    TakesTurns ((turns messages).map (formatCalls agentTemplate)) := by
  obtain ⟨-, areTurns, chain⟩ :=
    @turns_formatCalls agentTemplate messages conversation.roles conversation.texts
      conversation.follows
  refine ⟨areTurns, chain, fun turn isTurn isTool => ?_⟩
  rw [head?_map, Option.mem_map] at isTurn
  obtain ⟨original, isOriginal, rfl⟩ := isTurn
  obtain ⟨first, isFirst, isRun⟩ := isRun_of_mem_head? isOriginal
  have role := @Conversation.turnRole_formatCalls agentTemplate _ _ _ conversation
    (mem_of_mem_head? isOriginal) isRun
  rw [isTool] at role
  exact conversation.starts first isFirst (speaker_eq_tool.mp role.symm)

theorem Conversation.represent_formatCalls (conversation : Conversation messages) :
    represent agentTemplate joinTexts ((turns messages).map (formatCalls agentTemplate)) =
        represent agentTemplate (turnText agentTemplate) (turns messages) ∧
      givenResponses joinTexts ((turns messages).map (formatCalls agentTemplate)) =
        givenResponses (turnText agentTemplate) (turns messages) := by
  refine represent_map (fun turn isTurn => ?_) (fun turn _ => joinTexts_formatCalls turn)
    fun turn isTurn isTool => ?_
  · obtain ⟨role, isRun⟩ := isRun_of_mem_runs isTurn
    rw [conversation.turnRole_formatCalls isTurn isRun, turnRole_of_isRun isRun]
  · obtain ⟨role, isRun⟩ := isRun_of_mem_runs isTurn
    rw [turnRole_of_isRun isRun] at isTool
    exact formatCalls_tools (isTool ▸ isRun)

/-- Turns joined by the second loop, whether or not it is entered. -/
theorem TakesTurns.swiftPrepareInputs_eq {turns : List Messages} (takes : TakesTurns turns) :
    swiftPrepareInputs agentTemplate true turns.flatten = .ok (some
      (represent agentTemplate joinTexts turns, givenResponses joinTexts turns)) := by
  have comes := @TakesTurns.comes agentTemplate _ takes [] []
  rw [nil_append, nil_append] at comes
  rw [swiftPrepareInputs]
  split
  · rename_i few
    have ended := comes (turns.flatten.length + 1) 0 (Nat.lt_succ_self _)
    rw [nil_append, length_nil,
      execute_end _ _ _ _ (show turns.flatten.length ≤ 0 + 1 by omega)] at ended
    exact ended
  · exact comes _ 0 (Nat.lt_succ_self _)

/-- **Each turn becomes one message**, and each run of calls or of tool messages is formatted
once, as a whole. -/
theorem prepareMessages_eq (agentTemplate : BaseAgentTemplate) {messages : Messages}
    (conversation : Conversation messages) :
    prepareMessages agentTemplate messages = .ok (some
      ⟨represent agentTemplate (turnText agentTemplate) (turns messages), callRuns messages,
        givenResponses (turnText agentTemplate) (turns messages)⟩) ∧
      (represent agentTemplate (turnText agentTemplate) (turns messages)).IsChain
        fun first next => first.role ≠ next.role := by
  obtain ⟨isFlat, -⟩ := @turns_formatCalls agentTemplate messages conversation.roles
    conversation.texts conversation.follows
  have takes := @Conversation.takesTurns agentTemplate _ conversation
  obtain ⟨same, sameGiven⟩ := @Conversation.represent_formatCalls agentTemplate _ conversation
  rw [← same, ← sameGiven]
  refine ⟨?_, takes.isChain.1⟩
  have prepared := @TakesTurns.swiftPrepareInputs_eq agentTemplate _ takes
  rw [isFlat] at prepared
  rw [prepareMessages, preprocessFunctionCall_eq]
  simp only [bind, Except.bind, prepared, Option.map_some]

/-- Two calls after the words of the assistant, and two responses to them. -/
def calledTwice : Messages :=
  [⟨.user, .text "Where?"⟩, ⟨.assistant, .text "Two calls. "⟩, ⟨.toolCall, .text "search"⟩,
    ⟨.toolCall, .text "locate"⟩, ⟨.tool, .text "a map"⟩, ⟨.tool, .text "a place"⟩,
    ⟨.assistant, .text "There."⟩]

def countingAgentTemplate : BaseAgentTemplate where
  formatToolCalls calls := toString calls.length ++ " calls"
  formatToolResponses content responses :=
    (content, responses.map fun response => textOf response.content)

theorem conversation_calledTwice : Conversation calledTwice where
  roles := by decide
  texts := by simp [calledTwice]
  starts := by simp [calledTwice]
  follows := by simp [calledTwice]

theorem prepareMessages_calledTwice :
    prepareMessages countingAgentTemplate calledTwice = .ok (some
        ⟨represent countingAgentTemplate (turnText countingAgentTemplate) (turns calledTwice),
          callRuns calledTwice,
          givenResponses (turnText countingAgentTemplate) (turns calledTwice)⟩) ∧
      (represent countingAgentTemplate (turnText countingAgentTemplate)
        (turns calledTwice)).IsChain fun first next => first.role ≠ next.role :=
  prepareMessages_eq countingAgentTemplate conversation_calledTwice

example : turns calledTwice =
    [calledTwice.take 1, slice calledTwice 1 4, slice calledTwice 4 6, calledTwice.drop 6] := by
  decide

end Conversations

end Geobench.Template
