import Mathlib.Data.List.AList
import Mathlib.Data.Rat.Init
import Mathlib.Algebra.GroupWithZero.Nat

/-!
# The data of a rollout

A conversation is a list of messages, each with a role and a content. A reply of
the engine is a choice: a completion text with its token ids, its log
probabilities and a finish reason. A rollout output carries the conversation at
the end of a rollout together with three lists that run over its turns: the ids
generated at each turn, their loss masks and their log probabilities.

`removeResponse` pops a trailing assistant message.
`replaceAssistantResponseWithIds` walks the conversation from its end and gives
the contents of the assistant messages to the id lists, last list first.

Python exceptions are the errors of `Except`. A conversation is mutated in place
by the source; here each function returns the new conversation.
-/

namespace Geobench.Rollout

/-! ## Messages -/

/-- The roles a dataset row may use. -/
inductive Role where
  | system
  | user
  | assistant
  | toolCall
  | toolResponse
  | tool
  deriving DecidableEq, Repr

/-- The content of a message: `None`, a text, a list of multimodal parts, or, once
the response has been replaced, token ids with or without a loss scale. -/
inductive Content where
  | none
  | text (value : String)
  | parts (items : List String)
  | tokenIds (ids : List ℕ)
  | maskedTokenIds (lossScale : List ℤ) (ids : List ℕ)
  deriving DecidableEq, Repr

structure Message where
  role : Role
  content : Content
  deriving DecidableEq, Repr

abbrev Messages := List Message

/-- The exceptions the rollout code raises. -/
inductive PyError where
  | indexError
  | typeError
  | assertionError (message : String)
  deriving DecidableEq, Repr

/-- The message at index `-1`. -/
def lastMessage (messages : Messages) : Except PyError Message :=
  match messages.getLast? with
  | some last => .ok last
  | none => .error .indexError

/-- Pop the last message when it is an assistant message, and return its content. -/
def removeResponse (messages : Messages) : Option Content × Messages :=
  match messages.getLast? with
  | some last =>
    if last.role = .assistant then (some last.content, messages.dropLast) else (none, messages)
  | none => (none, messages)

/-- Python's truth value of a content. -/
def Content.truthy : Content → Bool
  | .none => false
  | .text value => !value.isEmpty
  | .parts items => !items.isEmpty
  | .tokenIds ids => !ids.isEmpty
  | .maskedTokenIds _ _ => true

/-- `content += completion`. A text is concatenated, and a list is extended by the
characters of the completion. -/
def Content.addText (content : Content) (completion : String) : Except PyError Content :=
  match content with
  | .text value => .ok (.text (value ++ completion))
  | .parts items => .ok (.parts (items ++ completion.toList.map String.singleton))
  | .none | .tokenIds _ | .maskedTokenIds _ _ => .error .typeError

def assistantCount (messages : Messages) : ℕ :=
  messages.countP (·.role = .assistant)

@[simp] theorem assistantCount_append (first second : Messages) :
    assistantCount (first ++ second) = assistantCount first + assistantCount second :=
  List.countP_append

theorem assistantCount_eq_count_role (messages : Messages) :
    assistantCount messages = (messages.map Message.role).count .assistant := by
  rw [assistantCount, List.count, List.countP_map]
  congr 1

/-- Nothing is popped from a conversation that does not end in an assistant message. -/
theorem removeResponse_of_ne {messages : Messages}
    (notAssistant : ∀ last ∈ messages.getLast?, last.role ≠ .assistant) :
    (removeResponse messages).2 = messages := by
  unfold removeResponse
  split
  · rename_i last isLast
    rw [if_neg (notAssistant last isLast)]
  · rfl

theorem removeResponse_concat_assistant (messages : Messages) (content : Content) :
    removeResponse (messages ++ [⟨.assistant, content⟩]) = (some content, messages) := by
  simp [removeResponse]

/-! ## Requests, replies and outputs -/

/-- A log probability. Only its place in a list matters here. -/
abbrev Logprob := ℚ

/-- A value of the `rollout_infos` dictionary. -/
inductive InfoValue where
  | int (value : ℤ)
  | text (value : String)
  | texts (values : List String)
  deriving DecidableEq, Repr

/-- The `rollout_infos` dictionary. -/
abbrev RolloutInfos := AList fun _ : String => InfoValue

structure RolloutInferRequest where
  messages : Messages
  images : List String
  audios : List String
  videos : List String
  tools : Option (List String)
  objects : List (String × String)
  dataDict : List (String × String)
  uuid : Option String
  deriving DecidableEq, Repr

inductive FinishReason where
  | stop
  | length
  deriving DecidableEq, Repr

/-- A reply of the engine. `logprobs` is `None` or a dictionary that may hold the
key `content`. -/
structure ChatCompletionResponseChoice where
  content : String
  finishReason : Option FinishReason
  logprobs : Option (Option (List Logprob))
  tokenIds : Option (List ℕ)
  deriving DecidableEq, Repr

/-- A response. Rollouts assert `request_config.n == 1`, so it holds one choice. -/
structure ChatCompletionResponse where
  id : String
  choice : ChatCompletionResponseChoice
  deriving DecidableEq, Repr

structure RolloutOutput where
  response : ChatCompletionResponse
  messages : Messages
  responseTokenIds : List (List ℕ)
  responseLossMask : List (List ℤ)
  rolloutInfos : RolloutInfos
  rolloutLogprobs : List (List Logprob)

/-- The log probabilities of a choice, or the empty list when it has none. -/
def extractLogprobsFromChoice (responseChoice : ChatCompletionResponseChoice) : List Logprob :=
  match responseChoice.logprobs with
  | none => []
  | some none => []
  | some (some content) => content

/-! ## Replacing the assistant messages by their ids -/

/-- Walk a conversation given last message first. Each assistant message takes the
next of the contents, which are also given last first, until none is left. -/
def replaceReversed : Messages → List Content → Messages
  | [], _ => []
  | rest, [] => rest
  | message :: rest, content :: contents =>
    if message.role = .assistant then
      { message with content := content } :: replaceReversed rest contents
    else
      message :: replaceReversed rest (content :: contents)

/-- An argument that is a list of lists, or one list that stands for a list of one. -/
inductive NestedList (α : Type) where
  | flat (items : List α)
  | nested (lists : List (List α))
  deriving DecidableEq, Repr

/-- Wrap a flat list. An empty list is empty in either form. -/
def NestedList.normalize {α : Type} : NestedList α → List (List α)
  | .flat [] => []
  | .flat (item :: items) => [item :: items]
  | .nested lists => lists

/-- The contents the id lists stand for, with their loss masks when there are any. -/
def responseContents (completionIds : List (List ℕ)) : List (List ℤ) → List Content
  | [] => completionIds.map .tokenIds
  | mask :: masks =>
    (completionIds.zip (mask :: masks)).map fun pair => .maskedTokenIds pair.2 pair.1

/-- Replace the assistant messages of a conversation, from the last one on, by the
lists of token ids, from the last one on. A loss mask must have the shape of the ids. -/
def replaceAssistantResponseWithIds (messages : Messages) (completionIds : NestedList ℕ)
    (lossMask : Option (NestedList ℤ)) : Except PyError Messages :=
  let ids := completionIds.normalize
  let masks := (lossMask.map NestedList.normalize).getD []
  if ids = [] then
    .error .indexError
  else if masks ≠ [] ∧ ¬(ids.length = masks.length ∧
      ∀ pair ∈ ids.zip masks, pair.1.length = pair.2.length) then
    .error (.assertionError
      s!"completion_ids and loss_mask must have the same length, but got {ids.length} and {masks.length}")
  else
    .ok (replaceReversed messages.reverse (responseContents ids masks).reverse).reverse

example : replaceAssistantResponseWithIds
    [⟨.user, .text "Hello"⟩, ⟨.assistant, .text "Hi there"⟩] (.nested [[1, 2, 3]])
    (some (.nested [[1, 1, 0]])) =
      .ok [⟨.user, .text "Hello"⟩, ⟨.assistant, .maskedTokenIds [1, 1, 0] [1, 2, 3]⟩] := by
  decide

end Geobench.Rollout
