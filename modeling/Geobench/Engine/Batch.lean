import Geobench.Library.Json
import Geobench.Library.Text

/-!
# Batches of the transformers engine

The engine encodes the requests of a batch, generates for those that were encoded, and
puts the errors of the others back at their positions.

Errors put back one after another end up at the positions of their requests, and the
outputs fill the other positions in their order (`addErrorList_eq`).
-/

namespace Geobench.Engine

open Library List

/-! ## Requests and replies -/

structure AdapterRequest where
  name : Text
  path : Text
  deriving DecidableEq

/-- The settings of a request. Those that only reach the sampler are one value. -/
structure RequestConfig where
  maxTokens : Option ℤ
  numBeams : ℕ
  stop : List Text
  stream : Bool
  n : ℕ
  returnDetails : Bool
  sampling : Json

structure GenerationConfig where
  maxNewTokens : ℤ
  numBeams : ℕ
  numReturnSequences : ℕ
  stopWords : List Text
  sampling : Json

structure UsageInfo where
  promptTokens : ℕ
  completionTokens : ℕ
  totalTokens : ℕ
  deriving DecidableEq

inductive FinishReason where
  | stop
  | length
  deriving DecidableEq

/-- A chunk of a streamed reply. -/
structure ChatCompletionStreamResponse where
  model : Text
  id : Text
  content : Text
  toolCalls : Option (List Text)
  finishReason : Option FinishReason
  usage : UsageInfo
  deriving DecidableEq

structure ChatCompletionResponseChoice where
  index : ℕ
  content : Text
  toolCalls : Option (List Text)
  finishReason : Option FinishReason
  tokenIds : Option (List ℕ)
  deriving DecidableEq

structure ChatCompletionResponse where
  model : Text
  choices : List ChatCompletionResponseChoice
  usage : UsageInfo
  promptTokenIds : Option (List ℕ)
  deriving DecidableEq

/-- What a request gets: a whole response, the chunks of a stream, or an error. -/
inductive Reply (Error : Type) where
  | response (response : ChatCompletionResponse)
  | chunk (chunk : ChatCompletionStreamResponse)
  | error (error : Error)
  deriving DecidableEq

def getUsageInfo (numPromptTokens numGeneratedTokens : ℕ) : UsageInfo :=
  ⟨numPromptTokens, numGeneratedTokens, numPromptTokens + numGeneratedTokens⟩

def updateUsageInfo (originUsageInfo : UsageInfo) (numGeneratedTokens : ℕ) : UsageInfo :=
  ⟨originUsageInfo.promptTokens, originUsageInfo.completionTokens + numGeneratedTokens,
    originUsageInfo.totalTokens + numGeneratedTokens⟩

def getFinishReason (maxTokens : ℤ) (completionTokens : ℕ) (isFinished : Bool) :
    Option FinishReason :=
  if isFinished then some (if maxTokens ≤ completionTokens then .length else .stop) else none

/-! ## Encoding a batch -/

section Positions

universe u v w

variable {ε : Type u} {α : Type v} {β : Type w}

/-- Collect the encoded requests from a position on, and the errors with their positions.
A strict engine raises the first error. -/
def batchEncodeFrom (strict : Bool) :
    ℕ → List (Except ε α) → Except ε (List α × List (ℕ × ε))
  | _, [] => .ok ([], [])
  | i, .ok input :: rest =>
    match batchEncodeFrom strict (i + 1) rest with
    | .error failure => .error failure
    | .ok (inputs, errors) => .ok (input :: inputs, errors)
  | i, .error failure :: rest =>
    if strict then .error failure
    else match batchEncodeFrom strict (i + 1) rest with
      | .error failure => .error failure
      | .ok (inputs, errors) => .ok (inputs, (i, failure) :: errors)

def batchEncode (strict : Bool) (results : List (Except ε α)) :
    Except ε (List α × List (ℕ × ε)) :=
  batchEncodeFrom strict 0 results

def insertAt (items : List β) (i : ℕ) (item : β) : List β :=
  items.take i ++ item :: items.drop i

def addErrorList (outputs : List β) (errorList : List (ℕ × β)) : List β :=
  errorList.foldl (fun outputs (i, error) => insertAt outputs i error) outputs

def encoded : List (Except ε α) → List α
  | [] => []
  | .ok input :: rest => input :: encoded rest
  | .error _ :: rest => encoded rest

/-- Whether no request failed. -/
def AllEncoded (results : List (Except ε α)) : Prop :=
  ∀ result ∈ results, ∃ input, result = .ok input

/-- The outputs in their order, with the error of a request that failed at its position. -/
def inOrder (ofError : ε → β) : List (Except ε α) → List β → List β
  | [], _ => []
  | .error failure :: rest, outputs => ofError failure :: inOrder ofError rest outputs
  | .ok _ :: rest, output :: outputs => output :: inOrder ofError rest outputs
  | .ok _ :: rest, [] => inOrder ofError rest []

/-- The row of a position: the number of requests encoded before it. -/
def rowOf (results : List (Except ε α)) (position : ℕ) : ℕ :=
  (encoded (results.take position)).length

variable {strict : Bool} {results : List (Except ε α)} {inputs : List α} {errors : List (ℕ × ε)}

/-- What encoding collects: the requests that were encoded, and the errors of the others.
A strict engine collects only when no request failed. -/
theorem batchEncodeFrom_ok {i : ℕ}
    (collected : batchEncodeFrom strict i results = .ok (inputs, errors)) :
    inputs = encoded results ∧ ∀ (ofError : ε → β) (before outputs : List β),
      before.length = i → outputs.length = inputs.length →
        addErrorList (before ++ outputs) (errors.map fun (j, failure) => (j, ofError failure)) =
          before ++ inOrder ofError results outputs := by
  induction results generalizing i inputs errors with
  | nil =>
    cases collected
    refine ⟨rfl, ?_⟩
    intro ofError before outputs _ sameLength
    rw [length_eq_zero_iff.mp sameLength]
    rfl
  | cons result rest ih =>
    cases result with
    | ok input =>
      rw [batchEncodeFrom] at collected
      split at collected
      · cases collected
      · rename_i inputsRest errorsRest collectedRest
        cases collected
        obtain ⟨rfl, placed⟩ := ih collectedRest
        refine ⟨rfl, ?_⟩
        intro ofError before outputs length sameLength
        cases outputs with
        | nil => cases sameLength
        | cons output outputs =>
          have later := placed ofError (before ++ [output]) outputs
            (by rw [length_append, length]; rfl) (Nat.succ.inj sameLength)
          rw [append_assoc, append_assoc] at later
          exact later
    | error failure =>
      rw [batchEncodeFrom] at collected
      split at collected
      · cases collected
      · split at collected
        · cases collected
        · rename_i inputsRest errorsRest collectedRest
          cases collected
          obtain ⟨rfl, placed⟩ := ih collectedRest
          refine ⟨rfl, ?_⟩
          intro ofError before outputs length sameLength
          have later := placed ofError (before ++ [ofError failure]) outputs
            (by rw [length_append, length]; rfl) sameLength
          rw [append_assoc, append_assoc] at later
          have inserted : insertAt (before ++ outputs) i (ofError failure) =
              before ++ ofError failure :: outputs := by
            rw [insertAt, ← length, take_left, drop_left]
          rw [map_cons]
          refine Eq.trans ?_ later
          exact congrArg (addErrorList · _) inserted

variable {outputs : List β}

/-- Errors put back one after another end up at the positions of their requests. -/
theorem addErrorList_eq (collected : batchEncode strict results = .ok (inputs, errors))
    (ofError : ε → β) (sameLength : outputs.length = inputs.length) :
    addErrorList outputs (errors.map fun (i, failure) => (i, ofError failure)) =
      inOrder ofError results outputs :=
  (batchEncodeFrom_ok collected).2 ofError [] outputs rfl sameLength

theorem batchEncode_inputs (collected : batchEncode strict results = .ok (inputs, errors)) :
    inputs = encoded results :=
  (batchEncodeFrom_ok (β := ε) collected).1

/-- Encoding raises only in a strict engine, when a request fails. -/
theorem exists_batchEncode (tolerated : strict = true → AllEncoded results) :
    ∃ errors, batchEncode strict results = .ok (encoded results, errors) := by
  have fromPosition (i : ℕ) : ∃ errors,
      batchEncodeFrom strict i results = .ok (encoded results, errors) := by
    induction results generalizing i with
    | nil => exact ⟨[], rfl⟩
    | cons result rest ih =>
      obtain ⟨errors, collected⟩ := ih (fun isStrict result member =>
        tolerated isStrict result (mem_cons_of_mem _ member)) (i + 1)
      cases result with
      | ok input => exact ⟨errors, by rw [batchEncodeFrom, collected]; rfl⟩
      | error failure =>
        have lenient : ¬ strict = true := by
          intro isStrict
          obtain ⟨input, impossible⟩ := tolerated isStrict _ mem_cons_self
          cases impossible
        exact ⟨(i, failure) :: errors, by rw [batchEncodeFrom, if_neg lenient, collected]; rfl⟩
  exact fromPosition 0

/-- A strict engine that collects has encoded every request. -/
theorem allEncoded_of_batchEncodeFrom {i : ℕ} {collected : List α × List (ℕ × ε)}
    (ran : batchEncodeFrom true i results = .ok collected) : AllEncoded results := by
  induction results generalizing i collected with
  | nil => exact nofun
  | cons result rest ih =>
    cases result with
    | error failure => cases ran
    | ok input =>
      rw [batchEncodeFrom] at ran
      split at ran
      · cases ran
      · rename_i ranRest
        intro result member
        rcases mem_cons.mp member with rfl | later
        · exact ⟨input, rfl⟩
        · exact ih ranRest result later

variable {position : ℕ}

/-- A request that failed has its error at its position. -/
theorem getElem?_inOrder_error (ofError : ε → β)
    (sameLength : outputs.length = (encoded results).length) {failure : ε}
    (failed : results[position]? = some (.error failure)) :
    (inOrder ofError results outputs)[position]? = some (ofError failure) := by
  induction results generalizing outputs position with
  | nil => cases failed
  | cons result rest ih =>
    cases position with
    | zero =>
      cases failed
      rfl
    | succ position =>
      cases result with
      | error other => exact ih sameLength failed
      | ok input =>
        cases outputs with
        | nil => cases sameLength
        | cons output outputs => exact ih (Nat.succ.inj sameLength) failed

/-- A request that was encoded has the output of its row at its position. -/
theorem getElem?_inOrder_ok (ofError : ε → β)
    (sameLength : outputs.length = (encoded results).length) {input : α}
    (succeeded : results[position]? = some (.ok input)) :
    (inOrder ofError results outputs)[position]? = outputs[rowOf results position]? := by
  induction results generalizing outputs position with
  | nil => cases succeeded
  | cons result rest ih =>
    cases result with
    | error other =>
      cases position with
      | zero => cases succeeded
      | succ position => exact ih sameLength succeeded
    | ok first =>
      cases outputs with
      | nil => cases sameLength
      | cons output outputs =>
        cases position with
        | zero => rfl
        | succ position => exact ih (Nat.succ.inj sameLength) succeeded

/-- A request that was encoded has a row. -/
theorem rowOf_lt {input : α} (succeeded : results[position]? = some (.ok input)) :
    rowOf results position < (encoded results).length := by
  induction results generalizing position with
  | nil => cases succeeded
  | cons result rest ih =>
    cases position with
    | zero =>
      cases succeeded
      exact Nat.succ_pos _
    | succ position =>
      cases result with
      | error other => exact ih succeeded
      | ok first => exact Nat.succ_lt_succ (ih succeeded)

theorem exists_position {row : ℕ} (isRow : row < (encoded results).length) :
    ∃ position input, results[position]? = some (.ok input) ∧ rowOf results position = row := by
  induction results generalizing row with
  | nil => cases isRow
  | cons result rest ih =>
    cases result with
    | error failure =>
      obtain ⟨position, input, succeeded, isRow⟩ := ih isRow
      exact ⟨position + 1, input, succeeded, isRow⟩
    | ok first =>
      cases row with
      | zero => exact ⟨0, first, rfl, rfl⟩
      | succ row =>
        obtain ⟨position, input, succeeded, isRow⟩ := ih (Nat.lt_of_succ_lt_succ isRow)
        exact ⟨position + 1, input, succeeded, congrArg Nat.succ isRow⟩

end Positions

end Geobench.Engine
