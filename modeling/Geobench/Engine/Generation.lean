import Geobench.Engine.Batch
import Mathlib.Data.List.AList
import Mathlib.Data.List.OfFn

/-!
# Generation of the transformers engine

One call of the engine encodes a batch, prepares the settings of the generation, loads the
adapter, and generates whole responses or a stream. Each pass of a stream gives one list,
with a chunk for every row that has new printable text and `none` for the others; lists
without a chunk are not yielded.

What the language model generates is a parameter: token ids by row for whole responses,
and the tokens put on the streamer for a stream. The log probabilities of a response are
left out. Those of a chunk are always missing, since the streamer of the logits is never
read.
-/

namespace Geobench.Engine

open Library List

/-! ## Printable text -/

/-- What a row of a stream has printed. `none` is the initial `-1`. -/
structure InferStreamer where
  cacheIdx : ℕ
  printIdx : ℕ
  firstNumSpace : Option ℕ
  firstToken : Bool

def InferStreamer.new : InferStreamer := ⟨0, 0, none, true⟩

def isChineseChar (char : Char) : Bool :=
  let cp := char.toNat
  (0x4E00 ≤ cp && cp ≤ 0x9FFF) || (0x3400 ≤ cp && cp ≤ 0x4DBF) ||
    (0x20000 ≤ cp && cp ≤ 0x2A6DF) || (0x2A700 ≤ cp && cp ≤ 0x2B73F) ||
    (0x2B740 ≤ cp && cp ≤ 0x2B81F) || (0x2B820 ≤ cp && cp ≤ 0x2CEAF) ||
    (0xF900 ≤ cp && cp ≤ 0xFAFF) || (0x2F800 ≤ cp && cp ≤ 0x2FA1F)

/-- Give a response the blanks that its first piece began with. -/
def InferStreamer.alignBlankSuffix (streamer : InferStreamer) (response : Text) :
    Text × InferStreamer :=
  let curNumSpace := (response.takeWhile (· == ' ')).length
  match streamer.firstNumSpace with
  | none => (response, { streamer with firstNumSpace := some curNumSpace })
  | some firstNumSpace =>
    if curNumSpace < firstNumSpace then
      (List.replicate (firstNumSpace - curNumSpace) ' ' ++ response, streamer)
    else (response.drop (curNumSpace - firstNumSpace), streamer)

def endOfLastBlank (response : Text) : ℕ :=
  response.length - (response.reverse.takeWhile (· != ' ')).length

/-- The part of a response that is printed now. -/
def InferStreamer.getResponse (streamer : InferStreamer) (response : Text) (isFinished : Bool)
    (tokenLen : ℕ) : Text × InferStreamer :=
  if streamer.firstToken then (response, { streamer with firstToken := false })
  else if response.getLast? == some '\n' || isFinished then
    (response.drop streamer.printIdx, { streamer with
      cacheIdx := streamer.cacheIdx + tokenLen
      firstNumSpace := none
      printIdx := 0 })
  else
    let printableText :=
      if response.getLast?.any isChineseChar then response.drop streamer.printIdx
      else (response.take (endOfLastBlank response)).drop streamer.printIdx
    (printableText, { streamer with printIdx := streamer.printIdx + printableText.length })

/-! ## The engine -/

/-- The settings a generation runs with. -/
structure GenerateKwargs (Encoded : Type) where
  inputs : List Encoded
  generationConfig : GenerationConfig
  adapterRequest : Option AdapterRequest
  requestConfig : RequestConfig

/-- A hook sees the settings of a batch before it is generated and may change them. It
keeps the rows of the batch. -/
structure PreInferHook (Encoded : Type) where
  run : GenerateKwargs Encoded → GenerateKwargs Encoded
  keepsRows : ∀ settings, (run settings).inputs.length = settings.inputs.length

/-- What a call of the engine is made with. -/
structure InferKwargs (Encoded : Type) where
  requestConfig : RequestConfig
  adapterRequest : Option AdapterRequest
  preInferHook : Option (PreInferHook Encoded)

/-- The adapters that are loaded, by name. -/
abbrev AdaptersPool := AList fun _ : Text => AdapterRequest

/-- The engine with its template, tokenizer and model. `generate` and `streamed` are what
the model generates in a call, the calls being numbered. -/
structure TransformersEngine (Request Encoded Error : Type) where
  modelName : Text
  maxBatchSize : ℤ
  strict : Bool
  maxModelLen : Option ℤ
  maxTokensOffset : ℤ
  samplingDefaults : Json → Json
  templateStopWords : List Text
  padTokenId : ℕ
  skipPrompt : Bool
  encode : Request → Except Error Encoded
  inputIds : List Encoded → ℕ → List ℕ
  numTokens : List Encoded → ℕ
  decode : List ℕ → Bool → Bool → Text
  getToolcall : Text → Option (List Text)
  generate : ℕ → GenerateKwargs Encoded → AdaptersPool → Option (List Text) → ℕ → List ℕ
  streamed : ℕ → GenerateKwargs Encoded → AdaptersPool → Option (List Text) →
    (ℕ → List ℕ) × List (ℕ → List ℕ)
  requestIds : ℕ → ℕ → Text

/-- The exceptions of a call. -/
inductive InferError (Error : Type) where
  | encode (error : Error)
  | valueError (message : Text)
  | indexError

namespace TransformersEngine

variable {Request Encoded Error : Type} (engine : TransformersEngine Request Encoded Error)

def setDefaultMaxTokens (requestConfig : RequestConfig) (inputs : List Encoded) :
    RequestConfig :=
  let maxMaxTokens : ℤ :=
    engine.maxModelLen.getD 8192 - engine.numTokens inputs + engine.maxTokensOffset
  match requestConfig.maxTokens with
  | none => { requestConfig with maxTokens := some maxMaxTokens }
  | some maxTokens =>
    if maxMaxTokens < maxTokens then { requestConfig with maxTokens := some maxMaxTokens }
    else requestConfig

/-- The settings of a generation, the stop words of the template among them. -/
def prepareGenerationConfig (requestConfig : RequestConfig) : GenerationConfig where
  maxNewTokens := requestConfig.maxTokens.getD 0
  numBeams := requestConfig.numBeams
  numReturnSequences := requestConfig.n
  stopWords := requestConfig.stop ++ engine.templateStopWords
  sampling := engine.samplingDefaults requestConfig.sampling

/-- The settings a batch is generated with, once the hook has seen them. -/
def generateKwargs (kwargs : InferKwargs Encoded) (inputs : List Encoded) :
    GenerateKwargs Encoded :=
  let requestConfig := engine.setDefaultMaxTokens kwargs.requestConfig inputs
  let settings : GenerateKwargs Encoded := {
    inputs := inputs
    generationConfig := engine.prepareGenerationConfig requestConfig
    adapterRequest := kwargs.adapterRequest
    requestConfig := requestConfig }
  match kwargs.preInferHook with
  | none => settings
  | some preInferHook => preInferHook.run settings

theorem length_generateKwargs (kwargs : InferKwargs Encoded) (inputs : List Encoded) :
    (engine.generateKwargs kwargs inputs).inputs.length = inputs.length := by
  rw [generateKwargs]
  cases kwargs.preInferHook with
  | none => rfl
  | some preInferHook => exact preInferHook.keepsRows _

/-- Load an adapter by its name, unless one of this name is loaded. -/
def loadAdapter (pool : AdaptersPool) : Option AdapterRequest → AdaptersPool
  | none => pool
  | some adapterRequest =>
    if adapterRequest.name ∈ pool then pool
    else pool.insert adapterRequest.name adapterRequest

def getAdapterNames (pool : AdaptersPool) : Option AdapterRequest → Option (List Text)
  | none => if pool.keys = [] then none else some ["__base__".toList]
  | some adapterRequest => some [adapterRequest.name]

/-- The generated ids of a row, without the prompt. -/
def getGenerateIds (inputs : List Encoded) (ids : List ℕ) : List ℕ :=
  if engine.skipPrompt then ids.drop (engine.numTokens inputs) else ids

/-- The generated ids of a row, without the prompt and the padding. -/
def maskedIds (inputs : List Encoded) (ids : List ℕ) : List ℕ :=
  (engine.getGenerateIds inputs ids).filter (· ≠ engine.padTokenId)

/-! ## Whole responses -/

def inferChoice (settings : GenerateKwargs Encoded) (index : ℕ) (ids : List ℕ) :
    ChatCompletionResponseChoice :=
  let generateIds := engine.maskedIds settings.inputs ids
  let response := engine.decode generateIds true true
  { index := index
    content := response
    toolCalls := engine.getToolcall response
    finishReason :=
      getFinishReason settings.generationConfig.maxNewTokens generateIds.length true
    tokenIds := if settings.requestConfig.returnDetails then some generateIds else none }

/-- The prompt of a row, without the padding at its left. -/
def promptTokenIds (inputs : List Encoded) (row : ℕ) : Option (List ℕ) :=
  let ids := (engine.inputIds inputs row).dropWhile (· = engine.padTokenId)
  if ids = [] then none else some ids

def inferResponse (settings : GenerateKwargs Encoded) (sequences : ℕ → List ℕ) (row : ℕ) :
    ChatCompletionResponse :=
  let numReturnSequences := settings.generationConfig.numReturnSequences
  let batched := fun index => sequences (row * numReturnSequences + index)
  { model := engine.modelName
    choices := (List.range numReturnSequences).map fun index =>
      engine.inferChoice settings index (batched index)
    usage := (List.range numReturnSequences).foldl
      (fun usage index =>
        updateUsageInfo usage (engine.maskedIds settings.inputs (batched index)).length)
      (getUsageInfo (engine.numTokens settings.inputs) 0)
    promptTokenIds :=
      if settings.requestConfig.returnDetails then engine.promptTokenIds settings.inputs row
      else none }

def inferFull (settings : GenerateKwargs Encoded) (sequences : ℕ → List ℕ) :
    List ChatCompletionResponse :=
  (List.range settings.inputs.length).map (engine.inferResponse settings sequences)

/-! ## Streams -/

def getPrintableText (streamer : InferStreamer) (rawTokens : List ℕ) (isFinished : Bool) :
    Text × InferStreamer :=
  let tokens := if streamer.firstToken then [] else rawTokens.drop streamer.cacheIdx
  let response := engine.decode tokens isFinished streamer.firstToken
  let (aligned, streamer) := streamer.alignBlankSuffix response
  streamer.getResponse aligned isFinished tokens.length

/-- A row of a stream: the ids put so far, whether it is finished, and what it printed. -/
structure StreamRow where
  rawIds : List ℕ
  isFinished : Bool
  streamer : InferStreamer

def StreamRow.new : StreamRow := ⟨[], false, .new⟩

/-- The pass of a stream over one row. -/
def inferRow (settings : GenerateKwargs Encoded) (requestId : Text) (allIsFinished : Bool)
    (tokens : List ℕ) (row : StreamRow) : StreamRow × Option ChatCompletionStreamResponse :=
  let rawIds := row.rawIds ++ tokens
  if row.isFinished then ({ row with rawIds := rawIds }, none)
  else
    let generateIds := engine.maskedIds settings.inputs rawIds
    -- the padding is gone, so the last id is never the padding
    let isFinished := allIsFinished || generateIds.getLast? == some engine.padTokenId
    let (deltaText, streamer) := engine.getPrintableText row.streamer generateIds isFinished
    let row' := ⟨rawIds, isFinished, streamer⟩
    if deltaText.isEmpty && !isFinished then (row', none)
    else
      let usageInfo := getUsageInfo (engine.numTokens settings.inputs) generateIds.length
      (row', some {
        model := engine.modelName
        id := requestId
        content := deltaText
        toolCalls :=
          if isFinished then engine.getToolcall (engine.decode generateIds true true) else none
        finishReason := getFinishReason settings.generationConfig.maxNewTokens
          usageInfo.completionTokens isFinished
        usage := usageInfo })

/-- The passes of a stream: one for each put, and one when the streamer has ended. -/
def streamPasses (settings : GenerateKwargs Encoded) (requestIds : ℕ → Text) {n : ℕ} :
    List (Fin n → List ℕ) → (Fin n → StreamRow) →
      List (Fin n → Option ChatCompletionStreamResponse)
  | [], rows =>
    [fun i => (engine.inferRow settings (requestIds i) true [] (rows i)).2]
  | tokens :: puts, rows =>
    (fun i => (engine.inferRow settings (requestIds i) false (tokens i) (rows i)).2) ::
      streamPasses settings requestIds puts fun i =>
        (engine.inferRow settings (requestIds i) false (tokens i) (rows i)).1

/-- The lists a stream yields: those of the passes with a chunk. -/
def streamYields (settings : GenerateKwargs Encoded) (requestIds : ℕ → Text) {n : ℕ}
    (puts : List (Fin n → List ℕ)) : List (List (Option ChatCompletionStreamResponse)) :=
  ((engine.streamPasses settings requestIds puts fun _ => .new).map List.ofFn).filter
    fun res => res.any Option.isSome

/-- The puts of a stream for a batch of `n` rows. The first put is the prompt. -/
def batchPuts {n : ℕ} (puts : (ℕ → List ℕ) × List (ℕ → List ℕ)) : List (Fin n → List ℕ) :=
  (puts.1 :: puts.2).map fun tokens i => tokens i

/-- Stream a batch. With several sequences for a request the puts have more rows than the
batch. -/
def inferStream (settings : GenerateKwargs Encoded) (requestIds : ℕ → Text)
    (puts : (ℕ → List ℕ) × List (ℕ → List ℕ)) :
    Except (InferError Error) (List (List (Option ChatCompletionStreamResponse))) :=
  if settings.generationConfig.numBeams ≠ 1 then
    .error (.valueError "Streaming generation does not support beam search.".toList)
  else if settings.generationConfig.numReturnSequences ≠ 1 then .error .indexError
  else .ok (engine.streamYields settings requestIds
    (batchPuts puts : List (Fin settings.inputs.length → List ℕ)))

/-! ## A call -/

/-- A call gives one list of replies, or the lists of a stream. -/
inductive InferOutput (Error : Type) where
  | full (replies : List (Reply Error))
  | stream (yields : List (List (Option (Reply Error))))

def streamReplies (errorList : List (ℕ × Error))
    (yields : List (List (Option ChatCompletionStreamResponse))) :
    List (List (Option (Reply Error))) :=
  yields.map fun res => addErrorList (res.map (·.map .chunk))
    (errorList.map fun (i, error) => (i, some (.error error)))

/-- Generate for a batch, as the call with a number. -/
def infer (call : ℕ) (pool : AdaptersPool) (inferRequests : List Request)
    (kwargs : InferKwargs Encoded) :
    Except (InferError Error) (AdaptersPool × InferOutput Error) :=
  match batchEncode engine.strict (inferRequests.map engine.encode) with
  | .error error => .error (.encode error)
  | .ok (batchedInputs, errorList) =>
    if batchedInputs = [] then
      .ok (pool,
        if kwargs.requestConfig.stream then .stream (streamReplies errorList [[]])
        else .full (addErrorList []
          (errorList.map fun (i, error) => (i, .error error))))
    else
      let settings := engine.generateKwargs kwargs batchedInputs
      let pool' := loadAdapter pool settings.adapterRequest
      let adapterNames := getAdapterNames pool settings.adapterRequest
      if kwargs.requestConfig.stream then
        match engine.inferStream settings (engine.requestIds call)
            (engine.streamed call settings pool' adapterNames) with
        | .error error => .error error
        | .ok yields => .ok (pool', .stream (streamReplies errorList yields))
      else .ok (pool', .full (addErrorList
        ((engine.inferFull settings (engine.generate call settings pool' adapterNames)).map
          .response)
        (errorList.map fun (i, error) => (i, .error error))))

/-! ## What a call answers -/

def callSettings (inferRequests : List Request) (kwargs : InferKwargs Encoded) :
    GenerateKwargs Encoded :=
  engine.generateKwargs kwargs (encoded (inferRequests.map engine.encode))

def callPuts (call : ℕ) (pool : AdaptersPool) (inferRequests : List Request)
    (kwargs : InferKwargs Encoded) : (ℕ → List ℕ) × List (ℕ → List ℕ) :=
  let settings := engine.callSettings inferRequests kwargs
  engine.streamed call settings (loadAdapter pool settings.adapterRequest)
    (getAdapterNames pool settings.adapterRequest)

/-- A call raises no exception: a strict engine can encode every request, and a stream has
one beam and one sequence for a request. -/
def Answers (inferRequests : List Request) (kwargs : InferKwargs Encoded) : Prop :=
  let results := inferRequests.map engine.encode
  let settings := engine.callSettings inferRequests kwargs
  (engine.strict = true → AllEncoded results) ∧
    (kwargs.requestConfig.stream = true → encoded results ≠ [] →
      settings.generationConfig.numBeams = 1 ∧
        settings.generationConfig.numReturnSequences = 1)

/-- The adapters that are loaded after a call. -/
def answeredPool (pool : AdaptersPool) (inferRequests : List Request)
    (kwargs : InferKwargs Encoded) : AdaptersPool :=
  if encoded (inferRequests.map engine.encode) = [] then pool
  else loadAdapter pool (engine.callSettings inferRequests kwargs).adapterRequest

/-- The lists of chunks a stream yields. When no request was encoded it is one empty list. -/
def callYields (call : ℕ) (pool : AdaptersPool) (inferRequests : List Request)
    (kwargs : InferKwargs Encoded) : List (List (Option ChatCompletionStreamResponse)) :=
  let settings := engine.callSettings inferRequests kwargs
  if encoded (inferRequests.map engine.encode) = [] then [[]]
  else engine.streamYields settings (engine.requestIds call)
    (batchPuts (engine.callPuts call pool inferRequests kwargs) :
      List (Fin settings.inputs.length → List ℕ))

def callResponses (call : ℕ) (pool : AdaptersPool) (inferRequests : List Request)
    (kwargs : InferKwargs Encoded) : List ChatCompletionResponse :=
  let settings := engine.callSettings inferRequests kwargs
  engine.inferFull settings (engine.generate call settings
    (loadAdapter pool settings.adapterRequest) (getAdapterNames pool settings.adapterRequest))

/-- What a call gives: the replies generated, with the errors at their positions. -/
def answered (call : ℕ) (pool : AdaptersPool) (inferRequests : List Request)
    (kwargs : InferKwargs Encoded) : InferOutput Error :=
  let results := inferRequests.map engine.encode
  if kwargs.requestConfig.stream then
    .stream ((engine.callYields call pool inferRequests kwargs).map fun res =>
      inOrder (fun error => some (.error error)) results (res.map (·.map .chunk)))
  else .full (inOrder .error results
    ((engine.callResponses call pool inferRequests kwargs).map .response))

/-- The lists of a stream have an entry for each row. -/
theorem length_of_mem_streamYields {settings : GenerateKwargs Encoded}
    {requestIds : ℕ → Text} {n : ℕ} {puts : List (Fin n → List ℕ)}
    {res : List (Option ChatCompletionStreamResponse)}
    (yielded : res ∈ engine.streamYields settings requestIds puts) : res.length = n := by
  obtain ⟨pass, -, rfl⟩ := mem_map.mp (mem_of_mem_filter yielded)
  exact length_ofFn

variable {engine} {call : ℕ} {pool : AdaptersPool} {inferRequests : List Request}
  {kwargs : InferKwargs Encoded}

theorem length_callResponses :
    (engine.callResponses call pool inferRequests kwargs).length =
      (encoded (inferRequests.map engine.encode)).length := by
  rw [callResponses, inferFull, length_map, length_range, callSettings,
    engine.length_generateKwargs]

theorem length_of_mem_callYields {res : List (Option ChatCompletionStreamResponse)}
    (yielded : res ∈ engine.callYields call pool inferRequests kwargs) :
    res.length = (encoded (inferRequests.map engine.encode)).length := by
  rw [callYields] at yielded
  split at yielded
  · rename_i isEmpty
    rw [mem_singleton.mp yielded, isEmpty]
    rfl
  · rw [engine.length_of_mem_streamYields yielded]
    exact engine.length_generateKwargs kwargs _

/-- The errors of the requests come to their positions in every list of a stream. -/
theorem streamReplies_eq {errorList : List (ℕ × Error)}
    (collected : batchEncode engine.strict (inferRequests.map engine.encode) =
      .ok (encoded (inferRequests.map engine.encode), errorList))
    {yields : List (List (Option ChatCompletionStreamResponse))}
    (rows : ∀ res ∈ yields, res.length = (encoded (inferRequests.map engine.encode)).length) :
    streamReplies errorList yields = yields.map fun res =>
      inOrder (fun error => some (.error error)) (inferRequests.map engine.encode)
        (res.map (·.map .chunk)) := by
  apply map_congr_left
  intro res yielded
  apply addErrorList_eq collected fun error => some (Reply.error error)
  rw [length_map]
  exact rows res yielded

/-- A call that raises no exception answers every request at its position. -/
theorem infer_eq (answers : engine.Answers inferRequests kwargs) :
    engine.infer call pool inferRequests kwargs =
      .ok (engine.answeredPool pool inferRequests kwargs,
        engine.answered call pool inferRequests kwargs) := by
  obtain ⟨tolerated, streamable⟩ := answers
  obtain ⟨errorList, collected⟩ := exists_batchEncode tolerated
  have placed := @streamReplies_eq _ _ _ engine inferRequests errorList collected
    (engine.callYields call pool inferRequests kwargs) fun res => length_of_mem_callYields
  have rows : ((engine.callResponses call pool inferRequests kwargs).map
      (@Reply.response Error)).length =
        (encoded (inferRequests.map engine.encode)).length := by
    rw [length_map, length_callResponses]
  have placedFull := addErrorList_eq collected (@Reply.error Error) rows
  rw [infer, collected, answered, ← placed, ← placedFull, answeredPool, callYields, callResponses,
    callPuts, callSettings]
  dsimp only
  by_cases isEmpty : encoded (inferRequests.map engine.encode) = []
  · rw [if_pos isEmpty, if_pos isEmpty, if_pos isEmpty]
    have noRows := engine.length_generateKwargs kwargs
      (encoded (inferRequests.map engine.encode))
    rw [inferFull, noRows, isEmpty]
    cases kwargs.requestConfig.stream with
    | true => rfl
    | false => rfl
  · rw [if_neg isEmpty, if_neg isEmpty]
    cases isStream : kwargs.requestConfig.stream with
    | true =>
      obtain ⟨oneBeam, oneSequence⟩ := streamable isStream isEmpty
      rw [callSettings] at oneBeam oneSequence
      rw [if_pos rfl, if_pos rfl, inferStream, if_neg (not_not_intro oneBeam),
        if_neg (not_not_intro oneSequence), if_neg isEmpty]
    | false => rfl

/-- A call that gives replies raised no exception. -/
theorem answers_of_infer {result : AdaptersPool × InferOutput Error}
    (ran : engine.infer call pool inferRequests kwargs = .ok result) :
    engine.Answers inferRequests kwargs := by
  rw [infer] at ran
  split at ran
  · cases ran
  · rename_i batchedInputs errorList collected
    have inputsEq := batchEncode_inputs collected
    subst inputsEq
    constructor
    · intro isStrict
      rw [isStrict] at collected
      exact allEncoded_of_batchEncodeFrom collected
    · intro isStream someInput
      rw [if_neg someInput] at ran
      dsimp only at ran
      rw [if_pos isStream, inferStream] at ran
      split at ran
      · cases ran
      · rename_i yields streams
        split at streams
        · cases streams
        · rename_i oneBeam
          split at streams
          · cases streams
          · rename_i oneSequence
            exact ⟨not_not.mp oneBeam, not_not.mp oneSequence⟩

end TransformersEngine

end Geobench.Engine
