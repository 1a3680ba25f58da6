import Geobench.DataClean.OutputCoordinates
import Geobench.Library.JsonRoundTrip
import Geobench.Library.ListSlices

/-!
# Rewards from a judge

`runLlmJudge` asks a judge about the samples, a batch at a time. The first pass over a batch
collects the payloads of the samples with a ground truth and an answer, and leaves an error on the
others. The second pass gives the responses to the samples without that error, in order.

Which samples wait for a response is read from their errors, and a sample can have had one before.
**`judgesWell_iff`** says that every judge is understood, with each response given to the sample it
is about, exactly when no sample that is asked about has an old error that is taken for a new one.
-/

namespace Geobench.DataClean

open Library Rewards List

/-! ## The output of the judge -/

/-- What the judge has to say: a `score`, and what its object has under any key. -/
structure JudgeJson where
  score : PyFloat
  members : List (CodePoints × JsonValue)

def scoreKey : CodePoints := codes "score".toList
def verdictKey : CodePoints := codes "verdict".toList
def reasonKey : CodePoints := codes "reason".toList

/-- `["']?field["']?\s*[:=]\s*`, and then what is given. -/
def stringFieldRegex (fieldName : Text) (value : Regex) : Regex :=
  .sequence [.opt (.one isQuote), .caseless fieldName, .opt (.one isQuote), assignRegex, value]

/-- One or more characters without any of the excluded ones. -/
def noneOf (excluded : List Char) : Regex := .group (.plus fun char => !excluded.contains char)

/-- In double quotes, in single quotes, and without quotes. -/
def stringFieldPatterns (fieldName : Text) : List Regex :=
  [stringFieldRegex fieldName
      (.sequence [.word ['"'], noneOf ['"', '\n', '<', '>'], .word ['"']]),
    stringFieldRegex fieldName
      (.sequence [.word ['\''], noneOf ['\'', '\n', '<', '>'], .word ['\'']]),
    stringFieldRegex fieldName (noneOf [',', '\n', Char.ofNat 0x7d, '<', '>'])]

def stripWrappingQuotes (value : Text) : Text :=
  let value := strip isBlank value
  if 2 ≤ value.length ∧ value.head? = value.getLast? ∧ (value.head?.any isQuote) then
    strip isBlank (value.drop 1).dropLast
  else value

def extractStringField (rawText fieldName : Text) : Option Text :=
  (stringFieldPatterns fieldName).findSome? fun pattern =>
    ((pattern.search rawText).bind List.head?).bind fun captured =>
      let value := strip (fun char => char = ' ' || char = ',') (stripWrappingQuotes captured)
      if value = [] then none else some value

variable (python : OutputReader)

def dots : CodePoints := codes "...".toList

/-- Whether a member, as a text, is three dots. -/
def isDots (payload : JudgeJson) (key : CodePoints) : Bool :=
  strip isBlankCode (pyStr python.interpreter ((getMember payload.members key).getD (.string [])))
    = dots

/-- `is_placeholder_judge_json` of an object whose score is a number. -/
def isPlaceholderJudgeJson (payload : JudgeJson) : Bool :=
  isDots python payload verdictKey || isDots python payload reasonKey

/-- An object with the three members and a number for a score, unless it is a placeholder. -/
def validPayload (candidate : Text) : Except ExtractError (Option JudgeJson) :=
  match tryLoads python.interpreter candidate with
  | .error error => .error (.decoding error)
  | .ok (some (.object members)) =>
    if (getMember members verdictKey).isSome ∧ (getMember members reasonKey).isSome then
      (maybeFloat python ((getMember members scoreKey).getD .null)).map fun score =>
        (score.map fun number => ⟨number, members⟩).filter fun payload =>
          !isPlaceholderJudgeJson python payload
    else .ok none
  | .ok _ => .ok none

/-- The three fields of a text, for want of an object. -/
def fieldsPayload (rawText : Text) : Option JudgeJson :=
  match extractNumericField python rawText ["score".toList],
    extractStringField rawText "verdict".toList, extractStringField rawText "reason".toList with
  | some score, some verdict, some reason =>
    some ⟨score, [(verdictKey, .string (codes verdict)), (reasonKey, .string (codes reason))]⟩
  | _, _, _ => none

def extractLastValidJudgeJson (rawText : Option Text) : Except ExtractError (Option JudgeJson) :=
  match rawText with
  | none | some [] => .ok none
  | some rawText => do
      let candidates := (fencedRegex.findall rawText).flatten ++
        (bracesRegex.findall rawText).flatten
      let payloads ← candidates.mapM (validPayload python)
      match (payloads.filterMap id).getLast? with
      | some payload => .ok (some payload)
      | none => .ok ((fieldsPayload python rawText).filter fun payload =>
        !isPlaceholderJudgeJson python payload)

/-! ## Samples -/

/-- What the first pass can miss. -/
inductive Missing where
  | gtText
  | parsedAnswer
  deriving DecidableEq

def Missing.error : Missing → CodePoints
  | gtText => codes "missing_gt_text".toList
  | parsedAnswer => codes "missing_parsed_answer".toList

/-- The details of a reward: those that are already there, and what a pass leaves. -/
inductive RewardDetails where
  | stored (members : List (CodePoints × JsonValue))
  | missing (field : Missing)
  | unparsed (judgeOutput : Option Text) (outputTruncated : Bool)
  | judged (judgeOutput : Option Text) (judgeJson : JudgeJson) (outputTruncated : Bool)

/-- `reward_details.get("error")` -/
def RewardDetails.error : RewardDetails → JsonValue
  | stored members => (getMember members (codes "error".toList)).getD .null
  | missing field => .string field.error
  | unparsed _ _ => .string (codes "judge_json_parse_failed".toList)
  | judged _ _ _ => .null

structure JudgeSample where
  gtText : Option Text
  parsedAnswer : Option Text
  reward : PyFloat
  rewardDetails : RewardDetails

inductive JudgeError where
  | extracting (error : ExtractError)
  | typeError
  | stopIteration
  | valueError
  deriving DecidableEq

/-- Whether an error is one of those that the first pass leaves. A list or an object is in no
set. -/
def isMissing : JsonValue → Except JudgeError Bool
  | .array _ => .error .typeError
  | .object _ => .error .typeError
  | .string text => .ok (text = Missing.gtText.error || text = Missing.parsedAnswer.error)
  | _ => .ok false

/-- The answer of the engine to a payload. -/
inductive Reply where
  | failed
  | content (text : Option Text)

def Reply.rawOutput : Reply → Option Text
  | failed => some []
  | content text => text

/-- Whether an output is not empty and does not end with a brace. -/
def outputTruncated : Option Text → Bool
  | none => false
  | some rawOutput =>
    !rawOutput.isEmpty && (rawOutput.rdropWhile isBlank).getLast? != some (Char.ofNat 0x7d)

/-- `min(1.0, max(0.0, score))` -/
def clampScore : PyFloat → PyFloat
  | .finite score => .finite (min 1 (max 0 score))
  | .infinity => .finite 1
  | .negInfinity => .finite 0
  | .nan => .finite 0

/-! ## The two passes -/

/-- What does not change in a run. `maxDistance` is as it is written in the prompt. -/
structure JudgeSettings where
  judgePromptTemplate : Text
  maxDistance : Text
  inferBatchSize : ℕ

def buildJudgePrompt (settings : JudgeSettings) (prediction groundTruth : Text) : Text :=
  replaceFrom "__GROUND_TRUTH__".toList groundTruth 0
    (replaceFrom "__PREDICTION__".toList prediction 0
      (replaceFrom "__MAX_DISTANCE_KM__".toList settings.maxDistance 0
        settings.judgePromptTemplate))

def nonempty (text : Option Text) : Option Text := text.filter fun text => !text.isEmpty

/-- The prompt about a sample with a ground truth and an answer. -/
def payload (settings : JudgeSettings) (sample : JudgeSample) : Option Text :=
  (nonempty sample.gtText).bind fun groundTruth =>
    (nonempty sample.parsedAnswer).map fun prediction =>
      buildJudgePrompt settings prediction groundTruth

/-- What the first pass leaves of a sample. -/
def markMissing (sample : JudgeSample) : JudgeSample :=
  match nonempty sample.gtText, nonempty sample.parsedAnswer with
  | none, _ => { sample with reward := .finite 0, rewardDetails := .missing .gtText }
  | some _, none => { sample with reward := .finite 0, rewardDetails := .missing .parsedAnswer }
  | some _, some _ => sample

/-- What the second pass does with a sample and its response. -/
def scoreReply (sample : JudgeSample) (reply : Reply) : Except JudgeError JudgeSample :=
  let rawOutput := reply.rawOutput
  match extractLastValidJudgeJson python rawOutput with
  | .error error => .error (.extracting error)
  | .ok none => .ok
      { sample with
        reward := .finite 0
        rewardDetails := .unparsed rawOutput (outputTruncated rawOutput) }
  | .ok (some parsed) => .ok
      { sample with
        reward := clampScore parsed.score
        rewardDetails := .judged rawOutput parsed (outputTruncated rawOutput) }

/-- The second pass. The responses are given out one after the other. -/
def secondPass : List JudgeSample → List Reply → Except JudgeError (List JudgeSample)
  | [], _ => .ok []
  | sample :: batch, responses => do
      if ← isMissing sample.rewardDetails.error then
        let rest ← secondPass batch responses
        .ok (sample :: rest)
      else
        match responses with
        | [] => .error .stopIteration
        | response :: responses =>
          let judged ← scoreReply python sample response
          let rest ← secondPass batch responses
          .ok (judged :: rest)

variable (settings : JudgeSettings) (judge : Text → Reply)

def judgeBatch (batch : List JudgeSample) : Except JudgeError (List JudgeSample) :=
  let marked := batch.map markMissing
  let payloads := batch.filterMap (payload settings)
  if payloads = [] then .ok marked else secondPass python marked (payloads.map judge)

/-- `run_llm_judge` with an engine that answers each payload with the reply of a judge. -/
def runLlmJudge (samples : List JudgeSample) : Except JudgeError (List JudgeSample) :=
  let size := settings.inferBatchSize
  if size = 0 then .error .valueError
  else do
    let batches ← (cutAt (· * size) ((samples.length + size - 1) / size) samples).mapM
      (judgeBatch python settings judge)
    .ok batches.flatten

/-! ## Each sample on its own -/

def ownReward (sample : JudgeSample) : Except ExtractError PyFloat :=
  match payload settings sample with
  | none => .ok (.finite 0)
  | some prompt =>
    (extractLastValidJudgeJson python (judge prompt).rawOutput).map fun parsed =>
      parsed.elim (.finite 0) fun payload => clampScore payload.score

/-- Each sample has the reward of its own reply, and the same is left of it when it is the only
one. -/
def JudgesWell (samples : List JudgeSample) : Prop :=
  ∃ judged, runLlmJudge python settings judge samples = .ok judged ∧
    List.Forall₂ (fun sample result => ownReward python settings judge sample = .ok result.reward)
      samples judged ∧
    List.Forall₂ (fun sample result => runLlmJudge python settings judge [sample] = .ok [result])
      samples judged

/-- The replies to the payloads of the samples can be read, for better or for worse. -/
def RepliesReadable (samples : List JudgeSample) : Prop :=
  ∀ sample ∈ samples, ∀ prompt, payload settings sample = some prompt →
    ∃ parsed, extractLastValidJudgeJson python (judge prompt).rawOutput = .ok parsed

/-- A sample that is asked about has no error that the second pass takes for one of the first. -/
def NotStale (sample : JudgeSample) : Prop :=
  (payload settings sample).isSome → isMissing sample.rewardDetails.error = .ok false

/-- What becomes of a sample with its own reply. -/
def judgeAlone (sample : JudgeSample) : Except JudgeError JudgeSample :=
  match payload settings sample with
  | none => .ok (markMissing sample)
  | some prompt => scoreReply python sample (judge prompt)

variable {settings judge}

theorem isMissing_missing (field : Missing) :
    isMissing (RewardDetails.missing field).error = .ok true := by
  cases field <;> decide +kernel

variable {sample : JudgeSample} {prompt : Text}

theorem markMissing_of_payload (isSome : payload settings sample = some prompt) :
    markMissing sample = sample := by
  obtain ⟨groundTruth, isTruth, isSome⟩ := Option.bind_eq_some_iff.mp isSome
  obtain ⟨prediction, isPrediction, -⟩ := Option.map_eq_some_iff.mp isSome
  rw [markMissing, isTruth, isPrediction]

/-- What is not asked about has an error of the first pass, and no reward. -/
theorem markMissing_of_no_payload (isNone : payload settings sample = none) :
    isMissing (markMissing sample).rewardDetails.error = .ok true ∧
      (markMissing sample).reward = .finite 0 := by
  rw [markMissing]
  cases isTruth : nonempty sample.gtText with
  | none => exact ⟨isMissing_missing .gtText, rfl⟩
  | some groundTruth =>
    cases isPrediction : nonempty sample.parsedAnswer with
    | none => exact ⟨isMissing_missing .parsedAnswer, rfl⟩
    | some prediction =>
      rw [payload, isTruth, isPrediction] at isNone
      cases isNone

theorem secondPass_of_missing (missing : isMissing sample.rewardDetails.error = .ok true)
    (batch : List JudgeSample) (responses : List Reply) :
    secondPass python (sample :: batch) responses =
      (secondPass python batch responses >>= fun rest => .ok (sample :: rest)) := by
  conv_lhs => unfold secondPass
  rw [missing]
  rfl

theorem secondPass_of_waiting (waiting : isMissing sample.rewardDetails.error = .ok false)
    (batch : List JudgeSample) (response : Reply) (responses : List Reply) :
    secondPass python (sample :: batch) (response :: responses) =
      (scoreReply python sample response >>= fun judged =>
        secondPass python batch responses >>= fun rest => .ok (judged :: rest)) := by
  conv_lhs => unfold secondPass
  rw [waiting]
  rfl

/-- The second pass gives every sample its own response, where there are no old errors. -/
theorem secondPass_eq_mapM {batch : List JudgeSample}
    (notStale : ∀ sample ∈ batch, NotStale settings sample) :
    secondPass python (batch.map markMissing) ((batch.filterMap (payload settings)).map judge) =
      batch.mapM (judgeAlone python settings judge) := by
  induction batch with
  | nil => rfl
  | cons sample batch ih =>
    have first := notStale sample mem_cons_self
    have rest := ih fun other isOther => notStale other (mem_cons_of_mem _ isOther)
    rw [mapM_cons, map_cons, judgeAlone, ← rest]
    cases isPayload : payload settings sample with
    | none =>
      rw [secondPass_of_missing python (markMissing_of_no_payload isPayload).1,
        filterMap_cons_none isPayload]
      rfl
    | some prompt =>
      rw [markMissing_of_payload isPayload, filterMap_cons_some isPayload, map_cons,
        secondPass_of_waiting python (first (by rw [isPayload]; rfl))]
      rfl

theorem judgeBatch_eq_mapM {batch : List JudgeSample}
    (notStale : ∀ sample ∈ batch, NotStale settings sample) :
    judgeBatch python settings judge batch = batch.mapM (judgeAlone python settings judge) := by
  rw [judgeBatch]
  split
  · rename_i noPayloads
    refine (mapM_eq_ok_map fun sample isSample => ?_).symm
    rw [judgeAlone, filterMap_eq_nil_iff.mp noPayloads sample isSample]
  · exact secondPass_eq_mapM python notStale

theorem runLlmJudge_eq_mapM (positive : 1 ≤ settings.inferBatchSize) {samples : List JudgeSample}
    (notStale : ∀ sample ∈ samples, NotStale settings sample) :
    runLlmJudge python settings judge samples =
      samples.mapM (judgeAlone python settings judge) := by
  have whole := flatten_cutAt_mul (le_ceilDiv_mul samples.length positive)
  rw [runLlmJudge, if_neg (Nat.ne_of_gt positive)]
  conv_rhs => rw [← whole, mapM_flatten]
  rw [mapM_congr fun batch isBatch => judgeBatch_eq_mapM python fun sample isSample =>
    notStale sample (whole ▸ mem_flatten_of_mem isBatch isSample)]
  rfl

theorem reward_judgeAlone {judged : JudgeSample}
    (isJudged : judgeAlone python settings judge sample = .ok judged) :
    ownReward python settings judge sample = .ok judged.reward := by
  rw [judgeAlone] at isJudged
  rw [ownReward]
  cases isPayload : payload settings sample with
  | none =>
    rw [isPayload] at isJudged
    obtain rfl := Except.ok.inj isJudged
    exact congrArg _ (markMissing_of_no_payload isPayload).2.symm
  | some prompt =>
    rw [isPayload] at isJudged
    dsimp only [scoreReply] at isJudged ⊢
    cases parsed : extractLastValidJudgeJson python (judge prompt).rawOutput with
    | error error =>
      rw [parsed] at isJudged
      cases isJudged
    | ok parsed' =>
      rw [parsed] at isJudged
      cases parsed' with
      | none =>
        obtain rfl := Except.ok.inj isJudged
        rfl
      | some payload =>
        obtain rfl := Except.ok.inj isJudged
        rfl

theorem exists_judgeAlone_iff (sample : JudgeSample) :
    (∃ judged, judgeAlone python settings judge sample = .ok judged) ↔
      ∀ prompt, payload settings sample = some prompt →
        ∃ parsed, extractLastValidJudgeJson python (judge prompt).rawOutput = .ok parsed := by
  rw [judgeAlone]
  cases isPayload : payload settings sample with
  | none => exact iff_of_true ⟨_, rfl⟩ fun prompt isSome => by cases isSome
  | some prompt =>
    dsimp only [scoreReply]
    constructor
    · rintro ⟨judged, isJudged⟩ other same
      obtain rfl := Option.some.inj same
      cases parsed : extractLastValidJudgeJson python (judge prompt).rawOutput with
      | error error =>
        rw [parsed] at isJudged
        cases isJudged
      | ok parsed' => exact ⟨parsed', rfl⟩
    · intro readable
      obtain ⟨parsed, isParsed⟩ := readable prompt rfl
      rw [isParsed]
      cases parsed with
      | none => exact ⟨_, rfl⟩
      | some payload => exact ⟨_, rfl⟩

/-- Without old errors every judge is understood, as far as its replies can be read. -/
theorem judgesWell_of_notStale (positive : 1 ≤ settings.inferBatchSize)
    {samples : List JudgeSample} (notStale : ∀ sample ∈ samples, NotStale settings sample) :
    JudgesWell python settings judge samples ↔
      RepliesReadable python settings judge samples := by
  have run := @runLlmJudge_eq_mapM python settings judge positive
  constructor
  · rintro ⟨judged, isJudged, -, -⟩ sample isSample
    rw [run notStale] at isJudged
    exact (exists_judgeAlone_iff python sample).mp (succeeds_of_mapM_eq_ok isJudged isSample)
  · intro readable
    obtain ⟨judged, isJudged⟩ := exists_mapM_eq_ok fun sample isSample =>
      (exists_judgeAlone_iff python sample).mpr (readable sample isSample)
    have each := mapM_eq_ok_iff.mp isJudged
    refine ⟨judged, (run notStale).trans isJudged,
      each.imp fun sample result isResult => reward_judgeAlone python isResult, ?_⟩
    refine ((forall₂_and_left samples judged).mpr ⟨notStale, each⟩).imp ?_
    rintro sample result ⟨fresh, isResult⟩
    rw [@run [sample] fun other isOther => mem_singleton.mp isOther ▸ fresh]
    exact mapM_eq_ok_iff.mpr (.cons isResult .nil)

/-! ## Old errors -/

/-- An interpreter that decodes short texts and knows the number one. -/
structure JudgeReader extends OutputReader where
  le_recursionLimit : 100 ≤ interpreter.recursionLimit
  float_one : conversions.float (.number ['1']) = .ok (.finite 1)

/-- A reply with a score of 1. -/
def fullMarks : Json :=
  .object [("score".toList, .number ⟨'1', [], by decide, by decide⟩),
    ("verdict".toList, .string ['v']), ("reason".toList, .string ['r'])]

def fullMarksMembers : List (CodePoints × JsonValue) :=
  [(scoreKey, .number ['1']), (verdictKey, .string (codes ['v'])),
    (reasonKey, .string (codes ['r']))]

theorem valid_fullMarks : fullMarks.Valid IsNumber := by
  refine .object _ (by decide) ?_
  simp only [forall_mem_cons]
  refine ⟨.number _ ?_, .string _, .string _, fun member isMember => absurd isMember (by simp)⟩
  simp only [IsNumber, forall_mem_cons]
  exact ⟨rfl, rfl, rfl, rfl, fun follower isFollower => absurd isFollower (by simp)⟩

theorem length_write_fullMarks : fullMarks.write.length ≤ 100 := by
  decide +kernel

theorem candidates_fullMarks :
    (fencedRegex.findall fullMarks.write).flatten ++
      (bracesRegex.findall fullMarks.write).flatten = [fullMarks.write] := by
  decide +kernel

theorem getMember_fullMarks :
    getMember fullMarksMembers scoreKey = some (.number ['1']) ∧
      getMember fullMarksMembers verdictKey = some (.string (codes ['v'])) ∧
        getMember fullMarksMembers reasonKey = some (.string (codes ['r'])) :=
  ⟨rfl, rfl, rfl⟩

theorem extract_fullMarks (python : JudgeReader) :
    extractLastValidJudgeJson python.toOutputReader (some fullMarks.write) =
      .ok (some ⟨.finite 1, fullMarksMembers⟩) := by
  have decoded : tryLoads python.interpreter fullMarks.write =
      .ok (some (.object fullMarksMembers)) := by
    refine tryLoads_eq_some.mpr ?_
    exact loads_write valid_fullMarks (length_write_fullMarks.trans python.le_recursionLimit)
  obtain ⟨score, verdict, reason⟩ := getMember_fullMarks
  have real : isPlaceholderJudgeJson python.toOutputReader ⟨.finite 1, fullMarksMembers⟩ =
      false := by
    have short : strip isBlankCode (codes ['v']) ≠ dots ∧
        strip isBlankCode (codes ['r']) ≠ dots := by decide +kernel
    rw [isPlaceholderJudgeJson, isDots, isDots, verdict, reason, Bool.or_eq_false_iff]
    exact ⟨decide_eq_false short.1, decide_eq_false short.2⟩
  have one : maybeFloat python.toOutputReader (.number ['1']) = .ok (some (.finite 1)) := by
    rw [maybeFloat, python.float_one]
    · intro isNull
      cases isNull
    · intro isEmpty
      cases isEmpty
  have valid : validPayload python.toOutputReader fullMarks.write =
      .ok (some ⟨.finite 1, fullMarksMembers⟩) := by
    rw [validPayload, decoded]
    dsimp only
    rw [verdict, reason, if_pos ⟨rfl, rfl⟩, score, Option.getD_some, one]
    exact congrArg Except.ok (Option.filter_some_pos (by rw [real]; rfl))
  rw [extractLastValidJudgeJson]
  · rw [candidates_fullMarks, mapM_cons, valid]
    rfl
  · rw [fullMarks, write_object]
    exact cons_ne_nil _ _

/-- The judges that fail every call and give full marks to everything. -/
def failing (_ : Text) : Reply := .failed

def generous (_ : Text) : Reply := .content (some fullMarks.write)

theorem ownReward_failing (sample : JudgeSample) :
    ownReward python settings failing sample = .ok (.finite 0) := by
  rw [ownReward]
  cases payload settings sample with
  | none => rfl
  | some prompt => rfl

theorem clampScore_one : clampScore (.finite 1) = .finite 1 := by
  decide +kernel

theorem ownReward_generous (python : JudgeReader)
    (isPrompt : payload settings sample = some prompt) :
    ownReward python.toOutputReader settings generous sample = .ok (.finite 1) := by
  rw [ownReward, isPrompt]
  dsimp only [generous, Reply.rawOutput]
  rw [extract_fullMarks]
  exact congrArg Except.ok clampScore_one

theorem repliesReadable_failing (samples : List JudgeSample) :
    RepliesReadable python settings failing samples :=
  fun _ _ _ _ => ⟨none, rfl⟩

theorem repliesReadable_generous (python : JudgeReader) (samples : List JudgeSample) :
    RepliesReadable python.toOutputReader settings generous samples :=
  fun _ _ _ _ => ⟨_, extract_fullMarks python⟩

/-- A sample on its own that is asked about. -/
theorem runLlmJudge_singleton (positive : 1 ≤ settings.inferBatchSize)
    (isPrompt : payload settings sample = some prompt) :
    runLlmJudge python settings judge [sample] = secondPass python [sample] [judge prompt] := by
  have once : ([sample].length + settings.inferBatchSize - 1) / settings.inferBatchSize = 1 := by
    rw [length_singleton, Nat.add_sub_cancel_left]
    exact Nat.div_self positive
  have whole : cutAt (· * settings.inferBatchSize) 1 [sample] = [[sample]] := by
    rw [cutAt_succ, Nat.zero_mul, slice_zero [sample] (by simpa using positive)]
    rfl
  have batch : judgeBatch python settings judge [sample] =
      secondPass python [sample] [judge prompt] := by
    rw [judgeBatch, filterMap_cons_some isPrompt, if_neg (cons_ne_nil _ _),
      map_singleton, markMissing_of_payload isPrompt]
    rfl
  rw [runLlmJudge, if_neg (Nat.ne_of_gt positive), once, whole, mapM_cons, batch]
  cases secondPass python [sample] [judge prompt] with
  | error failure => rfl
  | ok judged => exact congrArg Except.ok (append_nil judged)

/-- **Every judge is understood exactly without old errors**, in batches that are not empty. -/
theorem judgesWell_iff (python : JudgeReader) (settings : JudgeSettings)
    (samples : List JudgeSample) :
    (∀ judge, JudgesWell python.toOutputReader settings judge samples ↔
        RepliesReadable python.toOutputReader settings judge samples) ↔
      1 ≤ settings.inferBatchSize ∧ ∀ sample ∈ samples, NotStale settings sample := by
  constructor
  · intro understood
    obtain ⟨zeros, areZeros, eachZero, aloneZero⟩ :=
      (understood failing).mpr (repliesReadable_failing _ samples)
    obtain ⟨ones, areOnes, eachOne, aloneOne⟩ :=
      (understood generous).mpr (repliesReadable_generous python samples)
    have positive : 1 ≤ settings.inferBatchSize := by
      rw [Nat.one_le_iff_ne_zero]
      intro isZero
      rw [runLlmJudge, if_pos isZero] at areZeros
      cases areZeros
    refine ⟨positive, fun sample isSample asked => ?_⟩
    obtain ⟨prompt, isPrompt⟩ := Option.isSome_iff_exists.mp asked
    obtain ⟨zero, isZero, byFailing⟩ := exists_both_of_forall₂ eachZero aloneZero isSample
    obtain ⟨one, isOne, byGenerous⟩ := exists_both_of_forall₂ eachOne aloneOne isSample
    rw [ownReward_failing] at isZero
    rw [ownReward_generous python isPrompt] at isOne
    rw [runLlmJudge_singleton _ positive isPrompt] at byFailing byGenerous
    cases taken : isMissing sample.rewardDetails.error with
    | error failure =>
      unfold secondPass at byFailing
      rw [taken] at byFailing
      cases byFailing
    | ok taken' =>
      cases taken' with
      | false => rfl
      | true =>
        -- The reward that it had would have to be the one of both judges.
        rw [secondPass_of_missing _ taken] at byFailing byGenerous
        obtain rfl := head_eq_of_cons_eq (Except.ok.inj byFailing)
        obtain rfl := head_eq_of_cons_eq (Except.ok.inj byGenerous)
        have same := (Except.ok.inj isZero).trans (Except.ok.inj isOne).symm
        cases same
  · rintro ⟨positive, notStale⟩ judge
    exact judgesWell_of_notStale _ positive notStale

/-- A sample with an error of another run, and one without. -/
def staleSamples : List JudgeSample :=
  [⟨some ['p'], some ['a'], .finite 0,
      .stored [(codes "error".toList, .string Missing.gtText.error)]⟩,
    ⟨some ['q'], some ['b'], .finite 0, .stored []⟩]

def staleSettings : JudgeSettings := ⟨"__PREDICTION__".toList, "5000".toList, 2⟩

def firstRight (prompt : Text) : Reply :=
  if prompt = ['a'] then .content (some fullMarks.write) else .failed

def shortTexts : JudgeReader where
  interpreter := { plainPython with recursionLimit := 1000 }
  conversions := wholeNumbers
  isDigit := Char.isDigit
  le_recursionLimit := by decide
  float_one := by decide +kernel

/-- **The reply about the first sample is given to the second.** -/
theorem not_judgesWell_staleSamples :
    RepliesReadable shortTexts.toOutputReader staleSettings firstRight staleSamples ∧
      ¬ JudgesWell shortTexts.toOutputReader staleSettings firstRight staleSamples := by
  constructor
  · intro sample _ prompt _
    rw [firstRight]
    split
    · exact ⟨_, extract_fullMarks shortTexts⟩
    · exact ⟨none, rfl⟩
  · rintro ⟨judged, isJudged, each, -⟩
    have given : (runLlmJudge shortTexts.toOutputReader staleSettings firstRight
        staleSamples).map (List.map JudgeSample.reward) = .ok [.finite 0, .finite 1] := by
      decide +kernel
    have own : staleSamples.map (ownReward shortTexts.toOutputReader staleSettings firstRight) =
        [.ok (.finite 1), .ok (.finite 0)] := by
      decide +kernel
    rw [isJudged] at given
    have same : staleSamples.map (ownReward shortTexts.toOutputReader staleSettings firstRight) =
        (judged.map JudgeSample.reward).map Except.ok := by
      rw [map_map]
      exact map_eq_of_forall₂ each fun _ _ isReward => isReward
    rw [own, Except.ok.inj given] at same
    cases same

end Geobench.DataClean
