import Geobench.Library.JsonDecode
import Geobench.Library.Patterns

/-!
# The format rewards of a completion

Four rewards look at the format of a completion. `geoAnswerFormat` wants a JSON object in the last
answer block whose final answer has three parts. `geoNoUnknown` rejects refusals and unknown
places. `geoStrictFormat` wants a think block and an answer block, with a JSON object of certain
members in each, and `geoJSONStrictFormat` wants one JSON object. `extractAnswerContent` is how
the distance reward finds the address that it geocodes.

Only an error of decoding is caught. Other exceptions leave the call, and the rewards of all its
completions are lost.
-/

namespace Geobench.Rewards

open Library

/-! ## Texts -/

/-- What the interpreter decides: how deep values may be nested, how a number, an array or an
object is written as a text, and which code points are of words. -/
structure Interpreter where
  recursionLimit : ℕ
  repr : JsonValue → CodePoints
  isWord : ℕ → Bool

/-- Numbers as they are written, words of letters and digits of ASCII. -/
def plainPython : Interpreter where
  recursionLimit := 5
  repr := fun value =>
    match value with
    | .number literal => codes literal
    | _ => []
  isWord := fun code => code = '_'.toNat || (Char.ofNat code).isAlphanum

def openThink : Text := "<think>".toList
def closeThink : Text := "</think>".toList
def openAnswer : Text := "<answer>".toList
def closeAnswer : Text := "</answer>".toList
def imEnd : Text := "<|im_end|>".toList

def cluesKey : CodePoints := codes "Clues".toList
def reasoningKey : CodePoints := codes "Reasoning".toList
def finalAnswerKey : CodePoints := codes "FinalAnswer".toList

/-- Substitute nothing for `\s*<\|im_end\|>\s*$` in a stripped text. -/
def stripSpecialTokens (content : Text) : Text :=
  let content := strip isBlank content
  if imEnd.isSuffixOf content then
    (content.take (content.length - imEnd.length)).rdropWhile isBlank
  else content

/-- What `<answer>\s*(.*?)\s*</answer>` captures. -/
def answerBlocks (content : Text) : List Text :=
  (findall (between openAnswer closeAnswer) 0 content).map (strip isBlank)

/-- The parts of a final answer between semicolons, without blank ones. -/
def answerParts (finalAnswer : CodePoints) : List CodePoints :=
  ((finalAnswer.splitOnP fun code => code = 0x3b || code = 0xff1b).map (strip isBlankCode)).filter
    fun part => !part.isEmpty

/-! ## Decoding -/

inductive RewardError where
  | valueError
  | recursionError
  | typeError
  | attributeError
  deriving DecidableEq, Repr

/-- Decode a text, or catch that it is no JSON text. -/
def tryLoads (python : Interpreter) (text : Text) : Except RewardError (Option JsonValue) :=
  match loads python.recursionLimit text with
  | .ok value => .ok (some value)
  | .error .jsonDecodeError => .ok none
  | .error .valueError => .error .valueError
  | .error .recursionError => .error .recursionError

theorem tryLoads_eq_some {python : Interpreter} {text : Text} {value : JsonValue} :
    tryLoads python text = .ok (some value) ↔ loads python.recursionLimit text = .ok value := by
  unfold tryLoads
  cases loads python.recursionLimit text with
  | ok value => simp
  | error error => cases error <;> simp

def pyStr (python : Interpreter) : JsonValue → CodePoints
  | .string value => value
  | .null => codes "None".toList
  | .bool true => codes "True".toList
  | .bool false => codes "False".toList
  | value => python.repr value

/-- The member of an object that is there and is not null. -/
def memberNotNull (key : CodePoints) : JsonValue → Option JsonValue
  | .object members =>
    match getMember members key with
    | some .null => none
    | found => found
  | _ => none

def finalAnswerOf (python : Interpreter) (data : JsonValue) : Option CodePoints :=
  (memberNotNull finalAnswerKey data).map fun value => strip isBlankCode (pyStr python value)

/-- `GeoAnswerFormat._extract_final_answer` -/
def extractFinalAnswer (python : Interpreter) (answerContent : Text) :
    Except RewardError (Option CodePoints) :=
  (tryLoads python answerContent).map fun data => data.bind (finalAnswerOf python)

/-! ## The answer format -/

/-- The reward of `GeoAnswerFormat` for one completion. -/
def answerReward (python : Interpreter) (content : Text) : Except RewardError ℚ := do
  match (answerBlocks (strip isBlank content)).getLast? with
  | none => .ok 0
  | some block =>
    match ← extractFinalAnswer python (strip isBlank block) with
    | none => .ok 0
    | some finalAnswer =>
      if finalAnswer = [] then .ok 0
      else .ok (if (answerParts finalAnswer).length = 3 then 1 else 0)

def geoAnswerFormat (python : Interpreter) (completions : List Text) :
    Except RewardError (List ℚ) :=
  completions.mapM (answerReward python)

/-! ## Unknown places and refusals -/

section Refusals

open Pattern

variable (python : Interpreter)

/-- `\s+` -/
def blanks : Pattern := many isBlankCode

/-- `(?:\w+\s+){0,3}` -/
def fewWords : Pattern := upTo (seq (many python.isWord) blanks) 3

def wordBoundary : Pattern := boundary python.isWord

def finalBannedRe : Pattern :=
  oneOf
    (sequence [wordBoundary python,
      oneOf (words ["unknown", "na", "n/a", "unspecified", "undetermined", "unidentified",
        "uncertain", "unclear", "placeholder", "generic"]) [],
      wordBoundary python])
    [words ["not enough", "cannot be determined", "can not be determined",
      "not possible to determine", "hard to determine", "difficult to determine"]]

/-- What a refusal cannot do. -/
def refusedVerbs : Pattern :=
  words ["determine", "determined", "identify", "identified", "infer", "inferred", "locate",
    "located", "geolocate", "geolocated", "pinpoint", "pinpointed"]

def refusedFeatures : Pattern :=
  sequence [maybe (seq (word "geographic".toList) blanks),
    words ["information", "features", "landmarks", "location", "place", "clues"]]

def refusalRe : Pattern :=
  oneOf
    (sequence [wordBoundary python, words ["cannot", "can not", "can't", "unable to"], blanks,
      maybe (seq (word "be".toList) blanks), fewWords python, refusedVerbs, wordBoundary python])
    [sequence [wordBoundary python, words ["impossible", "not possible", "hard", "difficult"],
        blanks, word "to".toList, blanks, fewWords python,
        words ["determine", "identify", "infer", "locate", "geolocate", "pinpoint"],
        wordBoundary python],
      sequence [wordBoundary python, words ["insufficient", "not enough"], blanks,
        maybe (seq (word "visual".toList) blanks),
        words ["information", "evidence", "clues", "detail", "details", "context"],
        wordBoundary python],
      sequence [wordBoundary python, word "no identifiable".toList, blanks, refusedFeatures,
        wordBoundary python],
      sequence [wordBoundary python, words ["lack", "lacks", "lacking"], blanks,
        maybe (seq (word "any".toList) blanks), word "identifiable".toList, blanks,
        refusedFeatures, wordBoundary python]]

/-- Whether the last answer block has a final answer with a banned word. -/
def hasUnknown (content : Text) : Except RewardError Bool :=
  match (answerBlocks content).getLast? with
  | none => .ok false
  | some block =>
    (extractFinalAnswer python (strip isBlank block)).map fun finalAnswer =>
      finalAnswer.any fun text => !text.isEmpty && (finalBannedRe python).search text

/-- `GeoNoUnknown._has_unknown_or_refusal` -/
def hasUnknownOrRefusal (content : Text) : Except RewardError Bool := do
  let content := stripSpecialTokens content
  if ← hasUnknown python content then .ok true
  else .ok ((refusalRe python).search (codes content))

/-- The reward of `GeoNoUnknown` for one completion. -/
def noUnknownReward (content : Text) : Except RewardError ℚ :=
  (hasUnknownOrRefusal python content).map fun found => if found then 0 else 1

def geoNoUnknown (completions : List Text) : Except RewardError (List ℚ) :=
  completions.mapM (noUnknownReward python)

end Refusals

/-! ## The strict format -/

/-- What `\s*<answer>\s*(.*?)\s*</answer>\s*$` captures at the beginning of a text. -/
def closingAnswer (text : Text) : Option Text :=
  (dropTag openAnswer (text.dropWhile isBlank)).bind fun body =>
    let body := body.rdropWhile isBlank
    let size := body.length - closeAnswer.length
    if dropTag closeAnswer (body.drop size) = some [] then some (strip isBlank (body.take size))
    else none

/-- The text before the first closing think tag that an answer block up to the end follows, and
the text of that block. -/
def closingThink : Text → Option (Text × Text)
  | [] => none
  | char :: text =>
    match (dropTag closeThink (char :: text)).bind closingAnswer with
    | some answer => some ([], answer)
    | none => (closingThink text).map fun blocks => (char :: blocks.1, blocks.2)

/-- What `BLOCK_RE` captures. -/
def matchBlocks (content : Text) : Option (Text × Text) :=
  ((dropTag openThink content).bind closingThink).map fun blocks =>
    (strip isBlank blocks.1, blocks.2)

/-- The elements of `set(value)`: the texts among them, and what else there is. -/
def setElements : JsonValue → Except RewardError (List (Option CodePoints))
  | .object members => .ok (members.map fun member => some member.1)
  | .string value => .ok (value.map fun code => some [code])
  | .array items =>
    items.mapM fun item =>
      match item with
      | .array _ => .error .typeError
      | .object _ => .error .typeError
      | .string value => .ok (some value)
      | _ => .ok none
  | _ => .error .typeError

def isSetOf (names : List CodePoints) (elements : List (Option CodePoints)) : Bool :=
  (elements.all fun element => element.any names.contains) &&
    names.all fun name => elements.contains (some name)

/-- `value.get` -/
def members : JsonValue → Except RewardError (List (CodePoints × JsonValue))
  | .object members => .ok members
  | _ => .error .attributeError

/-- A string that is not blank. -/
def isFilled : JsonValue → Bool
  | .string value => !(strip isBlankCode value).isEmpty
  | _ => false

/-- A list of strings that are not blank, of which there are some. -/
def areClues : Option JsonValue → Bool
  | some (.array items) => !items.isEmpty && items.all isFilled
  | _ => false

def validatedAnswer (python : Interpreter) (answer : List (CodePoints × JsonValue)) : CodePoints :=
  strip isBlankCode (((getMember answer finalAnswerKey).map (pyStr python)).getD [])

/-- Whether the members of a think block and of an answer block are as they should be. -/
def isValid (python : Interpreter) (think answer : List (CodePoints × JsonValue)) : Bool :=
  areClues (getMember think cluesKey) && (getMember think reasoningKey).any isFilled &&
    (answerParts (validatedAnswer python answer)).length = 3

def blocksReward (python : Interpreter) (thinkJson answerJson : JsonValue) :
    Except RewardError ℚ := do
  let thinkElements ← setElements thinkJson
  if !isSetOf [cluesKey, reasoningKey] thinkElements then .ok 0
  else do
    let answerElements ← setElements answerJson
    if !isSetOf [finalAnswerKey] answerElements then .ok 0
    else do
      let think ← members thinkJson
      let answer ← members answerJson
      .ok (if isValid python think answer then 1 else 0)

/-- Decode both blocks. -/
def loadBlocks (python : Interpreter) (think answer : Text) :
    Except RewardError (Option (JsonValue × JsonValue)) := do
  match ← tryLoads python (strip isBlank think) with
  | none => .ok none
  | some thinkJson =>
    (tryLoads python (strip isBlank answer)).map fun answerJson =>
      answerJson.map fun answerJson => (thinkJson, answerJson)

theorem loadBlocks_eq_some {python : Interpreter} {think answer : Text}
    {thinkJson answerJson : JsonValue} :
    loadBlocks python think answer = .ok (some (thinkJson, answerJson)) ↔
      loads python.recursionLimit (strip isBlank think) = .ok thinkJson ∧
        loads python.recursionLimit (strip isBlank answer) = .ok answerJson := by
  rw [← tryLoads_eq_some, ← tryLoads_eq_some, loadBlocks]
  cases tryLoads python (strip isBlank think) with
  | error error => simp [bind, Except.bind]
  | ok thinkData =>
    cases thinkData with
    | none => simp [bind, Except.bind]
    | some thinkData =>
      cases tryLoads python (strip isBlank answer) with
      | error error => simp [bind, Except.bind, Except.map]
      | ok answerData => cases answerData <;> simp [bind, Except.bind, Except.map]

/-- The reward of `GeoStrictFormat` for one completion. -/
def strictReward (python : Interpreter) (content : Text) : Except RewardError ℚ := do
  let content := stripSpecialTokens content
  if ← hasUnknownOrRefusal python content then .ok 0
  else
    match matchBlocks content with
    | none => .ok 0
    | some (think, answer) => do
        match ← loadBlocks python think answer with
        | none => .ok 0
        | some (thinkJson, answerJson) => blocksReward python thinkJson answerJson

def geoStrictFormat (python : Interpreter) (completions : List Text) :
    Except RewardError (List ℚ) :=
  completions.mapM (strictReward python)

/-! ## The strict JSON format -/

/-- Substitute nothing for `^\s*<think>\s*</think>\s*`. -/
def stripAutoThinkPrefix (content : Text) : Text :=
  let rest := (dropTag openThink (content.dropWhile isBlank)).bind fun rest =>
    dropTag closeThink (rest.dropWhile isBlank)
  (rest.map fun rest => rest.dropWhile isBlank).getD content

def jsonContent (content : Text) : Text := stripAutoThinkPrefix (stripSpecialTokens content)

/-- The text of the final answer of an object with the three members, if all are as they should
be. -/
def acceptedAnswer (data : List (CodePoints × JsonValue)) : Option CodePoints :=
  if isSetOf [cluesKey, reasoningKey, finalAnswerKey] (data.map fun member => some member.1) &&
      areClues (getMember data cluesKey) && (getMember data reasoningKey).any isFilled then
    match getMember data finalAnswerKey with
    | some (.string finalAnswer) => some finalAnswer
    | _ => none
  else none

/-- The reward of `GeoJSONStrictFormat` for one completion. -/
def jsonStrictReward (python : Interpreter) (content : Text) : Except RewardError ℚ := do
  let content := jsonContent content
  if (refusalRe python).search (codes content) then .ok 0
  else
    match ← tryLoads python content with
    | some (.object data) =>
      match acceptedAnswer data with
      | none => .ok 0
      | some finalAnswer =>
        if (finalBannedRe python).search finalAnswer then .ok 0
        else .ok (if (answerParts finalAnswer).length = 3 then 1 else 0)
    | _ => .ok 0

def geoJSONStrictFormat (python : Interpreter) (completions : List Text) :
    Except RewardError (List ℚ) :=
  completions.mapM (jsonStrictReward python)

/-! ## The address that is geocoded -/

def firstObject (python : Interpreter) : List Text → Except RewardError (Option JsonValue)
  | [] => .ok none
  | candidate :: candidates => do
      match ← tryLoads python candidate with
      | some (.object data) => .ok (some (.object data))
      | _ => firstObject python candidates

/-- What `\{.*?\}` finds. -/
def braceCandidates (text : Text) : List Text :=
  (findall (between ['{'] ['}']) 0 text).map fun inner => '{' :: (inner ++ ['}'])

/-- `GeoScoreAccuracy._parse_json_object` -/
def parseJsonObject (python : Interpreter) (text : Text) : Except RewardError (Option JsonValue) :=
  if text = [] then .ok none
  else do
    match ← tryLoads python (strip isBlank text) with
    | some (.object data) => .ok (some (.object data))
    | _ => firstObject python (braceCandidates text)

/-- What `"FinalAnswer"\s*:\s*"([^"]+)"` captures at the beginning of a text. -/
def quotedAnswer (text : Text) : Option Text := do
  let name : Text := '"' :: ("FinalAnswer".toList ++ ['"'])
  let text ← if name.isPrefixOf text then some (text.drop name.length) else none
  match text.dropWhile isBlank with
  | ':' :: text =>
    match text.dropWhile isBlank with
    | '"' :: text =>
      let captured := text.takeWhile fun char => char ≠ '"'
      if captured ≠ [] ∧ captured ≠ text then some captured else none
    | _ => none
  | _ => none

/-- What the first match of `"FinalAnswer"\s*:\s*"([^"]+)"` captures. -/
def searchAnswer (text : Text) : Option Text := text.tails.findSome? quotedAnswer

/-- `GeoScoreAccuracy._extract_answer_content` -/
def extractAnswerContent (python : Interpreter) (completion : Text) :
    Except RewardError (Option CodePoints) := do
  match (answerBlocks completion).getLast? with
  | some block =>
    let data ← parseJsonObject python (strip isBlank block)
    .ok (some ((data.bind (finalAnswerOf python)).getD (codes (strip isBlank block))))
  | none =>
    let data ← parseJsonObject python completion
    match data.bind (finalAnswerOf python) with
    | some finalAnswer => .ok (some finalAnswer)
    | none => .ok ((searchAnswer completion).map fun text => codes (strip isBlank text))

/-- The address that the distance reward geocodes. An exception of the extraction is caught, and
there is no address then. -/
def geocodedAddress (python : Interpreter) (completion : Text) : Option CodePoints :=
  match extractAnswerContent python completion with
  | .ok (some answer) => if answer = [] then none else some answer
  | _ => none

end Geobench.Rewards
