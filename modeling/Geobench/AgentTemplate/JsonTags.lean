import Geobench.AgentTemplate.ToolCalls
import Geobench.Library.Matches

/-!
# Tool calls as JSON between tags

The templates of Hermes, Youtu, Mistral and DeepSeek V3.1 write the arguments of a tool call as
JSON between tags, and find what is between the tags of a response.

The texts of `json.dumps` have a tag only where a string has it, and no newlines, so that the tool
calls are found one by one. **`getToolcall_formatToolCalls`**: each template finds the functions
that it has written, with their arguments. Of a name, what is left without blanks at its ends is
found.
-/

namespace Geobench.AgentTemplate

open Library List

/-! ## Functions of parsed values -/

/-- The function of a value that is an object with a name and with arguments. -/
def functionOf (value : Json) : Option (Option Function) :=
  match value with
  | .object members =>
    match members.lookup nameKey, members.lookup argumentsKey with
    | some name, some arguments => (Function.of name arguments).map some
    | _, _ => some none
  | _ => some none

def functionsOf (values : List Json) : Option (List Function) :=
  (values.mapM functionOf).map List.reduceOption

/-- The object that is written for a tool call. -/
def ParsedCall.json (call : ParsedCall) : Json :=
  .object [(nameKey, call.name), (argumentsKey, call.arguments)]

/-! ## The templates -/

namespace HermesAgentTemplate

def opening : Text := "<tool_call>".toList
def closing : Text := "</tool_call>".toList

def getToolcall (python : Interpreter) (response : Text) : Option (List Function) := do
  let values ← (findMatches (taggedSome opening closing) 0 response).mapM python.parseText
  let functions ← functionsOf values
  some (orReact functions response)

def formatToolCalls (calls : List ParsedCall) : Text :=
  ['\n'].intercalate (calls.map fun call =>
    opening ++ ('\n' :: (call.json.write ++ ['\n']) ++ closing))

end HermesAgentTemplate

namespace YoutuAgentTemplate

/-- The template finds tool calls like the one of Hermes. -/
def getToolcall (python : Interpreter) (response : Text) : Option (List Function) :=
  HermesAgentTemplate.getToolcall python response

def formatToolCalls (calls : List ParsedCall) : Text :=
  [].intercalate (calls.map fun call =>
    HermesAgentTemplate.opening ++ (call.json.write ++ HermesAgentTemplate.closing))

end YoutuAgentTemplate

namespace MistralAgentTemplate

def opening : Text := "[TOOL_CALLS][".toList
def closing : Text := "]</s>".toList

/-- A line has one tool call or a list of them. -/
def callsOf : Json → List Json
  | .object members => [.object members]
  | .array items => items
  | _ => []

/-- Without a match, nothing is found behind keywords, either. -/
def getToolcall (python : Interpreter) (response : Text) : Option (List Function) :=
  match findMatches (tagged opening closing) 0 response with
  | [] => some []
  | content :: _ => do
      let values ← ((strip isBlank content).splitOn '\n').mapM python.parseText
      let functions ← functionsOf (values.flatMap callsOf)
      some (orReact functions response)

def formatToolCalls (calls : List ParsedCall) : Text :=
  opening ++ ('\n' :: (['\n'].intercalate (calls.map fun call => call.json.write) ++ ['\n']) ++
    closing)

end MistralAgentTemplate

namespace DeepSeekV31AgentTemplate

def callsBegin : Text := "<｜tool▁calls▁begin｜>".toList
def callsEnd : Text := "<｜tool▁calls▁end｜>".toList
def callBegin : Text := "<｜tool▁call▁begin｜>".toList
def separator : Text := "<｜tool▁sep｜>".toList
def callEnd : Text := "<｜tool▁call▁end｜>".toList

/-- A name and arguments. -/
def matchCall (text : Text) : Option ((Text × Text) × Text) := do
  let name ← tagged callBegin separator text
  let arguments ← splitFirst callEnd name.2
  some ((name.1, arguments.1), arguments.2)

/-- The function of a match, unless its arguments are nothing. -/
def functionOf (python : Interpreter) (found : Text × Text) : Option (Option Function) := do
  let arguments ← python.parseText (strip isBlank found.2)
  match arguments with
  | .null => some none
  | arguments => (Function.of (.string (strip isBlank found.1)) arguments).map some

def getToolcall (python : Interpreter) (response : Text) : Option (List Function) := do
  let functions ← (findMatches matchCall 0 response).mapM (functionOf python)
  some (orReact functions.reduceOption response)

def formatToolCalls (python : Interpreter) (calls : List ParsedCall) : Text :=
  callsBegin ++ ([].intercalate (calls.map fun call =>
    callBegin ++ (python.str call.name ++
      (separator ++ (call.arguments.write ++ callEnd)))) ++ callsEnd)

end DeepSeekV31AgentTemplate

/-- The templates that write tool calls as JSON between tags. -/
inductive JsonTemplate where
  | hermes
  | youtu
  | mistral
  | deepSeekV31
  deriving DecidableEq, Repr

namespace JsonTemplate

def getToolcall (python : Interpreter) : JsonTemplate → Text → Option (List Function)
  | .hermes => HermesAgentTemplate.getToolcall python
  | .youtu => YoutuAgentTemplate.getToolcall python
  | .mistral => MistralAgentTemplate.getToolcall python
  | .deepSeekV31 => DeepSeekV31AgentTemplate.getToolcall python

/-- `_format_tool_calls`, which parses each message first. -/
def formatToolCalls (python : Interpreter) (template : JsonTemplate) (messages : List Json) :
    Option Text :=
  (messages.mapM python.parseToolCall).map fun calls =>
    match template with
    | .hermes => HermesAgentTemplate.formatToolCalls calls
    | .youtu => YoutuAgentTemplate.formatToolCalls calls
    | .mistral => MistralAgentTemplate.formatToolCalls calls
    | .deepSeekV31 => DeepSeekV31AgentTemplate.formatToolCalls python calls

def delimiters : JsonTemplate → List Text
  | .hermes | .youtu => [HermesAgentTemplate.opening, HermesAgentTemplate.closing]
  | .mistral => [MistralAgentTemplate.opening, MistralAgentTemplate.closing]
  | .deepSeekV31 =>
    [DeepSeekV31AgentTemplate.callsBegin, DeepSeekV31AgentTemplate.callsEnd,
      DeepSeekV31AgentTemplate.callBegin, DeepSeekV31AgentTemplate.separator,
      DeepSeekV31AgentTemplate.callEnd]

end JsonTemplate

/-! ## What is written for a tool call -/

theorem strip_render_object (style : Style) (members : List (Text × Json)) :
    strip isBlank ((Json.object members).render style) = (Json.object members).render style := by
  rw [strip_eq_self_iff, render_object]
  constructor
  · intro char isHead
    cases isHead
    decide
  · intro char isLast
    rw [← cons_append, getLast?_append] at isLast
    cases isLast
    decide

theorem strip_write_object (members : List (Text × Json)) :
    strip isBlank (Json.object members).write = (Json.object members).write :=
  strip_render_object jsonStyle members

theorem newline_not_mem_write (value : Json) : '\n' ∉ value.write := by
  intro isIn
  exact absurd (printable_write value _ isIn) (by decide)

section Calls

variable {python : Interpreter} (call : ToolCall python)

/-- The function that is found, whose name has no blanks at its ends. -/
def ToolCall.stripped : Function := ⟨strip isBlank call.name, (Json.object call.arguments).write⟩

theorem ToolCall.valid_json : call.parsed.json.Valid python.IsNumber := by
  have different : [nameKey, argumentsKey].Nodup := by decide
  refine .object _ different (forall_mem_cons.mpr ⟨.string _, ?_⟩)
  rw [forall_mem_singleton]
  exact call.valid

theorem ToolCall.parseText_json {before after : Text}
    (spaces : ∀ char ∈ before ++ after, isJsonSpace char = true) :
    python.parseText (before ++ (call.parsed.json.write ++ after)) = some call.parsed.json :=
  parseText_spaces call.valid_json spaces

theorem ToolCall.functionOf_json : functionOf call.parsed.json = some (some call.stripped) := by
  have found : functionOf call.parsed.json =
      (Function.of (.string call.name) (.object call.arguments)).map some := rfl
  rw [found, Function.of, Option.map_some, Function.ofTexts, strip_write_object]
  · rfl
  · exact nofun

theorem functionsOf_json (calls : List (ToolCall python)) :
    functionsOf (calls.map fun call => call.parsed.json) = some (calls.map ToolCall.stripped) := by
  have each : (calls.map fun call => call.parsed.json).mapM functionOf =
      some (calls.map fun call => some call.stripped) :=
    mapM_map_eq_some fun call _ => call.functionOf_json
  rw [functionsOf, each, Option.map_some, reduceOption_map_some]

/-- A delimiter that is in no string of a tool call is not in what is written for it. -/
theorem ToolCall.Free.not_infix_json {call : ToolCall python} {tags : List Text}
    (free : call.Free tags) {tag : Text} (isTag : tag ∈ tags) (marker : Marker tag)
    (notName : ¬ tag <:+: nameKey) (notArguments : ¬ tag <:+: argumentsKey) :
    ¬ tag <:+: call.parsed.json.write := by
  intro isInfix
  obtain ⟨text, isText, isInfix⟩ := infix_of_infix_render marker quotes_jsonStyle isInfix
  have strings : call.parsed.json.strings =
      nameKey :: ([call.name] ++ (argumentsKey :: ((Json.object call.arguments).strings ++ []))) :=
    rfl
  simp only [strings, mem_cons, mem_append, not_mem_nil, or_false] at isText
  rcases isText with rfl | rfl | rfl | isText
  · exact notName isInfix
  · exact free tag isTag _ mem_cons_self isInfix
  · exact notArguments isInfix
  · exact free tag isTag text (mem_cons_of_mem _ isText) isInfix

theorem orReact_stripped (calls : List (ToolCall python)) {response : Text}
    (nothing : calls = [] → reactToolcall response = []) :
    orReact (calls.map ToolCall.stripped) response = calls.map ToolCall.stripped := by
  unfold orReact
  split
  · rename_i none
    rw [nothing (map_eq_nil_iff.mp none), none]
  · rfl

/-! ## Hermes and Youtu -/

section Hermes

open HermesAgentTemplate

/-- What is found where spaces may be around each object. -/
theorem getToolcall_hermes {calls : List (ToolCall python)} {spaces separator : Text}
    (isSpace : ∀ char ∈ spaces, isJsonSpace char = true)
    (isSeparator : ∀ char ∈ separator, isJsonSpace char = true)
    (free : ∀ call ∈ calls, call.Free [opening, closing]) :
    HermesAgentTemplate.getToolcall python (separator.intercalate (calls.map fun call =>
        opening ++ ((spaces ++ (call.parsed.json.write ++ spaces)) ++ closing))) =
      some (calls.map ToolCall.stripped) := by
  have notSpace : ∀ char, isJsonSpace char = true → char ∉ closing ∧ opening.head? ≠ some char := by
    intro char isSpace
    simp only [isJsonSpace, Bool.or_eq_true, decide_eq_true_eq] at isSpace
    rcases isSpace with ((rfl | rfl) | rfl) | rfl <;> decide
  have found : findMatches (taggedSome opening closing) 0
      (separator.intercalate (calls.map fun call =>
        opening ++ ((spaces ++ (call.parsed.json.write ++ spaces)) ++ closing)) ++ []) =
      calls.map fun call => spaces ++ (call.parsed.json.write ++ spaces) := by
    refine findMatches_intercalate ?_ ?_ ?_ rfl
    · intro char isChar rest
      exact taggedSome_eq_none (by decide) (notSpace char (isSeparator char isChar)).2 rest
    · exact fun call _ => cons_ne_nil _ _
    · intro call isCall rest
      have notInJson : ¬ closing <:+: call.parsed.json.write :=
        (free call isCall).not_infix_json (by simp) (by decide) (by decide) (by decide)
      have notInside : ¬ closing <:+: spaces ++ (call.parsed.json.write ++ spaces) := by
        intro isInfix
        have first := infix_of_infix_append (fun char isHead isIn =>
          (notSpace char (isSpace char isIn)).1 (mem_of_mem_head? isHead)) isInfix
        exact notInJson (infix_of_infix_append_right
          (fun char isIn => (notSpace char (isSpace char isIn)).1) first)
      obtain ⟨char, text, isText⟩ : ∃ char text,
          spaces ++ (call.parsed.json.write ++ spaces) = char :: text := by
        refine exists_cons_of_ne_nil ?_
        obtain ⟨first, more, written, -⟩ := reads_jsonStyle.begins call.parsed.json
        simp [Json.write, written]
      rw [isText] at notInside ⊢
      have notLater : ¬ closing <:+: text :=
        fun isInfix => notInside (isInfix.trans (suffix_cons _ _).isInfix)
      rw [append_assoc, append_assoc]
      exact taggedSome_append (by decide) (by decide) notLater rest
  have values : (calls.map fun call => spaces ++ (call.parsed.json.write ++ spaces)).mapM
      python.parseText = some (calls.map fun call => call.parsed.json) :=
    mapM_map_eq_some fun call _ => call.parseText_json
      (forall_mem_append.mpr ⟨isSpace, isSpace⟩)
  rw [append_nil] at found
  rw [HermesAgentTemplate.getToolcall, found, values]
  change (functionsOf (calls.map fun call => call.parsed.json)).bind _ = _
  rw [functionsOf_json, Option.bind_some, orReact_stripped]
  rintro rfl
  rfl

end Hermes

/-! ## Mistral -/

section Mistral

open MistralAgentTemplate

theorem getToolcall_mistral {calls : List (ToolCall python)}
    (free : ∀ call ∈ calls, call.Free [opening, closing]) :
    MistralAgentTemplate.getToolcall python
        (MistralAgentTemplate.formatToolCalls (calls.map ToolCall.parsed)) =
      some (calls.map ToolCall.stripped) := by
  let lines := calls.map fun call => call.parsed.json.write
  let content := '\n' :: (['\n'].intercalate lines ++ ['\n'])
  have written : MistralAgentTemplate.formatToolCalls (calls.map ToolCall.parsed) =
      opening ++ (content ++ closing) := by
    rw [MistralAgentTemplate.formatToolCalls, map_map]
    rfl
  have notInLines : ¬ closing <:+: ['\n'].intercalate lines := by
    intro isInfix
    obtain ⟨line, isLine, isInfix⟩ :=
      exists_of_infix_intercalate (by decide) (by decide) isInfix
    obtain ⟨call, isCall, rfl⟩ := mem_map.mp isLine
    exact (free call isCall).not_infix_json (by simp) (by decide) (by decide) (by decide) isInfix
  have notInContent : ¬ closing <:+: content := by
    intro isInfix
    have isIn : closing <:+: ['\n'] ++ (['\n'].intercalate lines ++ ['\n']) := isInfix
    have isLater := infix_of_infix_append (by decide) isIn
    exact notInLines (infix_of_infix_append_right (by decide) isLater)
  have found : findMatches (tagged opening closing) 0 (opening ++ (content ++ closing)) =
      [content] := by
    have isMatch : tagged opening closing (opening ++ (content ++ (closing ++ []))) =
        some (content, []) :=
      tagged_append (by decide) (by decide) notInContent []
    have isWhole : tagged opening closing ((opening ++ (content ++ closing)) ++ []) =
        some (content, []) := by
      rw [append_nil]
      rwa [append_nil] at isMatch
    have isSome : opening ++ (content ++ closing) ≠ [] :=
      append_ne_nil_of_left_ne_nil (by decide) _
    have all := findMatches_append isSome isWhole
    rwa [append_nil] at all
  have isStripped : strip isBlank content = ['\n'].intercalate lines := by
    have blank : ∀ char ∈ ['\n'], isBlank char = true := by decide
    have inner := strip_append isBlank (['\n'].intercalate lines) blank blank
    refine inner.trans (strip_intercalate_of_ne_nil ?_ ?_)
    · intro line isLine
      obtain ⟨call, -, rfl⟩ := mem_map.mp isLine
      rw [ParsedCall.json, write_object]
      exact cons_ne_nil _ _
    · intro line isLine
      obtain ⟨call, -, rfl⟩ := mem_map.mp isLine
      exact strip_write_object _
  have values : ∃ values, ((['\n'].intercalate lines).splitOn '\n').mapM python.parseText =
      some values ∧ values.flatMap callsOf = calls.map fun call => call.parsed.json := by
    by_cases none : calls = []
    · subst none
      have nothing : python.parseText [] = some .null := by
        have noJson : loads 0 [] = .error .jsonDecodeError := rfl
        rw [Interpreter.parseText, length_nil, noJson]
        dsimp only
        rw [python.literalEval_nil]
      refine ⟨[.null], ?_, rfl⟩
      change [[]].mapM python.parseText = some [.null]
      rw [mapM_cons, nothing]
      rfl
    · have split : (['\n'].intercalate lines).splitOn '\n' = lines := by
        refine splitOn_intercalate '\n' ?_ (by simpa [lines] using none)
        intro line isLine
        obtain ⟨call, -, rfl⟩ := mem_map.mp isLine
        exact newline_not_mem_write _
      refine ⟨calls.map fun call => call.parsed.json, ?_, ?_⟩
      · rw [split]
        refine mapM_map_eq_some fun call _ => ?_
        have parses : python.parseText ([] ++ (call.parsed.json.write ++ [])) =
            some call.parsed.json := call.parseText_json (forall_mem_nil _)
        rwa [nil_append, append_nil] at parses
      · rw [flatMap_map]
        exact (map_eq_flatMap).symm
  obtain ⟨values, areValues, areCalls⟩ := values
  rw [written, MistralAgentTemplate.getToolcall, found]
  dsimp only
  rw [isStripped, areValues]
  change (functionsOf (values.flatMap callsOf)).bind _ = _
  rw [areCalls, functionsOf_json, Option.bind_some, orReact_stripped]
  rintro rfl
  rfl

end Mistral

/-! ## DeepSeek V3.1 -/

section DeepSeek

open DeepSeekV31AgentTemplate

theorem matchCall_eq_none {text : Text} (notHere : callBegin.isPrefixOf text = false) :
    matchCall text = none := by
  rw [matchCall, tagged, notHere]
  rfl

/-- A tag that only begins like the one of a call is passed. -/
theorem findMatches_passed {first : Char} {tag : Text}
    (notHere : ∀ rest, callBegin.isPrefixOf (first :: (tag ++ rest)) = false) (free : '<' ∉ tag)
    (rest : Text) :
    findMatches matchCall 0 (first :: tag ++ rest) = findMatches matchCall 0 rest := by
  rw [cons_append, findMatches, matchCall_eq_none (notHere rest)]
  refine findMatches_skip fun char isIn more => matchCall_eq_none ?_
  have notHead : callBegin.head? ≠ some char := by
    intro isHead
    cases isHead
    exact free isIn
  exact Bool.eq_false_iff.mpr (isPrefixOf_cons_eq_false (by decide) notHead more)

theorem getToolcall_deepSeekV31 {calls : List (ToolCall python)}
    (free : ∀ call ∈ calls, call.Free [separator, callEnd]) :
    DeepSeekV31AgentTemplate.getToolcall python
        (DeepSeekV31AgentTemplate.formatToolCalls python (calls.map ToolCall.parsed)) =
      some (calls.map ToolCall.stripped) := by
  let piece := fun call : ToolCall python =>
    callBegin ++ (call.name ++ (separator ++ ((Json.object call.arguments).write ++ callEnd)))
  let found := fun call : ToolCall python => (call.name, (Json.object call.arguments).write)
  have written : DeepSeekV31AgentTemplate.formatToolCalls python (calls.map ToolCall.parsed) =
      callsBegin ++ ([].intercalate (calls.map piece) ++ callsEnd) := by
    rw [DeepSeekV31AgentTemplate.formatToolCalls, map_map]
    rfl
  have isMatch : ∀ call ∈ calls, ∀ rest, matchCall (piece call ++ rest) =
      some (found call, rest) := by
    intro call isCall rest
    have notName : ¬ separator <:+: call.name :=
      free call isCall separator (by simp) call.name mem_cons_self
    have notArguments : ¬ callEnd <:+: (Json.object call.arguments).write := by
      intro isInfix
      obtain ⟨text, isText, isInfix⟩ :=
        infix_of_infix_render (by decide) quotes_jsonStyle isInfix
      exact free call isCall callEnd (by simp) text (mem_cons_of_mem _ isText) isInfix
    have isPiece : piece call ++ rest = callBegin ++ (call.name ++ (separator ++
        ((Json.object call.arguments).write ++ (callEnd ++ rest)))) := by
      simp only [piece, append_assoc]
    rw [isPiece, matchCall, tagged_append (by decide) (by decide) notName, Option.bind_eq_bind,
      Option.bind_some, splitFirst_append (by decide) (by decide) notArguments]
    rfl
  have matched : findMatches matchCall 0
      (callsBegin ++ ([].intercalate (calls.map piece) ++ callsEnd)) = calls.map found := by
    have atBegin : findMatches matchCall 0
        (callsBegin ++ ([].intercalate (calls.map piece) ++ callsEnd)) =
        findMatches matchCall 0 ([].intercalate (calls.map piece) ++ callsEnd) :=
      findMatches_passed (fun _ => rfl) (by decide) _
    have atEnd : findMatches matchCall 0 (callsEnd ++ []) = findMatches matchCall 0 [] :=
      findMatches_passed (fun _ => rfl) (by decide) _
    rw [atBegin]
    refine findMatches_intercalate nofun ?_ isMatch ?_
    · exact fun call _ => append_ne_nil_of_left_ne_nil (by decide) _
    · rwa [append_nil] at atEnd
  have functions : (calls.map found).mapM (DeepSeekV31AgentTemplate.functionOf python) =
      some (calls.map fun call => some call.stripped) := by
    refine mapM_map_eq_some fun call _ => ?_
    have parses : python.parseText (strip isBlank (Json.object call.arguments).write) =
        some (.object call.arguments) := by
      rw [strip_write_object, parseText_write call.valid]
    rw [DeepSeekV31AgentTemplate.functionOf, parses]
    change (Function.of (.string (strip isBlank call.name)) (.object call.arguments)).map some = _
    rw [Function.of, Option.map_some, Function.ofTexts, strip_strip, strip_write_object]
    · rfl
    · exact nofun
  rw [written, DeepSeekV31AgentTemplate.getToolcall, matched, functions]
  change some (orReact (calls.map fun call => some call.stripped).reduceOption _) = _
  rw [reduceOption_map_some, orReact_stripped]
  rintro rfl
  rfl

end DeepSeek

theorem getToolcall_formatToolCalls_hermes {messages : List Json} {calls : List (ToolCall python)}
    (parses : messages.mapM python.parseToolCall = some (calls.map ToolCall.parsed))
    (free : ∀ call ∈ calls, call.Free JsonTemplate.hermes.delimiters) :
    (JsonTemplate.hermes.formatToolCalls python messages).bind
        (JsonTemplate.hermes.getToolcall python) = some (calls.map ToolCall.stripped) := by
  have newline : ∀ char ∈ ['\n'], isJsonSpace char = true := by decide
  have found := getToolcall_hermes newline newline free
  rw [JsonTemplate.formatToolCalls, parses, Option.map_some, Option.bind_some]
  change HermesAgentTemplate.getToolcall python (HermesAgentTemplate.formatToolCalls _) = _
  rw [HermesAgentTemplate.formatToolCalls, map_map]
  exact found

/-- **Each template finds the tool calls that it has written**, with names that are stripped. -/
theorem getToolcall_formatToolCalls (template : JsonTemplate) {messages : List Json}
    {calls : List (ToolCall python)}
    (parses : messages.mapM python.parseToolCall = some (calls.map ToolCall.parsed))
    (free : ∀ call ∈ calls, call.Free template.delimiters) :
    (template.formatToolCalls python messages).bind (template.getToolcall python) =
      some (calls.map ToolCall.stripped) := by
  cases template with
  | hermes => exact getToolcall_formatToolCalls_hermes parses free
  | youtu =>
    have nothing : ∀ char ∈ ([] : Text), isJsonSpace char = true := nofun
    have found := getToolcall_hermes nothing nothing free
    simp only [nil_append, append_nil] at found
    rw [JsonTemplate.formatToolCalls, parses, Option.map_some, Option.bind_some]
    change HermesAgentTemplate.getToolcall python (YoutuAgentTemplate.formatToolCalls _) = _
    rw [YoutuAgentTemplate.formatToolCalls, map_map]
    exact found
  | mistral =>
    rw [JsonTemplate.formatToolCalls, parses, Option.map_some, Option.bind_some]
    exact getToolcall_mistral free
  | deepSeekV31 =>
    rw [JsonTemplate.formatToolCalls, parses, Option.map_some, Option.bind_some]
    refine getToolcall_deepSeekV31 fun call isCall tag isTag => free call isCall tag ?_
    exact mem_append_right [DeepSeekV31AgentTemplate.callsBegin,
      DeepSeekV31AgentTemplate.callsEnd, DeepSeekV31AgentTemplate.callBegin] isTag

/-! ## A run -/

/-- An interpreter that keeps numbers as they are and knows no literals besides JSON. -/
def plainInterpreter : Interpreter where
  number literal := literal
  isPrintable char := 0x20 ≤ char.toNat
  literalEval _ := .malformed
  literalEval_nil := rfl
  length_literalEval := nofun
  braces_literalEval := nofun

def blankCall : ToolCall plainInterpreter where
  name := " f".toList
  arguments := [("a".toList, .string "b".toList)]
  valid := .object _ (by decide) (forall_mem_singleton.mpr (.string _))

def blankMessage : Json := blankCall.parsed.json

theorem parseToolCall_blankMessage :
    [blankMessage].mapM plainInterpreter.parseToolCall =
      some ([blankCall].map ToolCall.parsed) := rfl

theorem free_blankCall :
    ∀ call ∈ [blankCall], call.Free JsonTemplate.hermes.delimiters := by
  decide

theorem getToolcall_formatToolCalls_blank :
    (JsonTemplate.hermes.formatToolCalls plainInterpreter [blankMessage]).bind
      (JsonTemplate.hermes.getToolcall plainInterpreter) =
        some ([blankCall].map ToolCall.stripped) :=
  getToolcall_formatToolCalls .hermes parseToolCall_blankMessage free_blankCall

/-- The name that is found has lost its blank. -/
theorem getToolcall_formatToolCalls_ne :
    [blankMessage].mapM plainInterpreter.parseToolCall =
        some ([blankCall].map ToolCall.parsed) ∧
      (∀ call ∈ [blankCall], call.Free JsonTemplate.hermes.delimiters) ∧
      (JsonTemplate.hermes.formatToolCalls plainInterpreter [blankMessage]).bind
        (JsonTemplate.hermes.getToolcall plainInterpreter) ≠
          some ([blankCall].map ToolCall.function) := by
  refine ⟨parseToolCall_blankMessage, free_blankCall, ?_⟩
  rw [getToolcall_formatToolCalls_hermes parseToolCall_blankMessage free_blankCall]
  intro same
  have names := congrArg (Option.map (List.map Function.name)) same
  exact absurd names (by decide)

end Calls

end Geobench.AgentTemplate
