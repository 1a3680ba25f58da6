import Geobench.AgentTemplate.JsonTags

/-!
# Action inputs

The ReAct templates write the name and the arguments of a tool call behind keywords, the template
of ChatGLM4 writes them on lines of their own. Both put the arguments into the text as `str` writes
them, which is no JSON: strings are between single quotes, unless they have one.

**`inputsSurvive_iff`**: the inputs are JSON of the arguments and the tool calls are found again,
exactly where `repr` writes each string like JSON, there is no other word than a number, and names
and strings have no newlines and tags that stand between the parts.
-/

namespace Geobench.AgentTemplate

open Library List

/-! ## The templates -/

/-- `_format_tool_calls` of `ReactCompatMixin` -/
def reactFormatToolCalls (python : Interpreter) (calls : List ParsedCall) : Text :=
  (calls.flatMap fun call =>
    actionKeyword ++ (' ' :: (python.str call.name ++ '\n' ::
      (actionInputKeyword ++ (' ' :: (python.str call.arguments ++ ['\n'])))))) ++
    observationKeyword

namespace ChatGLM4AgentTemplate

def assistant : Text := "<|assistant|>".toList
def observation : Text := "<|observation|>".toList

def isNameChar (char : Char) : Bool := char ≠ '\n' && char ≠ '`'

section Pattern

variable (isWord : Char → Bool)

/-- Whether nothing follows, or a word and a newline. -/
def endsCall (rest : Text) : Bool :=
  rest = [] || (rest.dropWhile fun char => isWord char && char ≠ '\n').head? = some '\n'

/-- The shortest text up to a brace at which a call may end. -/
def closingBrace : Text → Option Text
  | [] => none
  | char :: rest =>
    if char = '\x7d' ∧ endsCall isWord rest = true then some ['\x7d']
    else (closingBrace rest).map (char :: ·)

def matchCall (text : Text) : Option (Text × Text) :=
  match text.dropWhile isNameChar with
  | '\n' :: '\x7b' :: rest =>
    (closingBrace isWord rest).map fun inner => (text.takeWhile isNameChar, '\x7b' :: inner)
  | _ => none

/-- The first match in a text. -/
def findCall : Text → Option (Text × Text)
  | [] => none
  | char :: rest => (matchCall isWord (char :: rest)).or (findCall rest)

/-- `_find_function_call` -/
def findFunctionCall (singleContent : Text) : Option Function :=
  (findCall isWord (replaceFrom observation [] 0 singleContent)).map fun found =>
    .ofTexts found.1 found.2

def getToolcall (response : Text) : List Function :=
  orReact ((partsBetween assistant 0 response).filterMap (findFunctionCall isWord)) response

end Pattern

/-- The lines of a tool call. -/
def callText (python : Interpreter) (call : ParsedCall) : Text :=
  python.str call.name ++ '\n' :: python.str call.arguments

def formatToolCalls (python : Interpreter) (calls : List ParsedCall) : Text :=
  assistant.intercalate (calls.map (callText python)) ++ observation

end ChatGLM4AgentTemplate

/-- The templates that write arguments with `str`. -/
inductive ActionTemplate where
  | react
  | chatGLM4
  deriving DecidableEq, Repr

namespace ActionTemplate

def getToolcall (isWord : Char → Bool) : ActionTemplate → Text → List Function
  | .react => reactToolcall
  | .chatGLM4 => ChatGLM4AgentTemplate.getToolcall isWord

/-- `_format_tool_calls`, which parses each message first. -/
def formatToolCalls (python : Interpreter) (template : ActionTemplate) (messages : List Json) :
    Option Text :=
  (messages.mapM python.parseToolCall).map fun calls =>
    match template with
    | .react => reactFormatToolCalls python calls
    | .chatGLM4 => ChatGLM4AgentTemplate.formatToolCalls python calls

end ActionTemplate

/-! ## The promise -/

section Promise

variable {python : Interpreter} (call : ToolCall python)

def ToolCall.actionInput : Text := python.str (.object call.arguments)

def ToolCall.written : Function := ⟨call.name, call.actionInput⟩

/-- Each action input is JSON of the arguments, and each template finds the names and inputs that it
has written. -/
def InputsSurvive (isWord : Char → Bool) (messages : List Json) (calls : List (ToolCall python)) :
    Prop :=
  (∀ call ∈ calls, loads call.actionInput.length call.actionInput =
    .ok (Json.object call.arguments).value) ∧
  ∀ template : ActionTemplate, (template.formatToolCalls python messages).map
    (template.getToolcall isWord) = some (calls.map ToolCall.written)

/-- What stands between the parts of a text. -/
def delimiters : List Text :=
  [actionKeyword, actionInputKeyword, observationKeyword, ChatGLM4AgentTemplate.assistant,
    ChatGLM4AgentTemplate.observation]

structure ToolCall.Survives : Prop where
  arguments : (Json.object call.arguments).leaves.all (readsRepr python.isPrintable) = true
  stripped : strip isBlank call.name = call.name
  name : ∀ char ∈ call.name, ChatGLM4AgentTemplate.isNameChar char = true
  free : call.Free delimiters

/-! ## Inputs -/

theorem ToolCall.loads_actionInput_iff :
    loads call.actionInput.length call.actionInput = .ok (Json.object call.arguments).value ↔
      (Json.object call.arguments).leaves.all (readsRepr python.isPrintable) = true := by
  have read := (reads_reprStyle python.isPrintable).loads_render
    (call.valid.mono fun _ isNumber => isNumber.1) (le_refl _)
  have isInput : call.actionInput =
      (Json.object call.arguments).render (reprStyle python.isPrintable) := rfl
  rw [isInput, read, scannedIf]
  cases (Json.object call.arguments).leaves.all (readsRepr python.isPrintable) with
  | false =>
    refine iff_of_false (fun isRead => ?_) (fun isTrue => ?_)
    · cases isRead
    · cases isTrue
  | true => exact iff_of_true rfl rfl

theorem ToolCall.strip_actionInput : strip isBlank call.actionInput = call.actionInput :=
  strip_render_object _ call.arguments

/-- A delimiter in a string is in the input, where the input is JSON. -/
theorem ToolCall.infix_actionInput {tag : Text} (isTag : tag ∈ delimiters)
    (reads : (Json.object call.arguments).leaves.all (readsRepr python.isPrintable) = true)
    {text : Text} (isText : text ∈ (Json.object call.arguments).strings) (isInfix : tag <:+: text) :
    tag <:+: call.actionInput := by
  obtain ⟨isLeaf, isPart⟩ :=
    leaf_and_infix_of_mem_strings (reprStyle python.isPrintable) isText
  have readsText := all_eq_true.mp reads _ isLeaf
  rw [readsRepr, Bool.and_eq_true, decide_eq_true_eq] at readsText
  refine List.IsInfix.trans ?_ isPart
  obtain ⟨before, after, rfl⟩ := isInfix
  have plain : ∀ tag ∈ delimiters, ∀ char ∈ tag, char.toNat < 0x100 ∧
      char ∉ ['\\', '\n', '\r', '\t', '"'] := by
    decide
  have kept : tag.flatMap (reprChar python.isPrintable '"') = tag := by
    have alone : ∀ char ∈ tag, reprChar python.isPrintable '"' char = [char] := by
      intro char isChar
      obtain ⟨isShort, noEscape⟩ := plain tag isTag char isChar
      simp only [mem_cons, not_mem_nil, or_false, not_or] at noEscape
      have readsChar := all_eq_true.mp readsText.2 char (by simp [isChar])
      have isPlain : ['\\', '\n', '\r', '\t'].contains char = false := by simp [noEscape]
      rw [readsReprChar, isPlain, Bool.false_or] at readsChar
      split at readsChar
      · rename_i printable
        simp [reprChar, noEscape, printable]
      · rw [decide_eq_true_eq] at readsChar
        omega
    rw [flatMap_congr alone, flatMap_singleton']
  change tag <:+: reprString python.isPrintable (before ++ tag ++ after)
  rw [reprString, if_pos readsText.1]
  refine ⟨'"' :: before.flatMap (reprChar python.isPrintable '"'),
    after.flatMap (reprChar python.isPrintable '"') ++ ['"'], ?_⟩
  simp [kept]

theorem ToolCall.Survives.input_free (survives : call.Survives) :
    ∀ tag ∈ delimiters, ¬ tag <:+: call.actionInput := by
  intro tag isTag isInfix
  have marker : ∀ tag ∈ delimiters, Marker tag := by decide
  obtain ⟨text, isText, isIn⟩ := infix_of_infix_render (marker tag isTag)
    (quotes_reprStyle python.isPrintable) isInfix
  exact survives.free tag isTag text (mem_cons_of_mem _ isText) isIn

end Promise

/-! ## Behind keywords -/

section Keywords

variable {keywords : List Text}

/-- Nothing is found in what has no keyword, up to a character that no keyword has behind its
first. -/
theorem splitKeywords_append {before : Text} {cut : Char}
    (free : ∀ keyword ∈ keywords, ¬ keyword <:+: before)
    (tails : ∀ keyword ∈ keywords, cut ∉ keyword.tail) (more : Text) :
    splitKeywords keywords 0 (before ++ cut :: more) =
      (before ++ (splitKeywords keywords 0 (cut :: more)).1,
        (splitKeywords keywords 0 (cut :: more)).2) := by
  induction before with
  | nil => rfl
  | cons char before ih =>
    have notFound : keywords.find? (fun keyword =>
        keyword.isPrefixOf (char :: (before ++ cut :: more))) = none := by
      rw [find?_eq_none]
      intro keyword isKeyword begins
      have absent := free keyword isKeyword
      cases keyword with
      | nil => exact absent nil_infix
      | cons first others =>
        rw [List.isPrefixOf_iff_prefix, cons_prefix_cons] at begins
        have isPrefix := prefix_of_prefix_append_cons (tails _ isKeyword) begins.2
        exact absent ((cons_prefix_cons.mpr ⟨begins.1, isPrefix⟩).isInfix)
    rw [cons_append, splitKeywords, notFound, ih fun keyword isKeyword isInfix =>
      free keyword isKeyword (isInfix.trans (suffix_cons _ _).isInfix)]
    rfl

theorem splitKeywords_drop (dropped rest : Text) :
    splitKeywords keywords dropped.length (dropped ++ rest) = splitKeywords keywords 0 rest := by
  induction dropped with
  | nil => rfl
  | cons char dropped ih => exact ih

end Keywords

def reactKeywords : List Text := [actionKeyword, actionInputKeyword, observationKeyword]

theorem splitKeywords_react {keyword : Text} (isKeyword : keyword ∈ reactKeywords) (rest : Text) :
    splitKeywords reactKeywords 0 (keyword ++ rest) =
      ([], (keyword, (splitKeywords reactKeywords 0 rest).1) ::
        (splitKeywords reactKeywords 0 rest).2) := by
  have dropped := @splitKeywords_drop reactKeywords keyword.tail rest
  simp only [reactKeywords, mem_cons, not_mem_nil, or_false] at isKeyword
  rcases isKeyword with rfl | rfl | rfl <;>
    exact congrArg (fun split : Text × List (Text × Text) => ([], (_, split.1) :: split.2)) dropped

theorem splitKeywords_line {line : Text} (free : ∀ keyword ∈ reactKeywords, ¬ keyword <:+: line)
    (more : Text) :
    splitKeywords reactKeywords 0 (' ' :: (line ++ '\n' :: more)) =
      (' ' :: (line ++ '\n' :: (splitKeywords reactKeywords 0 more).1),
        (splitKeywords reactKeywords 0 more).2) := by
  have tails : ∀ keyword ∈ reactKeywords, '\n' ∉ keyword.tail := by decide
  have noSpace : splitKeywords reactKeywords 0 (' ' :: (line ++ '\n' :: more)) =
      (' ' :: (splitKeywords reactKeywords 0 (line ++ '\n' :: more)).1,
        (splitKeywords reactKeywords 0 (line ++ '\n' :: more)).2) := rfl
  rw [noSpace, splitKeywords_append free tails]
  rfl

section Calls

variable {python : Interpreter} {calls : List (ToolCall python)}

/-- The keywords of calls, with what follows each. -/
def reactParts (calls : List (ToolCall python)) : List (Text × Text) :=
  (calls.flatMap fun call => [(actionKeyword, ' ' :: (call.name ++ ['\n'])),
    (actionInputKeyword, ' ' :: (call.actionInput ++ ['\n']))]) ++ [(observationKeyword, [])]

variable (survive : ∀ call ∈ calls, call.Survives)
include survive

theorem splitKeywords_format :
    splitKeywords reactKeywords 0 (reactFormatToolCalls python (calls.map ToolCall.parsed)) =
      ([], reactParts calls) := by
  have keywords : ∀ keyword ∈ reactKeywords, keyword ∈ delimiters := by decide
  induction calls with
  | nil => rfl
  | cons call calls ih =>
    rw [forall_mem_cons] at survive
    have written : reactFormatToolCalls python ((call :: calls).map ToolCall.parsed) =
        actionKeyword ++ (' ' :: (call.name ++ '\n' :: (actionInputKeyword ++
          (' ' :: (call.actionInput ++ '\n' ::
            reactFormatToolCalls python (calls.map ToolCall.parsed)))))) := by
      simp [reactFormatToolCalls, ToolCall.parsed, ToolCall.actionInput, Interpreter.str]
    have freeName : ∀ keyword ∈ reactKeywords, ¬ keyword <:+: call.name :=
      fun keyword isKeyword =>
        survive.1.free keyword (keywords keyword isKeyword) _ mem_cons_self
    have freeInput : ∀ keyword ∈ reactKeywords, ¬ keyword <:+: call.actionInput :=
      fun keyword isKeyword => survive.1.input_free call keyword (keywords keyword isKeyword)
    rw [written, splitKeywords_react (by decide), splitKeywords_line freeName,
      splitKeywords_react (by decide), splitKeywords_line freeInput, ih survive.2]
    simp [reactParts]

theorem actionFunctions_reactParts :
    actionFunctions none (reactParts calls) = calls.map ToolCall.written := by
  induction calls with
  | nil => rfl
  | cons call calls ih =>
    rw [forall_mem_cons] at survive
    have blank : ∀ char ∈ [' '], isBlank char = true := by decide
    have newline : ∀ char ∈ ['\n'], isBlank char = true := by decide
    have name := strip_append isBlank call.name blank newline
    have input := strip_append isBlank call.actionInput blank newline
    rw [survive.1.stripped] at name
    rw [call.strip_actionInput] at input
    have function : Function.ofTexts (' ' :: (call.name ++ ['\n']))
        (' ' :: (call.actionInput ++ ['\n'])) = call.written :=
      congrArg₂ Function.mk name input
    change Function.ofTexts _ _ :: actionFunctions none (reactParts calls) = _
    rw [function, ih survive.2, map_cons]

theorem reactToolcall_format :
    reactToolcall (reactFormatToolCalls python (calls.map ToolCall.parsed)) =
      calls.map ToolCall.written := by
  rw [reactToolcall, splitStrPartsBy, ← reactKeywords, splitKeywords_format survive]
  exact actionFunctions_reactParts survive

end Calls

theorem actionFunctions_stripped {action : Option Text} {parts : List (Text × Text)} :
    ∀ function ∈ actionFunctions action parts, strip isBlank function.name = function.name := by
  fun_induction actionFunctions action parts with
  | case1 action => exact fun function isFound => absurd isFound not_mem_nil
  | case2 key content parts ih => exact ih
  | case3 action content parts ih => exact forall_mem_cons.mpr ⟨strip_strip _ _, ih⟩
  | case4 action key content parts notInput ih => exact ih

/-- What is found behind keywords has none, and its names are stripped. -/
theorem of_mem_reactToolcall {response : Text} {function : Function}
    (isFound : function ∈ reactToolcall response) :
    strip isBlank function.name = function.name ∧
      ∀ keyword ∈ reactKeywords,
        ¬ keyword <:+: function.name ∧ ¬ keyword <:+: function.arguments := by
  refine ⟨actionFunctions_stripped function isFound, fun keyword isKeyword => ?_⟩
  have some : ∀ keyword ∈ reactKeywords, keyword ≠ [] := by decide
  have closed : ∀ content ∈ (none : Option Text), ¬ keyword <:+: content :=
    fun content isContent => absurd isContent (Option.not_mem_none content)
  exact actionFunctions_free closed
    (splitStrPartsBy_free isKeyword (some keyword isKeyword) response) function isFound

/-! ## Between tags -/

section ChatGLM4

open ChatGLM4AgentTemplate

variable (isWord : Char → Bool)

/-- The functions in a text, without those behind keywords. -/
def functionsIn (text : Text) : List Function :=
  (partsBetween assistant 0 text).filterMap (findFunctionCall isWord)

def Function.size (function : Function) : ℕ :=
  function.name.length + 1 + function.arguments.length

variable {isWord}

variable {text : Text}

theorem length_closingBrace_le {inner : Text} (isInner : closingBrace isWord text = some inner) :
    inner.length ≤ text.length := by
  induction text generalizing inner with
  | nil => cases isInner
  | cons char rest ih =>
    rw [closingBrace] at isInner
    split at isInner
    · cases isInner
      simp
    · obtain ⟨others, isOthers, rfl⟩ := Option.map_eq_some_iff.mp isInner
      exact Nat.succ_le_succ (ih isOthers)

theorem of_matchCall {found : Text × Text} (isMatch : matchCall isWord text = some found) :
    found.1.length + 1 + found.2.length ≤ text.length ∧
      ∀ char ∈ found.1, isNameChar char = true := by
  unfold matchCall at isMatch
  split at isMatch
  · rename_i rest isRest
    obtain ⟨inner, isInner, rfl⟩ := Option.map_eq_some_iff.mp isMatch
    have length := length_closingBrace_le isInner
    have whole := congrArg List.length (takeWhile_append_dropWhile (p := isNameChar) (l := text))
    rw [isRest, length_append, length_cons, length_cons] at whole
    refine ⟨?_, fun char isChar => mem_takeWhile_imp isChar⟩
    change (text.takeWhile isNameChar).length + 1 + (inner.length + 1) ≤ text.length
    omega
  · cases isMatch

theorem of_findCall {found : Text × Text} (isFound : findCall isWord text = some found) :
    found.1.length + 1 + found.2.length ≤ text.length ∧
      ∀ char ∈ found.1, isNameChar char = true := by
  induction text with
  | nil => cases isFound
  | cons char rest ih =>
    rw [findCall, Option.or_eq_some_iff] at isFound
    rcases isFound with isMatch | ⟨-, isFound⟩
    · exact of_matchCall isMatch
    · exact ⟨(ih isFound).1.trans (Nat.le_succ _), (ih isFound).2⟩

theorem of_findFunctionCall {piece : Text} {function : Function}
    (isFound : findFunctionCall isWord piece = some function) :
    function.size ≤ (partsBetween observation 0 piece).flatten.length ∧
      ∀ char ∈ function.name, isNameChar char = true := by
  obtain ⟨found, isCall, rfl⟩ := Option.map_eq_some_iff.mp isFound
  obtain ⟨length, name⟩ := of_findCall isCall
  rw [replaceFrom_nil] at length
  have nameLength := length_strip_le isBlank found.1
  have argumentsLength := length_strip_le isBlank found.2
  refine ⟨?_, fun char isChar => name char ((strip_sublist isBlank found.1).subset isChar)⟩
  rw [Function.size, Function.ofTexts]
  dsimp only
  omega

theorem size_findFunctionCall_le {piece : Text} {function : Function}
    (isFound : findFunctionCall isWord piece = some function) : function.size ≤ piece.length :=
  (of_findFunctionCall isFound).1.trans (length_flatten_partsBetween (by decide) 0 piece).1

theorem size_filterMap_le (parts : List Text) :
    ((parts.filterMap (findFunctionCall isWord)).map Function.size).sum ≤ parts.flatten.length := by
  induction parts with
  | nil => exact Nat.zero_le _
  | cons part parts ih =>
    rw [flatten_cons, length_append]
    cases isFound : findFunctionCall isWord part with
    | none =>
      rw [filterMap_cons_none isFound]
      omega
    | some function =>
      have size := size_findFunctionCall_le isFound
      rw [filterMap_cons_some isFound, map_cons, sum_cons]
      omega

theorem size_functionsIn (text : Text) :
    ((functionsIn isWord text).map Function.size).sum ≤ text.length ∧
      (assistant <:+: text ∨ observation <:+: text →
        ((functionsIn isWord text).map Function.size).sum < text.length) := by
  have size := @size_filterMap_le isWord (partsBetween assistant 0 text)
  have parts := @length_flatten_partsBetween _ _ assistant (by decide) 0 text
  refine ⟨size.trans parts.1, fun tagged => ?_⟩
  by_cases isInfix : assistant <:+: text
  · exact size.trans_lt (parts.2 rfl isInfix)
  · have removed := (@length_flatten_partsBetween _ _ observation (by decide) 0 text).2 rfl
      (tagged.resolve_left isInfix)
    rw [functionsIn, partsBetween_free isInfix]
    cases isFound : findFunctionCall isWord text with
    | none =>
      rw [filterMap_cons_none isFound]
      exact Nat.zero_lt_of_lt removed
    | some function =>
      rw [filterMap_cons_some isFound]
      simpa using (of_findFunctionCall isFound).1.trans_lt removed

theorem findFunctionCall_observation (text : Text) :
    findFunctionCall isWord (text ++ observation) = findFunctionCall isWord text := by
  have parts : partsBetween observation 0 (text ++ observation) =
      partsBetween observation 0 text ++ [[]] := by
    change partsBetween observation 0 (text ++ '<' :: "|observation|>".toList) = _
    rw [partsBetween_append (by decide) (by decide) (Nat.zero_le _)]
    exact glue_nil_cons (partsBetween_ne_nil _ _ _) [[]]
  rw [findFunctionCall, replaceFrom_nil, parts, flatten_append, findFunctionCall, replaceFrom_nil]
  simp

theorem functionsIn_observation (text : Text) :
    functionsIn isWord (text ++ observation) = functionsIn isWord text := by
  have glued (parts : List Text) (some : parts ≠ []) :
      (glue parts [observation]).filterMap (findFunctionCall isWord) =
        parts.filterMap (findFunctionCall isWord) := by
    induction parts with
    | nil => exact absurd rfl some
    | cons first parts ih =>
      cases parts with
      | nil => simp [glue, filterMap_cons, findFunctionCall_observation]
      | cons second parts =>
        rw [glue, filterMap_cons, filterMap_cons, ih (cons_ne_nil _ _)]
  have parts : partsBetween assistant 0 (text ++ observation) =
      glue (partsBetween assistant 0 text) [observation] := by
    change partsBetween assistant 0 (text ++ '<' :: "|observation|>".toList) = _
    rw [partsBetween_append (by decide) (by decide) (Nat.zero_le _)]
    rfl
  rw [functionsIn, parts, glued _ (partsBetween_ne_nil _ _ _), functionsIn]

theorem functionsIn_assistant (text rest : Text) :
    functionsIn isWord (text ++ (assistant ++ rest)) =
      functionsIn isWord text ++ functionsIn isWord rest := by
  change (partsBetween assistant 0 (text ++ '<' :: ("|assistant|>".toList ++ rest))).filterMap _ = _
  rw [partsBetween_append (by decide) (by decide) (Nat.zero_le _)]
  change (glue _ (partsBetween ('<' :: "|assistant|>".toList) 0 _)).filterMap _ = _
  rw [partsBetween_tag, glue_nil_cons (partsBetween_ne_nil _ _ _), filterMap_append]
  rfl

theorem functionsIn_format (texts : List Text) :
    functionsIn isWord (assistant.intercalate texts ++ observation) =
      texts.flatMap (functionsIn isWord) := by
  induction texts with
  | nil => rfl
  | cons text texts ih =>
    cases texts with
    | nil =>
      rw [intercalate_singleton, functionsIn_observation, flatMap_singleton]
    | cons second texts =>
      rw [intercalate_cons_cons, append_assoc, append_assoc, functionsIn_assistant, ih]
      rfl

/-- An action keyword in what is written is in the text of a call. -/
theorem exists_of_infix_format {texts : List Text}
    (isInfix : actionInputKeyword <:+: assistant.intercalate texts ++ observation) :
    ∃ text ∈ texts, actionInputKeyword <:+: text := by
  have noTag : '<' ∉ actionInputKeyword := by decide
  have noEnd : ¬ actionInputKeyword <:+: "|observation|>".toList := by decide
  have noHead : ∀ char ∈ actionInputKeyword.head?, char ∉ "|assistant|>".toList := by decide
  induction texts with
  | nil => exact absurd isInfix (by decide)
  | cons text texts ih =>
    cases texts with
    | nil =>
      rw [intercalate_singleton] at isInfix
      change _ <:+: text ++ '<' :: "|observation|>".toList at isInfix
      rcases (infix_append_cons_iff noTag).mp isInfix with isInfix | isInfix
      · exact ⟨text, mem_cons_self, isInfix⟩
      · exact absurd isInfix noEnd
    | cons second texts =>
      rw [intercalate_cons_cons, append_assoc, append_assoc] at isInfix
      change _ <:+: text ++ '<' :: ("|assistant|>".toList ++ _) at isInfix
      rcases (infix_append_cons_iff noTag).mp isInfix with isInfix | isInfix
      · exact ⟨text, mem_cons_self, isInfix⟩
      · obtain ⟨other, isText, isInfix⟩ := ih (infix_of_infix_append noHead isInfix)
        exact ⟨other, mem_cons_of_mem _ isText, isInfix⟩

/-- The arguments of a call end with the text. -/
theorem closingBrace_concat {inner : Text} (noNewline : '\n' ∉ inner) :
    closingBrace isWord (inner ++ ['\x7d']) = some (inner ++ ['\x7d']) := by
  induction inner with
  | nil => rfl
  | cons char inner ih =>
    rw [mem_cons, not_or] at noNewline
    have goesOn : endsCall isWord (inner ++ ['\x7d']) = false := by
      rw [endsCall, Bool.or_eq_false_iff, decide_eq_false_iff_not, decide_eq_false_iff_not]
      refine ⟨by simp, fun isHead => ?_⟩
      have isIn := (dropWhile_sublist _).subset (mem_of_mem_head? isHead)
      rw [mem_append, mem_singleton] at isIn
      exact isIn.elim noNewline.2 (by decide)
    rw [cons_append, closingBrace, if_neg (by simp [goesOn]), ih noNewline.2]
    rfl

section Calls

variable {python : Interpreter} {call : ToolCall python} {calls : List (ToolCall python)}

theorem callText_parsed (call : ToolCall python) :
    callText python call.parsed = call.name ++ '\n' :: call.actionInput :=
  rfl

theorem infix_callText_iff {tag : Text} (isTag : tag ∈ delimiters) :
    tag <:+: callText python call.parsed ↔ tag <:+: call.name ∨ tag <:+: call.actionInput := by
  have noNewline : ∀ tag ∈ delimiters, '\n' ∉ tag := by decide
  exact infix_append_cons_iff (noNewline tag isTag)

theorem functionsIn_callText (survives : call.Survives) :
    functionsIn isWord (callText python call.parsed) = [call.written] := by
  have free {tag : Text} (isTag : tag ∈ delimiters) : ¬ tag <:+: callText python call.parsed := by
    rw [infix_callText_iff isTag]
    rintro (isInfix | isInfix)
    · exact survives.free tag isTag _ mem_cons_self isInfix
    · exact survives.input_free call tag isTag isInfix
  obtain ⟨inner, isInput, noNewline⟩ : ∃ inner,
      call.actionInput = '\x7b' :: (inner ++ ['\x7d']) ∧ '\n' ∉ inner := by
    refine ⟨_, render_object _ _, fun isIn => ?_⟩
    refine newline_not_mem_repr python.isPrintable (.object call.arguments) ?_
    rw [render_object]
    exact mem_cons_of_mem _ (mem_append_left _ isIn)
  have isMatch : matchCall isWord (callText python call.parsed) =
      some (call.name, call.actionInput) := by
    have rest : (callText python call.parsed).dropWhile isNameChar = '\n' :: call.actionInput := by
      rw [callText_parsed, dropWhile_append_of_pos survives.name]
      rfl
    have name : (callText python call.parsed).takeWhile isNameChar = call.name := by
      rw [callText_parsed, takeWhile_append_of_pos survives.name]
      simp [isNameChar]
    rw [matchCall, rest, isInput]
    change (closingBrace isWord (inner ++ ['\x7d'])).map _ = _
    rw [closingBrace_concat noNewline, Option.map_some, name]
  have isFound : findCall isWord (callText python call.parsed) =
      some (call.name, call.actionInput) := by
    obtain ⟨char, others, isText⟩ : ∃ char others, callText python call.parsed = char :: others :=
      exists_cons_of_ne_nil (by simp [callText])
    rw [isText] at isMatch ⊢
    rw [findCall, isMatch, Option.some_or]
  have function : findFunctionCall isWord (callText python call.parsed) = some call.written := by
    rw [findFunctionCall, replaceFrom_nil, partsBetween_free (free (by decide)), flatten_singleton,
      isFound, Option.map_some, Function.ofTexts, survives.stripped, call.strip_actionInput]
    rfl
  rw [functionsIn, partsBetween_free (free (by decide)), filterMap_cons_some function]
  rfl

/-- The functions in the texts of calls are smaller than the calls, unless no tag is in any. -/
theorem size_functionsIn_calls (calls : List (ToolCall python)) :
    ((calls.flatMap fun call => functionsIn isWord (callText python call.parsed)).map
        Function.size).sum ≤ ((calls.map ToolCall.written).map Function.size).sum ∧
      (((calls.flatMap fun call => functionsIn isWord (callText python call.parsed)).map
          Function.size).sum = ((calls.map ToolCall.written).map Function.size).sum →
        ∀ call ∈ calls, ¬ assistant <:+: callText python call.parsed ∧
          ¬ observation <:+: callText python call.parsed) := by
  induction calls with
  | nil => exact ⟨Nat.zero_le _, fun _ _ isCall => absurd isCall not_mem_nil⟩
  | cons call calls ih =>
    have size : call.written.size = (callText python call.parsed).length := by
      rw [callText_parsed, length_append, length_cons]
      exact Nat.add_right_comm _ _ _
    obtain ⟨small, smaller⟩ := @size_functionsIn isWord (callText python call.parsed)
    rw [flatMap_cons, map_append, List.sum_append, map_cons, map_cons,
      sum_cons, size, forall_mem_cons]
    refine ⟨Nat.add_le_add small ih.1, fun same => ⟨?_, ih.2 (by omega)⟩⟩
    rw [← not_or]
    intro tagged
    have less := smaller tagged
    omega

/-! ## All calls -/

theorem getToolcall_format (free : ∀ call ∈ calls, ¬ actionInputKeyword <:+: call.name ∧
      ¬ actionInputKeyword <:+: call.actionInput) :
    ChatGLM4AgentTemplate.getToolcall isWord
        (ChatGLM4AgentTemplate.formatToolCalls python (calls.map ToolCall.parsed)) =
      calls.flatMap fun call => functionsIn isWord (callText python call.parsed) := by
  have found := @functionsIn_format isWord (calls.map fun call => callText python call.parsed)
  have format : ChatGLM4AgentTemplate.formatToolCalls python (calls.map ToolCall.parsed) =
      assistant.intercalate (calls.map fun call => callText python call.parsed) ++ observation := by
    rw [ChatGLM4AgentTemplate.formatToolCalls, map_map]
    rfl
  have noKeyword : ¬ actionInputKeyword <:+:
      assistant.intercalate (calls.map fun call => callText python call.parsed) ++ observation := by
    intro isInfix
    obtain ⟨text, isText, isInfix⟩ := exists_of_infix_format isInfix
    obtain ⟨call, isCall, rfl⟩ := mem_map.mp isText
    exact ((infix_callText_iff (by decide)).mp isInfix).elim (free call isCall).1 (free call isCall).2
  rw [flatMap_map] at found
  rw [format, ChatGLM4AgentTemplate.getToolcall, orReact_of_free _ noKeyword, ← functionsIn, found]

/-- **The inputs are JSON and the tool calls are found again** exactly where each call survives. -/
theorem inputsSurvive_iff (isWord : Char → Bool) {messages : List Json}
    {calls : List (ToolCall python)}
    (parses : messages.mapM python.parseToolCall = some (calls.map ToolCall.parsed)) :
    InputsSurvive isWord messages calls ↔ ∀ call ∈ calls, call.Survives := by
  have react : (ActionTemplate.react.formatToolCalls python messages).map
      (ActionTemplate.react.getToolcall isWord) =
        some (reactToolcall (reactFormatToolCalls python (calls.map ToolCall.parsed))) := by
    rw [ActionTemplate.formatToolCalls, parses]
    rfl
  have chatGLM4 : (ActionTemplate.chatGLM4.formatToolCalls python messages).map
      (ActionTemplate.chatGLM4.getToolcall isWord) =
        some (ChatGLM4AgentTemplate.getToolcall isWord
          (ChatGLM4AgentTemplate.formatToolCalls python (calls.map ToolCall.parsed))) := by
    rw [ActionTemplate.formatToolCalls, parses]
    rfl
  constructor
  · rintro ⟨reads, found⟩
    have foundReact := found .react
    have foundGLM := found .chatGLM4
    rw [react, Option.some_inj] at foundReact
    rw [chatGLM4, Option.some_inj] at foundGLM
    have behind : ∀ call ∈ calls, strip isBlank call.name = call.name ∧ ∀ keyword ∈ reactKeywords,
        ¬ keyword <:+: call.name ∧ ¬ keyword <:+: call.actionInput := fun call isCall =>
      of_mem_reactToolcall (foundReact ▸ mem_map_of_mem (f := ToolCall.written) isCall)
    rw [getToolcall_format fun call isCall => (behind call isCall).2 _ (by decide)] at foundGLM
    have between := (@size_functionsIn_calls isWord python calls).2 (by rw [foundGLM])
    intro call isCall
    have readsAll := call.loads_actionInput_iff.mp (reads call isCall)
    have absent : ∀ tag ∈ delimiters, ¬ tag <:+: call.name ∧ ¬ tag <:+: call.actionInput := by
      intro tag isTag
      by_cases isKeyword : tag ∈ reactKeywords
      · exact (behind call isCall).2 tag isKeyword
      · rw [← not_or, ← infix_callText_iff isTag]
        have others : ∀ tag ∈ delimiters, tag ∉ reactKeywords →
            tag = assistant ∨ tag = observation := by
          decide
        rcases others tag isTag isKeyword with rfl | rfl
        · exact (between call isCall).1
        · exact (between call isCall).2
    refine ⟨readsAll, (behind call isCall).1, ?_, fun tag isTag text isText isInfix => ?_⟩
    · have isFound : call.written ∈ calls.flatMap fun call =>
          functionsIn isWord (callText python call.parsed) := by
        rw [foundGLM]
        exact mem_map_of_mem isCall
      obtain ⟨other, -, isFound⟩ := mem_flatMap.mp isFound
      obtain ⟨piece, -, isFound⟩ := mem_filterMap.mp isFound
      exact (of_findFunctionCall isFound).2
    · rcases mem_cons.mp isText with rfl | isText
      · exact (absent tag isTag).1 isInfix
      · exact (absent tag isTag).2 (call.infix_actionInput isTag readsAll isText isInfix)
  · intro survive
    refine ⟨fun call isCall => call.loads_actionInput_iff.mpr (survive call isCall).arguments,
      fun template => ?_⟩
    cases template with
    | react => rw [react, reactToolcall_format survive]
    | chatGLM4 =>
      have alone : ∀ call ∈ calls,
          functionsIn isWord (callText python call.parsed) = [call.written] :=
        fun call isCall => functionsIn_callText (survive call isCall)
      rw [chatGLM4, getToolcall_format, flatMap_congr alone]
      · exact congrArg some map_eq_flatMap.symm
      · exact fun call isCall =>
          ⟨(survive call isCall).free _ (by decide) _ mem_cons_self,
            (survive call isCall).input_free call _ (by decide)⟩

/-! ## A call with a string -/

def emptyCall : ToolCall plainInterpreter where
  name := "f".toList
  arguments := []
  valid := .object _ nodup_nil (fun _ isMember => absurd isMember not_mem_nil)

theorem valid_stringArgument :
    (Json.object [("a".toList, .string "b".toList)]).Valid plainInterpreter.IsNumber :=
  .object _ (nodup_singleton _) (forall_mem_singleton.mpr (.string _))

def stringCall : ToolCall plainInterpreter where
  name := "f".toList
  arguments := [("a".toList, .string "b".toList)]
  valid := valid_stringArgument

theorem inputsSurvive_iff_emptyCall :
    InputsSurvive Char.isAlphanum [emptyCall.parsed.json] [emptyCall] ↔
      ∀ call ∈ [emptyCall], call.Survives :=
  inputsSurvive_iff Char.isAlphanum rfl

/-- Python puts the string between single quotes. -/
theorem not_inputsSurvive_stringCall :
    stringCall.actionInput = "\x7b'a': 'b'\x7d".toList ∧
      ¬ InputsSurvive Char.isAlphanum [stringCall.parsed.json] [stringCall] := by
  refine ⟨by decide +kernel, fun survive => ?_⟩
  have unread : loads stringCall.actionInput.length stringCall.actionInput =
      .error .jsonDecodeError := rfl
  have read := survive.1 stringCall mem_cons_self
  rw [unread] at read
  cases read

end Calls

end ChatGLM4

end Geobench.AgentTemplate
