import Geobench.Library.JsonRoundTrip
import Mathlib.Data.List.ReduceOption

/-!
# Tool calls of an agent

The messages of an agent have tool calls, which its template writes as a text
(`_format_tool_calls`) and finds again in the text of a response (`get_toolcall`). A function is
what is found: a name, and its arguments as a text of JSON.

A template that finds nothing looks for actions and their inputs behind keywords
(`orReact_of_free`). What is found there has no keyword (`actionFunctions_free`).

Strings with half of a surrogate pair and the limit of the interpreter for recursions are left
out.
-/

namespace Geobench.AgentTemplate

open Library List

/-! ## Parsing texts -/

/-- What `ast.literal_eval` makes of a text: nothing, a value as `json.dumps` writes it, or a value
that it does not write. -/
inductive Literal where
  | malformed
  | value (value : Json)
  | unwritable

/-- What the interpreter decides: how it writes a number that it has read, which characters it
prints as they are, and which texts are Python literals. A literal is no empty text, a string is
shorter than its literal, and a brace of a value is in its literal or escaped there. -/
structure Interpreter where
  number : NumberLiteral → NumberLiteral
  isPrintable : Char → Bool
  literalEval : Text → Literal
  literalEval_nil : literalEval [] = .malformed
  length_literalEval : ∀ {text string : Text}, literalEval text = .value (.string string) →
    string.length < text.length
  braces_literalEval : ∀ {text : Text} {value : Json} {brace : Char}, isBrace brace →
    literalEval text = .value value → noBraceEscape text = true →
      value.write.count brace ≤ text.count brace

def textOf (points : CodePoints) : Option Text :=
  points.mapM fun code => if code.isValidChar then some (Char.ofNat code) else none

def numberOf (text : Text) : Option NumberLiteral :=
  match text with
  | [] => none
  | first :: rest =>
    if valid : isNumberStart first = true ∧ ∀ char ∈ rest, isNumberChar char = true then
      some ⟨first, rest, valid.1, valid.2⟩
    else none

mutual

def Interpreter.decoded (python : Interpreter) : JsonValue → Option Json
  | .null => some .null
  | .bool value => some (.bool value)
  | .number literal => (numberOf literal).map fun literal => .number (python.number literal)
  | .string points => (textOf points).map .string
  | .array items => (python.decodedItems items).map .array
  | .object members => (python.decodedMembers members).map .object

def Interpreter.decodedItems (python : Interpreter) : List JsonValue → Option (List Json)
  | [] => some []
  | item :: items => do
      let item ← python.decoded item
      let items ← python.decodedItems items
      some (item :: items)

def Interpreter.decodedMembers (python : Interpreter) :
    List (CodePoints × JsonValue) → Option (List (Text × Json))
  | [] => some []
  | (key, value) :: members => do
      let key ← textOf key
      let value ← python.decoded value
      let members ← python.decodedMembers members
      some ((key, value) :: members)

end

/-- `json.loads`, and `ast.literal_eval` where the text is no JSON. A text that is neither gives
`None`. The result is `none` where an exception is raised. -/
def Interpreter.parseText (python : Interpreter) (text : Text) : Option Json :=
  match loads text.length text with
  | .ok value => python.decoded value
  | .error .jsonDecodeError =>
    match python.literalEval text with
    | .malformed => some .null
    | .value value => some value
    | .unwritable => none
  | .error _ => none

/-- `_parse_json`, which returns anything but a text as it is. -/
def Interpreter.parseJson (python : Interpreter) : Json → Option Json
  | .string text => python.parseText text
  | value => some value

/-- `str(value)` -/
def Interpreter.str (python : Interpreter) : Json → Text
  | .string text => text
  | value => value.render (reprStyle python.isPrintable)

def nameKey : Text := "name".toList
def argumentsKey : Text := "arguments".toList
def parametersKey : Text := "parameters".toList

/-- What `_parse_tool_call` returns. -/
structure ParsedCall where
  name : Json
  arguments : Json

/-- The arguments of a tool call, which some name parameters. -/
def argumentsOf (members : List (Text × Json)) : Json :=
  match members.lookup argumentsKey with
  | none | some .null => (members.lookup parametersKey).getD .null
  | some arguments => arguments

/-- `_parse_tool_call` -/
def Interpreter.parseToolCall (python : Interpreter) (content : Json) : Option ParsedCall :=
  match python.parseJson content with
  | some (.object members) => do
      let name ← members.lookup nameKey
      match python.parseJson (argumentsOf members) with
      | none | some .null => none
      | some arguments => some ⟨name, arguments⟩
  | _ => none

/-! ## Functions -/

structure Function where
  name : Text
  arguments : Text
  deriving DecidableEq

def Function.ofTexts (name arguments : Text) : Function :=
  ⟨strip isBlank name, strip isBlank arguments⟩

/-- `Function(name=name, arguments=arguments)`, which raises where the name is no text. -/
def Function.of (name arguments : Json) : Option Function :=
  match name, arguments with
  | .string name, .string arguments => some (.ofTexts name arguments)
  | .string name, arguments => some (.ofTexts name arguments.write)
  | _, _ => none

theorem reduceOption_map_some {ι α : Type} (value : ι → α) (items : List ι) :
    (items.map fun item => some (value item)).reduceOption = items.map value := by
  induction items with
  | nil => rfl
  | cons item items ih => rw [map_cons, reduceOption_cons_of_some, ih, map_cons]

/-! ## Actions behind keywords -/

def actionKeyword : Text := "Action:".toList
def actionInputKeyword : Text := "Action Input:".toList
def observationKeyword : Text := "Observation:".toList

/-- What is before the first keyword, and the keywords with what follows each of them. The number
counts the characters of a keyword that are still to be passed. -/
def splitKeywords (keywords : List Text) : ℕ → Text → Text × List (Text × Text)
  | _, [] => ([], [])
  | passed + 1, _ :: rest => splitKeywords keywords passed rest
  | 0, char :: rest =>
    match keywords.find? fun keyword => keyword.isPrefixOf (char :: rest) with
    | some keyword =>
      let split := splitKeywords keywords (keyword.length - 1) rest
      ([], (keyword, split.1) :: split.2)
    | none =>
      let split := splitKeywords keywords 0 rest
      (char :: split.1, split.2)

/-- `split_str_parts_by`. What is before the first keyword has none. -/
def splitStrPartsBy (text : Text) (keywords : List Text) : List (Text × Text) :=
  let split := splitKeywords keywords 0 text
  if split.1 = [] then split.2 else ([], split.1) :: split.2

/-- The functions of parts, where an action may be open. -/
def actionFunctions : Option Text → List (Text × Text) → List Function
  | _, [] => []
  | none, (key, content) :: parts =>
    actionFunctions (if key = actionKeyword then some content else none) parts
  | some action, (key, content) :: parts =>
    if key = actionInputKeyword then .ofTexts action content :: actionFunctions none parts
    else actionFunctions (some action) parts

/-- `ReactCompatMixin.get_toolcall` -/
def reactToolcall (response : Text) : List Function :=
  actionFunctions none
    (splitStrPartsBy response [actionKeyword, actionInputKeyword, observationKeyword])

/-- The functions of a template, or those behind keywords where it has found none. -/
def orReact (functions : List Function) (response : Text) : List Function :=
  if functions = [] then reactToolcall response else functions

example : reactToolcall "Thought: x\nAction: f\nAction Input: 1\nObservation:".toList =
    [⟨"f".toList, "1".toList⟩] := by
  decide

/-! ## Values that are written and parsed -/

def Interpreter.IsNumber (python : Interpreter) (literal : NumberLiteral) : Prop :=
  Library.IsNumber literal ∧ python.number literal = literal

theorem textOf_codes (text : Text) : textOf (codes text) = some text := by
  induction text with
  | nil => rfl
  | cons char text ih =>
    have valid : char.toNat.isValidChar := char.valid
    rw [codes, map_cons, textOf, mapM_cons, if_pos valid, ← textOf, ← codes, ih, Char.ofNat_toNat]
    rfl

theorem numberOf_text (literal : NumberLiteral) : numberOf literal.text = some literal :=
  dif_pos ⟨literal.starts, literal.chars⟩

/-- A tool call with an object as its arguments. -/
structure ToolCall (python : Interpreter) where
  name : Text
  arguments : List (Text × Json)
  valid : (Json.object arguments).Valid python.IsNumber

namespace ToolCall

variable {python : Interpreter} (call : ToolCall python)

/-- What `_parse_tool_call` returns for it. -/
def parsed : ParsedCall := ⟨.string call.name, .object call.arguments⟩

/-- Its name and the strings of its arguments. -/
def strings : List Text := call.name :: (Json.object call.arguments).strings

def function : Function := ⟨call.name, (Json.object call.arguments).write⟩

/-- None of some tags is in one of its strings. -/
def Free (tags : List Text) : Prop := ∀ tag ∈ tags, ∀ text ∈ call.strings, ¬ tag <:+: text

instance (tags : List Text) : Decidable (call.Free tags) :=
  inferInstanceAs (Decidable (∀ tag ∈ tags, ∀ text ∈ call.strings, ¬ tag <:+: text))

end ToolCall

section Parsing

variable {python : Interpreter}

theorem decodedItems_map {items : List Json}
    (decodes : ∀ item ∈ items, python.decoded item.value = some item) :
    python.decodedItems (items.map Json.value) = some items := by
  induction items with
  | nil => rfl
  | cons item items ih =>
    rw [forall_mem_cons] at decodes
    rw [map_cons, Interpreter.decodedItems, decodes.1, ih decodes.2]
    rfl

theorem decodedMembers_map {members : List (Text × Json)}
    (decodes : ∀ member ∈ members, python.decoded member.2.value = some member.2) :
    python.decodedMembers (members.map memberValue) = some members := by
  induction members with
  | nil => rfl
  | cons member members ih =>
    rw [forall_mem_cons] at decodes
    rw [map_cons, memberValue, Interpreter.decodedMembers, textOf_codes, decodes.1, ih decodes.2]
    rfl

theorem decoded_value {value : Json} (valid : value.Valid python.IsNumber) :
    python.decoded value.value = some value := by
  induction valid with
  | null => rfl
  | bool value => rfl
  | number literal isNumber =>
    rw [Json.value, Interpreter.decoded, numberOf_text, Option.map_some, isNumber.2]
  | string text => rw [Json.value, Interpreter.decoded, textOf_codes, Option.map_some]
  | array items _ ih =>
    rw [Json.value, itemValues_eq_map, Interpreter.decoded, decodedItems_map ih, Option.map_some]
  | object members _ _ ih =>
    rw [Json.value, memberValues_eq_map, Interpreter.decoded, decodedMembers_map ih,
      Option.map_some]

theorem parseText_write {value : Json} (valid : value.Valid python.IsNumber) :
    python.parseText value.write = some value := by
  rw [Interpreter.parseText, loads_write (valid.mono fun _ isNumber => isNumber.1) (le_refl _)]
  exact decoded_value valid

/-- Spaces around an object do not matter. -/
theorem parseText_spaces {members : List (Text × Json)}
    (valid : (Json.object members).Valid python.IsNumber) {before after : Text}
    (spaces : ∀ char ∈ before ++ after, isJsonSpace char = true) :
    python.parseText (before ++ ((Json.object members).write ++ after)) =
      some (.object members) := by
  rw [Interpreter.parseText, loads_spaces (valid.mono fun _ isNumber => isNumber.1) spaces]
  · exact decoded_value valid
  · rw [length_append, length_append]
    omega

end Parsing

/-! ## What is found behind keywords -/

theorem infix_strip (isSpace : Char → Bool) (text : Text) : strip isSpace text <:+: text := by
  obtain ⟨before, after, -, -, isText⟩ := exists_of_strip isSpace text
  exact ⟨before, after, by rw [append_assoc, ← isText]⟩

section Keywords

variable {keywords : List Text} {keyword : Text}

theorem prefix_splitKeywords (passed : ℕ) (text : Text) :
    (splitKeywords keywords passed text).1 <+: text.drop passed := by
  fun_induction splitKeywords keywords passed text with
  | case1 passed => exact nil_prefix
  | case2 passed char rest ih => exact ih
  | case3 char rest keyword found split ih => exact nil_prefix
  | case4 char rest notFound split ih => exact (prefix_cons_inj char).mpr ih

theorem splitKeywords_free (isKeyword : keyword ∈ keywords) (some : keyword ≠ []) (passed : ℕ)
    (text : Text) : ¬ keyword <:+: (splitKeywords keywords passed text).1 ∧
      ∀ part ∈ (splitKeywords keywords passed text).2, ¬ keyword <:+: part.2 := by
  have notEmpty : ¬ keyword <:+: [] := fun isInfix => some (infix_nil.mp isInfix)
  fun_induction splitKeywords keywords passed text with
  | case1 passed => exact ⟨notEmpty, nofun⟩
  | case2 passed char rest ih => exact ih
  | case3 char rest found isFound split ih => exact ⟨notEmpty, forall_mem_cons.mpr ih⟩
  | case4 char rest notFound split ih =>
    refine ⟨?_, ih.2⟩
    rw [infix_cons_iff]
    rintro (isPrefix | isInfix)
    · have begins : keyword <+: char :: rest :=
        isPrefix.trans ((prefix_cons_inj char).mpr (prefix_splitKeywords 0 rest))
      have absent := find?_eq_none.mp notFound keyword isKeyword
      exact absent (List.isPrefixOf_iff_prefix.mpr begins)
    · exact ih.1 isInfix

theorem splitKeywords_keys (passed : ℕ) (text : Text) :
    ∀ part ∈ (splitKeywords keywords passed text).2, part.1 <:+: text := by
  fun_induction splitKeywords keywords passed text with
  | case1 passed => exact nofun
  | case2 passed char rest ih =>
    exact fun part isPart => (ih part isPart).trans (suffix_cons _ _).isInfix
  | case3 char rest found isFound split ih =>
    refine forall_mem_cons.mpr ⟨?_, fun part isPart =>
      (ih part isPart).trans (suffix_cons _ _).isInfix⟩
    have begins : found.isPrefixOf (char :: rest) = true := by
      simpa using find?_some isFound
    exact (List.isPrefixOf_iff_prefix.mp begins).isInfix
  | case4 char rest notFound split ih =>
    exact fun part isPart => (ih part isPart).trans (suffix_cons _ _).isInfix

theorem splitStrPartsBy_free (isKeyword : keyword ∈ keywords) (some : keyword ≠ []) (text : Text) :
    ∀ part ∈ splitStrPartsBy text keywords, ¬ keyword <:+: part.2 := by
  have free := splitKeywords_free isKeyword some 0 text
  unfold splitStrPartsBy
  dsimp only
  split
  · exact free.2
  · exact forall_mem_cons.mpr free

theorem splitStrPartsBy_keys (text : Text) :
    ∀ part ∈ splitStrPartsBy text keywords, part.1 <:+: text := by
  unfold splitStrPartsBy
  dsimp only
  split
  · exact splitKeywords_keys 0 text
  · exact forall_mem_cons.mpr ⟨List.nil_infix, splitKeywords_keys 0 text⟩

theorem actionFunctions_free {action : Option Text} {parts : List (Text × Text)}
    (freeAction : ∀ content ∈ action, ¬ keyword <:+: content)
    (freeParts : ∀ part ∈ parts, ¬ keyword <:+: part.2) :
    ∀ function ∈ actionFunctions action parts,
      ¬ keyword <:+: function.name ∧ ¬ keyword <:+: function.arguments := by
  fun_induction actionFunctions action parts with
  | case1 action => exact nofun
  | case2 key content parts ih =>
    rw [forall_mem_cons] at freeParts
    refine ih ?_ freeParts.2
    intro other isOther
    split at isOther
    · cases isOther
      exact freeParts.1
    · cases isOther
  | case3 action content parts ih =>
    rw [forall_mem_cons] at freeParts
    refine forall_mem_cons.mpr ⟨⟨fun isInfix => ?_, fun isInfix => ?_⟩, ih nofun freeParts.2⟩
    · exact freeAction action rfl (isInfix.trans (infix_strip _ _))
    · exact freeParts.1 (isInfix.trans (infix_strip _ _))
  | case4 action key content parts notInput ih =>
    rw [forall_mem_cons] at freeParts
    exact ih freeAction freeParts.2

theorem actionFunctions_eq_nil {action : Option Text} {parts : List (Text × Text)}
    (noInput : ∀ part ∈ parts, part.1 ≠ actionInputKeyword) : actionFunctions action parts = [] := by
  fun_induction actionFunctions action parts with
  | case1 action => rfl
  | case2 key content parts ih =>
    rw [forall_mem_cons] at noInput
    exact ih noInput.2
  | case3 action content parts ih =>
    rw [forall_mem_cons] at noInput
    exact absurd rfl noInput.1
  | case4 action key content parts notInput ih =>
    rw [forall_mem_cons] at noInput
    exact ih noInput.2

end Keywords

theorem reactToolcall_eq_nil {response : Text} (free : ¬ actionInputKeyword <:+: response) :
    reactToolcall response = [] := by
  refine actionFunctions_eq_nil fun part isPart isInput => free ?_
  rw [← isInput]
  exact splitStrPartsBy_keys response part isPart

/-- A template adds nothing to what it finds in a response without keywords. -/
theorem orReact_of_free (functions : List Function) {response : Text}
    (free : ¬ actionInputKeyword <:+: response) : orReact functions response = functions := by
  unfold orReact
  split
  · rename_i nothing
    rw [reactToolcall_eq_nil free, nothing]
  · rfl

end Geobench.AgentTemplate
