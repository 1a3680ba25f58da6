import Geobench.Library.JsonPrefix
import Geobench.Rewards.StrictAddress

/-!
# The address of a JSON completion

`GeoJSONStrictFormat` decodes what is left of a completion without special tokens and without an
empty think prefix. The distance reward looks for the same final answer in another way: it takes
the last answer block if there is one, else it decodes the whole completion, else a text from an
opening to the next closing brace, and else it searches for the member as a text.

**It finds the accepted answer** where no text is between answer tags, and the object stands alone
or is closed by its first closing brace (`Readable`). Elsewhere it reads another text, which can
only happen to have the answer (`jsonAgrees_iff`).
-/

namespace Geobench.Rewards

open Library List

/-! ## The condition -/

/-- The final answer of the object that the strict JSON format accepts. -/
def jsonAnswer (python : Interpreter) (completion : Text) : Option CodePoints :=
  match loads python.recursionLimit (jsonContent completion) with
  | .ok (.object data) => (acceptedAnswer data).map (strip isBlankCode)
  | _ => none

/-- For a completion that the strict JSON format accepts, the extraction returns the accepted
final answer. -/
def JsonAgrees (python : Interpreter) (completion : Text) : Prop :=
  geoJSONStrictFormat python [completion] = .ok [1] → ∃ address,
    jsonAnswer python completion = some address ∧
      extractAnswerContent python completion = .ok (some address)

/-- Nothing but blanks is around the object. -/
def IsBare (completion : Text) : Prop := jsonContent completion = strip isBlank completion

/-- The first closing brace of a text is its end. -/
def ClosesOnce (object : Text) : Prop := ∃ inner, object = inner ++ ['}'] ∧ '}' ∉ inner

/-- A block that happens to have an answer: in an object in it, or as its text. -/
def BlockHas (python : Interpreter) (block : Text) (answer : CodePoints) : Prop :=
  ∃ data, parseJsonObject python block = .ok data ∧
    (data.bind (finalAnswerOf python)).getD (codes block) = answer

/-- Texts between braces that happen to have an answer: the first object among them has it, or
none of them has one and the first quoted answer of the completion is it. -/
def BracesHave (python : Interpreter) (completion : Text) (answer : CodePoints) : Prop :=
  ∃ data, firstObject python (braceCandidates completion) = .ok data ∧
    match data.bind (finalAnswerOf python) with
    | some found => found = answer
    | none => (searchAnswer completion).map (fun text => codes (strip isBlank text)) = some answer

/-- Where the extraction finds an answer: there is no answer block, and the object stands
alone or has one closing brace. Else the text that is read instead has the answer. -/
def Readable (python : Interpreter) (completion : Text) (answer : CodePoints) : Prop :=
  match (answerBlocks completion).getLast? with
  | some block => BlockHas python (strip isBlank block) answer
  | none => IsBare completion ∨ ClosesOnce (jsonContent completion) ∨
      BracesHave python completion answer

/-! ## What the strict JSON format accepts -/

/-- What a completion has that the strict JSON format accepts. -/
structure JsonParts (python : Interpreter) (completion : Text)
    (data : List (CodePoints × JsonValue)) (finalAnswer : CodePoints) : Prop where
  isJson : loads python.recursionLimit (jsonContent completion) = .ok (.object data)
  isAccepted : acceptedAnswer data = some finalAnswer

theorem exists_of_jsonStrictReward {python : Interpreter} {completion : Text}
    (isOne : jsonStrictReward python completion = .ok 1) :
    ∃ data finalAnswer, JsonParts python completion data finalAnswer := by
  unfold jsonStrictReward at isOne
  dsimp only at isOne
  split at isOne
  · exact absurd isOne zero_ne_reward
  obtain ⟨loaded, isLoaded, isOne⟩ := bind_eq_ok.mp isOne
  split at isOne
  · rename_i data
    split at isOne
    · exact absurd isOne zero_ne_reward
    · rename_i finalAnswer isAccepted
      exact ⟨data, finalAnswer, tryLoads_eq_some.mp isLoaded, isAccepted⟩
  · exact absurd isOne zero_ne_reward

section Parts

variable {python : Interpreter} {completion : Text} {data : List (CodePoints × JsonValue)}
  {finalAnswer : CodePoints}

theorem JsonParts.jsonAnswer_eq (parts : JsonParts python completion data finalAnswer) :
    jsonAnswer python completion = some (strip isBlankCode finalAnswer) := by
  rw [jsonAnswer, parts.isJson]
  dsimp only
  rw [parts.isAccepted]
  rfl

theorem JsonParts.finalAnswerOf_eq (parts : JsonParts python completion data finalAnswer) :
    finalAnswerOf python (.object data) = some (strip isBlankCode finalAnswer) := by
  have accepted := parts.isAccepted
  unfold acceptedAnswer at accepted
  split at accepted
  · split at accepted
    · rename_i value isValue
      cases accepted
      rw [finalAnswerOf, memberNotNull, isValue]
      rfl
    · cases accepted
  · cases accepted

/-! ## What is around the object -/

/-- A part of a text without opening braces. -/
def NoBrace (piece : Text) : Prop := ∀ char ∈ piece, char ≠ '{'

variable {piece : Text}

theorem NoBrace.append {more : Text} (first : NoBrace piece) (second : NoBrace more) :
    NoBrace (piece ++ more) := by
  intro char isChar
  rcases mem_append.mp isChar with isFirst | isSecond
  · exact first char isFirst
  · exact second char isSecond

theorem NoBrace.of_blank (blank : Blank piece) : NoBrace piece := by
  rintro char isChar rfl
  cases blank _ isChar

theorem NoBrace.of_isTag {tag : Text} (isTag : IsTag tag piece)
    (letters : ∀ letter ∈ tag, ∀ code ∈ letterCodes letter, code ≠ '{'.toNat) : NoBrace piece := by
  have notBrace := isTag.forall_mem letters
  rintro char isChar rfl
  exact notBrace _ isChar rfl

theorem stripAutoThinkPrefix_cases (content : Text) :
    stripAutoThinkPrefix content = content ∨ ∃ before opener after,
      Blank before ∧ IsTag openThink opener ∧ NoBrace after ∧
        content = before ++ (opener ++ (after ++ stripAutoThinkPrefix content)) := by
  unfold stripAutoThinkPrefix
  dsimp only
  cases isPrefix : (dropTag openThink (content.dropWhile isBlank)).bind fun rest =>
      dropTag closeThink (rest.dropWhile isBlank) with
  | none => exact .inl rfl
  | some rest =>
    right
    obtain ⟨inner, isInner, isRest⟩ := Option.bind_eq_some_iff.mp isPrefix
    obtain ⟨opener, isOpener, isContent⟩ := exists_of_dropTag isInner
    obtain ⟨closer, isCloser, isAfter⟩ := exists_of_dropTag isRest
    obtain ⟨before, blankBefore, isBefore⟩ := exists_of_dropWhile isBlank content
    obtain ⟨middle, blankMiddle, isMiddle⟩ := exists_of_dropWhile isBlank inner
    obtain ⟨last, blankLast, isLast⟩ := exists_of_dropWhile isBlank rest
    have noBrace : NoBrace (middle ++ (closer ++ last)) := (NoBrace.of_blank blankMiddle).append
      ((NoBrace.of_isTag isCloser (by decide)).append (.of_blank blankLast))
    refine ⟨before, opener, middle ++ (closer ++ last), blankBefore, isOpener, noBrace, ?_⟩
    calc content = before ++ (opener ++ inner) := by rw [← isContent, ← isBefore]
      _ = before ++ (opener ++ (middle ++ (closer ++ rest))) := by rw [← isAfter, ← isMiddle]
      _ = before ++ (opener ++ (middle ++ (closer ++ (last ++ rest.dropWhile isBlank)))) := by
          rw [← isLast]
      _ = _ := by simp only [append_assoc, Option.map_some, Option.getD_some]

theorem exists_around (completion : Text) : ∃ before behind, NoBrace before ∧
    completion = before ++ (jsonContent completion ++ behind) := by
  obtain ⟨lead, tail, blankLead, -, isCompletion⟩ := exists_strip completion
  obtain ⟨behind, -, isText⟩ := exists_stripSpecialTokens completion
  have prefixed : ∃ before, NoBrace before ∧
      stripSpecialTokens completion = before ++ jsonContent completion := by
    rcases stripAutoThinkPrefix_cases (stripSpecialTokens completion) with
      same | ⟨before, opener, after, blank, isOpener, noBrace, isContent⟩
    · exact ⟨[], nofun, same.symm⟩
    · refine ⟨before ++ (opener ++ after), ?_, ?_⟩
      · exact (NoBrace.of_blank blank).append
          ((NoBrace.of_isTag isOpener (by decide)).append noBrace)
      · have isContent' : stripSpecialTokens completion =
            before ++ (opener ++ (after ++ jsonContent completion)) := isContent
        rw [isContent']
        simp only [append_assoc]
  obtain ⟨before, noBrace, isContent⟩ := prefixed
  refine ⟨lead ++ before, behind ++ tail, (NoBrace.of_blank blankLead).append noBrace, ?_⟩
  calc completion = lead ++ (strip isBlank completion ++ tail) := isCompletion
    _ = lead ++ ((stripSpecialTokens completion ++ behind) ++ tail) := by rw [← isText]
    _ = lead ++ (((before ++ jsonContent completion) ++ behind) ++ tail) := by rw [← isContent]
    _ = _ := by simp only [append_assoc]

theorem loads_of_open {limit : ℕ} (rest : Text) :
    loads limit ('<' :: rest) = .error .jsonDecodeError := by
  have started : skipSpace ('<' :: rest) = '<' :: rest := rfl
  have fails : scanOnce limit ('<' :: rest) = .error .jsonDecodeError := by
    cases limit <;> rfl
  rw [loads, if_neg (by simp), started, fails]
  rfl

/-- A completion with more than the object is no JSON text. -/
theorem JsonParts.tryLoads_eq_none (parts : JsonParts python completion data finalAnswer)
    (notBare : ¬ IsBare completion) :
    tryLoads python (strip isBlank completion) = .ok none := by
  have fails : loads python.recursionLimit (strip isBlank completion) =
      .error .jsonDecodeError := by
    rcases stripAutoThinkPrefix_cases (stripSpecialTokens completion) with
      same | ⟨before, opener, after, blank, isOpener, -, isContent⟩
    · rcases stripSpecialTokens_cases completion with isStripped | ⟨blanks, blank, isStripped⟩
      · exact absurd (same.trans isStripped.symm) notBare
      · have some : skipSpace (blanks ++ imEnd) ≠ [] := by
          intro isEmpty
          have isSpace := dropWhile_eq_nil_iff.mp isEmpty '<'
            (mem_append_right _ (by decide))
          exact absurd isSpace (by decide)
        rw [isStripped, ← same]
        exact loads_append parts.isJson some
    · -- A stripped text with a think prefix begins with its tag.
      obtain ⟨tail, -, isText⟩ := exists_stripSpecialTokens completion
      obtain ⟨first, isFirst, isOpen⟩ := isOpener.2 0 '<' rfl
      obtain rfl := eq_of_sameLetter_open isOpen
      obtain ⟨inner, rfl⟩ : ∃ inner, opener = '<' :: inner := by
        cases opener with
        | nil => cases isFirst
        | cons char inner =>
          cases isFirst
          exact ⟨inner, rfl⟩
      obtain ⟨rest, isStripped⟩ : ∃ rest, strip isBlank completion = before ++ '<' :: rest := by
        rw [isText, isContent]
        refine ⟨inner ++ (after ++ (stripAutoThinkPrefix (stripSpecialTokens completion) ++ tail)), ?_⟩
        simp only [append_assoc, cons_append]
      have begins : strip isBlank completion = '<' :: rest := by
        calc strip isBlank completion = (strip isBlank completion).dropWhile isBlank :=
              (dropWhile_strip isBlank completion).symm
          _ = ('<' :: rest).dropWhile isBlank := by
              rw [isStripped, dropWhile_append_of_pos blank]
          _ = '<' :: rest := rfl
      rw [begins]
      exact loads_of_open rest
  rw [tryLoads, fails]

/-! ## Texts between braces -/

theorem dropTag_brace {brace : Char} (codes : letterCodes brace = [brace.toNat, brace.toNat])
    (char : Char) (rest : Text) :
    dropTag [brace] (char :: rest) = if char = brace then some rest else none := by
  have same : sameLetter brace char.toNat = true ↔ char = brace := by
    rw [← mem_letterCodes, codes]
    simp [Char.toNat_inj]
  rw [dropTag]
  by_cases isBrace : char = brace
  · rw [if_pos (same.mpr isBrace), if_pos isBrace]
    rfl
  · rw [if_neg fun isSame => isBrace (same.mp isSame), if_neg isBrace]

theorem splitAtTag_brace {inner behind : Text} (noBrace : '}' ∉ inner) :
    splitAtTag ['}'] (inner ++ '}' :: behind) = some (inner, behind) := by
  have codes : letterCodes '}' = ['}'.toNat, '}'.toNat] := by decide
  induction inner with
  | nil =>
    rw [nil_append, splitAtTag, dropTag_brace codes, if_pos rfl]
  | cons char inner ih =>
    obtain ⟨differs, noBrace⟩ := not_or.mp (mt mem_cons.mpr noBrace)
    rw [cons_append, splitAtTag, dropTag_brace codes, if_neg (Ne.symm differs), ih noBrace]
    rfl

/-- The first text between braces, up to the first closing one. -/
theorem braceCandidates_eq {before inner behind : Text} (noOpen : NoBrace before)
    (noClose : '}' ∉ inner) : ∃ others,
      braceCandidates (before ++ '{' :: (inner ++ '}' :: behind)) =
        ('{' :: (inner ++ ['}'])) :: others := by
  have codes : letterCodes '{' = ['{'.toNat, '{'.toNat] := by decide
  have free : ∀ char ∈ before, ∀ rest, dropTag ['{'] (char :: rest) = none := by
    intro char isChar rest
    rw [dropTag_brace codes, if_neg (noOpen char isChar)]
  have found : between ['{'] ['}'] ('{' :: (inner ++ '}' :: behind)) = some (inner, behind) := by
    rw [between, dropTag_brace codes, if_pos rfl, Option.bind_some, splitAtTag_brace noClose]
  rw [braceCandidates, findall_append free, findall_cons (cons_ne_nil _ _) (by decide) found]
  exact ⟨_, rfl⟩

/-- An object that is closed once is the first text between braces. -/
theorem JsonParts.firstObject_eq (parts : JsonParts python completion data finalAnswer)
    (closes : ClosesOnce (jsonContent completion)) :
    firstObject python (braceCandidates completion) = .ok (some (.object data)) := by
  obtain ⟨before, behind, noBrace, isCompletion⟩ := exists_around completion
  obtain ⟨tail, isObject, isJson⟩ := exists_of_loads_object parts.isJson
  obtain ⟨inner, isClosed, noClose⟩ := closes
  obtain ⟨spaces, isSpace, isSplit⟩ := exists_of_dropWhile isJsonSpace (jsonContent completion)
  rw [← skipSpace, isObject] at isSplit
  have isText : spaces ++ '{' :: tail = inner ++ ['}'] := isSplit.symm.trans isClosed
  obtain ⟨inner', last, rfl⟩ : ∃ inner' last, tail = inner' ++ [last] := by
    refine (eq_nil_or_concat' tail).resolve_left ?_
    rintro rfl
    have braces := (append_inj' isText rfl).2
    exact absurd (List.cons.inj braces).1 (by decide)
  rw [← cons_append, ← append_assoc] at isText
  obtain ⟨rfl, isLast⟩ := append_inj' isText rfl
  obtain rfl := (List.cons.inj isLast).1
  have noClose' : '}' ∉ inner' := fun isInner =>
    noClose (mem_append_right _ (mem_cons_of_mem _ isInner))
  have noSpace : NoBrace spaces := by
    rintro char isChar rfl
    cases isSpace _ isChar
  have isText : completion = (before ++ spaces) ++ '{' :: (inner' ++ '}' :: behind) := by
    calc completion = before ++ (jsonContent completion ++ behind) := isCompletion
      _ = before ++ ((spaces ++ '{' :: (inner' ++ ['}'])) ++ behind) := by rw [← isSplit]
      _ = _ := by simp only [append_assoc, cons_append, nil_append]
  obtain ⟨others, isFirst⟩ := braceCandidates_eq (noBrace.append noSpace) noClose'
  rw [← isText] at isFirst
  rw [isFirst, firstObject, tryLoads_eq_some.mpr isJson]
  rfl

/-! ## What the extraction returns -/

theorem extractAnswerContent_of_block {block : Text} {answer : CodePoints}
    (isLast : (answerBlocks completion).getLast? = some block) :
    extractAnswerContent python completion = .ok (some answer) ↔
      BlockHas python (strip isBlank block) answer := by
  unfold extractAnswerContent
  rw [isLast]
  dsimp only
  constructor
  · intro isOk
    obtain ⟨found, isFound, same⟩ := bind_eq_ok.mp isOk
    exact ⟨found, isFound, Option.some.inj (Except.ok.inj same)⟩
  · rintro ⟨found, isFound, rfl⟩
    rw [isFound]
    rfl

theorem JsonParts.extractAnswerContent_eq
    (parts : JsonParts python completion data finalAnswer)
    (noBlock : (answerBlocks completion).getLast? = none) :
    extractAnswerContent python completion = .ok (some (strip isBlankCode finalAnswer)) ↔
      IsBare completion ∨ ClosesOnce (jsonContent completion) ∨
        BracesHave python completion (strip isBlankCode finalAnswer) := by
  have some : completion ≠ [] := by
    obtain ⟨before, behind, -, isCompletion⟩ := exists_around completion
    obtain ⟨tail, isObject, -⟩ := exists_of_loads_object parts.isJson
    rintro rfl
    obtain ⟨-, isEmpty⟩ := append_eq_nil_iff.mp isCompletion.symm
    rw [(append_eq_nil_iff.mp isEmpty).1] at isObject
    cases isObject
  have found : ∀ data', parseJsonObject python completion = .ok data' →
      (extractAnswerContent python completion = .ok (Option.some (strip isBlankCode finalAnswer)) ↔
        match data'.bind (finalAnswerOf python) with
        | Option.some found => found = strip isBlankCode finalAnswer
        | none => (searchAnswer completion).map (fun text => codes (strip isBlank text)) =
            Option.some (strip isBlankCode finalAnswer)) := by
    intro data' parsed
    unfold extractAnswerContent
    rw [noBlock]
    dsimp only
    rw [parsed]
    simp only [bind, Except.bind]
    cases data'.bind (finalAnswerOf python) with
    | none => simp
    | some found => simp
  have accepted : (Option.some (JsonValue.object data)).bind (finalAnswerOf python) =
      Option.some (strip isBlankCode finalAnswer) := parts.finalAnswerOf_eq
  by_cases bare : IsBare completion
  · have isJson : tryLoads python (strip isBlank completion) =
        .ok (Option.some (.object data)) := by
      rw [← show jsonContent completion = strip isBlank completion from bare]
      exact tryLoads_eq_some.mpr parts.isJson
    have parsed : parseJsonObject python completion = .ok (Option.some (.object data)) := by
      rw [parseJsonObject, if_neg some, isJson]
      rfl
    rw [found _ parsed, accepted]
    exact iff_of_true rfl (.inl bare)
  have isParsed : parseJsonObject python completion =
      firstObject python (braceCandidates completion) := by
    rw [parseJsonObject, if_neg some, parts.tryLoads_eq_none bare]
    rfl
  by_cases closes : ClosesOnce (jsonContent completion)
  · rw [found _ (isParsed.trans (parts.firstObject_eq closes)), accepted]
    exact iff_of_true rfl (.inr (.inl closes))
  · rw [or_iff_right bare, or_iff_right closes, BracesHave]
    constructor
    · intro isOk
      cases isFirst : firstObject python (braceCandidates completion) with
      | error error =>
        unfold extractAnswerContent at isOk
        rw [noBlock] at isOk
        dsimp only at isOk
        rw [isParsed, isFirst] at isOk
        cases isOk
      | ok data' => exact ⟨data', rfl, (found _ (isParsed.trans isFirst)).mp isOk⟩
    · rintro ⟨data', isFirst, has⟩
      exact (found _ (isParsed.trans isFirst)).mpr has

end Parts

/-- A reasoning with text between answer tags. -/
def taggedReasoning : Text :=
  "\x7b\"Clues\": [\"x\"], \"Reasoning\": \"<answer>Berlin</answer>\",".toList ++
    " \"FinalAnswer\": \"a;b;c\"\x7d".toList

end Geobench.Rewards
