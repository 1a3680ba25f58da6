import Geobench.Rewards.BlockLayout
import Geobench.Library.ListSlices

/-!
# The address of a strictly formatted completion

Three readers look for the final answer of a completion: `GeoStrictFormat` in the block up to its
end, `GeoAnswerFormat` in the last answer block, and the distance reward in the last answer block,
too. **They agree exactly where the answer tags are in their places** (`strictAgrees_iff`): the
think text leaves no opening tag unclosed, and no closing tag is in the answer text.

Tags that are not in their places are inside of JSON strings. Then the last answer block begins or
ends inside of a string, and it cannot be an object with a final answer.
-/

namespace Geobench.Rewards

open Library List

/-! ## Reading tags -/

theorem eq_of_sameLetter_open {char : Char} (same : sameLetter '<' char.toNat = true) :
    char = '<' := by
  have codes : ∀ code ∈ letterCodes '<', code = '<'.toNat := by decide
  exact Char.toNat_inj.mp (codes _ (mem_letterCodes.mpr same))

variable {piece : Text}

/-- The letters of answer tags are neither quotes nor backslashes. -/
theorem unquoted_of_isTag {tag : Text} (isTag : IsTag tag piece)
    (letters : ∀ letter ∈ tag, letter ∈ "</answer>".toList) :
    ∀ char ∈ piece, char ≠ '"' ∧ char ≠ '\\' := by
  have codes : ∀ letter ∈ "</answer>".toList, ∀ code ∈ letterCodes letter,
      code ≠ '"'.toNat ∧ code ≠ '\\'.toNat := by decide
  have inTag : ∀ letter ∈ tag, ∀ code ∈ letterCodes letter,
      code ≠ '"'.toNat ∧ code ≠ '\\'.toNat :=
    fun letter isLetter => codes letter (letters letter isLetter)
  intro char isChar
  obtain ⟨notQuote, notEscape⟩ := isTag.forall_mem inTag char isChar
  constructor
  · intro isQuote
    exact notQuote (congrArg Char.toNat isQuote)
  · intro isEscape
    exact notEscape (congrArg Char.toNat isEscape)

variable {last : Mode}

/-- A tag in a JSON text begins inside a string. -/
theorem run_before_tag {letters text : Text} {index : ℕ}
    (runs : Mode.outside.run isPlain text = some last) (found : TagAt ('<' :: letters) text index) :
    ∃ mode, mode ≠ .outside ∧ Mode.outside.run isPlain (text.take index) = some mode := by
  obtain ⟨char, isChar, same⟩ := found 0 '<' rfl
  obtain rfl := eq_of_sameLetter_open same
  obtain ⟨inside, isChar⟩ := List.getElem?_eq_some_iff.mp isChar
  rw [Nat.add_zero] at inside
  have split : text = text.take index ++ '<' :: text.drop (index + 1) := by
    conv_lhs => rw [← take_append_drop index text, drop_eq_getElem_cons inside]
    simp only [Nat.add_zero] at isChar
    rw [isChar]
  rw [split] at runs
  obtain ⟨mode, runsBefore, runsTag⟩ := run_append_eq_some.mp runs
  refine ⟨mode, ?_, runsBefore⟩
  rintro rfl
  rw [run_cons] at runsTag
  cases runsTag

theorem isLoose_of_isPlain (char : Char) (plain : isPlain char = true) : isLoose char = true := by
  rw [isLoose, plain, Bool.true_or, Bool.true_or]

/-- Behind an opening answer tag, a JSON text is inside a string. -/
theorem run_behind_tag {text : Text} {index : ℕ} (runs : Mode.outside.run isPlain text = some last)
    (found : TagAt openAnswer text index) :
    Mode.outside.run isLoose (text.take (index + openAnswer.length)) = some .inside := by
  obtain ⟨mode, within, runsBefore⟩ := run_before_tag runs found
  obtain ⟨piece, isTag, isRest⟩ := exists_of_dropTag
    (dropTag_eq_some.mpr ⟨tagAt_drop.mpr found, rfl⟩)
  have isTaken : text.take (index + openAnswer.length) = text.take index ++ piece := by
    rw [take_add, isRest, ← isTag.1, take_left]
  have some : piece ≠ [] := by
    rintro rfl
    cases isTag.1
  rw [isTaken]
  exact run_append_eq_some.mpr ⟨mode, run_mono isLoose_of_isPlain runsBefore,
    run_of_ne_outside within some (unquoted_of_isTag isTag (by decide))⟩

theorem run_loose (loose : Loose piece) : Mode.outside.run isLoose piece = some .outside := by
  refine run_plain fun char isChar => ⟨?_, loose char isChar⟩
  rintro rfl
  have notLoose : isLoose '"' = false := by decide
  rw [loose _ isChar] at notLoose
  cases notLoose

/-- Blanks inside of strings and outside lead nowhere. -/
theorem run_blank (blank : Blank piece) {mode : Mode} (settled : mode ≠ .escaped) :
    mode.run isLoose piece = some mode := by
  cases mode with
  | outside => exact run_loose (.of_blank blank)
  | inside =>
    refine run_inside fun char isChar => ⟨?_, ?_⟩
    · rintro rfl
      cases blank _ isChar
    · rintro rfl
      cases blank _ isChar
  | escaped => exact absurd rfl settled

/-- A block that is read from inside a string is no object with a final answer. -/
theorem not_spelled_of_inside {block : Text} (inside : Mode.inside.run isLoose block = some last)
    (outside : Mode.outside.run isPlain (strip isBlank block) = some .outside) :
    ¬ Spelled (strip isBlank block) finalAnswerKey := by
  obtain ⟨before, after, blankBefore, -, isBlock⟩ := exists_of_strip isBlank block
  rw [isBlock] at inside
  obtain ⟨mode, runsBefore, inside⟩ := run_append_eq_some.mp inside
  have within : Mode.inside.run isLoose before = some .inside := run_blank blankBefore nofun
  rw [within] at runsBefore
  cases runsBefore
  obtain ⟨mode, inside, -⟩ := run_append_eq_some.mp inside
  have chars := run_opposite inside outside (by decide) (by decide)
  intro spelled
  have isCode : 'F'.toNat ∈ finalAnswerKey := by decide
  rcases spelled _ isCode (by decide) with ⟨char, isChar, same⟩ | isEscape
  · obtain rfl := Char.toNat_inj.mp same
    have absent : ¬ ('F' = '"' ∨ isLoose 'F' = true ∨ isPlain 'F' = true) := by decide
    exact absent (chars _ isChar)
  · have absent : ¬ ('\\' = '"' ∨ isLoose '\\' = true ∨ isPlain '\\' = true) := by decide
    exact absent (chars _ isEscape)

/-! ## Reading a completion -/

namespace BlockLayout

variable {text think answer : Text} (layout : BlockLayout text think answer)

section

variable (thinkRuns : Mode.outside.run isPlain think = some .outside)
include thinkRuns

/-- The text before the answer text is read outside of strings. -/
theorem run_body (count : ℕ) {last : Mode}
    (runs : Mode.outside.run isLoose (answer.take count) = some last)
    (inside : count ≤ answer.length) :
    Mode.outside.run isLoose (text.take (layout.body + count)) = some last := by
  have isText : text = (layout.head ++ (think ++ (layout.middle ++ (layout.opener ++ layout.pad)))) ++
      (answer ++ (layout.pad' ++ (layout.closer ++ layout.tail))) := by
    simpa only [append_assoc] using layout.isText
  have before : (layout.head ++ (think ++ (layout.middle ++ (layout.opener ++ layout.pad)))).length =
      layout.body := by
    simp only [length_append, body, start]
    omega
  have taken : text.take (layout.body + count) =
      (layout.head ++ (think ++ (layout.middle ++ (layout.opener ++ layout.pad)))) ++
        answer.take count := by
    calc text.take (layout.body + count) = _ := congrArg (take _) isText
      _ = _ := by
          rw [← before, take_length_add_append, take_append_of_le_length inside]
  rw [taken]
  have opener : Loose layout.opener := .of_isTag layout.isOpener (by decide)
  refine run_append_eq_some.mpr ⟨.outside, ?_, runs⟩
  refine run_append_eq_some.mpr ⟨.outside, run_loose layout.looseHead, ?_⟩
  refine run_append_eq_some.mpr ⟨.outside, run_mono isLoose_of_isPlain thinkRuns, ?_⟩
  exact run_loose (layout.looseMiddle.append (opener.append (.of_blank layout.blankPad)))

/-- Behind the opening tag, the answer block is read outside of strings. -/
theorem run_start :
    Mode.outside.run isLoose (text.take (layout.start + openAnswer.length)) = some .outside := by
  have isText : text = (layout.head ++ (think ++ (layout.middle ++ layout.opener))) ++
      (layout.pad ++ (answer ++ (layout.pad' ++ (layout.closer ++ layout.tail)))) := by
    simpa only [append_assoc] using layout.isText
  have before : (layout.head ++ (think ++ (layout.middle ++ layout.opener))).length =
      layout.start + openAnswer.length := by
    simp only [length_append, start, layout.isOpener.1]
    omega
  have taken : text.take (layout.start + openAnswer.length) =
      layout.head ++ (think ++ (layout.middle ++ layout.opener)) :=
    (congrArg (take _) isText).trans (take_left' before)
  have opener : Loose layout.opener := .of_isTag layout.isOpener (by decide)
  rw [taken]
  refine run_append_eq_some.mpr ⟨.outside, run_loose layout.looseHead, ?_⟩
  refine run_append_eq_some.mpr ⟨.outside, run_mono isLoose_of_isPlain thinkRuns, ?_⟩
  exact run_loose (layout.looseMiddle.append opener)

/-- Behind a tag in the think text, a completion is read inside a string. -/
theorem run_think {offset : ℕ} (found : TagAt openAnswer think offset) :
    Mode.outside.run isLoose (text.take (layout.head.length + offset + openAnswer.length)) =
      some .inside := by
  have inside := tagAt_length found (by decide)
  have taken : text.take (layout.head.length + offset + openAnswer.length) =
      layout.head ++ think.take (offset + openAnswer.length) := by
    calc text.take (layout.head.length + offset + openAnswer.length) = _ :=
          congrArg (take _) layout.isText
      _ = _ := by
          rw [Nat.add_assoc, take_length_add_append, take_append_of_le_length inside]
  rw [taken]
  exact run_append_eq_some.mpr ⟨.outside, run_loose layout.looseHead,
    run_behind_tag thinkRuns found⟩

/-- Up to the closing tag, all of a completion is read. -/
theorem exists_run (answerRuns : Mode.outside.run isPlain answer = some .outside) {index : ℕ}
    (early : index ≤ layout.stop) :
    ∃ last, Mode.outside.run isLoose (text.take index) = some last := by
  have isText : text = (layout.head ++ (think ++ (layout.middle ++ (layout.opener ++ (layout.pad ++
      (answer ++ layout.pad')))))) ++ (layout.closer ++ layout.tail) := by
    simpa only [append_assoc] using layout.isText
  have before : (layout.head ++ (think ++ (layout.middle ++ (layout.opener ++ (layout.pad ++
      (answer ++ layout.pad')))))).length = layout.stop := by
    simp only [length_append, stop, body, start]
    omega
  have taken := (congrArg (take layout.stop) isText).trans (take_left' before)
  have opener : Loose layout.opener := .of_isTag layout.isOpener (by decide)
  have runs : Mode.outside.run isLoose (text.take layout.stop) = some .outside := by
    rw [taken]
    refine run_append_eq_some.mpr ⟨.outside, run_loose layout.looseHead, ?_⟩
    refine run_append_eq_some.mpr ⟨.outside, run_mono isLoose_of_isPlain thinkRuns, ?_⟩
    refine run_append_eq_some.mpr ⟨.outside, run_loose layout.looseMiddle, ?_⟩
    refine run_append_eq_some.mpr ⟨.outside, run_loose opener, ?_⟩
    refine run_append_eq_some.mpr ⟨.outside, run_loose (.of_blank layout.blankPad), ?_⟩
    exact run_append_eq_some.mpr ⟨.outside, run_mono isLoose_of_isPlain answerRuns,
      run_loose (.of_blank layout.blankPad')⟩
  have split : text.take layout.stop =
      text.take index ++ (text.take layout.stop).drop index := by
    conv_lhs => rw [← take_append_drop index (text.take layout.stop)]
    rw [take_take, Nat.min_eq_left early]
  rw [split] at runs
  obtain ⟨last, isRead, -⟩ := run_append_eq_some.mp runs
  exact ⟨last, isRead⟩

end

/-- The last answer block can only be an object with a final answer if all tags are in their
places. -/
theorem inPlace_of_last (layout : BlockLayout text think answer)
    (thinkRuns : Mode.outside.run isPlain think = some .outside)
    (answerRuns : Mode.outside.run isPlain answer = some .outside) {start stop : ℕ}
    (range : LastBetween openAnswer closeAnswer text start stop)
    (blockRuns : Mode.outside.run isPlain
      (strip isBlank ((text.take stop).drop (start + openAnswer.length))) = some .outside)
    (spelled : Spelled (strip isBlank ((text.take stop).drop (start + openAnswer.length)))
      finalAnswerKey) : InPlace think answer := by
  have openLength : openAnswer.length = 8 := rfl
  have closeLength : closeAnswer.length = 9 := rfl
  have later := range.later
  have behindThink : layout.head.length + think.length ≤ layout.start := by
    rw [BlockLayout.start]
    omega
  have startBody : layout.start + openAnswer.length ≤ layout.body := by
    have opener := layout.isOpener.1
    rw [body]
    omega
  have bodyStop : layout.body + answer.length ≤ layout.stop := by
    rw [BlockLayout.stop]
    omega
  have early : stop ≤ layout.stop := by
    rcases layout.closer_cases range.closes with
      ⟨offset, rfl, inThink⟩ | ⟨offset, rfl, inAnswer⟩ | rfl
    · have inside := tagAt_length inThink (by decide)
      omega
    · have inside := tagAt_length inAnswer (by decide)
      omega
    · exact Nat.le_refl _
  have split : text.take stop = text.take (start + openAnswer.length) ++
      (text.take stop).drop (start + openAnswer.length) := by
    conv_lhs => rw [← take_append_drop (start + openAnswer.length) (text.take stop)]
    rw [take_take, Nat.min_eq_left later]
  -- A block that begins inside a string is no object with a final answer.
  have notInside : Mode.outside.run isLoose (text.take (start + openAnswer.length)) ≠
      some .inside := by
    intro isInside
    obtain ⟨last, runs⟩ := layout.exists_run thinkRuns answerRuns early
    rw [split] at runs
    obtain ⟨mode, runsBefore, runsBlock⟩ := run_append_eq_some.mp runs
    rw [isInside] at runsBefore
    cases runsBefore
    exact not_spelled_of_inside runsBlock blockRuns spelled
  rcases layout.opener_cases range.opens with ⟨offset, rfl, inThink⟩ | rfl | ⟨offset, rfl, inAnswer⟩
  · exact absurd (layout.run_think thinkRuns inThink) notInside
  · rcases layout.closer_cases range.closes with
      ⟨offset, rfl, inThink⟩ | ⟨offset, rfl, inAnswer⟩ | rfl
    · have inside := tagAt_length inThink (by decide)
      omega
    · -- A block that ends in the answer text ends inside a string.
      exfalso
      have inside := tagAt_length inAnswer (by decide)
      obtain ⟨mode, within, runsBefore⟩ := run_before_tag answerRuns inAnswer
      have runs := layout.run_body thinkRuns offset (run_mono isLoose_of_isPlain runsBefore)
        (by omega)
      rw [split] at runs
      obtain ⟨mode', runsStart, runsBlock⟩ := run_append_eq_some.mp runs
      rw [layout.run_start thinkRuns] at runsStart
      cases runsStart
      obtain ⟨before, after, blankBefore, blankAfter, isBlock⟩ := exists_of_strip isBlank
        ((text.take (layout.body + offset)).drop (layout.start + openAnswer.length))
      have outside : Mode.outside.run isLoose
          ((text.take (layout.body + offset)).drop (layout.start + openAnswer.length)) =
            some .outside := by
        rw [isBlock]
        exact run_append_eq_some.mpr ⟨.outside, run_loose (.of_blank blankBefore),
          run_append_eq_some.mpr ⟨.outside, run_mono isLoose_of_isPlain blockRuns,
            run_loose (.of_blank blankAfter)⟩⟩
      rw [outside] at runsBlock
      cases runsBlock
      exact within rfl
    · constructor
      · rintro ⟨index, opens, unclosed⟩
        have inside := tagAt_length opens (by decide)
        obtain ⟨closer, after, before, closes⟩ :=
          range.closed _ (by omega) (layout.tagAt_think opens)
        rcases layout.closer_cases closes with
          ⟨offset, rfl, inThink⟩ | ⟨offset, rfl, inAnswer⟩ | rfl
        · exact unclosed offset (by omega) inThink
        · omega
        · omega
      · intro index closes
        have inside := tagAt_length closes (by decide)
        exact range.first _ (by omega) (by omega) (layout.tagAt_answer closes)
  · have inside := tagAt_length inAnswer (by decide)
    have isInside := layout.run_body thinkRuns _ (run_behind_tag answerRuns inAnswer) inside
    rw [← Nat.add_assoc] at isInside
    exact absurd isInside notInside

end BlockLayout

/-! ## What the strict format accepts -/

theorem mapM_singleton {reward : Text → Except RewardError ℚ} {completion : Text} {value : ℚ} :
    [completion].mapM reward = .ok [value] ↔ reward completion = .ok value := by
  rw [mapM_eq_ok_iff]
  constructor
  · rintro (_ | ⟨isOk, -⟩)
    exact isOk
  · intro isOk
    exact .cons isOk .nil

theorem zero_ne_reward : (.ok 0 : Except RewardError ℚ) ≠ .ok 1 := by
  intro same
  exact absurd (Except.ok.inj same) zero_ne_one

theorem of_reward {condition : Prop} [Decidable condition]
    (isOne : (.ok (if condition then 1 else 0) : Except RewardError ℚ) = .ok 1) : condition := by
  by_contra fails
  rw [if_neg fails] at isOne
  exact zero_ne_reward isOne

variable {value : JsonValue}

theorem eq_object_of_members {found : List (CodePoints × JsonValue)}
    (isOk : members value = .ok found) : value = .object found := by
  cases value <;> cases isOk
  rfl

/-- What a completion has that the strict format accepts. -/
structure StrictParts (python : Interpreter) (completion think answer : Text)
    (clues members : List (CodePoints × JsonValue)) : Prop where
  isMatch : matchBlocks (stripSpecialTokens completion) = some (think, answer)
  isThink : loads python.recursionLimit (strip isBlank think) = .ok (.object clues)
  isAnswer : loads python.recursionLimit (strip isBlank answer) = .ok (.object members)
  isNamed : isSetOf [finalAnswerKey] (members.map fun member => some member.1) = true
  isValid : isValid python clues members = true

theorem exists_of_strictReward {python : Interpreter} {completion : Text}
    (isOne : strictReward python completion = .ok 1) :
    ∃ think answer clues members, StrictParts python completion think answer clues members := by
  obtain ⟨refused, -, isOne⟩ := bind_eq_ok.mp isOne
  split at isOne
  · exact absurd isOne zero_ne_reward
  split at isOne
  · exact absurd isOne zero_ne_reward
  rename_i think answer isMatch
  obtain ⟨loaded, isLoaded, isOne⟩ := bind_eq_ok.mp isOne
  split at isOne
  · exact absurd isOne zero_ne_reward
  rename_i thinkJson answerJson
  obtain ⟨thinkElements, isThinkSet, isOne⟩ := bind_eq_ok.mp isOne
  split at isOne
  · exact absurd isOne zero_ne_reward
  obtain ⟨answerElements, isAnswerSet, isOne⟩ := bind_eq_ok.mp isOne
  split at isOne
  · exact absurd isOne zero_ne_reward
  rename_i named
  obtain ⟨clues, isClues, isOne⟩ := bind_eq_ok.mp isOne
  obtain ⟨members, isMembers, isOne⟩ := bind_eq_ok.mp isOne
  obtain rfl := eq_object_of_members isClues
  obtain rfl := eq_object_of_members isMembers
  obtain ⟨isThink, isAnswer⟩ := loadBlocks_eq_some.mp isLoaded
  cases isAnswerSet
  refine ⟨think, answer, clues, members, isMatch, isThink, isAnswer, ?_, of_reward isOne⟩
  simpa using named

variable {key : CodePoints}

theorem exists_getMember {members : List (CodePoints × JsonValue)}
    (isKey : key ∈ members.map Prod.fst) : ∃ value, getMember members key = some value := by
  obtain ⟨member, isMember, rfl⟩ := mem_map.mp isKey
  have isSome : (members.find? fun other => other.1 = member.1).isSome = true := by
    rw [find?_isSome]
    exact ⟨member, isMember, by simp⟩
  obtain ⟨found, isFound⟩ := Option.isSome_iff_exists.mp isSome
  exact ⟨found.2, by rw [getMember, isFound]; rfl⟩

theorem mem_keys_of_getMember {members : List (CodePoints × JsonValue)}
    (isMember : getMember members key = some value) : key ∈ members.map Prod.fst := by
  obtain ⟨found, isFound, -⟩ := Option.map_eq_some_iff.mp isMember
  have same := find?_some isFound
  rw [← of_decide_eq_true same]
  exact mem_map_of_mem (mem_of_find?_eq_some isFound)

theorem exists_of_memberNotNull {found : JsonValue}
    (isFound : memberNotNull key value = some found) :
    ∃ members, value = .object members ∧ key ∈ members.map Prod.fst := by
  cases value with
  | object members =>
    refine ⟨members, rfl, ?_⟩
    cases isMember : getMember members key with
    | none =>
      rw [memberNotNull, isMember] at isFound
      cases isFound
    | some member => exact mem_keys_of_getMember isMember
  | null => cases isFound
  | bool value => cases isFound
  | number literal => cases isFound
  | string value => cases isFound
  | array items => cases isFound

section Parts

variable {python : Interpreter} {completion think answer : Text}
  {clues members : List (CodePoints × JsonValue)}

section

variable (parts : StrictParts python completion think answer clues members)
include parts

theorem StrictParts.isKey : finalAnswerKey ∈ members.map Prod.fst := by
  have named := parts.isNamed
  simp only [isSetOf, all_cons, all_nil, Bool.and_true, Bool.and_eq_true,
    contains_iff_mem, mem_map, Option.some.injEq] at named
  exact mem_map.mpr named.2

theorem StrictParts.threeParts : (answerParts (validatedAnswer python members)).length = 3 := by
  have valid := parts.isValid
  simp only [Rewards.isValid, Bool.and_eq_true, decide_eq_true_eq] at valid
  exact valid.2

theorem StrictParts.finalAnswer :
    finalAnswerOf python (.object members) = some (validatedAnswer python members) := by
  obtain ⟨value, isValue⟩ := exists_getMember parts.isKey
  have three := parts.threeParts
  rw [validatedAnswer, isValue] at three
  have notNull : value ≠ .null := by
    rintro rfl
    have one : (answerParts (strip isBlankCode (codes "None".toList))).length = 1 := by decide
    exact absurd (one.symm.trans three) (by decide)
  have isMember : memberNotNull finalAnswerKey (.object members) = some value := by
    rw [memberNotNull, isValue]
    cases value <;> first | rfl | exact absurd rfl notNull
  rw [finalAnswerOf, isMember, validatedAnswer, isValue]
  rfl

theorem StrictParts.notEmpty : validatedAnswer python members ≠ [] := by
  intro isEmpty
  have three := parts.threeParts
  rw [isEmpty] at three
  exact absurd three (by decide)

/-! ## Agreement -/

theorem StrictParts.layoutStripped :
    Nonempty (BlockLayout (strip isBlank completion) think answer) := by
  obtain ⟨tail, free, isText⟩ := exists_stripSpecialTokens completion
  have nothing : Blank [] := nofun
  obtain ⟨-, -, layout⟩ := exists_blockLayout parts.isMatch nothing free
  rwa [nil_append, ← isText] at layout

end

/-- The completion has the layout of the blocks, too. -/
theorem StrictParts.layout (parts : StrictParts python completion think answer clues members) :
    strip isBlank think = think ∧ strip isBlank answer = answer ∧
      Nonempty (BlockLayout completion think answer) := by
  obtain ⟨tail, free, isText⟩ := exists_stripSpecialTokens completion
  obtain ⟨lead, tail', blank, blank', isCompletion⟩ := exists_strip completion
  have layout := exists_blockLayout parts.isMatch blank (free.append (.of_blank blank'))
  rwa [← append_assoc _ tail, ← isText, ← isCompletion] at layout

/-- Tags in their places: the answer format accepts the completion. -/
theorem StrictParts.answerReward_eq
    (parts : StrictParts python completion think answer clues members)
    (inPlace : InPlace think answer) : answerReward python completion = .ok 1 := by
  obtain ⟨layout⟩ := parts.layoutStripped
  have isAnswer : tryLoads python (strip isBlank answer) = .ok (some (.object members)) :=
    tryLoads_eq_some.mpr parts.isAnswer
  have extracted : extractFinalAnswer python (strip isBlank answer) =
      .ok (some (validatedAnswer python members)) := by
    rw [extractFinalAnswer, isAnswer]
    exact congrArg Except.ok parts.finalAnswer
  unfold answerReward
  rw [layout.getLast?_answerBlocks inPlace]
  dsimp only
  rw [extracted]
  change (if validatedAnswer python members = [] then _ else _) = _
  rw [if_neg parts.notEmpty, if_pos parts.threeParts]

/-- Tags in their places: the address is the final answer of the answer block. -/
theorem StrictParts.geocodedAddress_eq
    (parts : StrictParts python completion think answer clues members)
    (inPlace : InPlace think answer) :
    geocodedAddress python completion = some (validatedAnswer python members) := by
  obtain ⟨-, stripped, ⟨layout⟩⟩ := parts.layout
  have isAnswer : tryLoads python answer = .ok (some (.object members)) := by
    have isAnswer := parts.isAnswer
    rw [stripped] at isAnswer
    exact tryLoads_eq_some.mpr isAnswer
  have some : answer ≠ [] := by
    rintro rfl
    have isAnswer := parts.isAnswer
    have fails : loads python.recursionLimit (strip isBlank []) = .error .jsonDecodeError := by
      cases python.recursionLimit <;> rfl
    rw [fails] at isAnswer
    cases isAnswer
  have parsed : parseJsonObject python answer = .ok (Option.some (.object members)) := by
    rw [parseJsonObject, if_neg some, stripped, isAnswer]
    rfl
  have extracted : extractAnswerContent python completion =
      .ok (Option.some (validatedAnswer python members)) := by
    unfold extractAnswerContent
    rw [layout.getLast?_answerBlocks inPlace]
    dsimp only
    rw [stripped, parsed]
    change Except.ok (Option.some ((finalAnswerOf python (.object members)).getD _)) = _
    rw [parts.finalAnswer]
    rfl
  rw [geocodedAddress, extracted]
  exact if_neg parts.notEmpty

/-- Tags that are not in their places make the answer format reject the completion. -/
theorem StrictParts.inPlace (parts : StrictParts python completion think answer clues members)
    (isOne : answerReward python completion = .ok 1) : InPlace think answer := by
  obtain ⟨layout⟩ := parts.layoutStripped
  obtain ⟨strippedThink, strippedAnswer, -⟩ := parts.layout
  obtain ⟨start, stop, range, isLast⟩ := layout.exists_last
  have isThink := parts.isThink
  have isAnswer := parts.isAnswer
  rw [strippedThink] at isThink
  rw [strippedAnswer] at isAnswer
  unfold answerReward at isOne
  rw [isLast] at isOne
  dsimp only at isOne
  obtain ⟨finalAnswer, extracted, isOne⟩ := bind_eq_ok.mp isOne
  obtain ⟨data, isData, isFinal⟩ := map_eq_ok.mp extracted
  rw [strip_strip] at isData
  cases data with
  | none =>
    cases isFinal
    exact absurd isOne zero_ne_reward
  | some value =>
    have isJson := tryLoads_eq_some.mp isData
    cases finalAnswer with
    | none => exact absurd isOne zero_ne_reward
    | some finalAnswer =>
      obtain ⟨found, isFound, -⟩ := Option.map_eq_some_iff.mp isFinal
      obtain ⟨others, rfl, isKey⟩ : ∃ others, value = .object others ∧
          finalAnswerKey ∈ others.map Prod.fst := exists_of_memberNotNull isFound
      obtain ⟨runs, spelled⟩ := loads_spells isJson
      exact layout.inPlace_of_last (loads_spells isThink).1 (loads_spells isAnswer).1 range runs
        (spelled others rfl finalAnswerKey isKey)

end Parts

def strictAnswer (python : Interpreter) (completion : Text) : Option CodePoints :=
  match matchBlocks (stripSpecialTokens completion) with
  | none => none
  | some blocks =>
    match loads python.recursionLimit (strip isBlank blocks.2) with
    | .ok (.object members) => some (validatedAnswer python members)
    | _ => none

/-- A completion that the strict format accepts is accepted by the answer format, and the address
that is geocoded is the final answer that was accepted. -/
def StrictAgrees (python : Interpreter) (completion : Text) : Prop :=
  geoStrictFormat python [completion] = .ok [1] →
    geoAnswerFormat python [completion] = .ok [1] ∧ ∃ address,
      strictAnswer python completion = some address ∧
        geocodedAddress python completion = some address

/-- The answer tags of a completion are in their places. -/
def TagsInPlace (completion : Text) : Prop :=
  ∀ think answer, matchBlocks (stripSpecialTokens completion) = some (think, answer) →
    InPlace think answer

/-- **The three readers agree** on the completions that the strict format accepts, exactly where
the answer tags are in their places. -/
theorem strictAgrees_iff (python : Interpreter) (completion : Text) :
    StrictAgrees python completion ↔
      (geoStrictFormat python [completion] = .ok [1] → TagsInPlace completion) := by
  refine forall_congr' fun isStrict => ?_
  obtain ⟨think, answer, clues, members, parts⟩ :=
    exists_of_strictReward (mapM_singleton.mp isStrict)
  have inPlace_iff : TagsInPlace completion ↔ InPlace think answer := by
    constructor
    · intro inPlace
      exact inPlace think answer parts.isMatch
    · intro inPlace think' answer' isMatch
      rw [parts.isMatch] at isMatch
      cases isMatch
      exact inPlace
  rw [inPlace_iff]
  constructor
  · rintro ⟨isAnswer, -⟩
    exact parts.inPlace (mapM_singleton.mp isAnswer)
  · intro inPlace
    refine ⟨mapM_singleton.mpr (parts.answerReward_eq inPlace), _, ?_,
      parts.geocodedAddress_eq inPlace⟩
    rw [strictAnswer, parts.isMatch]
    dsimp only
    rw [parts.isAnswer]

def namedTag : Text :=
  "<think>\x7b\"Clues\": [\"x\"], \"Reasoning\": \"<answer>\"\x7d</think>".toList ++
    "<answer>\x7b\"FinalAnswer\": \"a;b;c\"\x7d</answer>".toList

/-- **A think text that names the answer tag** is accepted by the strict format and not by the
answer format. -/
theorem namedTag_disagrees :
    ¬ ∀ (python : Interpreter) (completion : Text), StrictAgrees python completion := by
  intro always
  have isStrict : geoStrictFormat plainPython [namedTag] = .ok [1] := by decide +kernel
  have isAnswer : geoAnswerFormat plainPython [namedTag] = .ok [0] := by decide +kernel
  have agrees := (always plainPython namedTag isStrict).1
  rw [isAnswer] at agrees
  exact absurd agrees (by decide)

end Geobench.Rewards
