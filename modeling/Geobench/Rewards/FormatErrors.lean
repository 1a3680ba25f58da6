import Geobench.Library.ListSlices
import Geobench.Rewards.GeoFormat

/-!
# Exceptions of the format rewards

A format reward is meant to give every completion a reward of zero or one, whatever JSON values
are in its blocks. **It does exactly where every completion can be inspected**
(`formatRewards_iff`): a text that is decoded either is JSON or fails with an error of decoding,
and what `GeoStrictFormat` makes a set of has one, and members if the set is the right one.

A number in a think block is enough for an exception (`number_raises`).
-/

namespace Geobench.Rewards

open Library

/-! ## What can be inspected -/

/-- A text whose decoding raises nothing but an error of decoding. -/
def Decodes (python : Interpreter) (text : Text) : Prop :=
  ∀ error, loads python.recursionLimit text = .error error → error = .jsonDecodeError

/-- The last answer block of a text, if it has one, can be decoded. -/
def LastBlockDecodes (python : Interpreter) (content : Text) : Prop :=
  ∀ block, (answerBlocks content).getLast? = some block → Decodes python (strip isBlank block)

/-- A value that `set` takes: an object, a string, or an array without arrays and objects. -/
def HasSet : JsonValue → Prop
  | .object _ => True
  | .string _ => True
  | .array items => ∀ item ∈ items, ∀ inner members, item ≠ .array inner ∧ item ≠ .object members
  | _ => False

def namesOf (names : List CodePoints) (value : JsonValue) : Bool :=
  match setElements value with
  | .ok elements => isSetOf names elements
  | .error _ => false

def IsObject (value : JsonValue) : Prop := ∃ members, value = .object members

/-- Values that the strict format can compare with the names of their members: the answer is
looked at if the think block has the right names, and members are taken if both have. -/
def Comparable (thinkJson answerJson : JsonValue) : Prop :=
  HasSet thinkJson ∧ (namesOf [cluesKey, reasoningKey] thinkJson = true →
    HasSet answerJson ∧ (namesOf [finalAnswerKey] answerJson = true →
      IsObject thinkJson ∧ IsObject answerJson))

/-- Blocks that decode, if at all, to values that can be compared. -/
def BlocksInspected (python : Interpreter) (think answer : Text) : Prop :=
  Decodes python (strip isBlank think) ∧
    ∀ thinkJson, loads python.recursionLimit (strip isBlank think) = .ok thinkJson →
      Decodes python (strip isBlank answer) ∧
        ∀ answerJson, loads python.recursionLimit (strip isBlank answer) = .ok answerJson →
          Comparable thinkJson answerJson

def StrictInspected (python : Interpreter) (content : Text) : Prop :=
  LastBlockDecodes python (stripSpecialTokens content) ∧
    (hasUnknownOrRefusal python content = .ok false → ∀ think answer,
      matchBlocks content = some (think, answer) → BlocksInspected python think answer)

def JsonInspected (python : Interpreter) (content : Text) : Prop :=
  (refusalRe python).search (codes content) = false → Decodes python content

/-- A completion that all format rewards can inspect. -/
structure Inspectable (python : Interpreter) (completion : Text) : Prop where
  answerFormat : LastBlockDecodes python (strip isBlank completion)
  noUnknown : LastBlockDecodes python (stripSpecialTokens completion)
  strictFormat : StrictInspected python (stripSpecialTokens completion)
  jsonFormat : JsonInspected python (jsonContent completion)

/-! ## One completion -/

/-- A computation that raises nothing. -/
def Succeeds {ε α : Type} (result : Except ε α) : Prop := ∃ value, result = .ok value

section Succeeds

variable {ε α β : Type}

@[simp] theorem succeeds_ok (value : α) : Succeeds (.ok value : Except ε α) := ⟨value, rfl⟩

@[simp] theorem not_succeeds_error (error : ε) : ¬ Succeeds (.error error : Except ε α) := nofun

@[simp] theorem succeeds_map {result : Except ε α} {f : α → β} :
    Succeeds (result.map f) ↔ Succeeds result := by
  cases result with
  | error error => simp [Except.map]
  | ok value => simp [Except.map]

theorem succeeds_bind {first : Except ε α} {rest : α → Except ε β} :
    Succeeds (first >>= rest) ↔ Succeeds first ∧ ∀ value, first = .ok value → Succeeds (rest value) := by
  cases first with
  | error error => simp [bind, Except.bind]
  | ok value => simp [bind, Except.bind]

end Succeeds

variable {python : Interpreter}

theorem succeeds_tryLoads {text : Text} :
    Succeeds (tryLoads python text) ↔ Decodes python text := by
  unfold tryLoads Decodes
  cases loads python.recursionLimit text with
  | ok value => simp
  | error error => cases error <;> simp

theorem succeeds_extractFinalAnswer {text : Text} :
    Succeeds (extractFinalAnswer python text) ↔ Decodes python text := by
  rw [extractFinalAnswer, succeeds_map, succeeds_tryLoads]

variable {content : Text}

theorem succeeds_answerReward :
    Succeeds (answerReward python content) ↔ LastBlockDecodes python (strip isBlank content) := by
  unfold answerReward LastBlockDecodes
  cases (answerBlocks (strip isBlank content)).getLast? with
  | none => simp
  | some block =>
    dsimp only
    rw [succeeds_bind, succeeds_extractFinalAnswer]
    constructor
    · rintro ⟨decodes, -⟩ other isBlock
      cases isBlock
      exact decodes
    · intro decodes
      refine ⟨decodes block rfl, fun finalAnswer _ => ?_⟩
      cases finalAnswer with
      | none => exact succeeds_ok _
      | some finalAnswer =>
        dsimp only
        split <;> exact succeeds_ok _

theorem succeeds_hasUnknown :
    Succeeds (hasUnknown python content) ↔ LastBlockDecodes python content := by
  unfold hasUnknown LastBlockDecodes
  cases (answerBlocks content).getLast? with
  | none => simp
  | some block =>
    dsimp only
    rw [succeeds_map, succeeds_extractFinalAnswer]
    simp

theorem succeeds_hasUnknownOrRefusal :
    Succeeds (hasUnknownOrRefusal python content) ↔
      LastBlockDecodes python (stripSpecialTokens content) := by
  rw [hasUnknownOrRefusal, succeeds_bind, succeeds_hasUnknown]
  refine and_iff_left_of_imp fun _ found _ => ?_
  split <;> exact succeeds_ok _

theorem succeeds_noUnknownReward :
    Succeeds (noUnknownReward python content) ↔
      LastBlockDecodes python (stripSpecialTokens content) := by
  rw [noUnknownReward, succeeds_map, succeeds_hasUnknownOrRefusal]

/-! ## The sets of two values -/

variable {value : JsonValue}

theorem succeeds_setElements : Succeeds (setElements value) ↔ HasSet value := by
  cases value with
  | null => simp [setElements, HasSet]
  | bool value => simp [setElements, HasSet]
  | number literal => simp [setElements, HasSet]
  | string value => simp [setElements, HasSet]
  | object members => simp [setElements, HasSet]
  | array items =>
    unfold setElements HasSet
    constructor
    · rintro ⟨elements, isOk⟩ item isItem inner members
      obtain ⟨element, one⟩ := succeeds_of_mapM_eq_ok isOk isItem
      constructor
      · rintro rfl
        cases one
      · rintro rfl
        cases one
    · intro flat
      refine exists_mapM_eq_ok fun item isItem => ?_
      cases item with
      | array inner => exact absurd rfl (flat _ isItem inner []).1
      | object members => exact absurd rfl (flat _ isItem [] members).2
      | null => exact ⟨_, rfl⟩
      | bool value => exact ⟨_, rfl⟩
      | number literal => exact ⟨_, rfl⟩
      | string value => exact ⟨_, rfl⟩

theorem succeeds_members : Succeeds (members value) ↔ IsObject value := by
  cases value <;> simp [members, IsObject]

theorem succeeds_of_set {α : Type} {names : List CodePoints} {zero : α}
    {rest : Except RewardError α} :
    Succeeds (setElements value >>= fun elements =>
        if !isSetOf names elements then .ok zero else rest) ↔
      HasSet value ∧ (namesOf names value = true → Succeeds rest) := by
  rw [succeeds_bind, succeeds_setElements, namesOf]
  refine and_congr_right fun hasSet => ?_
  obtain ⟨elements, isOk⟩ := succeeds_setElements.mpr hasSet
  rw [isOk]
  cases isSet : isSetOf names elements with
  | false => simp [isSet]
  | true => simp [isSet]

/-- The reward of two values is there if they can be compared. -/
theorem succeeds_blocksReward {thinkJson answerJson : JsonValue} :
    Succeeds (blocksReward python thinkJson answerJson) ↔ Comparable thinkJson answerJson := by
  have members : Succeeds (do
      let think ← members thinkJson
      let answer ← members answerJson
      (.ok (if isValid python think answer then 1 else 0) : Except RewardError ℚ)) ↔
        IsObject thinkJson ∧ IsObject answerJson := by
    rw [succeeds_bind, succeeds_members]
    refine and_congr_right fun isObject => ?_
    obtain ⟨think, rfl⟩ := isObject
    constructor
    · intro each
      exact succeeds_members.mp (succeeds_bind.mp (each think rfl)).1
    · intro isObject think' _
      exact succeeds_bind.mpr ⟨succeeds_members.mpr isObject, fun _ _ => succeeds_ok _⟩
  rw [blocksReward, succeeds_of_set, succeeds_of_set, members, Comparable]

theorem succeeds_loadBlocks {think answer : Text} :
    Succeeds (loadBlocks python think answer) ↔
      Decodes python (strip isBlank think) ∧
        ∀ thinkJson, loads python.recursionLimit (strip isBlank think) = .ok thinkJson →
          Decodes python (strip isBlank answer) := by
  rw [loadBlocks, succeeds_bind, succeeds_tryLoads]
  refine and_congr_right fun _ => ⟨?_, ?_⟩
  · intro each thinkJson isOk
    have rest := each (some thinkJson) (tryLoads_eq_some.mpr isOk)
    exact succeeds_tryLoads.mp (succeeds_map.mp rest)
  · rintro decodes (_ | thinkJson) isOk
    · exact succeeds_ok _
    · exact succeeds_map.mpr (succeeds_tryLoads.mpr (decodes thinkJson (tryLoads_eq_some.mp isOk)))

theorem succeeds_strictReward :
    Succeeds (strictReward python content) ↔
      StrictInspected python (stripSpecialTokens content) := by
  have blocks : ∀ (think answer : Text) (reward : Option (JsonValue × JsonValue) →
      Except RewardError ℚ), Succeeds (reward none) →
      (∀ found, reward (some found) = blocksReward python found.1 found.2) →
      (Succeeds (loadBlocks python think answer >>= reward) ↔
        BlocksInspected python think answer) := by
    intro think answer reward onNone onSome
    rw [succeeds_bind, succeeds_loadBlocks, BlocksInspected, and_assoc]
    refine and_congr_right fun _ => ?_
    constructor
    · rintro ⟨decodes, each⟩ thinkJson isThink
      refine ⟨decodes thinkJson isThink, fun answerJson isAnswer => ?_⟩
      have rest := each _ (loadBlocks_eq_some.mpr ⟨isThink, isAnswer⟩)
      exact succeeds_blocksReward.mp (onSome (thinkJson, answerJson) ▸ rest)
    · intro each
      refine ⟨fun thinkJson isThink => (each thinkJson isThink).1, ?_⟩
      rintro (_ | ⟨thinkJson, answerJson⟩) isOk
      · exact onNone
      · obtain ⟨isThink, isAnswer⟩ := loadBlocks_eq_some.mp isOk
        rw [onSome]
        exact succeeds_blocksReward.mpr ((each thinkJson isThink).2 answerJson isAnswer)
  rw [strictReward, succeeds_bind, succeeds_hasUnknownOrRefusal, StrictInspected]
  refine and_congr_right fun _ => ⟨?_, ?_⟩
  · intro each accepted think answer isMatch
    have rest := each false accepted
    rw [if_neg Bool.false_ne_true, isMatch] at rest
    exact (blocks think answer _ (succeeds_ok _) fun _ => rfl).mp rest
  · intro each found accepted
    cases found with
    | true => exact succeeds_ok _
    | false =>
      rw [if_neg Bool.false_ne_true]
      cases isMatch : matchBlocks (stripSpecialTokens content) with
      | none => exact succeeds_ok _
      | some pair =>
        exact (blocks pair.1 pair.2 _ (succeeds_ok _) fun _ => rfl).mpr
          (each accepted pair.1 pair.2 isMatch)

theorem succeeds_jsonStrictReward :
    Succeeds (jsonStrictReward python content) ↔ JsonInspected python (jsonContent content) := by
  unfold jsonStrictReward JsonInspected
  dsimp only
  cases (refusalRe python).search (codes (jsonContent content)) with
  | true => simp
  | false =>
    rw [if_neg Bool.false_ne_true, succeeds_bind, succeeds_tryLoads]
    refine ⟨fun inspected _ => inspected.1, fun inspected => ⟨inspected rfl, ?_⟩⟩
    intro data _
    split
    · split
      · exact succeeds_ok _
      · split <;> exact succeeds_ok _
    · exact succeeds_ok _

/-! ## All completions -/

/-- A reward of zero or one. -/
def Binary (reward : Text → Except RewardError ℚ) : Prop :=
  ∀ completion value, reward completion = .ok value → value = 0 ∨ value = 1

/-- A call that gives every completion one reward of zero or one, that of the completion alone. -/
def RewardsEach (call : List Text → Except RewardError (List ℚ)) (completions : List Text) : Prop :=
  ∃ rewards, call completions = .ok rewards ∧ rewards.length = completions.length ∧
    ∀ (index : ℕ) (completion : Text), completions[index]? = some completion → ∃ reward : ℚ,
      rewards[index]? = some reward ∧ call [completion] = .ok [reward] ∧ (reward = 0 ∨ reward = 1)

theorem rewardsEach_iff {reward : Text → Except RewardError ℚ} (binary : Binary reward)
    (completions : List Text) :
    RewardsEach (fun completions => completions.mapM reward) completions ↔
      ∀ completion ∈ completions, Succeeds (reward completion) := by
  constructor
  · rintro ⟨rewards, isOk, -⟩ completion isCompletion
    exact succeeds_of_mapM_eq_ok isOk isCompletion
  · intro each
    obtain ⟨rewards, isOk⟩ := exists_mapM_eq_ok each
    refine ⟨rewards, isOk, (mapM_eq_ok_iff.mp isOk).length_eq.symm, ?_⟩
    intro index completion isCompletion
    obtain ⟨value, isValue, one⟩ := getElem?_of_mapM_eq_ok isOk isCompletion
    refine ⟨value, isValue, ?_, binary completion value one⟩
    exact mapM_eq_ok_iff.mpr (.cons one .nil)

theorem binary_ite (condition : Prop) [Decidable condition] {value : ℚ}
    (isOk : (.ok (if condition then 1 else 0) : Except RewardError ℚ) = .ok value) :
    value = 0 ∨ value = 1 := by
  cases isOk
  split
  · exact .inr rfl
  · exact .inl rfl

theorem binary_zero {value : ℚ} (isOk : (.ok 0 : Except RewardError ℚ) = .ok value) :
    value = 0 ∨ value = 1 := by
  cases isOk
  exact .inl rfl

theorem binary_answerReward (python : Interpreter) : Binary (answerReward python) := by
  intro completion value isOk
  unfold answerReward at isOk
  split at isOk
  · exact binary_zero isOk
  · obtain ⟨finalAnswer, -, isOk⟩ := bind_eq_ok.mp isOk
    split at isOk
    · exact binary_zero isOk
    · split at isOk
      · exact binary_zero isOk
      · exact binary_ite _ isOk

theorem binary_noUnknownReward (python : Interpreter) : Binary (noUnknownReward python) := by
  intro completion value isOk
  obtain ⟨found, -, rfl⟩ := map_eq_ok.mp isOk
  cases found with
  | true => exact .inl rfl
  | false => exact .inr rfl

theorem binary_blocksReward {thinkJson answerJson : JsonValue} {value : ℚ}
    (isOk : blocksReward python thinkJson answerJson = .ok value) : value = 0 ∨ value = 1 := by
  obtain ⟨thinkElements, -, isOk⟩ := bind_eq_ok.mp isOk
  split at isOk
  · exact binary_zero isOk
  · obtain ⟨answerElements, -, isOk⟩ := bind_eq_ok.mp isOk
    split at isOk
    · exact binary_zero isOk
    · obtain ⟨think, -, isOk⟩ := bind_eq_ok.mp isOk
      obtain ⟨answer, -, isOk⟩ := bind_eq_ok.mp isOk
      exact binary_ite _ isOk

theorem binary_strictReward (python : Interpreter) : Binary (strictReward python) := by
  intro completion value isOk
  obtain ⟨found, -, isOk⟩ := bind_eq_ok.mp isOk
  split at isOk
  · exact binary_zero isOk
  · split at isOk
    · exact binary_zero isOk
    · obtain ⟨loaded, -, isOk⟩ := bind_eq_ok.mp isOk
      split at isOk
      · exact binary_zero isOk
      · exact binary_blocksReward isOk

theorem binary_jsonStrictReward (python : Interpreter) : Binary (jsonStrictReward python) := by
  intro completion value isOk
  unfold jsonStrictReward at isOk
  dsimp only at isOk
  split at isOk
  · exact binary_zero isOk
  · obtain ⟨data, -, isOk⟩ := bind_eq_ok.mp isOk
    split at isOk
    · split at isOk
      · exact binary_zero isOk
      · split at isOk
        · exact binary_zero isOk
        · exact binary_ite _ isOk
    · exact binary_zero isOk

/-- **The format rewards give every completion zero or one**, and raise nothing, exactly where
every completion can be inspected. -/
theorem formatRewards_iff (python : Interpreter) (completions : List Text) :
    (RewardsEach (geoAnswerFormat python) completions ∧
      RewardsEach (geoNoUnknown python) completions ∧
      RewardsEach (geoStrictFormat python) completions ∧
      RewardsEach (geoJSONStrictFormat python) completions) ↔
      ∀ completion ∈ completions, Inspectable python completion := by
  have answers : RewardsEach (geoAnswerFormat python) completions ↔ _ :=
    rewardsEach_iff (binary_answerReward python) completions
  have unknowns : RewardsEach (geoNoUnknown python) completions ↔ _ :=
    rewardsEach_iff (binary_noUnknownReward python) completions
  have stricts : RewardsEach (geoStrictFormat python) completions ↔ _ :=
    rewardsEach_iff (binary_strictReward python) completions
  have jsons : RewardsEach (geoJSONStrictFormat python) completions ↔ _ :=
    rewardsEach_iff (binary_jsonStrictReward python) completions
  rw [answers, unknowns, stricts, jsons]
  constructor
  · rintro ⟨answer, unknown, strict, json⟩ completion isCompletion
    exact ⟨succeeds_answerReward.mp (answer completion isCompletion),
      succeeds_noUnknownReward.mp (unknown completion isCompletion),
      succeeds_strictReward.mp (strict completion isCompletion),
      succeeds_jsonStrictReward.mp (json completion isCompletion)⟩
  · intro each
    exact ⟨fun completion isCompletion =>
        succeeds_answerReward.mpr (each completion isCompletion).answerFormat,
      fun completion isCompletion =>
        succeeds_noUnknownReward.mpr (each completion isCompletion).noUnknown,
      fun completion isCompletion =>
        succeeds_strictReward.mpr (each completion isCompletion).strictFormat,
      fun completion isCompletion =>
        succeeds_jsonStrictReward.mpr (each completion isCompletion).jsonFormat⟩

/-- `<think>1</think><answer>2</answer>` -/
def numberBlocks : Text := "<think>1</think><answer>2</answer>".toList

/-- **A number in the think block raises an exception.** -/
theorem number_raises :
    ¬ ∀ (python : Interpreter) (completions : List Text),
      RewardsEach (geoAnswerFormat python) completions ∧
        RewardsEach (geoNoUnknown python) completions ∧
        RewardsEach (geoStrictFormat python) completions ∧
        RewardsEach (geoJSONStrictFormat python) completions := by
  intro always
  obtain ⟨-, -, ⟨rewards, isOk, -⟩, -⟩ := always plainPython [numberBlocks]
  have raises : geoStrictFormat plainPython [numberBlocks] = .error .typeError := by
    decide +kernel
  rw [raises] at isOk
  cases isOk

end Geobench.Rewards
