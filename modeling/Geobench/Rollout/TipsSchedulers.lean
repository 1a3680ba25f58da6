import Geobench.Library.Text
import Geobench.Rollout.MultiTurn
import Geobench.Template.MessageRuns

/-!
# Schedulers that give tips

`MathTipsScheduler.step` cuts a reply before its first tag, appends a tip, and stores the text in
the conversation. It cuts the ids of the reply by decoding more and more of them until there are as
many characters as are kept, and appends the ids of the tip.

`ThinkingModelTipsScheduler._build_messages` prepares the history of a round: with a thinking
template by `_swift_prepare_inputs`, and otherwise by hand.

**`step_agrees_iff`**: the ids decode to the stored text exactly when some of the first ids, at
least one, decode to what is before the tag, and the message that is written is an assistant's.
**`buildsAlike_iff`**: both histories are the conversation without its earlier thinking exactly when
no assistant has said anything before the last message.
-/

namespace Geobench.Rollout

open Library Template List

/-! ## Replies with a tip -/

/-- A tokenizer that decodes ids one after another, and decodes what it has encoded. -/
structure Tokenizer where
  encode : Text → List ℕ
  decode : List ℕ → Text
  decode_append : ∀ first rest, decode (first ++ rest) = decode first ++ decode rest
  decode_encode : ∀ text, decode (encode text) = text

/-- `tipsTokenIds` caches the ids of the tip. -/
structure MathTipsScheduler where
  tipsPrompt : Text
  tokenizer : Option Tokenizer
  tipsTokenIds : Option (List ℕ)
  cached : ∀ known ∈ tokenizer, ∀ ids ∈ tipsTokenIds, ids = known.encode tipsPrompt

def answerTag : Text := "<answer>".toList

def thinkEndTag : Text := "</think>".toList

/-- `completion.index(tag)` -/
def indexOf (tag completion : Text) : Option ℕ :=
  (splitFirst tag completion).map fun parts => parts.1.length

/-- The smaller of an index and the first place of a tag. -/
def minIndex (tag completion : Text) (index : ℕ) : ℕ :=
  match indexOf tag completion with
  | some place => min index place
  | none => index

def truncateIdx (completion : Text) : ℕ :=
  minIndex thinkEndTag completion (minIndex answerTag completion completion.length)

/-- How many ids decode to enough characters. At least one id is kept. -/
def tokenTruncateIdx (decode : List ℕ → Text) (responseTokenIds : List ℕ) (index : ℕ) : ℕ :=
  (((List.range responseTokenIds.length).find? fun before =>
    index ≤ (decode (responseTokenIds.take (before + 1))).length).map (· + 1)).getD
      responseTokenIds.length

/-- The ids and the log probabilities of a reply that is cut. -/
def truncateIds (tokenizer : Option Tokenizer) (responseTokenIds : List ℕ)
    (rolloutLogprobs : List Logprob) (index : ℕ) : List ℕ × List Logprob :=
  match tokenizer with
  | none => (responseTokenIds, rolloutLogprobs)
  | some tokenizer =>
    if responseTokenIds = [] then (responseTokenIds, rolloutLogprobs)
    else
      let count := tokenTruncateIdx tokenizer.decode responseTokenIds index
      (responseTokenIds.take count, rolloutLogprobs.take count)

/-- The conversation with the completion of a turn. An empty assistant message at the end is popped,
and the message before it is written. -/
def storeCompletion (messages : Messages) (completion : String) : Except PyError Messages := do
  let last ← lastMessage messages
  if last.role = .assistant then
    let messages := if last.content.truthy then messages else messages.dropLast
    let written ← lastMessage messages
    .ok (messages.dropLast ++ [{ written with content := .text completion }])
  else .ok (messages ++ [⟨.assistant, .text completion⟩])

namespace MathTipsScheduler

variable (scheduler : MathTipsScheduler)

/-- `_get_tips_token_ids`, with the scheduler that has cached them. -/
def getTipsTokenIds (tokenizer : Tokenizer) (isTokenizer : scheduler.tokenizer = some tokenizer) :
    List ℕ × MathTipsScheduler :=
  match scheduler.tipsTokenIds with
  | some ids => (ids, scheduler)
  | none =>
    (tokenizer.encode scheduler.tipsPrompt,
      { scheduler with
        tipsTokenIds := some (tokenizer.encode scheduler.tipsPrompt)
        cached := fun other isOther ids isIds => by
          rw [← Option.some.inj isIds, ← Option.some.inj (isTokenizer.symm.trans isOther)] })

/-- The ids with those of the tip, their loss mask, and the scheduler afterwards. -/
def appendTips (responseTokenIds : List ℕ) : List ℕ × List ℤ × MathTipsScheduler :=
  match isTokenizer : scheduler.tokenizer with
  | none => (responseTokenIds, [], scheduler)
  | some tokenizer =>
    if responseTokenIds = [] then (responseTokenIds, [], scheduler)
    else
      let (tipsTokenIds, scheduler) := scheduler.getTipsTokenIds tokenizer isTokenizer
      (responseTokenIds ++ tipsTokenIds,
        List.replicate responseTokenIds.length 1 ++ List.replicate tipsTokenIds.length 0,
        scheduler)

def step (inferRequest : RolloutInferRequest) (responseChoice : ChatCompletionResponseChoice) :
    Except PyError (StepResult × MathTipsScheduler) := do
  let completion := responseChoice.content.toList
  let responseTokenIds := responseChoice.tokenIds.getD []
  let rolloutLogprobs := extractLogprobsFromChoice responseChoice
  let index := truncateIdx completion
  let (completion, responseTokenIds, rolloutLogprobs) :=
    if index < completion.length then
      (completion.take index,
        truncateIds scheduler.tokenizer responseTokenIds rolloutLogprobs index)
    else (completion, responseTokenIds, rolloutLogprobs)
  let completion := completion ++ scheduler.tipsPrompt
  let (responseTokenIds, responseLossMask, next) := scheduler.appendTips responseTokenIds
  let messages ← storeCompletion inferRequest.messages (String.ofList completion)
  let returned := responseTokenIds ≠ []
  .ok (⟨{ inferRequest with messages := messages },
    if returned then some responseTokenIds else none,
    if returned then some responseLossMask else none,
    none,
    if returned ∧ rolloutLogprobs ≠ [] then some rolloutLogprobs else none⟩, next)

end MathTipsScheduler

/-! ## The cut -/

/-- A tag stands at a place of a text. -/
def TagAt (completion : Text) (place : ℕ) : Prop :=
  answerTag <+: completion.drop place ∨ thinkEndTag <+: completion.drop place

def beforeTags (completion : Text) : Text := completion.take (truncateIdx completion)

theorem splitFirst_first {separator text before after : Text}
    (isSplit : splitFirst separator text = some (before, after)) {place : ℕ}
    (earlier : place < before.length) : ¬ separator <+: text.drop place := by
  induction text generalizing before place with
  | nil => cases isSplit
  | cons char rest ih =>
    rw [splitFirst] at isSplit
    split at isSplit
    · obtain ⟨rfl, -⟩ := Prod.mk.inj (Option.some.inj isSplit)
      exact absurd earlier (Nat.not_lt_zero _)
    · rename_i notFirst
      obtain ⟨⟨first, later⟩, found, same⟩ := Option.map_eq_some_iff.mp isSplit
      obtain ⟨rfl, rfl⟩ := Prod.mk.inj same
      cases place with
      | zero => exact fun isPrefix => notFirst (List.isPrefixOf_iff_prefix.mpr isPrefix)
      | succ place => exact ih found (Nat.lt_of_succ_lt_succ earlier)

theorem minIndex_le (tag completion : Text) (index : ℕ) : minIndex tag completion index ≤ index := by
  rw [minIndex]
  split
  · exact Nat.min_le_left _ _
  · exact Nat.le_refl _

variable {index : ℕ}

theorem not_prefix_of_lt_minIndex {tag completion : Text} (some : tag ≠ []) {place : ℕ}
    (earlier : place < minIndex tag completion index) : ¬ tag <+: completion.drop place := by
  rw [minIndex, indexOf] at earlier
  cases isSplit : splitFirst tag completion with
  | none =>
    rw [splitFirst_eq_none_iff some] at isSplit
    exact fun isPrefix => isSplit (isPrefix.isInfix.trans (drop_suffix _ _).isInfix)
  | some parts =>
    rw [isSplit] at earlier
    exact splitFirst_first isSplit (Nat.lt_of_lt_of_le earlier (Nat.min_le_right _ _))

theorem prefix_of_minIndex_lt {tag completion : Text}
    (earlier : minIndex tag completion index < index) :
    tag <+: completion.drop (minIndex tag completion index) := by
  cases isSplit : splitFirst tag completion with
  | none =>
    rw [minIndex, indexOf, isSplit] at earlier
    exact absurd earlier (Nat.lt_irrefl _)
  | some parts =>
    have place : minIndex tag completion index = min index parts.1.length := by
      rw [minIndex, indexOf, isSplit]
      rfl
    rw [place] at earlier ⊢
    rw [min_eq_right (by omega), eq_append_of_splitFirst isSplit, drop_left]
    exact prefix_append _ _

/-- A reply is cut at its first tag, or not at all. -/
theorem truncateIdx_spec (completion : Text) :
    truncateIdx completion ≤ completion.length ∧
      (∀ place < truncateIdx completion, ¬ TagAt completion place) ∧
      (truncateIdx completion < completion.length → TagAt completion (truncateIdx completion)) := by
  have answerSome : answerTag ≠ [] := by decide +kernel
  have thinkSome : thinkEndTag ≠ [] := by decide +kernel
  have answerLe := minIndex_le answerTag completion completion.length
  have thinkLe := minIndex_le thinkEndTag completion (minIndex answerTag completion completion.length)
  refine ⟨thinkLe.trans answerLe, fun place earlier isTag => ?_, fun shorter => ?_⟩
  · rcases isTag with isTag | isTag
    · exact not_prefix_of_lt_minIndex answerSome (Nat.lt_of_lt_of_le earlier thinkLe) isTag
    · exact not_prefix_of_lt_minIndex thinkSome earlier isTag
  · rcases Nat.lt_or_eq_of_le thinkLe with isThink | same
    · exact .inr (prefix_of_minIndex_lt isThink)
    · rw [truncateIdx, same] at shorter ⊢
      exact .inl (prefix_of_minIndex_lt shorter)

theorem length_beforeTags (completion : Text) :
    (beforeTags completion).length = truncateIdx completion := by
  rw [beforeTags, length_take, Nat.min_eq_left (truncateIdx_spec completion).1]

/-! ## The ids of the cut -/

theorem Tokenizer.decode_prefix (tokenizer : Tokenizer) {first ids : List ℕ}
    (isPrefix : first <+: ids) : tokenizer.decode first <+: tokenizer.decode ids := by
  obtain ⟨rest, rfl⟩ := isPrefix
  rw [tokenizer.decode_append]
  exact prefix_append _ _

/-- The ids kept are the first ones that decode to enough characters, one of them at least. -/
theorem tokenTruncateIdx_spec (decode : List ℕ → Text) {ids : List ℕ} (some : ids ≠ [])
    (enough : index ≤ (decode ids).length) :
    0 < tokenTruncateIdx decode ids index ∧ tokenTruncateIdx decode ids index ≤ ids.length ∧
      index ≤ (decode (ids.take (tokenTruncateIdx decode ids index))).length ∧
      ∀ count, 0 < count → count < tokenTruncateIdx decode ids index →
        (decode (ids.take count)).length < index := by
  have longer : 0 < ids.length := length_pos_of_ne_nil some
  rw [tokenTruncateIdx]
  cases found : (range ids.length).find? fun before =>
      decide (index ≤ (decode (ids.take (before + 1))).length) with
  | none =>
    rw [find?_range_eq_none] at found
    have last := found (ids.length - 1) (by omega)
    rw [Nat.sub_add_cancel longer, take_length] at last
    simp [enough] at last
  | some before =>
    rw [find?_range_eq_some] at found
    obtain ⟨isEnough, isRange, notBefore⟩ := found
    rw [mem_range] at isRange
    rw [Option.map_some, Option.getD_some]
    refine ⟨Nat.succ_pos _, isRange, of_decide_eq_true isEnough, fun count positive less => ?_⟩
    have few := notBefore (count - 1) (by omega)
    rw [Nat.sub_add_cancel positive] at few
    simpa using few

def keptCount (tokenizer : Tokenizer) (ids : List ℕ) (completion : Text) : ℕ :=
  if truncateIdx completion < completion.length then
    tokenTruncateIdx tokenizer.decode ids (truncateIdx completion)
  else ids.length

/-- Some of the first ids, one at least, decode to what is before the first tag. -/
def EndsAtTag (tokenizer : Tokenizer) (ids : List ℕ) (completion : Text) : Prop :=
  ∃ first, first ≠ [] ∧ first <+: ids ∧ tokenizer.decode first = beforeTags completion

section Kept

variable {tokenizer : Tokenizer} {ids : List ℕ} {completion : Text}

theorem keptCount_pos (some : ids ≠ []) (decodes : tokenizer.decode ids = completion) :
    0 < keptCount tokenizer ids completion := by
  rw [keptCount]
  split
  · rename_i shorter
    exact (tokenTruncateIdx_spec _ some (by rw [decodes]; exact Nat.le_of_lt shorter)).1
  · exact length_pos_of_ne_nil some

/-- The ids kept decode to what is before the tag exactly when some first ids do. -/
theorem decode_kept_iff (some : ids ≠ []) (decodes : tokenizer.decode ids = completion) :
    tokenizer.decode (ids.take (keptCount tokenizer ids completion)) = beforeTags completion ↔
      EndsAtTag tokenizer ids completion := by
  constructor
  · intro same
    refine ⟨_, fun none => ?_, take_prefix _ _, same⟩
    rw [take_eq_nil_iff] at none
    exact none.elim (Nat.ne_of_gt (keptCount_pos some decodes)) some
  · rintro ⟨first, isSome, isPrefix, same⟩
    rw [keptCount]
    split
    · rename_i shorter
      obtain ⟨-, -, isEnough, least⟩ := tokenTruncateIdx_spec tokenizer.decode some
        (show truncateIdx completion ≤ (tokenizer.decode ids).length by
          rw [decodes]
          exact Nat.le_of_lt shorter)
      have notLonger : tokenTruncateIdx tokenizer.decode ids (truncateIdx completion) ≤
          first.length := by
        by_contra longer
        have few := least first.length (length_pos_of_ne_nil isSome) (by omega)
        rw [← prefix_iff_eq_take.mp isPrefix, same, length_beforeTags] at few
        exact Nat.lt_irrefl _ few
      have inside : tokenizer.decode
          (ids.take (tokenTruncateIdx tokenizer.decode ids (truncateIdx completion))) <+:
            beforeTags completion := by
        rw [← same]
        refine tokenizer.decode_prefix ?_
        rw [prefix_iff_eq_take.mp isPrefix]
        exact take_prefix_take_left notLonger
      exact inside.eq_of_length_le (by rw [length_beforeTags]; exact isEnough)
    · rename_i whole
      have noTag : truncateIdx completion = completion.length :=
        Nat.le_antisymm (truncateIdx_spec completion).1 (Nat.le_of_not_lt whole)
      rw [take_length, decodes, beforeTags, noTag, take_length]

end Kept

/-! ## The conversation -/

/-- The message that a completion is written to is an assistant's: the last one, or the one before
it where the last one is an empty one, or else a new one. -/
def WritesAssistant (messages : Messages) : Prop :=
  ∃ last ∈ messages.getLast?, last.role = .assistant → last.content.truthy = false →
    ∃ before ∈ messages.dropLast.getLast?, before.role = .assistant

variable {messages : Messages}

/-- Writing the last message of a conversation stores an assistant's text exactly when that message
is an assistant's. -/
theorem writes_iff {completion : String} :
    (∃ stored, (do
        let written ← lastMessage messages
        .ok (messages.dropLast ++ [{ written with content := .text completion }])) =
          Except.ok stored ∧ stored.getLast? = some ⟨.assistant, .text completion⟩) ↔
      ∃ written ∈ messages.getLast?, written.role = .assistant := by
  rw [lastMessage]
  cases isLast : messages.getLast? with
  | none =>
    constructor
    · rintro ⟨stored, isStored, -⟩
      cases isStored
    · rintro ⟨written, isWritten, -⟩
      cases isWritten
  | some written =>
    constructor
    · rintro ⟨stored, isStored, last⟩
      obtain rfl := Except.ok.inj isStored
      rw [getLast?_concat] at last
      exact ⟨written, rfl, congrArg Message.role (Option.some.inj last)⟩
    · rintro ⟨other, isOther, isAssistant⟩
      obtain rfl := Option.some.inj isOther
      refine ⟨_, rfl, ?_⟩
      rw [getLast?_concat, isAssistant]

theorem storesAssistant_iff {completion : String} :
    (∃ stored, storeCompletion messages completion = .ok stored ∧
      stored.getLast? = some ⟨.assistant, .text completion⟩) ↔ WritesAssistant messages := by
  rw [storeCompletion, WritesAssistant]
  cases isLast : messages.getLast? with
  | none =>
    rw [lastMessage, isLast]
    constructor
    · rintro ⟨stored, isStored, -⟩
      cases isStored
    · rintro ⟨last, isLast, -⟩
      cases isLast
  | some last =>
    have found : lastMessage messages = .ok last := by rw [lastMessage, isLast]
    rw [found]
    show (∃ stored, (if last.role = .assistant then _ else _) = _ ∧ _) ↔ _
    by_cases isAssistant : last.role = .assistant
    · rw [if_pos isAssistant]
      refine writes_iff.trans ?_
      by_cases isTrue : last.content.truthy = true
      · rw [if_pos isTrue, isLast]
        refine ⟨fun _ => ⟨last, rfl, fun _ isFalse => ?_⟩, fun _ => ⟨last, rfl, isAssistant⟩⟩
        rw [isTrue] at isFalse
        cases isFalse
      · rw [if_neg isTrue]
        rw [Bool.not_eq_true] at isTrue
        constructor
        · exact fun before => ⟨last, rfl, fun _ _ => before⟩
        · rintro ⟨other, isOther, before⟩
          obtain rfl := Option.some.inj isOther
          exact before isAssistant isTrue
    · rw [if_neg isAssistant]
      refine ⟨fun _ => ⟨last, rfl, fun is => absurd is isAssistant⟩, fun _ => ⟨_, rfl, ?_⟩⟩
      rw [getLast?_concat]

/-! ## The ids, the mask and the text -/

/-- The ids that a step returns decode to the text it stores, which is what is before the first tag
and then the tip. The loss mask leaves out the ids of the tip, and the log probabilities, where the
reply has some, belong to the other ids. -/
structure Agrees (tokenizer : Tokenizer) (tipsPrompt : Text)
    (responseChoice : ChatCompletionResponseChoice) (result : StepResult) : Prop where
  stored : result.inferRequest.messages.getLast? = some ⟨.assistant, .text
    (String.ofList (beforeTags responseChoice.content.toList ++ tipsPrompt))⟩
  returned : ∃ kept ids mask, result.responseTokenIds = some ids ∧
    result.responseLossMask = some mask ∧ ids = kept ++ tokenizer.encode tipsPrompt ∧
    tokenizer.decode ids = beforeTags responseChoice.content.toList ++ tipsPrompt ∧
    mask = List.replicate kept.length 1 ++
      List.replicate (tokenizer.encode tipsPrompt).length 0 ∧
    (extractLogprobsFromChoice responseChoice ≠ [] →
      (result.rolloutLogprobs.getD []).length = mask.count 1)

/-- A reply whose ids decode to its text, with a log probability for each id or none at all. -/
structure IsReply (tokenizer : Tokenizer) (responseChoice : ChatCompletionResponseChoice) :
    Prop where
  decodes : ∃ ids ∈ responseChoice.tokenIds,
    tokenizer.decode ids = responseChoice.content.toList
  logprobs : extractLogprobsFromChoice responseChoice = [] ∨
    (extractLogprobsFromChoice responseChoice).length = (responseChoice.tokenIds.getD []).length

namespace MathTipsScheduler

variable {scheduler : MathTipsScheduler} {tokenizer : Tokenizer}

theorem getTipsTokenIds_fst (isTokenizer : scheduler.tokenizer = some tokenizer) :
    (scheduler.getTipsTokenIds tokenizer isTokenizer).1 =
      tokenizer.encode scheduler.tipsPrompt := by
  rw [getTipsTokenIds]
  split
  · rename_i ids isCached
    exact scheduler.cached tokenizer isTokenizer ids isCached
  · rfl

theorem appendTips_nil : scheduler.appendTips [] = ([], [], scheduler) := by
  rw [appendTips]
  split
  · rfl
  · rw [if_pos rfl]

theorem appendTips_some (isTokenizer : scheduler.tokenizer = some tokenizer) {ids : List ℕ}
    (isSome : ids ≠ []) :
    ∃ next, scheduler.appendTips ids = (ids ++ tokenizer.encode scheduler.tipsPrompt,
      replicate ids.length 1 ++
        replicate (tokenizer.encode scheduler.tipsPrompt).length 0, next) := by
  rw [appendTips]
  split
  · rename_i none
    rw [isTokenizer] at none
    cases none
  · rename_i other isOther
    obtain rfl := Option.some.inj (isTokenizer.symm.trans isOther)
    rw [if_neg isSome]
    refine ⟨(scheduler.getTipsTokenIds tokenizer isTokenizer).2, ?_⟩
    dsimp only
    rw [getTipsTokenIds_fst isTokenizer]

variable {responseChoice : ChatCompletionResponseChoice}

/-- What a step stores and returns, where the reply has ids. -/
theorem step_some (isTokenizer : scheduler.tokenizer = some tokenizer)
    (inferRequest : RolloutInferRequest) {ids : List ℕ}
    (isIds : responseChoice.tokenIds.getD [] = ids) (isSome : ids ≠ [])
    (decodes : tokenizer.decode ids = responseChoice.content.toList)
    (few : (extractLogprobsFromChoice responseChoice).length ≤ ids.length) {kept : List ℕ}
    (isKept : ids.take (keptCount tokenizer ids responseChoice.content.toList) = kept)
    {logprobs : List Logprob}
    (isLogprobs : (extractLogprobsFromChoice responseChoice).take
      (keptCount tokenizer ids responseChoice.content.toList) = logprobs) :
    ∃ next, scheduler.step inferRequest responseChoice = (do
      let messages ← storeCompletion inferRequest.messages
        (String.ofList (beforeTags responseChoice.content.toList ++ scheduler.tipsPrompt))
      .ok (⟨{ inferRequest with messages := messages },
        some (kept ++ tokenizer.encode scheduler.tipsPrompt),
        some (replicate kept.length 1 ++
          replicate (tokenizer.encode scheduler.tipsPrompt).length 0), none,
        if logprobs ≠ [] then some logprobs else none⟩, next)) := by
  have positive := keptCount_pos isSome decodes
  have keptSome : kept ≠ [] := by
    rw [← isKept, ne_eq, take_eq_nil_iff]
    exact fun none => none.elim (Nat.ne_of_gt positive) isSome
  obtain ⟨next, appended⟩ := @appendTips_some scheduler tokenizer isTokenizer kept keptSome
  refine ⟨next, ?_⟩
  have cut : (if truncateIdx responseChoice.content.toList < responseChoice.content.toList.length
      then (responseChoice.content.toList.take (truncateIdx responseChoice.content.toList),
        truncateIds scheduler.tokenizer ids (extractLogprobsFromChoice responseChoice)
          (truncateIdx responseChoice.content.toList))
      else (responseChoice.content.toList, ids, extractLogprobsFromChoice responseChoice)) =
        (beforeTags responseChoice.content.toList, kept, logprobs) := by
    rw [← isKept, ← isLogprobs, keptCount]
    split
    · rw [isTokenizer, truncateIds]
      dsimp only
      rw [if_neg isSome, beforeTags]
    · rename_i whole
      have noTag := Nat.le_antisymm (truncateIdx_spec responseChoice.content.toList).1
        (Nat.le_of_not_lt whole)
      rw [take_length, take_of_length_le few, beforeTags, noTag, take_length]
  have returned : kept ++ tokenizer.encode scheduler.tipsPrompt ≠ [] := by simp [keptSome]
  rw [step]
  dsimp only
  rw [isIds, cut]
  dsimp only
  rw [appended]
  dsimp only
  rw [if_pos returned, if_pos returned]
  simp only [returned, true_and, ne_eq, not_false_eq_true]

/-- A reply without ids gets none. -/
theorem step_none (inferRequest : RolloutInferRequest)
    (noIds : responseChoice.tokenIds.getD [] = []) {result : StepResult} {next : MathTipsScheduler}
    (stepped : scheduler.step inferRequest responseChoice = .ok (result, next)) :
    result.responseTokenIds = none := by
  have cut : ∃ completion logprobs,
      (if truncateIdx responseChoice.content.toList < responseChoice.content.toList.length
        then (responseChoice.content.toList.take (truncateIdx responseChoice.content.toList),
          truncateIds scheduler.tokenizer [] (extractLogprobsFromChoice responseChoice)
            (truncateIdx responseChoice.content.toList))
        else (responseChoice.content.toList, [], extractLogprobsFromChoice responseChoice)) =
          (completion, [], logprobs) := by
    split
    · cases scheduler.tokenizer with
      | none => exact ⟨_, _, rfl⟩
      | some tokenizer =>
        rw [truncateIds, if_pos rfl]
        exact ⟨_, _, rfl⟩
    · exact ⟨_, _, rfl⟩
  obtain ⟨completion, logprobs, cut⟩ := cut
  rw [step] at stepped
  dsimp only at stepped
  rw [noIds, cut] at stepped
  dsimp only at stepped
  rw [appendTips_nil] at stepped
  dsimp only at stepped
  cases stores : storeCompletion inferRequest.messages
      (String.ofList (completion ++ scheduler.tipsPrompt)) with
  | error error =>
    rw [stores] at stepped
    cases stepped
  | ok messages =>
    rw [stores] at stepped
    cases stepped
    rfl

/-- A reply with ids is stored in agreement with them exactly when the ids kept decode to the text
before the first tag. -/
theorem step_agrees_kept_iff (isTokenizer : scheduler.tokenizer = some tokenizer)
    (inferRequest : RolloutInferRequest) (reply : IsReply tokenizer responseChoice) {ids : List ℕ}
    (given : responseChoice.tokenIds.getD [] = ids) (isSome : ids ≠ [])
    (decodes : tokenizer.decode ids = responseChoice.content.toList) :
    (∃ result next, scheduler.step inferRequest responseChoice = .ok (result, next) ∧
      Agrees tokenizer scheduler.tipsPrompt responseChoice result) ↔
        tokenizer.decode (ids.take (keptCount tokenizer ids responseChoice.content.toList)) =
          beforeTags responseChoice.content.toList ∧ WritesAssistant inferRequest.messages := by
  have logprobs := reply.logprobs
  rw [given] at logprobs
  have few : (extractLogprobsFromChoice responseChoice).length ≤ ids.length := by
    rcases logprobs with none | same
    · rw [none]
      exact Nat.zero_le _
    · exact Nat.le_of_eq same
  obtain ⟨next, stepped⟩ := @step_some scheduler tokenizer responseChoice isTokenizer
    inferRequest ids given isSome decodes few _ rfl _ rfl
  rw [stepped, ← storesAssistant_iff]
  have tip := tokenizer.decode_encode scheduler.tipsPrompt
  constructor
  · rintro ⟨result, other, isResult, agrees⟩
    cases stores : storeCompletion inferRequest.messages (String.ofList
        (beforeTags responseChoice.content.toList ++ scheduler.tipsPrompt)) with
    | error error =>
      rw [stores] at isResult
      cases isResult
    | ok messages =>
      rw [stores] at isResult
      cases isResult
      obtain ⟨-, returned, -, isReturned, -, -, same, -⟩ := agrees.returned
      rw [← Option.some.inj isReturned, tokenizer.decode_append, tip] at same
      exact ⟨append_cancel_right same, messages, rfl, agrees.stored⟩
  · rintro ⟨same, messages, stores, last⟩
    rw [stores]
    refine ⟨_, _, rfl, last, _, _, _, rfl, rfl, rfl, ?_, rfl, fun someLogprobs => ?_⟩
    · rw [tokenizer.decode_append, same, tip]
    · have same : (extractLogprobsFromChoice responseChoice).length = ids.length :=
        logprobs.resolve_left someLogprobs
      have keptLogprobs : ((if (extractLogprobsFromChoice responseChoice).take
          (keptCount tokenizer ids responseChoice.content.toList) ≠ [] then
            some ((extractLogprobsFromChoice responseChoice).take
              (keptCount tokenizer ids responseChoice.content.toList)) else none).getD []) =
          (extractLogprobsFromChoice responseChoice).take
            (keptCount tokenizer ids responseChoice.content.toList) := by
        split
        · rfl
        · rename_i none
          exact (not_ne_iff.mp none).symm
      rw [keptLogprobs, count_append, count_replicate_self, count_replicate]
      simp [same]

/-- **The ids and the text of a step agree** exactly when some of the first ids, one at least,
decode to what is before the first tag, and the completion is written to an assistant message. -/
theorem step_agrees_iff (scheduler : MathTipsScheduler) {tokenizer : Tokenizer}
    (isTokenizer : scheduler.tokenizer = some tokenizer) (inferRequest : RolloutInferRequest)
    {responseChoice : ChatCompletionResponseChoice} (reply : IsReply tokenizer responseChoice) :
    (∃ result next, scheduler.step inferRequest responseChoice = .ok (result, next) ∧
      Agrees tokenizer scheduler.tipsPrompt responseChoice result) ↔
        EndsAtTag tokenizer (responseChoice.tokenIds.getD []) responseChoice.content.toList ∧
          WritesAssistant inferRequest.messages := by
  obtain ⟨ids, isIds, decodes⟩ := reply.decodes
  have given : responseChoice.tokenIds.getD [] = ids := by
    rw [Option.mem_def.mp isIds, Option.getD_some]
  rw [given]
  by_cases isNil : ids = []
  · subst isNil
    constructor
    · rintro ⟨result, next, stepped, agrees⟩
      obtain ⟨kept, other, mask, isReturned, -⟩ := agrees.returned
      rw [step_none inferRequest given stepped] at isReturned
      cases isReturned
    · rintro ⟨⟨first, isSome, isPrefix, -⟩, -⟩
      exact absurd (prefix_nil.mp isPrefix) isSome
  · rw [step_agrees_kept_iff isTokenizer inferRequest reply given isNil decodes,
      decode_kept_iff isNil decodes]

/-- Ids that are the codes of characters. -/
def characterTokenizer : Tokenizer where
  encode text := text.map Char.toNat
  decode ids := ids.map Char.ofNat
  decode_append _ _ := map_append
  decode_encode text := by
    rw [map_map]
    exact map_id'' (fun char => Char.ofNat_toNat char) text

def waiting : MathTipsScheduler where
  tipsPrompt := "Wait".toList
  tokenizer := some characterTokenizer
  tipsTokenIds := none
  cached _ _ ids isIds := by cases isIds

/-- A reply whose ids are its characters, without log probabilities. -/
def replied (content : String) : ChatCompletionResponseChoice :=
  ⟨content, some .stop, none, some (characterTokenizer.encode content.toList)⟩

theorem isReply_replied (content : String) : IsReply characterTokenizer (replied content) :=
  ⟨⟨_, rfl, characterTokenizer.decode_encode _⟩, .inl rfl⟩

def requested (completion : String) : RolloutInferRequest :=
  ⟨[⟨.user, .text "What is 2 + 2?"⟩, ⟨.assistant, .text completion⟩], [], [], [], none, [], [], none⟩

theorem step_agrees_iff_waiting :
    (∃ result next, waiting.step (requested "4</think>") (replied "4</think>") =
      .ok (result, next) ∧ Agrees characterTokenizer "Wait".toList (replied "4</think>") result) ↔
        EndsAtTag characterTokenizer ((replied "4</think>").tokenIds.getD [])
            (replied "4</think>").content.toList ∧
          WritesAssistant (requested "4</think>").messages :=
  step_agrees_iff waiting rfl _ (isReply_replied _)

/-- A reply that begins with a tag leaves one id, which decodes to the beginning of the tag. -/
theorem not_agrees_at_tag :
    ¬ ∃ result next, waiting.step (requested "</think>") (replied "</think>") =
      .ok (result, next) ∧ Agrees characterTokenizer "Wait".toList (replied "</think>") result := by
  intro agrees
  have kept := (step_agrees_kept_iff rfl _ (isReply_replied "</think>") rfl
    (by decide +kernel) (characterTokenizer.decode_encode _)).mp agrees
  exact absurd kept.1 (by decide +kernel)

end MathTipsScheduler

/-! ## The history of a round -/

inductive TemplateMode where
  | transformers
  | vllm
  | lmdeploy
  | sglang
  | train
  | rlhf
  | kto
  deriving DecidableEq, Repr

/-- The template of an engine. `isSwift` says whether its backend is `swift`. -/
structure EngineTemplate where
  agentTemplate : BaseAgentTemplate
  isSwift : Bool
  isThinking : Bool
  mode : TemplateMode

/-- An element of the history of a round: a message, or only a text. -/
inductive RoundMessage where
  | message (value : Message)
  | text (value : String)
  deriving DecidableEq, Repr

/-- The original messages, and the template of the engine where it has one. -/
structure RoundState where
  originalMessages : Messages
  template : Option EngineTemplate

/-- `content.split('</think>')[-1].strip()` -/
def removeThinking (content : String) : String :=
  let last := match splitLast thinkEndTag content.toList with
    | some parts => parts.2
    | none => content.toList
  String.ofList (strip isBlank last)

/-- The template branch. The mode of the template is set, and set back. -/
def prepareRound (template : EngineTemplate) (originalMessages : Messages) :
    Except PyError (Option (List RoundMessage × RoundState)) := do
  let originalMode := template.mode
  let template := { template with mode := .train }
  let prepared ← swiftPrepareInputs template.agentTemplate template.isSwift originalMessages
  let template := { template with mode := originalMode }
  .ok (prepared.map fun found =>
    (found.1.map .message, ⟨originalMessages, some template⟩))

/-- The manual branch. -/
def roundMessages (originalMessages : Messages) : List RoundMessage :=
  originalMessages.zipIdx.map fun item =>
    match item.1 with
    | ⟨.assistant, .text content⟩ =>
      if item.2 ≠ originalMessages.length - 1 then .text (removeThinking content)
      else .message item.1
    | message => .message message

def buildMessages (state : RoundState) :
    Except PyError (Option (List RoundMessage × RoundState)) :=
  match state.template with
  | some template =>
    if template.isThinking = true then prepareRound template state.originalMessages
    else .ok (some (roundMessages state.originalMessages, state))
  | none => .ok (some (roundMessages state.originalMessages, state))

/-- A conversation without tool messages or repeated roles. -/
structure IsPlain (messages : Messages) : Prop where
  noTool : ∀ message ∈ messages, message.role ≠ .tool
  alternate : messages.IsChain fun first next => first.role ≠ next.role

def withoutThinking (message : Message) : Message :=
  match message with
  | ⟨.assistant, .text content⟩ => ⟨.assistant, .text (removeThinking content)⟩
  | message => message

/-- The conversation without the thinking before its last message. -/
def reduceThinking (messages : Messages) : Messages :=
  messages.dropLast.map withoutThinking ++ messages.getLast?.toList

/-- Both branches build the conversation without its earlier thinking, of every template in every
mode, and leave the original conversation and the template as they were. -/
def BuildsAlike (messages : Messages) : Prop :=
  ∀ state : RoundState, state.originalMessages = messages →
    buildMessages state = .ok (some ((reduceThinking messages).map .message, state))

/-- An assistant message with a text. -/
def SaysText (message : Message) : Prop :=
  message.role = .assistant ∧ ∃ content, message.content = .text content

theorem withoutThinking_of_not {message : Message} (not : ¬ SaysText message) :
    withoutThinking message = message := by
  unfold withoutThinking
  split
  · exact absurd ⟨rfl, _, rfl⟩ not
  · rfl

theorem reduceThinking_of_not (not : ∀ message ∈ messages.dropLast, ¬ SaysText message) :
    reduceThinking messages = messages := by
  rcases eq_nil_or_concat messages with rfl | ⟨earlier, last, rfl⟩
  · rfl
  · rw [concat_eq_append, dropLast_concat] at not
    rw [concat_eq_append, reduceThinking, dropLast_concat, getLast?_concat,
      map_congr_left fun message isIn => withoutThinking_of_not (not message isIn), map_id']
    rfl

/-- The manual branch gives only texts for what an assistant has said. -/
def roundMessage (message : Message) : RoundMessage :=
  match message with
  | ⟨.assistant, .text content⟩ => .text (removeThinking content)
  | message => .message message

theorem roundMessage_of_not {message : Message} (not : ¬ SaysText message) :
    roundMessage message = .message message := by
  unfold roundMessage
  split
  · exact absurd ⟨rfl, _, rfl⟩ not
  · rfl

theorem roundMessages_concat (earlier : Messages) (last : Message) :
    roundMessages (earlier ++ [last]) = earlier.map roundMessage ++ [.message last] := by
  rw [roundMessages, zipIdx_append, map_append, length_append, length_singleton, Nat.add_sub_cancel]
  refine congr (congrArg HAppend.hAppend ?_) ?_
  · conv_rhs => rw [← zipIdx_map_fst 0 earlier, map_map]
    refine map_congr_left fun item isIn => ?_
    have before : item.2 ≠ earlier.length := Nat.ne_of_lt (snd_lt_of_mem_zipIdx isIn)
    rw [Function.comp_apply]
    unfold roundMessage
    split
    · rw [if_pos before]
    · rfl
  · rw [zipIdx_singleton, map_singleton, Nat.zero_add]
    dsimp only
    split
    · rw [if_neg (not_not_intro rfl)]
    · rfl

theorem IsPlain.stayApart (isPlain : IsPlain messages) : StayApart messages :=
  isPlain.alternate.imp_of_mem_imp fun _ next _ isIn differ =>
    ⟨differ, fun isTool => absurd isTool (isPlain.noTool next isIn)⟩

theorem BuildsAlike.not_saysText (alike : BuildsAlike messages) :
    ∀ message ∈ messages.dropLast, ¬ SaysText message := by
  intro message isIn said
  have manual := alike ⟨messages, none⟩ rfl
  rcases eq_nil_or_concat messages with rfl | ⟨earlier, last, rfl⟩
  · cases isIn
  · rw [concat_eq_append] at manual isIn
    rw [dropLast_concat] at isIn
    have same : roundMessages (earlier ++ [last]) = (reduceThinking (earlier ++ [last])).map .message :=
      congrArg Prod.fst (Option.some.inj (Except.ok.inj manual))
    have inside : roundMessage message ∈ (reduceThinking (earlier ++ [last])).map .message := by
      rw [← same, roundMessages_concat]
      exact mem_append_left _ (mem_map_of_mem isIn)
    obtain ⟨value, -, isMessage⟩ := mem_map.mp inside
    obtain ⟨role, content⟩ := message
    obtain ⟨isAssistant, text, isText⟩ := said
    obtain rfl : role = .assistant := isAssistant
    obtain rfl : content = .text text := isText
    cases isMessage

theorem roundMessages_of_not (not : ∀ message ∈ messages.dropLast, ¬ SaysText message) :
    roundMessages messages = messages.map .message := by
  rcases eq_nil_or_concat messages with rfl | ⟨earlier, last, rfl⟩
  · rfl
  · rw [concat_eq_append, dropLast_concat] at not
    rw [concat_eq_append, roundMessages_concat, map_append,
      map_congr_left fun message isIn => roundMessage_of_not (not message isIn)]
    rfl

/-- The template branch removes no thinking. -/
theorem prepareRound_eq (isPlain : IsPlain messages) (template : EngineTemplate) :
    prepareRound template messages =
      .ok (some (messages.map .message, ⟨messages, some template⟩)) := by
  rw [prepareRound]
  dsimp only
  rw [swiftPrepareInputs_apart isPlain.stayApart]
  rfl

/-- **The histories of both branches are the reduced conversation** exactly when no assistant has
said anything before the last message. -/
theorem buildsAlike_iff {messages : Messages} (isPlain : IsPlain messages) :
    BuildsAlike messages ↔ ∀ message ∈ messages.dropLast, ¬ SaysText message := by
  refine ⟨BuildsAlike.not_saysText, fun not state isState => ?_⟩
  obtain ⟨original, template⟩ := state
  obtain rfl : original = messages := isState
  rw [reduceThinking_of_not not, buildMessages]
  cases template with
  | none => rw [roundMessages_of_not not]
  | some template =>
    dsimp only
    split
    · rw [prepareRound_eq isPlain]
    · rw [roundMessages_of_not not]

/-- A question, an answer after some thinking, and another question. -/
def doubted : Messages :=
  [⟨.user, .text "What is 2 + 2?"⟩, ⟨.assistant, .text "<think>2 + 2</think>4"⟩,
    ⟨.user, .text "Are you sure?"⟩]

theorem isPlain_doubted : IsPlain doubted where
  noTool := by decide
  alternate := by decide

theorem buildsAlike_iff_doubted :
    BuildsAlike doubted ↔ ∀ message ∈ doubted.dropLast, ¬ SaysText message :=
  buildsAlike_iff isPlain_doubted

/-- The manual branch gives the answer without its role. -/
theorem not_buildsAlike_doubted : ¬ BuildsAlike doubted := fun alike =>
  alike.not_saysText _ (.tail _ (.head _)) ⟨rfl, _, rfl⟩

end Geobench.Rollout
