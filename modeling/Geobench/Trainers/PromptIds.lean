import Geobench.Library.Json
import Geobench.Library.Text
import Mathlib.Data.List.AList

/-!
# Prompt ids

Before a rollout every row of the batch gets a prompt id. The rows of all ranks are
numbered by the text of their messages, in the order of the ranks, and rows with one text
share an id. Groups for advantages are formed by this id.

The text determines the messages, so two rows share an id exactly when they have the same
messages (`promptId_eq_iff`). The images, audios and videos of a row do not enter: the
ids tell prompts apart exactly when no two rows have the same messages with different
media (`prompt_ids_identify_iff`). The rows of the GeoGRPO training set all have the same
messages (`swift_rows_share_prompt_id`).
-/

namespace Geobench.Trainers

open Library List

/-! ## Rows -/

/-- A row of the training data, with the ids it gets before a rollout. The columns that
are read nowhere here are kept as they are. -/
structure InputRow where
  messages : List Json
  images : List Json
  audios : List Json
  videos : List Json
  columns : List (Text × Json)
  promptId : Option Text
  requestId : Option Text

/-- The images, audios and videos of a row. -/
def InputRow.media (row : InputRow) : List Json × List Json × List Json :=
  (row.images, row.audios, row.videos)

/-- A row of the GeoGRPO training set. -/
structure GeoRow where
  path : Text
  latitude : Json
  longitude : Json
  id : Json
  category : Json
  rewardMean : Json
  rewardStd : Json
  bucket : Json

/-- The row that is written for training. -/
def toSwiftRow (row : GeoRow) (systemPrompt userPrompt : Text) : InputRow where
  messages := [
    .object [("role".toList, .string "system".toList), ("content".toList, .string systemPrompt)],
    .object [("role".toList, .string "user".toList), ("content".toList, .string userPrompt)]]
  images := [.string row.path]
  audios := []
  videos := []
  columns := [
    ("latitude".toList, row.latitude), ("longitude".toList, row.longitude), ("id".toList, row.id),
    ("category".toList, row.category), ("reward_mean".toList, row.rewardMean),
    ("reward_std".toList, row.rewardStd), ("bucket".toList, row.bucket)]
  promptId := none
  requestId := none

/-! ## Numbering the prompts -/

/-- The ids given so far, and the number of the next one. -/
structure PromptTable where
  messagesToPromptId : AList fun _ : Text => Text
  promptIdCounter : ℕ

def promptIdOf (number : ℕ) : Text := "prompt_".toList ++ Nat.toDigits 10 number

def promptKey (messages : List Json) : Text := (Json.array messages).dumps

/-- Give an id to messages that have none. -/
def PromptTable.add (table : PromptTable) (messages : List Json) : PromptTable :=
  if promptKey messages ∈ table.messagesToPromptId then table
  else {
    messagesToPromptId :=
      table.messagesToPromptId.insert (promptKey messages) (promptIdOf table.promptIdCounter)
    promptIdCounter := table.promptIdCounter + 1 }

def promptTable (allMessages : List (List Json)) : PromptTable :=
  allMessages.foldl PromptTable.add ⟨∅, 0⟩

/-- Give the rows of a rank their ids. The request ids are `uuid`s. -/
def addPromptIdToInputs (allMessages : List (List Json)) (uuids : ℕ → Text)
    (inputs : List InputRow) : List InputRow :=
  inputs.zipIdx.map fun (row, index) => { row with
    promptId := (promptTable allMessages).messagesToPromptId.lookup (promptKey row.messages)
    requestId := some ("chatcmpl-".toList ++ uuids index) }

/-- Give the rows of all ranks their ids, from the messages gathered over the ranks. -/
def addPromptIds (uuids : ℕ → ℕ → Text) (ranks : List (List InputRow)) : List (List InputRow) :=
  ranks.zipIdx.map fun (inputs, rank) =>
    addPromptIdToInputs (ranks.flatten.map InputRow.messages) (uuids rank) inputs

/-! ## One id for each text -/

theorem promptIdOf_injective : Function.Injective promptIdOf := by
  intro number other same
  have digits := append_cancel_left same
  have values := congrArg (Nat.ofDigitChars 10 · 0) digits
  simpa only [Nat.ofDigitChars_toDigits (show 1 < 10 by decide) (Nat.le_refl 10)] using values

theorem promptKey_injective : Function.Injective promptKey := by
  intro messages other same
  exact Json.array.inj (dumps_injective same)

/-- The ids of a table are numbers below its counter, one for each text. -/
structure PromptTable.Inv (table : PromptTable) : Prop where
  numbered : ∀ key name, table.messagesToPromptId.lookup key = some name →
    ∃ number < table.promptIdCounter, name = promptIdOf number
  distinct : ∀ key other name, table.messagesToPromptId.lookup key = some name →
    table.messagesToPromptId.lookup other = some name → key = other

theorem PromptTable.Inv.add {table : PromptTable} (inv : table.Inv) (messages : List Json) :
    (table.add messages).Inv := by
  unfold PromptTable.add
  split
  · exact inv
  · rename_i fresh
    have lookup_cases {key name : Text}
        (found : (table.messagesToPromptId.insert (promptKey messages)
          (promptIdOf table.promptIdCounter)).lookup key = some name) :
        (key = promptKey messages ∧ name = promptIdOf table.promptIdCounter) ∨
          table.messagesToPromptId.lookup key = some name := by
      by_cases same : key = promptKey messages
      · subst same
        rw [AList.lookup_insert, Option.some.injEq] at found
        exact .inl ⟨rfl, found.symm⟩
      · rw [AList.lookup_insert_ne same] at found
        exact .inr found
    -- the new number is larger than those given before
    have isNew {key : Text} :
        table.messagesToPromptId.lookup key ≠ some (promptIdOf table.promptIdCounter) := by
      intro found
      obtain ⟨number, below, same⟩ := inv.numbered _ _ found
      have := promptIdOf_injective same
      omega
    constructor
    · intro key name found
      rcases lookup_cases found with ⟨-, rfl⟩ | earlier
      · exact ⟨_, Nat.lt_succ_self _, rfl⟩
      · obtain ⟨number, below, isName⟩ := inv.numbered _ _ earlier
        exact ⟨number, Nat.lt_succ_of_lt below, isName⟩
    · intro key other name found foundOther
      rcases lookup_cases found with ⟨rfl, rfl⟩ | earlier
      · rcases lookup_cases foundOther with ⟨rfl, -⟩ | earlierOther
        · rfl
        · exact absurd earlierOther isNew
      · rcases lookup_cases foundOther with ⟨rfl, rfl⟩ | earlierOther
        · exact absurd earlier isNew
        · exact inv.distinct key other name earlier earlierOther

theorem mem_add (table : PromptTable) (messages : List Json) {key : Text} :
    key ∈ (table.add messages).messagesToPromptId ↔
      key = promptKey messages ∨ key ∈ table.messagesToPromptId := by
  unfold PromptTable.add
  split
  · rename_i present
    constructor
    · exact .inr
    · rintro (rfl | member)
      · exact present
      · exact member
  · exact AList.mem_insert _

theorem promptTable_spec (allMessages : List (List Json)) :
    (promptTable allMessages).Inv ∧
      ∀ messages ∈ allMessages, promptKey messages ∈ (promptTable allMessages).messagesToPromptId := by
  have run (table : PromptTable) (inv : table.Inv) :
      (allMessages.foldl PromptTable.add table).Inv ∧ ∀ key,
        (key ∈ table.messagesToPromptId ∨ ∃ messages ∈ allMessages, key = promptKey messages) →
          key ∈ (allMessages.foldl PromptTable.add table).messagesToPromptId := by
    induction allMessages generalizing table with
    | nil =>
      refine ⟨inv, fun key known => known.resolve_right ?_⟩
      rintro ⟨messages, member, -⟩
      cases member
    | cons messages rest ih =>
      obtain ⟨invRest, members⟩ := ih (table.add messages) (inv.add messages)
      refine ⟨invRest, fun key known => members key ?_⟩
      rcases known with earlier | ⟨other, member, rfl⟩
      · exact .inl ((mem_add _ _).mpr (.inr earlier))
      · rcases mem_cons.mp member with rfl | later
        · exact .inl ((mem_add _ _).mpr (.inl rfl))
        · exact .inr ⟨other, later, rfl⟩
  have empty : (PromptTable.mk ∅ 0).Inv := by
    constructor
    · intro key name found
      cases found
    · intro key other name found
      cases found
  obtain ⟨inv, members⟩ := run ⟨∅, 0⟩ empty
  exact ⟨inv, fun messages member => members _ (.inr ⟨messages, member, rfl⟩)⟩

/-! ## The ids of a batch -/

section Batch

variable {uuids : ℕ → ℕ → Text} {ranks : List (List InputRow)}

def batchTable (ranks : List (List InputRow)) : PromptTable :=
  promptTable (ranks.flatten.map InputRow.messages)

/-- The rows keep their messages and media, and get the ids of their messages. -/
theorem addPromptIds_rows (uuids : ℕ → ℕ → Text) (ranks : List (List InputRow)) :
    (addPromptIds uuids ranks).flatten.map (fun row => (row.messages, row.media, row.promptId)) =
      ranks.flatten.map fun row => (row.messages, row.media,
        (batchTable ranks).messagesToPromptId.lookup (promptKey row.messages)) := by
  have rank_rows (allMessages : List (List Json)) (uuids : ℕ → Text) (inputs : List InputRow) :
      (addPromptIdToInputs allMessages uuids inputs).map
          (fun row => (row.messages, row.media, row.promptId)) =
        inputs.map fun row => (row.messages, row.media,
          (promptTable allMessages).messagesToPromptId.lookup (promptKey row.messages)) := by
    conv_rhs => rw [← zipIdx_map_fst 0 inputs]
    rw [addPromptIdToInputs, map_map, map_map]
    rfl
  unfold addPromptIds batchTable
  generalize ranks.flatten.map InputRow.messages = allMessages
  rw [map_flatten, map_flatten, map_map]
  conv_rhs => rw [← zipIdx_map_fst 0 ranks]
  rw [map_map]
  refine congrArg flatten (map_congr_left ?_)
  rintro ⟨inputs, rank⟩ -
  exact rank_rows allMessages (uuids rank) inputs

theorem exists_input {row : InputRow} (member : row ∈ (addPromptIds uuids ranks).flatten) :
    ∃ input ∈ ranks.flatten, row.messages = input.messages ∧ row.media = input.media ∧
      ∃ name, row.promptId = some name ∧
        (batchTable ranks).messagesToPromptId.lookup (promptKey input.messages) = some name := by
  have mapped := mem_map_of_mem (f := fun row : InputRow =>
    (row.messages, row.media, row.promptId)) member
  rw [addPromptIds_rows, mem_map] at mapped
  obtain ⟨input, inputMember, same⟩ := mapped
  simp only [Prod.mk.injEq] at same
  obtain ⟨messages, media, promptId⟩ := same
  have known := (promptTable_spec (ranks.flatten.map InputRow.messages)).2 input.messages
    (mem_map_of_mem inputMember)
  obtain ⟨name, isName⟩ := Option.isSome_iff_exists.mp (AList.lookup_isSome.mpr known)
  exact ⟨input, inputMember, messages.symm, media.symm, name, promptId ▸ isName, isName⟩

/-- Every row of the batch gets ids. -/
theorem exists_identified (uuids : ℕ → ℕ → Text) {input : InputRow}
    (member : input ∈ ranks.flatten) :
    ∃ row ∈ (addPromptIds uuids ranks).flatten, row.messages = input.messages ∧
      row.media = input.media := by
  have mapped := mem_map_of_mem (f := fun row : InputRow => (row.messages, row.media,
    (batchTable ranks).messagesToPromptId.lookup (promptKey row.messages))) member
  rw [← addPromptIds_rows uuids, mem_map] at mapped
  obtain ⟨row, rowMember, same⟩ := mapped
  simp only [Prod.mk.injEq] at same
  exact ⟨row, rowMember, same.1, same.2.1⟩

/-- Two rows share an id exactly when they have the same messages. -/
theorem promptId_eq_iff {first second : InputRow}
    (member : first ∈ (addPromptIds uuids ranks).flatten)
    (memberSecond : second ∈ (addPromptIds uuids ranks).flatten) :
    first.promptId = second.promptId ↔ first.messages = second.messages := by
  obtain ⟨input, -, messages, -, name, isName, found⟩ := exists_input member
  obtain ⟨input', -, messages', -, name', isName', found'⟩ := exists_input memberSecond
  rw [isName, isName', Option.some.injEq, messages, messages']
  constructor
  · rintro rfl
    exact promptKey_injective ((promptTable_spec _).1.distinct _ _ _ found found')
  · intro same
    rw [same, found', Option.some.injEq] at found
    exact found.symm

/-- **The ids tell prompts apart, media included, exactly when no two rows of the batch
have the same messages with different media.** -/
theorem prompt_ids_identify_iff (uuids : ℕ → ℕ → Text) (ranks : List (List InputRow)) :
    (∀ first ∈ (addPromptIds uuids ranks).flatten,
        ∀ second ∈ (addPromptIds uuids ranks).flatten,
          first.promptId = second.promptId ↔
            first.messages = second.messages ∧ first.media = second.media) ↔
      ∀ first ∈ ranks.flatten, ∀ second ∈ ranks.flatten,
        first.messages = second.messages → first.media = second.media := by
  constructor
  · intro identify first member second memberSecond same
    obtain ⟨row, rowMember, messages, media⟩ := exists_identified uuids member
    obtain ⟨row', rowMember', messages', media'⟩ := exists_identified uuids memberSecond
    have sameId : row.promptId = row'.promptId :=
      (promptId_eq_iff rowMember rowMember').mpr (by rw [messages, messages', same])
    rw [← media, ← media', ((identify row rowMember row' rowMember').mp sameId).2]
  · intro determine first member second memberSecond
    rw [promptId_eq_iff member memberSecond]
    obtain ⟨input, inputMember, messages, media, -⟩ := exists_input member
    obtain ⟨input', inputMember', messages', media', -⟩ := exists_input memberSecond
    constructor
    · intro same
      refine ⟨same, ?_⟩
      rw [media, media']
      exact determine input inputMember input' inputMember' (by rw [← messages, ← messages', same])
    · exact And.left

/-- All rows of the GeoGRPO training set share one id. -/
theorem swift_rows_share_prompt_id {systemPrompt userPrompt : Text}
    (written : ∀ row ∈ ranks.flatten, ∃ geoRow, row = toSwiftRow geoRow systemPrompt userPrompt)
    {first second : InputRow} (member : first ∈ (addPromptIds uuids ranks).flatten)
    (memberSecond : second ∈ (addPromptIds uuids ranks).flatten) :
    first.promptId = second.promptId := by
  rw [promptId_eq_iff member memberSecond]
  obtain ⟨input, inputMember, messages, -⟩ := exists_input member
  obtain ⟨input', inputMember', messages', -⟩ := exists_input memberSecond
  obtain ⟨geoRow, rfl⟩ := written input inputMember
  obtain ⟨geoRow', rfl⟩ := written input' inputMember'
  rw [messages, messages']
  rfl

end Batch

/-- A photo of the training set. -/
def photo (path : Text) : GeoRow :=
  ⟨path, .null, .null, .null, .null, .null, .null, .null⟩

def photoRow (path : Text) : InputRow :=
  toSwiftRow (photo path) "You are a geographer.".toList "Where is this?".toList

def twoPhotos : List (List InputRow) :=
  [[photoRow "paris.jpg".toList], [photoRow "rome.jpg".toList]]

/-- **Two photos share a prompt id**, as two rows with different images. -/
theorem different_images_share_prompt_id :
    (∃ first ∈ (addPromptIds (fun _ _ => []) twoPhotos).flatten,
      ∃ second ∈ (addPromptIds (fun _ _ => []) twoPhotos).flatten,
        first.promptId = second.promptId ∧ first.media ≠ second.media) ∧
    ¬ ∀ first ∈ (addPromptIds (fun _ _ => []) twoPhotos).flatten,
        ∀ second ∈ (addPromptIds (fun _ _ => []) twoPhotos).flatten,
          first.promptId = second.promptId ↔
            first.messages = second.messages ∧ first.media = second.media := by
  have written : ∀ row ∈ twoPhotos.flatten, ∃ geoRow,
      row = toSwiftRow geoRow "You are a geographer.".toList "Where is this?".toList := by
    intro row member
    simp only [twoPhotos, flatten_cons, flatten_nil, append_nil,
      cons_append, nil_append, mem_cons, not_mem_nil, or_false] at member
    rcases member with rfl | rfl
    · exact ⟨_, rfl⟩
    · exact ⟨_, rfl⟩
  obtain ⟨paris, parisMember, -, parisMedia⟩ := @exists_identified twoPhotos
    (fun _ _ => []) (photoRow "paris.jpg".toList) (.head _)
  obtain ⟨rome, romeMember, -, romeMedia⟩ := @exists_identified twoPhotos
    (fun _ _ => []) (photoRow "rome.jpg".toList) (.tail _ (.head _))
  have sameId := swift_rows_share_prompt_id written parisMember romeMember
  have differ : paris.media ≠ rome.media := by
    rw [parisMedia, romeMedia]
    intro same
    have images := congrArg Prod.fst same
    simp only [InputRow.media, photoRow, photo, toSwiftRow, List.cons.injEq, Json.string.injEq,
      and_true] at images
    exact absurd images (by decide)
  exact ⟨⟨paris, parisMember, rome, romeMember, sameId, differ⟩,
    fun identify => differ ((identify paris parisMember rome romeMember).mp sameId).2⟩

end Geobench.Trainers
