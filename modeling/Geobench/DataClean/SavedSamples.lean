import Geobench.Library.Directory
import Geobench.Library.ListSlices
import Geobench.Library.Paths
import Geobench.Rewards.TruthCoordinates
import Mathlib.Data.List.Dedup
import Mathlib.Data.List.Perm.Subperm

/-!
# Samples of an earlier run

`main` samples each model on all items. What a model has generated is saved, with the true place of
its item in every row, and a later run takes it from the file when it is complete: there must be
`samples_per_image` rows of every item, with the name of the model and the reward mode of the run,
and no two rows of an item with the same index.

An index is a number in the range, not always a whole one, and the true place of a row is not
compared with that of the item. **`loadsExactly_iff`** says that this is all that the rows of a
complete file can be wrong in.
-/

namespace Geobench.DataClean

open Library List
open Rewards (PyFloat)

/-! ## Items and samples -/

/-- A decoded value. A Boolean is the number that it is equal to, and of a list or an object there
is the text. -/
inductive Cell where
  | none
  | number (value : PyFloat)
  | text (value : CodePoints)
  | composite (content : CodePoints)
  deriving DecidableEq

structure DatasetItem where
  itemId : CodePoints
  imagePath : CodePoints
  relativePath : CodePoints
  gtText : Cell
  gtLatitude : Cell
  gtLongitude : Cell

/-- The fields of a `SampleResult`. -/
inductive SampleField where
  | itemId
  | imagePath
  | relativePath
  | modelName
  | sampleIndex
  | rewardMode
  | rawOutput
  | parsedAnswer
  | parsedLatitude
  | parsedLongitude
  | reward
  | rewardDetails
  | gtText
  | gtLatitude
  | gtLongitude
  deriving DecidableEq

namespace SampleField

def all : List SampleField :=
  [.itemId, .imagePath, .relativePath, .modelName, .sampleIndex, .rewardMode, .rawOutput,
    .parsedAnswer, .parsedLatitude, .parsedLongitude, .reward, .rewardDetails, .gtText,
    .gtLatitude, .gtLongitude]

def name : SampleField → CodePoints
  | .itemId => codes "item_id".toList
  | .imagePath => codes "image_path".toList
  | .relativePath => codes "relative_path".toList
  | .modelName => codes "model_name".toList
  | .sampleIndex => codes "sample_index".toList
  | .rewardMode => codes "reward_mode".toList
  | .rawOutput => codes "raw_output".toList
  | .parsedAnswer => codes "parsed_answer".toList
  | .parsedLatitude => codes "parsed_latitude".toList
  | .parsedLongitude => codes "parsed_longitude".toList
  | .reward => codes "reward".toList
  | .rewardDetails => codes "reward_details".toList
  | .gtText => codes "gt_text".toList
  | .gtLatitude => codes "gt_latitude".toList
  | .gtLongitude => codes "gt_longitude".toList

theorem mem_all (field : SampleField) : field ∈ all := by cases field <;> decide

theorem nodup_names : (all.map name).Nodup := by decide +kernel

end SampleField

abbrev SampleResult := SampleField → Cell

/-- A row of a file, when it is an object. -/
abbrev SavedRow := Record CodePoints Cell

/-- `SampleResult(row)`, which wants each field and no other key. -/
def SampleResult.ofRow (row : SavedRow) : Option SampleResult :=
  if (row.fields.map Prod.fst).all (· ∈ SampleField.all.map SampleField.name) ∧
      SampleField.all.all fun field => (row.get? field.name).isSome then
    some fun field => (row.get? field.name).getD .none
  else none

/-- `asdict(sample)` -/
def SampleResult.toRow (sample : SampleResult) : SavedRow where
  fields := SampleField.all.map fun field => (field.name, sample field)
  nodup_keys := by
    rw [map_map]
    exact SampleField.nodup_names

/-! ## The file of a model -/

/-- A file that cannot be decoded, or its rows. `none` is a row that is no object. -/
inductive GenerationsFile where
  | unreadable
  | rows (rows : List (Option SavedRow))

def loadModelSamples (file : Option GenerationsFile) : Option (List SampleResult) :=
  match file with
  | some (.rows rows) => rows.mapM fun row => row.bind SampleResult.ofRow
  | _ => none

/-- Why a sample ends the check. -/
inductive Refusal where
  | incomplete
  | typeError

/-- What comes of a file: its samples, `None`, or an exception. -/
inductive Loaded where
  | complete (samples : List SampleResult)
  | incomplete
  | typeError

/-- What a run looks for in a file. -/
structure Request where
  items : List DatasetItem
  runModelName : CodePoints
  samplesPerImage : ℕ
  rewardMode : CodePoints

namespace Request

variable (request : Request)

def expectedItemIds : List CodePoints := (request.items.map DatasetItem.itemId).dedup

/-- Check one sample, with the indexes of each item that came up so far. Only what can be hashed is
looked up, and only numbers are compared. -/
def checkSample (itemSampleIndices : List (CodePoints × List ℚ)) (sample : SampleResult) :
    Except Refusal (List (CodePoints × List ℚ)) :=
  if sample .modelName ≠ .text request.runModelName ∨
      sample .rewardMode ≠ .text request.rewardMode then .error .incomplete
  else
    match sample .itemId with
    | .composite _ => .error .typeError
    | .text itemId =>
      match valueAt itemSampleIndices itemId with
      | none => .error .incomplete
      | some indices =>
        match sample .sampleIndex with
        | .number (.finite index) =>
          if 0 ≤ index ∧ index < request.samplesPerImage then
            if index ∈ indices then .error .incomplete
            else .ok (setItem itemSampleIndices itemId (indices ++ [index]))
          else .error .incomplete
        | .number _ => .error .incomplete
        | _ => .error .typeError
    | _ => .error .incomplete

/-- `load_complete_model_samples` -/
def loadCompleteModelSamples (file : Option GenerationsFile) : Loaded :=
  match loadModelSamples file with
  | none => .incomplete
  | some savedSamples =>
    if savedSamples.length ≠ request.items.length * request.samplesPerImage then .incomplete
    else
      let noIndices := request.expectedItemIds.map fun itemId => (itemId, ([] : List ℚ))
      match savedSamples.foldlM request.checkSample noIndices with
      | .error .incomplete => .incomplete
      | .error .typeError => .typeError
      | .ok itemSampleIndices =>
        if itemSampleIndices.any fun item => item.2.length ≠ request.samplesPerImage then
          .incomplete
        else .complete savedSamples

/-! ## The claim about a file -/

/-- The samples stand for the items and the indexes below `samples_per_image`, one for each. -/
def OneForEach (samples : List SampleResult) : Prop :=
  (samples.map fun sample => (sample .itemId, sample .sampleIndex)).Perm
    (request.items.flatMap fun item => (List.range request.samplesPerImage).map fun (index : ℕ) =>
      (Cell.text item.itemId, Cell.number (.finite index)))

end Request

/-- The sample has the true place that its item has now. -/
def Current (items : List DatasetItem) (sample : SampleResult) : Prop :=
  ∃ item ∈ items, sample .itemId = .text item.itemId ∧ sample .gtText = item.gtText ∧
    sample .gtLatitude = item.gtLatitude ∧ sample .gtLongitude = item.gtLongitude

namespace Request

variable (request : Request)

/-- Samples are only returned when there is one for each item and index, with the true place
that the item has now. -/
def LoadsExactly (file : Option GenerationsFile) : Prop :=
  ∀ samples, request.loadCompleteModelSamples file = .complete samples →
    request.OneForEach samples ∧ ∀ sample ∈ samples, Current request.items sample

/-! ## The condition -/

/-- The sample is one of the run, and stands for an item and a number below
`samples_per_image`. -/
structure Keyed (sample : SampleResult) (key : CodePoints × ℚ) : Prop where
  modelName : sample .modelName = .text request.runModelName
  rewardMode : sample .rewardMode = .text request.rewardMode
  itemId : sample .itemId = .text key.1
  expected : key.1 ∈ request.expectedItemIds
  sampleIndex : sample .sampleIndex = .number (.finite key.2)
  inRange : 0 ≤ key.2 ∧ key.2 < request.samplesPerImage

/-- A file that is taken for complete: all keys are different, and each item has enough of
them. -/
structure Complete (samples : List SampleResult) (keys : List (CodePoints × ℚ)) : Prop where
  length : samples.length = request.items.length * request.samplesPerImage
  keyed : List.Forall₂ request.Keyed samples keys
  nodup : keys.Nodup
  full : ∀ itemId ∈ request.expectedItemIds,
    (keys.filter (·.1 = itemId)).length = request.samplesPerImage

/-- A trusted file: if it is complete, all indexes are whole numbers and every true place is
that of the item. -/
def Trusted (file : Option GenerationsFile) : Prop :=
  ∀ samples keys, loadModelSamples file = some samples → request.Complete samples keys →
    (∀ key ∈ keys, ∃ index : ℕ, key.2 = index) ∧ ∀ sample ∈ samples, Current request.items sample

end Request

/-! ## What a complete file has -/

/-- The indexes that came up so far, by item. -/
def indicesOf (itemIds : List CodePoints) (keys : List (CodePoints × ℚ)) :
    List (CodePoints × List ℚ) :=
  itemIds.map fun itemId => (itemId, (keys.filter (·.1 = itemId)).map Prod.snd)

theorem valueAt_indicesOf (itemIds : List CodePoints) (keys : List (CodePoints × ℚ))
    (itemId : CodePoints) :
    valueAt (indicesOf itemIds keys) itemId =
      if itemId ∈ itemIds then some ((keys.filter (·.1 = itemId)).map Prod.snd) else none := by
  induction itemIds with
  | nil => rfl
  | cons first rest ih =>
    rw [indicesOf, map_cons, valueAt_cons]
    by_cases same : itemId = first
    · rw [if_pos same, if_pos (same ▸ mem_cons_self), same]
    · rw [if_neg same]
      rw [indicesOf] at ih
      simpa [same] using ih

theorem indicesOf_of_not_mem {itemIds : List CodePoints} {key : CodePoints × ℚ}
    (absent : key.1 ∉ itemIds) (keys : List (CodePoints × ℚ)) :
    indicesOf itemIds (keys ++ [key]) = indicesOf itemIds keys := by
  refine map_congr_left fun itemId isId => ?_
  have differs : key.1 ≠ itemId := fun same => absent (same ▸ isId)
  simp [filter_append, differs]

/-- One more index is stored with its item. -/
theorem setItem_indicesOf {itemIds : List CodePoints} (different : itemIds.Nodup)
    (keys : List (CodePoints × ℚ)) (key : CodePoints × ℚ) (isId : key.1 ∈ itemIds) :
    setItem (indicesOf itemIds keys) key.1
        ((keys.filter (·.1 = key.1)).map Prod.snd ++ [key.2]) =
      indicesOf itemIds (keys ++ [key]) := by
  induction itemIds with
  | nil => cases isId
  | cons first rest ih =>
    obtain ⟨notLater, differentRest⟩ := nodup_cons.mp different
    rw [indicesOf, indicesOf, map_cons, map_cons, setItem]
    by_cases same : first = key.1
    · subst same
      have others := indicesOf_of_not_mem notLater keys
      rw [indicesOf, indicesOf] at others
      rw [if_pos rfl, others]
      simp [filter_append]
    · have isLater : key.1 ∈ rest := by
        rcases mem_cons.mp isId with isFirst | isLater
        · exact absurd isFirst.symm same
        · exact isLater
      have later := ih differentRest isLater
      rw [indicesOf, indicesOf] at later
      rw [if_neg same, later]
      simp [filter_append, Ne.symm same]

theorem mem_indices_iff (keys : List (CodePoints × ℚ)) (key : CodePoints × ℚ) :
    key.2 ∈ (keys.filter (·.1 = key.1)).map Prod.snd ↔ key ∈ keys := by
  simp [mem_map]

namespace Request

variable (request : Request)

/-- One sample passes the check when it has a key that did not come up so far. -/
theorem checkSample_eq_ok (keys : List (CodePoints × ℚ)) (sample : SampleResult)
    (next : List (CodePoints × List ℚ)) :
    request.checkSample (indicesOf request.expectedItemIds keys) sample = .ok next ↔
      ∃ key, request.Keyed sample key ∧ key ∉ keys ∧
        next = indicesOf request.expectedItemIds (keys ++ [key]) := by
  have different : request.expectedItemIds.Nodup := nodup_dedup _
  constructor
  · intro isOk
    unfold checkSample at isOk
    split at isOk
    · cases isOk
    rename_i named
    push Not at named
    split at isOk
    · cases isOk
    · rename_i itemId isId
      rw [valueAt_indicesOf] at isOk
      by_cases expected : itemId ∈ request.expectedItemIds
      · rw [if_pos expected] at isOk
        dsimp only at isOk
        split at isOk
        · rename_i index isIndex
          split at isOk
          · rename_i inRange
            split at isOk
            · cases isOk
            · rename_i isNew
              cases isOk
              refine ⟨(itemId, index), ⟨named.1, named.2, isId, expected, isIndex, inRange⟩, ?_,
                setItem_indicesOf different keys (itemId, index) expected⟩
              exact fun isKey => isNew ((mem_indices_iff keys (itemId, index)).mpr isKey)
          · cases isOk
        · cases isOk
        · cases isOk
      · rw [if_neg expected] at isOk
        cases isOk
    · cases isOk
  · rintro ⟨key, keyed, isNew, rfl⟩
    unfold checkSample
    rw [keyed.itemId, keyed.sampleIndex, if_neg (by rw [keyed.modelName, keyed.rewardMode]; simp)]
    dsimp only
    rw [valueAt_indicesOf, if_pos keyed.expected]
    dsimp only
    rw [if_pos keyed.inRange, if_neg (mt (mem_indices_iff keys key).mp isNew),
      setItem_indicesOf different keys key keyed.expected]

variable {keys : List (CodePoints × ℚ)}

/-- The loop over the samples goes on to its end when their keys are all different. -/
theorem foldlM_checkSample_eq_ok (samples : List SampleResult) (different : keys.Nodup)
    (found : List (CodePoints × List ℚ)) :
    samples.foldlM request.checkSample (indicesOf request.expectedItemIds keys) = .ok found ↔
      ∃ more, List.Forall₂ request.Keyed samples more ∧ (keys ++ more).Nodup ∧
        found = indicesOf request.expectedItemIds (keys ++ more) := by
  induction samples generalizing keys with
  | nil =>
    rw [foldlM_nil]
    constructor
    · rintro ⟨⟩
      exact ⟨[], .nil, by rwa [append_nil], by rw [append_nil]⟩
    · rintro ⟨more, isNil, -, rfl⟩
      cases isNil
      rw [append_nil]
      rfl
  | cons sample rest ih =>
    rw [foldlM_cons]
    constructor
    · intro isOk
      cases checked : request.checkSample (indicesOf request.expectedItemIds keys) sample with
      | error refusal =>
        rw [checked] at isOk
        cases isOk
      | ok next =>
        obtain ⟨key, keyed, isNew, rfl⟩ := (request.checkSample_eq_ok keys sample next).mp checked
        rw [checked] at isOk
        have differentNext : (keys ++ [key]).Nodup :=
          different.append (nodup_singleton key) (disjoint_singleton.mpr isNew)
        obtain ⟨more, keyedRest, nodup, rfl⟩ := (ih differentNext).mp isOk
        rw [append_assoc] at nodup
        exact ⟨key :: more, .cons keyed keyedRest, nodup, by rw [append_assoc]; rfl⟩
    · rintro ⟨keysOfAll, keyedAll, nodup, rfl⟩
      obtain ⟨key, more, keyed, keyedRest, rfl⟩ := forall₂_cons_left_iff.mp keyedAll
      have isNew : key ∉ keys := fun isKey =>
        (nodup_append.mp nodup).2.2 key isKey key mem_cons_self rfl
      have checked := (request.checkSample_eq_ok keys sample _).mpr ⟨key, keyed, isNew, rfl⟩
      have differentNext : (keys ++ [key]).Nodup :=
        different.append (nodup_singleton key) (disjoint_singleton.mpr isNew)
      rw [checked]
      refine (ih differentNext).mpr ⟨more, keyedRest, ?_, ?_⟩
      · rwa [append_assoc]
      · rw [append_assoc]
        rfl

theorem any_indicesOf_iff (keys : List (CodePoints × ℚ)) :
    ((indicesOf request.expectedItemIds keys).any fun item =>
        item.2.length ≠ request.samplesPerImage) = true ↔
      ¬ ∀ itemId ∈ request.expectedItemIds,
        (keys.filter (·.1 = itemId)).length = request.samplesPerImage := by
  simp [indicesOf, any_map]

variable (file : Option GenerationsFile)

theorem loadCompleteModelSamples_eq_complete (samples : List SampleResult) :
    request.loadCompleteModelSamples file = .complete samples ↔
      loadModelSamples file = some samples ∧ ∃ keys, request.Complete samples keys := by
  have initial : (request.expectedItemIds.map fun itemId => (itemId, ([] : List ℚ))) =
      indicesOf request.expectedItemIds [] := rfl
  rw [loadCompleteModelSamples]
  cases loadModelSamples file with
  | none => simp
  | some savedSamples =>
    dsimp only
    rw [initial, Option.some.injEq]
    split
    · rename_i wrongLength
      refine iff_of_false (by rintro ⟨⟩) ?_
      rintro ⟨rfl, keys, complete⟩
      exact wrongLength complete.length
    rename_i length
    have length := not_not.mp length
    have loop := request.foldlM_checkSample_eq_ok savedSamples nodup_nil
    simp only [nil_append] at loop
    cases folded : savedSamples.foldlM request.checkSample
        (indicesOf request.expectedItemIds []) with
    | error refusal =>
      refine iff_of_false (by cases refusal <;> rintro ⟨⟩) ?_
      rintro ⟨rfl, keys, complete⟩
      have isOk := (loop _).mpr ⟨keys, complete.keyed, complete.nodup, rfl⟩
      rw [folded] at isOk
      cases isOk
    | ok found =>
      obtain ⟨keys, keyed, nodup, rfl⟩ := (loop found).mp folded
      dsimp only
      by_cases full : ∀ itemId ∈ request.expectedItemIds,
          (keys.filter (·.1 = itemId)).length = request.samplesPerImage
      · rw [if_neg (mt (request.any_indicesOf_iff keys).mp (not_not.mpr full))]
        refine ⟨?_, ?_⟩
        · rintro ⟨⟩
          exact ⟨rfl, keys, length, keyed, nodup, full⟩
        · rintro ⟨rfl, -⟩
          rfl
      · rw [if_pos ((request.any_indicesOf_iff keys).mpr full)]
        refine iff_of_false (by rintro ⟨⟩) ?_
        rintro ⟨rfl, others, complete⟩
        have isOk := (loop _).mpr ⟨others, complete.keyed, complete.nodup, rfl⟩
        rw [folded] at isOk
        have same : indicesOf request.expectedItemIds keys =
            indicesOf request.expectedItemIds others := Except.ok.inj isOk
        refine (request.any_indicesOf_iff others).mp ?_ complete.full
        rw [← same]
        exact (request.any_indicesOf_iff keys).mpr full

/-! ## One sample for each item and index -/

/-- A key as the values of a sample. -/
def cells (key : CodePoints × ℚ) : Cell × Cell := (.text key.1, .number (.finite key.2))

def pairs : List (CodePoints × ℚ) :=
  request.items.flatMap fun item => (List.range request.samplesPerImage).map fun (index : ℕ) =>
    (item.itemId, (index : ℚ))

theorem map_cells_pairs : request.pairs.map cells =
    request.items.flatMap fun item => (range request.samplesPerImage).map fun (index : ℕ) =>
      (Cell.text item.itemId, Cell.number (.finite index)) := by
  simp only [pairs, map_flatMap, map_map]
  rfl

theorem length_pairs : request.pairs.length = request.items.length * request.samplesPerImage := by
  simp [pairs, length_flatMap]

variable {samples : List SampleResult}

theorem map_cells_keys (keyed : List.Forall₂ request.Keyed samples keys) :
    (samples.map fun sample => (sample .itemId, sample .sampleIndex)) = keys.map cells :=
  map_eq_of_forall₂ keyed fun sample key ofSample => by
    rw [cells, ofSample.itemId, ofSample.sampleIndex]

theorem exists_keyed (keyed : List.Forall₂ request.Keyed samples keys) {key : CodePoints × ℚ}
    (isKey : key ∈ keys) : ∃ sample ∈ samples, request.Keyed sample key := by
  induction keyed with
  | nil => cases isKey
  | @cons first _ rest _ ofFirst _ ih =>
    rcases mem_cons.mp isKey with rfl | isLater
    · exact ⟨first, mem_cons_self, ofFirst⟩
    · obtain ⟨sample, isSample, ofSample⟩ := ih isLater
      exact ⟨sample, mem_cons_of_mem _ isSample, ofSample⟩

theorem mem_pairs_iff (key : CodePoints × ℚ) :
    key ∈ request.pairs ↔ key.1 ∈ request.expectedItemIds ∧
      ∃ index < request.samplesPerImage, key.2 = (index : ℕ) := by
  simp only [pairs, expectedItemIds, mem_flatMap, mem_map, mem_range, mem_dedup]
  constructor
  · rintro ⟨item, isItem, index, below, rfl⟩
    exact ⟨⟨item, isItem, rfl⟩, index, below, rfl⟩
  · rintro ⟨⟨item, isItem, isId⟩, index, below, isIndex⟩
    exact ⟨item, isItem, index, below, Prod.ext isId isIndex.symm⟩

/-- The keys of a complete file are as many as there are pairs, so that different whole ones are
all of them. -/
theorem perm_pairs (complete : request.Complete samples keys)
    (whole : ∀ key ∈ keys, ∃ index : ℕ, key.2 = index) : keys.Perm request.pairs := by
  have within : keys ⊆ request.pairs := by
    intro key isKey
    obtain ⟨sample, -, ofSample⟩ := request.exists_keyed complete.keyed isKey
    obtain ⟨index, isIndex⟩ := whole key isKey
    have below := ofSample.inRange.2
    rw [isIndex, Nat.cast_lt] at below
    exact (request.mem_pairs_iff key).mpr ⟨ofSample.expected, index, below, isIndex⟩
  have length : request.pairs.length ≤ keys.length := by
    rw [length_pairs, ← complete.length, complete.keyed.length_eq]
  exact (subperm_of_subset complete.nodup within).perm_of_length_le length

/-- The samples of a complete file are one for each item and index exactly when all indexes are
whole numbers. -/
theorem oneForEach_iff (complete : request.Complete samples keys) :
    request.OneForEach samples ↔ ∀ key ∈ keys, ∃ index : ℕ, key.2 = index := by
  rw [OneForEach, map_cells_keys request complete.keyed, ← map_cells_pairs]
  constructor
  · intro perm key isKey
    obtain ⟨pair, isPair, same⟩ :=
      mem_map.mp (perm.mem_iff.mp (mem_map_of_mem isKey))
    obtain ⟨-, index, -, isIndex⟩ := (request.mem_pairs_iff pair).mp isPair
    have sameIndex : pair.2 = key.2 := by
      simpa [cells] using congrArg Prod.snd same
    exact ⟨index, sameIndex ▸ isIndex⟩
  · exact fun whole => (request.perm_pairs complete whole).map cells

theorem loadsExactly_of_trusted (trusted : request.Trusted file) : request.LoadsExactly file := by
  intro samples loaded
  obtain ⟨isFile, keys, complete⟩ :=
    (request.loadCompleteModelSamples_eq_complete file samples).mp loaded
  obtain ⟨whole, current⟩ := trusted samples keys isFile complete
  exact ⟨(request.oneForEach_iff complete).mpr whole, current⟩

theorem loadsExactly_iff_trusted : request.LoadsExactly file ↔ request.Trusted file := by
  refine ⟨fun exactly samples keys isFile complete => ?_, request.loadsExactly_of_trusted file⟩
  have loaded := (request.loadCompleteModelSamples_eq_complete file samples).mpr
    ⟨isFile, keys, complete⟩
  obtain ⟨oneForEach, current⟩ := exactly samples loaded
  exact ⟨(request.oneForEach_iff complete).mp oneForEach, current⟩

end Request

/-! ## A run over the models -/

/-- A character of `[A-Za-z0-9._-]`. -/
def isNameChar (char : Char) : Bool :=
  char.isAlphanum || char = '.' || char = '_' || char = '-'

/-- Substitute `_` for `[^A-Za-z0-9._-]+`. -/
def substituteRuns : Bool → Text → Text
  | _, [] => []
  | inRun, char :: rest =>
    if isNameChar char then char :: substituteRuns false rest
    else if inRun then substituteRuns true rest
    else '_' :: substituteRuns true rest

def sanitizeName (value : Text) : Text :=
  match substituteRuns false (strip (· = '/') value) with
  | [] => "model".toList
  | name => name

structure Response where
  rawOutput : Cell
  parsedAnswer : Cell
  parsedLatitude : Cell
  parsedLongitude : Cell

def newSample (request : Request) (item : DatasetItem) (sampleIndex : ℕ) (response : Response) :
    SampleResult
  | .itemId => .text item.itemId
  | .imagePath => .text item.imagePath
  | .relativePath => .text item.relativePath
  | .modelName => .text request.runModelName
  | .sampleIndex => .number (.finite sampleIndex)
  | .rewardMode => .text request.rewardMode
  | .rawOutput => response.rawOutput
  | .parsedAnswer => response.parsedAnswer
  | .parsedLatitude => response.parsedLatitude
  | .parsedLongitude => response.parsedLongitude
  | .reward => .number (.finite 0)
  | .rewardDetails => .composite (codes "\x7b\x7d".toList)
  | .gtText => item.gtText
  | .gtLatitude => item.gtLatitude
  | .gtLongitude => item.gtLongitude

def chunked (size : ℕ) (items : List DatasetItem) : List (List DatasetItem) :=
  (List.range ((items.length + size - 1) / size)).map fun chunk =>
    slice items (chunk * size) (chunk * size + size)

/-- What does not change in a run. The engine answers a batch of requests of a model with any list
of responses. -/
structure Selector where
  items : List DatasetItem
  rewardMode : Text
  inferBatchSize : ℕ
  inferBatchSize_pos : 0 < inferBatchSize
  infer : Text → List (DatasetItem × ℕ) → List Response

namespace Selector

variable (selector : Selector)

def request (modelName : Text) (samplesPerImage : ℕ) : Request where
  items := selector.items
  runModelName := codes (sanitizeName (pathName modelName))
  samplesPerImage := samplesPerImage
  rewardMode := codes selector.rewardMode

def runGenerationForModel (modelName : Text) (samplesPerImage : ℕ) : List SampleResult :=
  (chunked selector.inferBatchSize selector.items).flatMap fun batch =>
    let expandedItems := batch.flatMap fun item =>
      (List.range samplesPerImage).map fun sampleIndex => (item, sampleIndex)
    ((selector.infer modelName expandedItems).zip expandedItems).map fun answered =>
      newSample (selector.request modelName samplesPerImage) answered.2.1 answered.2.2 answered.1

/-- The files of the models, and the samples that are to be scored. -/
structure RunState where
  generations : Directory Text GenerationsFile
  allSamples : List SampleResult

/-- One model with its number of samples. An exception ends the run. -/
def runModel (state : RunState) (model : Text × ℤ) : Option RunState :=
  if model.2 ≤ 0 then some state
  else
    let path := sanitizeName model.1
    match (selector.request model.1 model.2.toNat).loadCompleteModelSamples
        (state.generations path) with
    | .complete cachedSamples =>
      some { state with allSamples := state.allSamples ++ cachedSamples }
    | .typeError => none
    | .incomplete =>
      let results := selector.runGenerationForModel model.1 model.2.toNat
      some {
        generations := state.generations.write path
          (.rows (results.map fun sample => some (SampleResult.toRow sample)))
        allSamples := state.allSamples ++ results }

/-- The loop of `main` over the models, which comes before the scores. -/
def run (models : List (Text × ℤ)) (generations : Directory Text GenerationsFile) :
    Option RunState :=
  models.foldlM selector.runModel ⟨generations, []⟩

/-- All files that the run may read can be trusted. -/
def TrustedFiles (models : List (Text × ℤ)) (generations : Directory Text GenerationsFile) :
    Prop :=
  ∀ model ∈ models, 0 < model.2 →
    (selector.request model.1 model.2.toNat).Trusted (generations (sanitizeName model.1))

/-! ## Every sample has the true place of now -/

/-- What a generated sample has: the true place of an item, and a whole number as index. -/
structure Generated (sample : SampleResult) : Prop where
  current : Current selector.items sample
  whole : ∃ index : ℕ, sample .sampleIndex = .number (.finite index)

theorem generated_of_mem {modelName : Text} {samplesPerImage : ℕ} {sample : SampleResult}
    (isSample : sample ∈ selector.runGenerationForModel modelName samplesPerImage) :
    selector.Generated sample := by
  obtain ⟨batch, isBatch, isSample⟩ := mem_flatMap.mp isSample
  obtain ⟨chunk, -, rfl⟩ := mem_map.mp isBatch
  obtain ⟨⟨response, item, sampleIndex⟩, isAnswered, rfl⟩ := mem_map.mp isSample
  obtain ⟨inBatch, inItem, isExpanded⟩ := mem_flatMap.mp (of_mem_zip isAnswered).2
  obtain ⟨_, -, same⟩ := mem_map.mp isExpanded
  have isSame : inBatch = item := congrArg Prod.fst same
  have isItem : item ∈ selector.items :=
    isSame ▸ mem_of_mem_take (mem_of_mem_drop inItem)
  exact ⟨⟨item, isItem, rfl, rfl, rfl, rfl⟩, sampleIndex, rfl⟩

end Selector

theorem SampleResult.ofRow_toRow (sample : SampleResult) :
    SampleResult.ofRow (SampleResult.toRow sample) = some sample := by
  have value (field : SampleField) :
      (SampleResult.toRow sample).get? field.name = some (sample field) :=
    (Record.get?_eq_some_iff _ _ _).mpr
      (mem_map_of_mem (f := fun field => (field.name, sample field)) field.mem_all)
  have keys : (SampleResult.toRow sample).fields.map Prod.fst =
      SampleField.all.map SampleField.name := by
    rw [toRow, map_map]
    rfl
  have noOther : (SampleField.all.map SampleField.name).all
      (· ∈ SampleField.all.map SampleField.name) = true :=
    all_eq_true.mpr fun key isKey => decide_eq_true isKey
  rw [ofRow, keys, if_pos ⟨noOther, by simp [value]⟩]
  simp [value]

theorem loadModelSamples_written (samples : List SampleResult) :
    loadModelSamples (some (.rows (samples.map fun sample => some (SampleResult.toRow sample)))) =
      some samples := by
  rw [loadModelSamples, mapM_map]
  induction samples with
  | nil => rfl
  | cons sample rest ih =>
    rw [mapM_cons, ih]
    simp [SampleResult.ofRow_toRow]

namespace Selector

variable (selector : Selector)

theorem trusted_of_generated {samples : List SampleResult}
    (generated : ∀ sample ∈ samples, selector.Generated sample) (modelName : Text)
    (samplesPerImage : ℕ) :
    (selector.request modelName samplesPerImage).Trusted
      (some (.rows (samples.map fun sample => some (SampleResult.toRow sample)))) := by
  intro loaded keys isLoaded complete
  rw [loadModelSamples_written] at isLoaded
  cases isLoaded
  refine ⟨fun key isKey => ?_, fun sample isSample => (generated sample isSample).current⟩
  obtain ⟨sample, isSample, keyed⟩ := Request.exists_keyed _ complete.keyed isKey
  obtain ⟨index, isIndex⟩ := (generated sample isSample).whole
  have same := keyed.sampleIndex.symm.trans isIndex
  exact ⟨index, PyFloat.finite.inj (Cell.number.inj same)⟩

/-- What holds of a run whose files can be trusted. -/
structure Reached (models : List (Text × ℤ)) (state : RunState) : Prop where
  trusted : selector.TrustedFiles models state.generations
  current : ∀ sample ∈ state.allSamples, Current selector.items sample

variable {selector} in
/-- One model keeps it so, whether its samples are cached or generated. -/
theorem Reached.runModel {models : List (Text × ℤ)} {state next : RunState} {model : Text × ℤ}
    (reached : selector.Reached models state) (isModel : model ∈ models)
    (isNext : selector.runModel state model = some next) : selector.Reached models next := by
  unfold Selector.runModel at isNext
  split at isNext
  · cases isNext
    exact reached
  rename_i positive
  dsimp only at isNext
  split at isNext
  · rename_i cachedSamples isCached
    cases isNext
    have trusted := reached.trusted model isModel (not_le.mp positive)
    have exactly := (Request.loadsExactly_of_trusted _ _ trusted) cachedSamples isCached
    refine ⟨reached.trusted, fun sample isSample => ?_⟩
    rcases mem_append.mp isSample with isEarlier | isNew
    · exact reached.current sample isEarlier
    · exact exactly.2 sample isNew
  · cases isNext
  · cases isNext
    refine ⟨fun other isOther otherPositive => ?_, fun sample isSample => ?_⟩
    · dsimp only
      by_cases same : sanitizeName other.1 = sanitizeName model.1
      · rw [same, Directory.write_self]
        exact selector.trusted_of_generated (fun _ => selector.generated_of_mem) _ _
      · rw [Directory.write_of_ne _ same]
        exact reached.trusted other isOther otherPositive
    · rcases mem_append.mp isSample with isEarlier | isNew
      · exact reached.current sample isEarlier
      · exact (selector.generated_of_mem isNew).current

variable {selector} in
theorem Reached.foldlM {models rest : List (Text × ℤ)} (within : rest ⊆ models)
    {state last : RunState} (reached : selector.Reached models state)
    (isLast : rest.foldlM selector.runModel state = some last) : selector.Reached models last := by
  induction rest generalizing state with
  | nil =>
    cases isLast
    exact reached
  | cons model rest ih =>
    rw [foldlM_cons] at isLast
    obtain ⟨next, isNext, isRest⟩ := Option.bind_eq_some_iff.mp isLast
    exact ih (fun other isOther => within (mem_cons_of_mem _ isOther))
      (reached.runModel (within mem_cons_self) isNext) isRest

/-- The whole run keeps it so. -/
theorem main_current {models : List (Text × ℤ)} {generations : Directory Text GenerationsFile}
    (trusted : selector.TrustedFiles models generations) {state : RunState}
    (isRun : selector.run models generations = some state) :
    ∀ sample ∈ state.allSamples, Current selector.items sample := by
  have start : selector.Reached models ⟨generations, []⟩ :=
    ⟨trusted, fun _ isSample => absurd isSample not_mem_nil⟩
  exact (start.foldlM (List.Subset.refl models) isRun).current

/-- **A file is loaded rightly exactly when it can be trusted**, and a run of `main` whose files
can be trusted scores every sample, cached or generated, against the true place of now. -/
theorem loadsExactly_iff :
    (∀ (request : Request) (file : Option GenerationsFile),
      request.LoadsExactly file ↔ request.Trusted file) ∧
    ∀ (models : List (Text × ℤ)) (generations : Directory Text GenerationsFile) (state : RunState),
      selector.TrustedFiles models generations →
      selector.run models generations = some state →
        ∀ sample ∈ state.allSamples, Current selector.items sample :=
  ⟨fun request file => request.loadsExactly_iff_trusted file,
    fun _ _ _ trusted isRun => selector.main_current trusted isRun⟩

end Selector

/-! ## A changed annotation -/

def imageAt (latitude : ℚ) : DatasetItem where
  itemId := codes "a".toList
  imagePath := codes "/a.jpg".toList
  relativePath := codes "a.jpg".toList
  gtText := .none
  gtLatitude := .number (.finite latitude)
  gtLongitude := .number (.finite 0)

/-- One sample of the image at the given latitude. -/
def requestAt (latitude : ℚ) : Request where
  items := [imageAt latitude]
  runModelName := codes "m".toList
  samplesPerImage := 1
  rewardMode := codes "llm_judge".toList

def noResponse : Response := ⟨.text [], .none, .none, .none⟩

def earlierSample : SampleResult := newSample (requestAt 30) (imageAt 30) 0 noResponse

theorem complete_earlierSample :
    (requestAt 31).Complete [earlierSample] [(codes "a".toList, 0)] where
  length := rfl
  keyed := by
    refine .cons ⟨rfl, rfl, rfl, mem_dedup.mpr mem_cons_self, rfl, ?_⟩ .nil
    exact ⟨le_refl 0, Nat.cast_pos.mpr Nat.one_pos⟩
  nodup := nodup_singleton _
  full := by decide

/-- **The file of an earlier annotation is taken for complete.** -/
theorem not_loadsExactly_moved :
    ¬ ∀ (request : Request) (file : Option GenerationsFile), request.LoadsExactly file := by
  intro always
  have loaded := ((requestAt 31).loadCompleteModelSamples_eq_complete _ [earlierSample]).mpr
    ⟨loadModelSamples_written [earlierSample], _, complete_earlierSample⟩
  obtain ⟨item, isItem, -, -, isLatitude, -⟩ :=
    (always (requestAt 31) _ [earlierSample] loaded).2 earlierSample mem_cons_self
  rw [mem_singleton.mp isItem] at isLatitude
  exact absurd isLatitude (by decide)

end Geobench.DataClean
