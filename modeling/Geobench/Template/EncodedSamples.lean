import Geobench.Template.ContextList
import Geobench.Template.Truncation
import Mathlib.Algebra.Field.Rat
import Mathlib.Algebra.Order.Ring.Rat

/-!
# Samples that are encoded

In training mode `_encode` makes token ids of the contexts of a sample, with a label for each token
and, where the scales of the loss are not only zero and one, a scale. End-of-sequence tokens between
the answers are trained on where they stand for the suffix of the template (`addDynamicEos`). What
is encoded is truncated or split.

**`encode_startsIgnored`**: each row that comes out has a token, as many labels and scales, this
number as its length, and a first label that is ignored.
-/

namespace Geobench.Template

open Library List

/-- What a template in training mode has for encoding samples, for a task that keeps the labels. -/
structure TrainingTemplate where
  tokenize : Text → List ℤ
  suffix : List Context
  isLossScaleBinary : Bool
  isEncoderDecoder : Bool
  placeholderTokens : List ℤ
  maxLength : Option ℕ
  truncationStrategy : TruncationStrategy

/-- The contexts of a sample with the scales of their loss, of which the last are the answer. -/
structure EncodeInputs where
  media : MediaInputs
  resContextList : List Context
  lossScaleList : List ℚ
  answerLen : ℕ

/-- Token ids with their labels and, where the template has them, the scales of their loss. -/
structure LabelledTokens where
  inputIds : List ℤ
  labels : List ℤ
  lossScale : Option (List ℚ)

/-! ## Token ids of contexts -/

namespace TrainingTemplate

variable (template : TrainingTemplate)

def tokenList : Context → List ℤ
  | .text content => template.tokenize content
  | .tokens ids => ids

/-- `_encode_context_list` -/
def encodeContextList (contextList : List (Context × ℚ)) : LabelledTokens where
  inputIds := contextList.flatMap fun item => template.tokenList item.1
  labels := contextList.flatMap fun item =>
    if 0 < item.2 then template.tokenList item.1
    else List.replicate (template.tokenList item.1).length (-100)
  lossScale :=
    if template.isLossScaleBinary then none
    else some (contextList.flatMap fun item =>
      List.replicate (template.tokenList item.1).length item.2)

/-- The ids of the suffix, which has no scales. -/
def suffixTokensId : List ℤ :=
  (template.encodeContextList (template.suffix.map fun context => (context, 0))).inputIds

end TrainingTemplate

/-! ## End-of-sequence tokens -/

/-- `values[start:start + len(new)] = new` -/
def assignSlice {α : Type} (values : List α) (start : ℕ) (new : List α) : List α :=
  values.take start ++ new ++ values.drop (start + new.length)

/-- Where the tokens that are not trained on start, with the columns that are written to. -/
structure EosState where
  start : ℕ
  labels : List ℤ
  lossScale : Option (List ℚ)

/-- The suffix becomes what is trained on, and its scale one where it was zero. -/
def EosState.trainSuffix (suffixTokensId : List ℤ) (state : EosState) : EosState where
  start := state.start
  labels := assignSlice state.labels state.start suffixTokensId
  lossScale := state.lossScale.map fun lossScale =>
    if lossScale ≠ [] ∧ slice lossScale state.start (state.start + suffixTokensId.length) =
        List.replicate suffixTokensId.length 0 then
      assignSlice lossScale state.start (List.replicate suffixTokensId.length 1)
    else lossScale

/-- The loop of `_add_dynamic_eos`, at the place after `before`. -/
def eosStep (inputIds suffixTokensId : List ℤ) (state : EosState) (before : ℕ) : EosState :=
  let place := before + 1
  if state.labels[before]?.any (0 ≤ ·) ∧ state.labels[place]? = some (-100) then
    { state with start := place }
  else if 0 < state.start ∧ state.labels[before]? = some (-100) ∧
      state.labels[place]?.all (0 ≤ ·) then
    if suffixTokensId.length ≤ place - state.start ∧
        slice inputIds state.start (state.start + suffixTokensId.length) = suffixTokensId then
      state.trainSuffix suffixTokensId
    else state
  else state

/-- `_add_dynamic_eos` -/
def addDynamicEos (suffixTokensId : List ℤ) (tokens : LabelledTokens) : LabelledTokens :=
  let state := (List.range tokens.labels.length).foldl (eosStep tokens.inputIds suffixTokensId)
    ⟨0, tokens.labels, tokens.lossScale⟩
  { inputIds := tokens.inputIds, labels := state.labels, lossScale := state.lossScale }

/-! ## Encoding a sample -/

/-- The places of the references and boxes that are replaced in contexts. -/
def indexesAfter (replace : MediaIndexes → Context × ℚ → List (Context × ℚ) × MediaIndexes)
    (indexes : MediaIndexes) (contextList : List (Context × ℚ)) : MediaIndexes :=
  contextList.foldl (fun indexes item => (replace indexes item).2) indexes

/-- How far the references and boxes are used up by contexts that are simplified. -/
def simplifiedIndexes (inputs : MediaInputs) (contextList : List Context)
    (lossScaleList : List ℚ) : MediaIndexes :=
  let start : MediaIndexes := ⟨0, 0, 0, 0, 0⟩
  indexesAfter (preTokenizeOther inputs) start
    (preTokenizeWith (preTokenizeImage inputs) start
      (splitSpecialTokens (contextList.zip lossScaleList)))

/-- One sample after the other, where both or none have scales. -/
def LabelledTokens.append (first rest : LabelledTokens) : LabelledTokens where
  inputIds := first.inputIds ++ rest.inputIds
  labels := first.labels ++ rest.labels
  lossScale := first.lossScale.map (· ++ rest.lossScale.getD [])

namespace TrainingTemplate

variable (template : TrainingTemplate)

/-- The tokens of a prompt and of the answer after it. The references and boxes of the answer are
those that the prompt has left. -/
def encodePromptAnswer (inputs : EncodeInputs) : LabelledTokens :=
  let split : ℤ := inputs.resContextList.length - inputs.answerLen
  let stop : ℤ := inputs.resContextList.length
  let prompt := signedSlice inputs.resContextList 0 split
  let promptScale := signedSlice inputs.lossScaleList 0 split
  let used := simplifiedIndexes inputs.media prompt promptScale
  let encodedPrompt := template.encodeContextList
    (simplifyContextList inputs.media 0 0 prompt promptScale)
  let encodedAnswer := template.encodeContextList
    (simplifyContextList inputs.media used.ref used.bbox
      (signedSlice inputs.resContextList split stop) (signedSlice inputs.lossScaleList split stop))
  encodedPrompt.append encodedAnswer

def encodeTokens (inputs : EncodeInputs) : LabelledTokens :=
  addDynamicEos template.suffixTokensId <|
    if template.isEncoderDecoder then template.encodePromptAnswer inputs
    else template.encodeContextList
      (simplifyContextList inputs.media 0 0 inputs.resContextList inputs.lossScaleList)

/-- `values[0] = first` -/
def assignFirst {α : Type} (first : α) : List α → Option (List α)
  | [] => none
  | _ :: rest => some (first :: rest)

/-- `_encode`. The first label and scale of a sample without tokens raise. -/
def encodeColumns (inputs : EncodeInputs) : Option (TokenColumns ℚ) :=
  let tokens := template.encodeTokens inputs
  (assignFirst (-100) tokens.labels).bind fun labels =>
    (mapColumn (assignFirst 0) tokens.lossScale).map fun lossScale =>
      { inputIds := tokens.inputIds, labels := some labels, lossScale := lossScale }

def lengthSettings : LengthSettings where
  placeholderTokens := template.placeholderTokens
  maxLength := template.maxLength
  truncationStrategy := template.truncationStrategy
  dropsLabels := false

/-- `encode`, which gives several rows where a sample is split. -/
def encode (inputs : EncodeInputs) : Except TruncationError (List (EncodedRow ℚ)) :=
  match template.encodeColumns inputs with
  | none => .error .indexError
  | some columns => encodeTruncated template.lengthSettings columns

end TrainingTemplate

/-! ## The columns are aligned -/

/-- There is a label for each token, and a scale where the template has scales. -/
structure LabelledTokens.Aligned (scaled : Bool) (tokens : LabelledTokens) : Prop where
  labels : tokens.labels.length = tokens.inputIds.length
  isSome : tokens.lossScale.isSome = scaled
  lossScale : ∀ lossScale ∈ tokens.lossScale, lossScale.length = tokens.inputIds.length

/-- The same for columns that are written to. -/
structure EosState.Fits (scaled : Bool) (size : ℕ) (state : EosState) : Prop where
  labels : state.labels.length = size
  isSome : state.lossScale.isSome = scaled
  lossScale : ∀ lossScale ∈ state.lossScale, lossScale.length = size

theorem TrainingTemplate.encodeContextList_aligned (template : TrainingTemplate)
    (contextList : List (Context × ℚ)) :
    (template.encodeContextList contextList).Aligned (!template.isLossScaleBinary) := by
  have perToken : ∀ {α : Type} (f : Context × ℚ → List α),
      (∀ item, (f item).length = (template.tokenList item.1).length) →
      (contextList.flatMap f).length =
        (contextList.flatMap fun item => template.tokenList item.1).length := by
    intro α f same
    rw [length_flatMap, length_flatMap]
    exact congrArg sum (map_congr_left fun item _ => same item)
  refine ⟨perToken _ fun item => ?_, ?_, fun lossScale isScale => ?_⟩
  · split
    · rfl
    · exact length_replicate
  · rw [TrainingTemplate.encodeContextList]
    cases template.isLossScaleBinary <;> rfl
  · rw [TrainingTemplate.encodeContextList] at isScale
    dsimp only at isScale
    split at isScale
    · cases isScale
    · cases isScale
      exact perToken _ fun item => length_replicate

variable {scaled : Bool}

theorem LabelledTokens.Aligned.append {first rest : LabelledTokens}
    (alignedFirst : first.Aligned scaled) (alignedRest : rest.Aligned scaled) :
    (first.append rest).Aligned scaled := by
  refine ⟨?_, ?_, fun lossScale isScale => ?_⟩
  · rw [LabelledTokens.append, length_append, length_append, alignedFirst.labels,
      alignedRest.labels]
  · rw [LabelledTokens.append, Option.isSome_map, alignedFirst.isSome]
  · obtain ⟨firstScale, isFirst, rfl⟩ := Option.map_eq_some_iff.mp isScale
    have both : rest.lossScale.isSome := by
      rw [alignedRest.isSome, ← alignedFirst.isSome, isFirst]
      rfl
    obtain ⟨restScale, isRest⟩ := Option.isSome_iff_exists.mp both
    rw [LabelledTokens.append, isRest, Option.getD_some, length_append, length_append,
      alignedFirst.lossScale firstScale isFirst, alignedRest.lossScale restScale isRest]

variable {α : Type} {values : List α}

theorem length_assignSlice {new : List α} {start : ℕ}
    (inside : new = [] ∨ start + new.length ≤ values.length) :
    (assignSlice values start new).length = values.length := by
  rw [assignSlice, length_append, length_append, length_take, length_drop]
  obtain rfl | inside := inside
  · rw [length_nil]
    omega
  · omega

theorem EosState.Fits.trainSuffix {size : ℕ} {state : EosState} (fits : state.Fits scaled size)
    {suffixTokensId : List ℤ}
    (inside : suffixTokensId = [] ∨ state.start + suffixTokensId.length ≤ size) :
    (state.trainSuffix suffixTokensId).Fits scaled size := by
  refine ⟨?_, ?_, fun lossScale isScale => ?_⟩
  · rw [EosState.trainSuffix, length_assignSlice (fits.labels ▸ inside), fits.labels]
  · rw [EosState.trainSuffix, Option.isSome_map, fits.isSome]
  · obtain ⟨before, isBefore, rfl⟩ := Option.map_eq_some_iff.mp isScale
    have length := fits.lossScale before isBefore
    split
    · rw [length_assignSlice, length]
      rw [← length_eq_zero_iff] at inside ⊢
      rwa [length_replicate, length]
    · exact length

/-- A step keeps the lengths of the columns. -/
theorem EosState.Fits.eosStep {scaled : Bool} {size : ℕ} {state : EosState}
    (fits : state.Fits scaled size) (inputIds suffixTokensId : List ℤ) {before : ℕ}
    (isPlace : before < size) :
    (eosStep inputIds suffixTokensId state before).Fits scaled size := by
  rw [Template.eosStep]
  split
  · exact ⟨fits.labels, fits.isSome, fits.lossScale⟩
  · split
    · split
      · rename_i within
        refine fits.trainSuffix ?_
        rw [← length_eq_zero_iff]
        omega
      · exact fits
    · exact fits

theorem addDynamicEos_aligned {tokens : LabelledTokens} (aligned : tokens.Aligned scaled)
    (suffixTokensId : List ℤ) : (addDynamicEos suffixTokensId tokens).Aligned scaled := by
  have run : ∀ (befores : List ℕ) (state : EosState),
      (∀ before ∈ befores, before < tokens.labels.length) →
      state.Fits scaled tokens.labels.length →
      (befores.foldl (eosStep tokens.inputIds suffixTokensId) state).Fits scaled
        tokens.labels.length := by
    intro befores
    induction befores with
    | nil => exact fun state _ fits => fits
    | cons before rest ih =>
      intro state isPlace fits
      exact ih _ (fun other isOther => isPlace other (mem_cons_of_mem _ isOther))
        (fits.eosStep _ _ (isPlace before mem_cons_self))
  have start : EosState.Fits scaled tokens.labels.length ⟨0, tokens.labels, tokens.lossScale⟩ :=
    ⟨rfl, aligned.isSome, fun lossScale isScale =>
      (aligned.lossScale lossScale isScale).trans aligned.labels.symm⟩
  have fits := run _ _ (fun before isBefore => mem_range.mp isBefore) start
  exact ⟨fits.labels.trans aligned.labels, fits.isSome, fun lossScale isScale =>
    (fits.lossScale lossScale isScale).trans aligned.labels⟩

theorem TrainingTemplate.encodeTokens_aligned (template : TrainingTemplate)
    (inputs : EncodeInputs) :
    (template.encodeTokens inputs).Aligned (!template.isLossScaleBinary) := by
  refine addDynamicEos_aligned ?_ _
  split
  · exact (template.encodeContextList_aligned _).append (template.encodeContextList_aligned _)
  · exact template.encodeContextList_aligned _

/-! ## The first label is ignored -/

/-- There are labels, and scales where the template has them, and the first token is not
trained on. -/
structure StartsIgnored (scaled : Bool) (columns : TokenColumns ℚ) : Prop where
  labels : ∃ labels, columns.labels = some labels ∧ labels.length = columns.inputIds.length ∧
    labels.head? = some (-100)
  isSome : columns.lossScale.isSome = scaled
  lossScale : ∀ lossScale ∈ columns.lossScale, lossScale.length = columns.inputIds.length ∧
    lossScale.head? = some 0

namespace TrainingTemplate

theorem assignFirst_eq_some {α : Type} {first : α} {values assigned : List α}
    (isAssigned : assignFirst first values = some assigned) :
    assigned.length = values.length ∧ assigned.head? = some first := by
  cases values with
  | nil => cases isAssigned
  | cons head rest =>
    cases isAssigned
    exact ⟨rfl, rfl⟩

end TrainingTemplate

theorem mapColumn_eq_some {f : List α → Option (List α)} {column : Option (List α)}
    {mapped : Option (List α)} (isMapped : mapColumn f column = some mapped) :
    mapped.isSome = column.isSome ∧
      ∀ values ∈ mapped, ∃ before ∈ column, f before = some values := by
  cases column with
  | none =>
    cases isMapped
    exact ⟨rfl, fun values isValues => by cases isValues⟩
  | some before =>
    obtain ⟨values, isValues, rfl⟩ := Option.map_eq_some_iff.mp isMapped
    refine ⟨rfl, fun other isOther => ⟨before, rfl, ?_⟩⟩
    rw [isValues]
    exact isOther

theorem length_maskSelect {mask : List Bool} (fits : values.length = mask.length) :
    (maskSelect mask values).length = mask.count true := by
  have second : (values.zip mask).map Prod.snd = mask := map_snd_zip fits.ge
  rw [maskSelect, length_map, ← countP_eq_length_filter]
  conv_rhs => rw [← second, List.count, countP_map]
  exact countP_congr fun entry _ => by simp

theorem maskColumn_eq_some {mask : List Bool} {first : α} {masked : List α}
    (isMasked : maskColumn mask first values = some masked) :
    masked.length = mask.count true ∧ values.length = mask.length ∧
      masked.head? = some first := by
  rw [maskColumn] at isMasked
  split at isMasked
  · rename_i fits
    have length := length_maskSelect fits
    split at isMasked
    · cases isMasked
    · rename_i isKept
      cases isMasked
      rw [isKept] at length
      exact ⟨length, fits, rfl⟩
  · cases isMasked

theorem StartsIgnored.truncate {columns truncated : TokenColumns ℚ}
    (starts : StartsIgnored scaled columns) {placeholderTokens : List ℤ} {maxLength : ℕ}
    {fromLeft : Bool}
    (isTruncated : truncate placeholderTokens maxLength fromLeft columns = some truncated) :
    StartsIgnored scaled truncated := by
  obtain ⟨before, isBefore, length, _⟩ := starts.labels
  obtain ⟨labels, isLabels, isTruncated⟩ := Option.bind_eq_some_iff.mp isTruncated
  obtain ⟨lossScale, isScale, rfl⟩ := Option.map_eq_some_iff.mp isTruncated
  obtain ⟨labels, isMasked, rfl⟩ := Option.map_eq_some_iff.mp (isBefore ▸ isLabels)
  obtain ⟨number, fits, first⟩ := maskColumn_eq_some isMasked
  have ids := length_maskSelect (length.symm.trans fits)
  obtain ⟨sameSome, scales⟩ := mapColumn_eq_some isScale
  refine ⟨⟨labels, rfl, number.trans ids.symm, first⟩, sameSome.trans starts.isSome,
    fun scale isIn => ?_⟩
  obtain ⟨_, _, isMasked⟩ := scales scale isIn
  obtain ⟨number, _, first⟩ := maskColumn_eq_some isMasked
  exact ⟨number.trans ids.symm, first⟩

/-- Every row of a template starts with a token that is not trained on, and has its length. -/
structure RowStartsIgnored (scaled : Bool) (row : EncodedRow ℚ) : Prop where
  columns : StartsIgnored scaled row.columns
  length : row.length = row.columns.inputIds.length

theorem StartsIgnored.aligned {columns : TokenColumns ℚ} (starts : StartsIgnored scaled columns) :
    columns.Aligned := by
  obtain ⟨labels, isLabels, length, _⟩ := starts.labels
  refine ⟨fun other isOther => ?_, fun lossScale isScale => (starts.lossScale lossScale isScale).1⟩
  rw [isLabels] at isOther
  cases isOther
  exact length

theorem head?_setHead (first : α) (some : values ≠ []) :
    (setHead first values).head? = Option.some first := by
  cases values with
  | nil => exact absurd rfl some
  | cons head rest => rfl

theorem StartsIgnored.row {scaled : Bool} {columns : TokenColumns ℚ}
    (starts : StartsIgnored scaled columns) {places : List ℕ} (some : 1 ≤ places.length)
    {row : EncodedRow ℚ} (isRow : RowAt true columns places row) : RowStartsIgnored scaled row := by
  have whole := isRow.length.2 ▸ isRow.length.1
  have first : ∀ {α : Type} {head : α} {values : List α},
      (setHead head values).length = row.columns.inputIds.length →
        (setHead head values).head? = Option.some head := by
    intro α head values length
    refine head?_setHead head fun none => ?_
    rw [none, setHead, length_nil] at length
    omega
  obtain ⟨before, isBefore, _⟩ := starts.labels
  have labels := isRow.labels
  rw [if_pos rfl, isBefore, Option.map_some] at labels
  have scales := isRow.lossScale
  rw [if_pos rfl] at scales
  refine ⟨⟨⟨_, labels, isRow.aligned.labels _ labels, first (isRow.aligned.labels _ labels)⟩,
    ?_, fun lossScale isScale => ?_⟩, isRow.length.2⟩
  · rw [scales, Option.isSome_map, starts.isSome]
  · have length := isRow.aligned.lossScale lossScale isScale
    rw [scales] at isScale
    obtain ⟨_, _, rfl⟩ := Option.map_eq_some_iff.mp isScale
    exact ⟨length, first length⟩

namespace TrainingTemplate

variable {template : TrainingTemplate}

theorem encodeColumns_startsIgnored {inputs : EncodeInputs} {columns : TokenColumns ℚ}
    (isEncoded : template.encodeColumns inputs = some columns) :
    StartsIgnored (!template.isLossScaleBinary) columns := by
  have aligned := template.encodeTokens_aligned inputs
  obtain ⟨labels, isLabels, isEncoded⟩ := Option.bind_eq_some_iff.mp isEncoded
  obtain ⟨lossScale, isScale, rfl⟩ := Option.map_eq_some_iff.mp isEncoded
  obtain ⟨length, first⟩ := assignFirst_eq_some isLabels
  obtain ⟨sameSome, scales⟩ := mapColumn_eq_some isScale
  refine ⟨⟨labels, rfl, length.trans aligned.labels, first⟩, sameSome.trans aligned.isSome,
    fun scale isIn => ?_⟩
  obtain ⟨before, isBefore, isAssigned⟩ := scales scale isIn
  obtain ⟨length, first⟩ := assignFirst_eq_some isAssigned
  exact ⟨length.trans (aligned.lossScale before isBefore), first⟩

theorem splitRows_startsIgnored {scaled : Bool} {columns : TokenColumns ℚ}
    (starts : StartsIgnored scaled columns) (maxLength : ℕ) :
    ∀ row ∈ splitRows maxLength columns, RowStartsIgnored scaled row := by
  intro row isRow
  rw [splitRows, getLength_of_aligned starts.aligned] at isRow
  obtain ⟨part, isPart, rfl⟩ := mem_map.mp isRow
  rw [mem_range] at isPart
  have positive : 1 ≤ maxLength := by
    by_contra none
    obtain rfl : maxLength = 0 := by omega
    rw [Nat.div_zero] at isPart
    exact Nat.not_lt_zero _ isPart
  exact starts.row (length_partPlaces positive isPart).1
    (splitedRow_at starts.aligned maxLength part)

/-- The first token of a row is not trained on, whether or not a sample is truncated. -/
theorem encode_startsIgnored {inputs : EncodeInputs} {rows : List (EncodedRow ℚ)}
    (isEncoded : template.encode inputs = .ok rows) :
    ∀ row ∈ rows, RowStartsIgnored (!template.isLossScaleBinary) row := by
  rw [encode] at isEncoded
  cases isColumns : template.encodeColumns inputs with
  | none =>
    rw [isColumns] at isEncoded
    cases isEncoded
  | some columns =>
    have starts := encodeColumns_startsIgnored isColumns
    have finished : ∀ columns, StartsIgnored (!template.isLossScaleBinary) columns →
        ∀ row ∈ [finishedRow template.lengthSettings columns],
          RowStartsIgnored (!template.isLossScaleBinary) row := by
      intro columns starts row isRow
      rw [mem_singleton.mp isRow]
      exact ⟨starts, getLength_of_aligned starts.aligned⟩
    rw [isColumns] at isEncoded
    dsimp only at isEncoded
    rw [encodeTruncated] at isEncoded
    split at isEncoded
    · cases isEncoded
      exact finished columns starts
    · split at isEncoded
      · cases isEncoded
        exact finished columns starts
      · split at isEncoded
        · cases isEncoded
        · cases isEncoded
          exact splitRows_startsIgnored starts _
        · split at isEncoded
          · rename_i isTruncated
            cases isEncoded
            exact finished _ (starts.truncate isTruncated)
          · cases isEncoded

end TrainingTemplate

end Geobench.Template
