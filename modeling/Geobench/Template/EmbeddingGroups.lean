import Geobench.Library.Decimal
import Geobench.Library.ListSlices
import Geobench.Library.Records
import Mathlib.Data.Rat.Defs

/-!
# The groups of an embedding batch

The sentences of an embedding sample are encoded to one dictionary: the fields of the anchor and of
the positive under prefixes, those of the negatives in columns that are filled with `None`.
`embeddingDataCollator` takes the sentences of all samples back out, one row after the other, and
`parseMultiNegativeSentences` cuts the rows into groups where the labels are not zero.

**`recoversGroups_iff`**: the groups are the samples. With `hard_negatives` a group is cut to this
number of negatives, or is filled up with sentences chosen from it.
-/

namespace Geobench.Template

open Library List

variable {α : Type}

/-! ## Samples -/

def negativeWord : Text := "negative".toList

def inputIdsKey : Text := "input_ids".toList

/-- An encoded sentence. A value may be `None`. -/
structure EncodedSentence (α : Type) extends Record Text (Option α) where
  has_inputIds : toRecord.Carries inputIdsKey
  no_negative : ∀ field ∈ fields, ¬ negativeWord <:+: field.1

/-- The encoded sentences of a sample, and the label of the anchor. -/
structure EmbeddingInputs (α : Type) where
  chosen : EncodedSentence α
  positive : List (EncodedSentence α)
  negative : List (EncodedSentence α)
  label : Option ℚ
  some_positive : positive ≠ []

/-- `positive[0]` -/
def EmbeddingInputs.firstPositive (inputs : EmbeddingInputs α) : EncodedSentence α :=
  inputs.positive.head inputs.some_positive

/-- A value of an encoded sample. -/
inductive EmbeddingValue (α : Type) where
  | single (value : Option α)
  | list (values : List (Option α))

abbrev EmbeddingFields (α : Type) := List (Text × EmbeddingValue α)

structure EmbeddingSample (α : Type) where
  fields : EmbeddingFields α
  labels : List ℚ

def anchorWord : Text := "anchor".toList

def positiveWord : Text := "positive".toList

def anchorPrefix : Text := anchorWord ++ ['_']

def positivePrefix : Text := positiveWord ++ ['_']

def negativePrefix : Text := negativeWord ++ ['_']

def EncodedSentence.under (sentence : EncodedSentence α) (start : Text) : EmbeddingFields α :=
  sentence.fields.map fun field => (start ++ field.1, .single field.2)

/-- `_embedding_encode` in training, from the encoded sentences -/
def embeddingEncode (inputs : EmbeddingInputs α) : EmbeddingSample α where
  fields :=
    inputs.chosen.under anchorPrefix ++ inputs.firstPositive.under positivePrefix ++
      (fillColumns none (inputs.negative.map EncodedSentence.toRecord)).map fun column =>
        (negativePrefix ++ column.1, .list column.2)
  labels := inputs.label.getD 1 :: inputs.negative.map fun _ => 0

/-! ## The collator -/

/-- `f'negative{index}_'` -/
def numberedPrefix (index : ℕ) : Text := negativeWord ++ Nat.toDigits 10 index ++ ['_']

/-- The values of a column of negatives, each under its own key. -/
def numberedItems (suffix : Text) (values : List (Option α)) : EmbeddingFields α :=
  values.zipIdx.map fun item => (numberedPrefix item.2 ++ suffix, .single item.1)

/-- Store the values of a column of negatives one by one, in place of the column. -/
def spreadColumn (state : EmbeddingFields α × Option ℕ) (key : Text) :
    Option (EmbeddingFields α × Option ℕ) :=
  match valueAt state.1 key with
  | some (.list values) =>
    let items := numberedItems (key.drop negativePrefix.length) values
    let fields := items.foldl (fun fields item => setItem fields item.1 item.2) state.1
    some (fields.filter (·.1 ≠ key), some values.length)
  | _ => none

/-- `_fetch_inputs_startswith`, for one sample -/
def fetchInputsStartswith (fields : EmbeddingFields α) (start : Text) : EmbeddingFields α :=
  fields.foldl (fun newInputs field =>
    if start.isPrefixOf field.1 then setItem newInputs (field.1.drop start.length) field.2
    else newInputs) []

/-- The rows of a sample. It is `none` where a column of negatives is no list. -/
def EmbeddingSample.rows (sample : EmbeddingSample α) : Option (List (EmbeddingFields α)) :=
  if inputIdsKey ∈ sample.fields.map Prod.fst then some [sample.fields]
  else do
    let keys := (sample.fields.map Prod.fst).filter (negativeWord <:+: ·)
    let (fields, maxNeg) ← keys.foldlM spreadColumn (sample.fields, none)
    let indexes := [anchorPrefix, positivePrefix] ++
      (List.range (maxNeg.getD 0)).map numberedPrefix
    some (indexes.map (fetchInputsStartswith fields))

/-- `_embedding_data_collator`, up to `_data_collator`: the rows and the labels -/
def embeddingDataCollator (batch : List (EmbeddingSample α)) :
    Option (List (EmbeddingFields α) × List ℚ) := do
  let rows ← batch.mapM EmbeddingSample.rows
  some (rows.flatten, batch.flatMap EmbeddingSample.labels)

/-! ## Splitting into groups -/

/-- `np.random.choice(list(range(population)), size=size, replace=True)`, for each group -/
structure RandomChoice where
  choose : (group population size : ℕ) → List ℕ
  length_choose : ∀ group population size, 0 < population →
    (choose group population size).length = size
  lt_of_mem : ∀ group population size, ∀ place ∈ choose group population size, place < population

/-- Where a group starts, and where the last one ends. The labels lack one row of each group. -/
def splitIndices (labels : List ℚ) : List ℕ :=
  let places := (labels.zipIdx.filter (·.1 ≠ 0)).map Prod.snd ++ [labels.length]
  places.zipIdx.map fun (place, index) => place + index

/-- Cut the negatives of a group to `hardNegatives`, or choose more from it. A group without a
negative raises. -/
def takeNegatives {β : Type} (random : RandomChoice) (hardNegatives group : ℕ)
    (splitPart : List β) : Option (List β) :=
  let negatives := splitPart.length - 2
  if negatives = 0 then none
  else if hardNegatives < negatives then some (splitPart.take (hardNegatives + 2))
  else if negatives < hardNegatives then do
    let selected := random.choose group negatives (hardNegatives - negatives)
    some (splitPart ++ (← selected.mapM fun place => splitPart[place + 1]?))
  else some splitPart

def splitParts {β : Type} (sentences : List β) (labels : List ℚ) : List (List β) :=
  let indices := splitIndices labels
  (indices.zip indices.tail).map fun place => slice sentences place.1 place.2

/-- `_parse_multi_negative_sentences` -/
def parseMultiNegativeSentences {β : Type} (random : RandomChoice) (sentences : List β)
    (labels : List ℚ) (hardNegatives : Option ℕ) : Option (List (List β)) :=
  let parts := splitParts sentences labels
  match hardNegatives with
  | none => some parts
  | some hardNegatives =>
    parts.zipIdx.mapM fun (splitPart, group) => takeNegatives random hardNegatives group splitPart

/-! ## Prefixes -/

theorem not_underscore_mem_anchorWord : '_' ∉ anchorWord := by decide

theorem not_underscore_mem_positiveWord : '_' ∉ positiveWord := by decide

theorem not_underscore_mem_negativeWord : '_' ∉ negativeWord := by decide

theorem not_underscore_mem_numbered (index : ℕ) :
    '_' ∉ negativeWord ++ Nat.toDigits 10 index := by
  rw [mem_append]
  rintro (inWord | inDigits)
  · exact not_underscore_mem_negativeWord inWord
  · exact absurd (isDigit_of_mem_decimal inDigits) (by decide)

variable {suffix : Text}

/-- A key tells its prefix from the rest. -/
theorem prefix_append_inj {first second : Text} (firstFree : '_' ∉ first)
    (secondFree : '_' ∉ second) {other : Text} :
    first ++ ['_'] ++ suffix = second ++ ['_'] ++ other ↔ first = second ∧ suffix = other := by
  rw [append_assoc, append_assoc, singleton_append, singleton_append]
  constructor
  · intro same
    have split := congrArg (splitFirst ['_']) same
    rwa [splitFirst_singleton _ firstFree, splitFirst_singleton _ secondFree, Option.some.injEq,
      Prod.mk.injEq] at split
  · rintro ⟨rfl, rfl⟩
    rfl

theorem toDigits_injective : Function.Injective (Nat.toDigits 10) := by
  intro first second same
  have values := congrArg (fun digits => Nat.ofDigitChars 10 digits 0) same
  simpa only [Nat.ofDigitChars_ten_toDigits] using values

theorem numberedPrefix_append_inj {first second : ℕ} {other : Text} :
    numberedPrefix first ++ suffix = numberedPrefix second ++ other ↔
      first = second ∧ suffix = other := by
  rw [numberedPrefix, numberedPrefix, prefix_append_inj (not_underscore_mem_numbered first)
    (not_underscore_mem_numbered second), append_cancel_left_eq, toDigits_injective.eq_iff]

theorem prefix_append_ne {first second : Text} (firstFree : '_' ∉ first)
    (secondFree : '_' ∉ second) (differ : first ≠ second) (suffix other : Text) :
    first ++ ['_'] ++ suffix ≠ second ++ ['_'] ++ other := fun same =>
  differ ((prefix_append_inj firstFree secondFree).mp same).1

theorem anchorPrefix_append_ne_positive (suffix other : Text) :
    anchorPrefix ++ suffix ≠ positivePrefix ++ other :=
  prefix_append_ne not_underscore_mem_anchorWord not_underscore_mem_positiveWord (by decide) _ _

theorem anchorPrefix_append_ne_negative (suffix other : Text) :
    anchorPrefix ++ suffix ≠ negativePrefix ++ other :=
  prefix_append_ne not_underscore_mem_anchorWord not_underscore_mem_negativeWord (by decide) _ _

theorem positivePrefix_append_ne_negative (suffix other : Text) :
    positivePrefix ++ suffix ≠ negativePrefix ++ other :=
  prefix_append_ne not_underscore_mem_positiveWord not_underscore_mem_negativeWord (by decide) _ _

/-- The other prefixes do not start with `negative`. -/
theorem prefix_append_ne_numbered {word : Text} (free : '_' ∉ word)
    (notNegative : ¬ negativeWord <+: word) (index : ℕ) (suffix other : Text) :
    word ++ ['_'] ++ suffix ≠ numberedPrefix index ++ other :=
  prefix_append_ne free (not_underscore_mem_numbered index)
    (fun same => notNegative ⟨Nat.toDigits 10 index, same.symm⟩) suffix other

theorem anchorPrefix_append_ne_numbered (suffix : Text) (index : ℕ) (other : Text) :
    anchorPrefix ++ suffix ≠ numberedPrefix index ++ other :=
  prefix_append_ne_numbered not_underscore_mem_anchorWord (by decide) index suffix other

theorem positivePrefix_append_ne_numbered (suffix : Text) (index : ℕ) (other : Text) :
    positivePrefix ++ suffix ≠ numberedPrefix index ++ other :=
  prefix_append_ne_numbered not_underscore_mem_positiveWord (by decide) index suffix other

theorem numberedPrefix_append_ne (index : ℕ) (suffix other : Text) :
    numberedPrefix index ++ suffix ≠ negativePrefix ++ other := by
  refine prefix_append_ne (not_underscore_mem_numbered index) not_underscore_mem_negativeWord ?_ _ _
  rw [Ne, append_right_eq_self]
  exact Nat.toDigits_ne_nil

/-! ## The rows of a sample -/

/-- A row has the values of a sentence, and `None` for the keys that the sentence lacks. -/
def IsRowOf (sentence : EncodedSentence α) (row : EmbeddingFields α) : Prop :=
  ∀ key, (valueAt row key).getD (.single none) = .single (sentence.get? key).join

variable {fields : EmbeddingFields α}

theorem valueAt_fetchInputsStartswith (different : (fields.map Prod.fst).Nodup) (start key : Text) :
    valueAt (fetchInputsStartswith fields start) key = valueAt fields (start ++ key) := by
  let taken : EmbeddingFields α := fields.filterMap fun field =>
    if start.isPrefixOf field.1 then some (field.1.drop start.length, field.2) else none
  have startsWith : ∀ key : Text, start.isPrefixOf key = true →
      start ++ key.drop start.length = key := by
    intro key isPrefix
    obtain ⟨rest, rfl⟩ := List.isPrefixOf_iff_prefix.mp isPrefix
    rw [drop_left]
  have stored : fetchInputsStartswith fields start = storeAll taken := by
    rw [fetchInputsStartswith, storeAll, foldl_filterMap]
    congr 1
    funext newInputs field
    split <;> rfl
  have differentTaken : (taken.map Prod.fst).Nodup := by
    have keys : taken.map Prod.fst = (fields.map Prod.fst).filterMap fun key =>
        if start.isPrefixOf key then some (key.drop start.length) else none := by
      rw [map_filterMap, filterMap_map]
      congr 1
      funext field
      rw [Function.comp_apply]
      split <;> rfl
    rw [keys]
    refine different.filterMap fun first second suffix isFirst isSecond => ?_
    obtain ⟨firstStarts, rfl⟩ := Option.ite_some_none_eq_some.mp isFirst
    obtain ⟨secondStarts, same⟩ := Option.ite_some_none_eq_some.mp isSecond
    rw [← startsWith first firstStarts, ← same, startsWith second secondStarts]
  have value : ∀ fields : EmbeddingFields α, valueAt (fields.filterMap fun field =>
      if start.isPrefixOf field.1 then some (field.1.drop start.length, field.2) else none) key =
        valueAt fields (start ++ key) := by
    intro fields
    induction fields with
    | nil => rfl
    | cons field rest ih =>
      rw [filterMap_cons, valueAt_cons]
      by_cases starts : start.isPrefixOf field.1 = true
      · simp only [if_pos starts, valueAt_cons, ih]
        have sameKey : key = field.1.drop start.length ↔ start ++ key = field.1 := by
          constructor
          · rintro rfl
            exact startsWith field.1 starts
          · rintro same
            rw [← same, drop_left]
        simp only [sameKey]
      · have differs : start ++ key ≠ field.1 := fun same =>
          starts (List.isPrefixOf_iff_prefix.mpr ⟨key, same⟩)
        simp only [if_neg starts, if_neg differs, ih]
  rw [stored, storeAll_of_nodup differentTaken]
  exact value fields

/-- The keys of the negatives of a sample are not those of a column. -/
theorem nodup_numberedItems (suffix : Text) (values : List (Option α)) :
    ((numberedItems suffix values).map Prod.fst).Nodup := by
  have keys : (numberedItems suffix values).map Prod.fst =
      (range values.length).map fun index => numberedPrefix index ++ suffix := by
    rw [numberedItems, map_map, range_eq_range', ← zipIdx_map_snd, map_map]
    rfl
  rw [keys]
  exact nodup_range.map fun first second same => (numberedPrefix_append_inj.mp same).1

theorem valueAt_numberedItems (suffix : Text) (values : List (Option α)) (index : ℕ)
    (other : Text) :
    valueAt (numberedItems suffix values) (numberedPrefix index ++ other) =
      if other = suffix then (values[index]?).map .single else none := by
  ext stored
  refine (Record.get?_eq_some_iff ⟨_, nodup_numberedItems suffix values⟩ _ stored).trans ?_
  have isItem : (numberedPrefix index ++ other, stored) ∈ numberedItems suffix values ↔
      ∃ value, values[index]? = some value ∧ other = suffix ∧ .single value = stored := by
    simp only [numberedItems, mem_map, Prod.exists, mk_mem_zipIdx_iff_getElem?,
      Prod.mk.injEq, numberedPrefix_append_inj]
    constructor
    · rintro ⟨value, _, isValue, ⟨rfl, rfl⟩, isStored⟩
      exact ⟨value, isValue, rfl, isStored⟩
    · rintro ⟨value, isValue, rfl, isStored⟩
      exact ⟨value, index, isValue, ⟨rfl, rfl⟩, isStored⟩
  rw [isItem]
  split <;> rename_i same <;> simp [same]

variable {key : Text}

theorem valueAt_numberedItems_eq_none (suffix : Text) (values : List (Option α))
    (isOther : ∀ index suffix, key ≠ numberedPrefix index ++ suffix) :
    valueAt (numberedItems suffix values) key = none := by
  refine valueAt_eq_none fun isKey => ?_
  rw [numberedItems, map_map] at isKey
  obtain ⟨item, -, same⟩ := mem_map.mp isKey
  exact isOther item.2 suffix same.symm

/-- The sample after the columns of its negatives are stored one by one. -/
structure IsSpread (columns : List (Text × List (Option α))) (fields after : EmbeddingFields α) :
    Prop where
  nodup_keys : (after.map Prod.fst).Nodup
  valueAt_numbered : ∀ index suffix, valueAt after (numberedPrefix index ++ suffix) =
    (((valueAt columns suffix).bind (·[index]?)).map EmbeddingValue.single).or
      (valueAt fields (numberedPrefix index ++ suffix))
  valueAt_other : ∀ key, (∀ index suffix, key ≠ numberedPrefix index ++ suffix) →
    (∀ suffix ∈ columns.map Prod.fst, key ≠ negativePrefix ++ suffix) →
    valueAt after key = valueAt fields key

theorem spreadColumn_of_valueAt (different : (fields.map Prod.fst).Nodup) (maxNeg : Option ℕ)
    {values : List (Option α)}
    (isColumn : valueAt fields (negativePrefix ++ suffix) = some (.list values)) :
    ∃ after, spreadColumn (fields, maxNeg) (negativePrefix ++ suffix) =
      some (after, some values.length) ∧ IsSpread [(suffix, values)] fields after := by
  let stored := (numberedItems suffix values).foldl (fun fields item =>
    setItem fields item.1 item.2) fields
  have value : ∀ key, valueAt (stored.filter (·.1 ≠ negativePrefix ++ suffix)) key =
      if key = negativePrefix ++ suffix then none else
        (valueAt (numberedItems suffix values) key).or (valueAt fields key) := by
    intro key
    rw [valueAt_filter_ne, valueAt_foldl_setItem (nodup_numberedItems suffix values)]
  refine ⟨stored.filter (·.1 ≠ negativePrefix ++ suffix), ?_, ?_, ?_, ?_⟩
  · simp only [spreadColumn, isColumn, drop_left]
    rfl
  · exact ((nodup_keys_foldl_setItem _ different).sublist
      (filter_sublist.map Prod.fst))
  · intro index other
    rw [value, if_neg (numberedPrefix_append_ne index other suffix), valueAt_numberedItems,
      valueAt_cons]
    split <;> rfl
  · intro key notNumbered notColumn
    rw [value, if_neg (notColumn suffix mem_cons_self),
      valueAt_numberedItems_eq_none suffix values notNumbered, Option.none_or]

/-- Storing the values of all columns one by one. The induction is on the columns. Storing one
does not change the others. -/
theorem foldlM_spreadColumn {count : ℕ} {columns : List (Text × List (Option α))}
    (differentColumns : (columns.map Prod.fst).Nodup)
    (counts : ∀ column ∈ columns, column.2.length = count) (different : (fields.map Prod.fst).Nodup)
    (areColumns : ∀ column ∈ columns,
      valueAt fields (negativePrefix ++ column.1) = some (.list column.2)) (maxNeg : Option ℕ) :
    ∃ after, (columns.map (negativePrefix ++ ·.1)).foldlM spreadColumn (fields, maxNeg) =
        some (after, if columns = [] then maxNeg else some count) ∧
      IsSpread columns fields after := by
  induction columns generalizing fields maxNeg with
  | nil =>
    refine ⟨fields, rfl, different, fun _ _ => ?_, fun _ _ _ => rfl⟩
    rfl
  | cons column rest ih =>
    obtain ⟨suffix, values⟩ := column
    rw [map_cons, nodup_cons] at differentColumns
    obtain ⟨middle, isMiddle, spread⟩ := spreadColumn_of_valueAt different maxNeg
      (areColumns _ mem_cons_self)
    have stillColumns : ∀ column ∈ rest,
        valueAt middle (negativePrefix ++ column.1) = some (.list column.2) := by
      intro column isColumn
      rw [spread.valueAt_other _
        (fun index other => (numberedPrefix_append_ne index other _).symm)]
      · exact areColumns column (mem_cons_of_mem _ isColumn)
      · intro other isOther same
        rw [map_singleton, mem_singleton] at isOther
        rw [append_cancel_left_eq, isOther] at same
        exact differentColumns.1 (same ▸ mem_map_of_mem isColumn)
    obtain ⟨after, isAfter, restSpread⟩ := ih differentColumns.2
      (fun column isColumn => counts column (mem_cons_of_mem _ isColumn))
      spread.nodup_keys stillColumns (some values.length)
    refine ⟨after, ?_, restSpread.nodup_keys, ?_, ?_⟩
    · rw [map_cons, foldlM_cons, isMiddle, if_neg (cons_ne_nil _ _)]
      have isCount : values.length = count := counts _ mem_cons_self
      rw [Option.bind_eq_bind, Option.bind_some, isAfter, isCount, ite_self]
    · intro index other
      rw [restSpread.valueAt_numbered, spread.valueAt_numbered, valueAt_cons, valueAt_cons]
      by_cases same : other = suffix
      · rw [if_pos same, if_pos same, same, valueAt_eq_none differentColumns.1]
        rfl
      · rw [if_neg same, if_neg same]
        rfl
    · intro key notNumbered notColumn
      rw [restSpread.valueAt_other key notNumbered, spread.valueAt_other key notNumbered]
      · intro other isOther
        rw [map_singleton, mem_singleton] at isOther
        exact isOther ▸ notColumn suffix mem_cons_self
      · exact fun other isOther => notColumn other (mem_cons_of_mem _ isOther)

/-! ### The fields of a sample -/

def EmbeddingInputs.columns (inputs : EmbeddingInputs α) : List (Text × List (Option α)) :=
  fillColumns none (inputs.negative.map EncodedSentence.toRecord)

variable (inputs : EmbeddingInputs α)

theorem fields_embeddingEncode :
    (embeddingEncode inputs).fields = inputs.chosen.under anchorPrefix ++
      inputs.firstPositive.under positivePrefix ++
        inputs.columns.map fun column => (negativePrefix ++ column.1, .list column.2) := rfl

variable (sentence : EncodedSentence α)

theorem keys_under (start : Text) :
    (sentence.under start).map Prod.fst = (sentence.fields.map Prod.fst).map (start ++ ·) := by
  rw [EncodedSentence.under, map_map, map_map]
  rfl

theorem keys_embeddingEncode :
    (embeddingEncode inputs).fields.map Prod.fst =
      (inputs.chosen.fields.map Prod.fst).map (anchorPrefix ++ ·) ++
        (inputs.firstPositive.fields.map Prod.fst).map (positivePrefix ++ ·) ++
          (inputs.columns.map Prod.fst).map (negativePrefix ++ ·) := by
  simp only [fields_embeddingEncode, map_append, keys_under, map_map]
  rfl

theorem mem_keys_embeddingEncode (isKey : key ∈ (embeddingEncode inputs).fields.map Prod.fst) :
    anchorPrefix <+: key ∨ positivePrefix <+: key ∨ negativePrefix <+: key := by
  rw [keys_embeddingEncode, mem_append, mem_append] at isKey
  rcases isKey with (isKey | isKey) | isKey <;> obtain ⟨rest, -, rfl⟩ := mem_map.mp isKey
  · exact Or.inl ⟨rest, rfl⟩
  · exact Or.inr (Or.inl ⟨rest, rfl⟩)
  · exact Or.inr (Or.inr ⟨rest, rfl⟩)

theorem inputIdsKey_notMem_keys :
    inputIdsKey ∉ (embeddingEncode inputs).fields.map Prod.fst := by
  intro isKey
  rcases mem_keys_embeddingEncode inputs isKey with isPrefix | isPrefix | isPrefix <;>
    exact absurd isPrefix (by decide)

theorem nodup_keys_embeddingEncode : ((embeddingEncode inputs).fields.map Prod.fst).Nodup := by
  have different : ∀ (start : Text) {keys : List Text}, keys.Nodup →
      (keys.map (start ++ ·)).Nodup := fun start _ nodup =>
    nodup.map fun _ _ same => append_cancel_left same
  rw [keys_embeddingEncode]
  refine ((different _ inputs.chosen.nodup_keys).append
    (different _ inputs.firstPositive.nodup_keys) ?_).append
      (different _ (nodup_keys_fillColumns none _)) ?_
  · refine disjoint_left.mpr fun key isAnchor isPositive => ?_
    obtain ⟨first, -, rfl⟩ := mem_map.mp isAnchor
    obtain ⟨second, -, same⟩ := mem_map.mp isPositive
    exact anchorPrefix_append_ne_positive first second same.symm
  · refine disjoint_left.mpr fun key isSentence isNegative => ?_
    obtain ⟨column, -, rfl⟩ := mem_map.mp isNegative
    rcases mem_append.mp isSentence with isAnchor | isPositive
    · obtain ⟨first, -, same⟩ := mem_map.mp isAnchor
      exact anchorPrefix_append_ne_negative first column same
    · obtain ⟨first, -, same⟩ := mem_map.mp isPositive
      exact positivePrefix_append_ne_negative first column same

/-- The keys that have `negative` in them are those of the columns. -/
theorem filter_keys_embeddingEncode :
    ((embeddingEncode inputs).fields.map Prod.fst).filter (negativeWord <:+: ·) =
      inputs.columns.map (negativePrefix ++ ·.1) := by
  have dropped : ∀ (sentence : EncodedSentence α) {word : Text}, ¬ negativeWord <:+: word →
      ((sentence.fields.map Prod.fst).map (word ++ ['_'] ++ ·)).filter (negativeWord <:+: ·) =
        [] := by
    intro sentence word notWord
    refine filter_eq_nil_iff.mpr fun key isKey => ?_
    obtain ⟨rest, isRest, rfl⟩ := mem_map.mp isKey
    obtain ⟨field, isField, rfl⟩ := mem_map.mp isRest
    rw [decide_eq_true_eq, append_assoc, singleton_append,
      infix_append_cons_iff not_underscore_mem_negativeWord]
    exact not_or.mpr ⟨notWord, sentence.no_negative field isField⟩
  have kept : ((inputs.columns.map Prod.fst).map (negativePrefix ++ ·)).filter
      (negativeWord <:+: ·) = inputs.columns.map (negativePrefix ++ ·.1) := by
    rw [map_map]
    refine filter_eq_self.mpr fun key isKey => ?_
    obtain ⟨column, -, rfl⟩ := mem_map.mp isKey
    rw [decide_eq_true_eq, Function.comp_apply, negativePrefix, append_assoc]
    exact infix_append' [] negativeWord _
  rw [keys_embeddingEncode, filter_append, filter_append, kept, anchorPrefix,
    positivePrefix, dropped inputs.chosen (by decide), dropped inputs.firstPositive (by decide)]
  rfl

theorem valueAt_under (start key : Text) :
    valueAt (sentence.under start) (start ++ key) = (sentence.get? key).map .single :=
  valueAt_map_keys (append_right_injective start) EmbeddingValue.single sentence.fields key

theorem valueAt_under_eq_none {start : Text} (isOther : ∀ suffix, key ≠ start ++ suffix) :
    valueAt (sentence.under start) key = none :=
  valueAt_map_keys_eq_none isOther EmbeddingValue.single sentence.fields

theorem valueAt_anchor (key : Text) :
    valueAt (embeddingEncode inputs).fields (anchorPrefix ++ key) =
      (inputs.chosen.get? key).map .single := by
  rw [fields_embeddingEncode, valueAt_append, valueAt_append, valueAt_under,
    valueAt_under_eq_none _ (anchorPrefix_append_ne_positive key),
    valueAt_map_keys_eq_none (anchorPrefix_append_ne_negative key), Option.or_none, Option.or_none]

theorem valueAt_positive (key : Text) :
    valueAt (embeddingEncode inputs).fields (positivePrefix ++ key) =
      (inputs.firstPositive.get? key).map .single := by
  rw [fields_embeddingEncode, valueAt_append, valueAt_append, valueAt_under,
    valueAt_under_eq_none _ fun suffix => (anchorPrefix_append_ne_positive suffix key).symm,
    valueAt_map_keys_eq_none (positivePrefix_append_ne_negative key), Option.none_or,
    Option.or_none]

theorem valueAt_negative (key : Text) :
    valueAt (embeddingEncode inputs).fields (negativePrefix ++ key) =
      (valueAt inputs.columns key).map .list := by
  rw [fields_embeddingEncode, valueAt_append, valueAt_append,
    valueAt_under_eq_none _ fun suffix => (anchorPrefix_append_ne_negative suffix key).symm,
    valueAt_under_eq_none _ fun suffix => (positivePrefix_append_ne_negative suffix key).symm,
    valueAt_map_keys (append_right_injective negativePrefix), Option.none_or, Option.none_or]

theorem valueAt_numbered (index : ℕ) (key : Text) :
    valueAt (embeddingEncode inputs).fields (numberedPrefix index ++ key) = none := by
  rw [fields_embeddingEncode, valueAt_append, valueAt_append,
    valueAt_under_eq_none _ fun suffix => (anchorPrefix_append_ne_numbered suffix index key).symm,
    valueAt_under_eq_none _ fun suffix => (positivePrefix_append_ne_numbered suffix index key).symm,
    valueAt_map_keys_eq_none (numberedPrefix_append_ne index key), Option.none_or, Option.none_or]

/-- A column has what each negative has under its key. -/
theorem valueAt_columns {column : Text × List (Option α)} (isColumn : column ∈ inputs.columns) :
    valueAt inputs.columns column.1 = some column.2 :=
  (Record.get?_eq_some_iff ⟨_, nodup_keys_fillColumns none _⟩ column.1 column.2).mpr isColumn

theorem length_of_mem_columns {column : Text × List (Option α)}
    (isColumn : column ∈ inputs.columns) : column.2.length = inputs.negative.length := by
  have value := valueAt_columns inputs isColumn
  rw [EmbeddingInputs.columns, valueAt_fillColumns, Option.ite_some_none_eq_some] at value
  rw [← value.2, length_map, length_map]

/-- A sample has columns where it has negatives, as each negative has its token ids. -/
theorem columns_eq_nil_iff : inputs.columns = [] ↔ inputs.negative = [] := by
  constructor
  · intro noColumn
    by_contra some
    obtain ⟨first, isNegative⟩ := exists_mem_of_ne_nil _ some
    have value := valueAt_fillColumns none (inputs.negative.map EncodedSentence.toRecord)
      inputIdsKey
    rw [if_pos ⟨_, mem_map_of_mem isNegative, first.has_inputIds⟩] at value
    rw [EmbeddingInputs.columns] at noColumn
    rw [noColumn] at value
    exact Option.some_ne_none _ value.symm
  · intro noNegative
    rw [EmbeddingInputs.columns, noNegative]
    rfl

def EmbeddingInputs.sentences : List (EncodedSentence α) :=
  inputs.chosen :: inputs.firstPositive :: inputs.negative

theorem isRowOf_single {sentence : EncodedSentence α} {row : EmbeddingFields α}
    (same : ∀ key, valueAt row key = (sentence.get? key).map .single) : IsRowOf sentence row := by
  intro key
  rw [same]
  cases sentence.get? key <;> rfl

section Spread

variable {inputs : EmbeddingInputs α} {after : EmbeddingFields α}
  (spread : IsSpread inputs.columns (embeddingEncode inputs).fields after)

include spread

theorem isRowOf_anchor : IsRowOf inputs.chosen (fetchInputsStartswith after anchorPrefix) := by
  refine isRowOf_single fun key => ?_
  rw [valueAt_fetchInputsStartswith spread.nodup_keys,
    spread.valueAt_other _ (anchorPrefix_append_ne_numbered key)
      fun suffix _ => anchorPrefix_append_ne_negative key suffix, valueAt_anchor]

theorem isRowOf_positive :
    IsRowOf inputs.firstPositive (fetchInputsStartswith after positivePrefix) := by
  refine isRowOf_single fun key => ?_
  rw [valueAt_fetchInputsStartswith spread.nodup_keys,
    spread.valueAt_other _ (positivePrefix_append_ne_numbered key)
      fun suffix _ => positivePrefix_append_ne_negative key suffix, valueAt_positive]

/-- The rows of the negatives have `None` for the keys that only other negatives have. -/
theorem isRowOf_negative {index : ℕ} {sentence : EncodedSentence α}
    (isNegative : inputs.negative[index]? = some sentence) :
    IsRowOf sentence (fetchInputsStartswith after (numberedPrefix index)) := by
  intro key
  rw [valueAt_fetchInputsStartswith spread.nodup_keys, spread.valueAt_numbered, valueAt_numbered,
    Option.or_none, EmbeddingInputs.columns, valueAt_fillColumns]
  split
  · rw [Option.bind_some, getElem?_map, getElem?_map, isNegative]
    simp only [Option.map_some, Option.getD_some]
    cases sentence.get? key <;> rfl
  · rename_i noCarrier
    have absent : sentence.get? key = none := by
      by_contra isThere
      exact noCarrier ⟨_, mem_map_of_mem (mem_of_getElem? isNegative),
        Option.ne_none_iff_isSome.mp isThere⟩
    rw [absent]
    rfl

end Spread

theorem rows_embeddingEncode :
    ∃ rows, (embeddingEncode inputs).rows = some rows ∧
      List.Forall₂ IsRowOf inputs.sentences rows := by
  obtain ⟨after, isAfter, spread⟩ : ∃ after, (inputs.columns.map (negativePrefix ++ ·.1)).foldlM
      spreadColumn ((embeddingEncode inputs).fields, none) =
        some (after, if inputs.columns = [] then none else some inputs.negative.length) ∧
      IsSpread inputs.columns (embeddingEncode inputs).fields after :=
    foldlM_spreadColumn (nodup_keys_fillColumns none _)
      (fun column => length_of_mem_columns inputs) (nodup_keys_embeddingEncode inputs)
      (fun column isColumn => by
        rw [valueAt_negative, valueAt_columns inputs isColumn, Option.map_some]) none
  have count : (if inputs.columns = [] then none else some inputs.negative.length).getD 0 =
      inputs.negative.length := by
    by_cases none : inputs.negative = []
    · rw [if_pos ((columns_eq_nil_iff inputs).mpr none), none]
      rfl
    · rw [if_neg ((columns_eq_nil_iff inputs).not.mpr none), Option.getD_some]
  have areNegatives : List.Forall₂ IsRowOf inputs.negative
      ((range inputs.negative.length).map
        (fetchInputsStartswith after ∘ numberedPrefix)) := by
    refine forall₂_iff_get.mpr ⟨by simp, fun index isNegative isIndex => ?_⟩
    rw [get_eq_getElem, get_eq_getElem, getElem_map, getElem_range]
    exact isRowOf_negative spread (getElem?_eq_getElem isNegative)
  have areRows : List.Forall₂ IsRowOf inputs.sentences
      (([anchorPrefix, positivePrefix] ++ (range inputs.negative.length).map
        numberedPrefix).map (fetchInputsStartswith after)) := by
    rw [map_append, map_map]
    exact .cons (isRowOf_anchor spread) (.cons (isRowOf_positive spread) areNegatives)
  refine ⟨_, ?_, areRows⟩
  rw [EmbeddingSample.rows, if_neg (inputIdsKey_notMem_keys inputs), filter_keys_embeddingEncode]
  simp only [isAfter, Option.bind_eq_bind, Option.bind_some, count]

/-- The rows of a batch are the sentences of its samples, in order. -/
theorem embeddingDataCollator_eq (batch : List (EmbeddingInputs α)) :
    ∃ rows : List (List (EmbeddingFields α)),
      embeddingDataCollator (batch.map embeddingEncode) =
        some (rows.flatten, batch.flatMap fun inputs => (embeddingEncode inputs).labels) ∧
      List.Forall₂ (fun inputs rows => List.Forall₂ IsRowOf inputs.sentences rows) batch rows := by
  choose rowsOf isRows areRows using rows_embeddingEncode (α := α)
  have all : (batch.map embeddingEncode).mapM EmbeddingSample.rows = some (batch.map rowsOf) := by
    rw [mapM_map]
    exact mapM_eq_some fun inputs _ => isRows inputs
  refine ⟨batch.map rowsOf, ?_, ?_⟩
  · rw [embeddingDataCollator, all, Option.bind_eq_bind, Option.bind_some, flatMap_map]
  · exact forall₂_map_right_iff.mpr (forall₂_same.mpr fun inputs _ => areRows inputs)

/-! ## The groups of a batch -/

section Groups

variable {batch : List (EmbeddingInputs α)}
  (labelled : ∀ inputs ∈ batch, inputs.label.getD 1 ≠ 0)

include labelled

/-- Only the label of an anchor is not zero. The induction is on the samples. Each of them has one
label less than sentences. -/
theorem places_labels (start index : ℕ) :
    (((((batch.flatMap fun inputs => (embeddingEncode inputs).labels).zipIdx start).filter
        (·.1 ≠ 0)).map Prod.snd ++ [start +
          (batch.flatMap fun inputs => (embeddingEncode inputs).labels).length]).zipIdx index).map
        (fun place => place.1 + place.2) =
      (places (batch.map fun inputs => inputs.sentences.length)).map (start + index + ·) := by
  induction batch generalizing start index with
  | nil => simp [places, offset]
  | cons inputs rest ih =>
    have later := ih (fun other isOther => labelled other (mem_cons_of_mem _ isOther))
      (start + (inputs.negative.length + 1)) (index + 1)
    have zeros : ∀ first : ℕ, ((inputs.negative.map fun _ => (0 : ℚ)).zipIdx first).filter
        (·.1 ≠ 0) = [] := by
      intro first
      refine filter_eq_nil_iff.mpr fun item isItem => ?_
      obtain ⟨_, _, isZero⟩ := mem_map.mp (fst_mem_of_mem_zipIdx isItem)
      simp [← isZero]
    have anchor : inputs.label.getD 1 ≠ 0 := labelled inputs mem_cons_self
    have length : (embeddingEncode inputs).labels.length = inputs.negative.length + 1 := by
      rw [embeddingEncode, length_cons, length_map]
    have marked : ∀ more : List ℚ,
        ((((embeddingEncode inputs).labels ++ more).zipIdx start).filter (·.1 ≠ 0)).map Prod.snd =
          start :: ((more.zipIdx (start + (inputs.negative.length + 1))).filter
            (·.1 ≠ 0)).map Prod.snd := by
      intro more
      have first : (embeddingEncode inputs).labels.zipIdx start =
          (inputs.label.getD 1, start) ::
            (inputs.negative.map fun _ => (0 : ℚ)).zipIdx (start + 1) := rfl
      rw [zipIdx_append, first, length, filter_append,
        filter_cons_of_pos (by simpa using anchor), zeros]
      rfl
    have second : ∀ place, start + (inputs.negative.length + 1) + (index + 1) + place =
        start + index + (inputs.sentences.length + place) := by
      intro place
      rw [EmbeddingInputs.sentences, length_cons, length_cons]
      omega
    rw [flatMap_cons, marked, length_append, length,
      ← Nat.add_assoc start (inputs.negative.length + 1), cons_append, zipIdx_cons, map_cons,
      later, map_cons, places_cons, map_cons, map_map, Nat.add_zero]
    exact congrArg _ (map_congr_left fun place _ => second place)

theorem splitIndices_eq_places :
    splitIndices (batch.flatMap fun inputs => (embeddingEncode inputs).labels) =
      places (batch.map fun inputs => inputs.sentences.length) := by
  have whole := places_labels labelled 0 0
  simpa [splitIndices] using whole

theorem splitParts_flatten {β : Type} {sentences : List (List β)}
    (counts : List.Forall₂ (fun inputs own => own.length = inputs.sentences.length)
      batch sentences) :
    splitParts sentences.flatten (batch.flatMap fun inputs => (embeddingEncode inputs).labels) =
      sentences := by
  have lengths : (batch.map fun inputs => inputs.sentences.length) =
      sentences.map length := by
    refine forall₂_eq_eq_eq ▸ forall₂_map_left_iff.mpr
      (forall₂_map_right_iff.mpr (counts.imp fun _ _ same => same.symm))
  rw [splitParts, splitIndices_eq_places labelled, lengths, map_zip_places, length_map,
    cutAt_offset]

end Groups

/-! ## Negatives of its own -/

/-- A group is the anchor, the positive and as many negatives of the sample as are asked for. -/
def HasOwnNegatives {β : Type} (hardNegatives : ℕ) (own group : List β) : Prop :=
  ∃ anchor positive negatives taken, own = anchor :: positive :: negatives ∧
    group = anchor :: positive :: taken ∧ taken.length = hardNegatives ∧
      ∀ sentence ∈ taken, sentence ∈ negatives

variable {β : Type} {negatives : List β}

theorem takeNegatives_of_le (random : RandomChoice) {hardNegatives : ℕ} (group : ℕ)
    (anchor positive : β) (isSome : negatives ≠ []) (enough : hardNegatives ≤ negatives.length) :
    takeNegatives random hardNegatives group (anchor :: positive :: negatives) =
      some (anchor :: positive :: negatives.take hardNegatives) := by
  have count : (anchor :: positive :: negatives).length - 2 = negatives.length := rfl
  rw [takeNegatives, count, if_neg (length_eq_zero_iff.not.mpr isSome)]
  rcases enough.lt_or_eq with fewer | same
  · rw [if_pos fewer]
    rfl
  · rw [if_neg (not_lt_of_ge same.ge), if_neg (not_lt_of_ge same.le), same, take_length]

/-- What is chosen for a group that has too few negatives starts at its positive. -/
theorem takeNegatives_of_lt (random : RandomChoice) {hardNegatives : ℕ} (group : ℕ)
    (anchor positive : β) (isSome : negatives ≠ []) (few : negatives.length < hardNegatives) :
    takeNegatives random hardNegatives group (anchor :: positive :: negatives) =
      some (anchor :: positive :: (negatives ++ (random.choose group negatives.length
        (hardNegatives - negatives.length)).map fun place =>
          (positive :: negatives).getD place positive)) := by
  have count : (anchor :: positive :: negatives).length - 2 = negatives.length := rfl
  have chosen : (random.choose group negatives.length (hardNegatives - negatives.length)).mapM
      (fun place => (anchor :: positive :: negatives)[place + 1]?) =
        some ((random.choose group negatives.length (hardNegatives - negatives.length)).map
          fun place => (positive :: negatives).getD place positive) := by
    refine mapM_eq_some fun place isPlace => ?_
    have inside : place < (positive :: negatives).length :=
      (random.lt_of_mem group _ _ place isPlace).trans (Nat.lt_succ_self _)
    rw [getElem?_cons_succ, getD_eq_getElem?_getD, getElem?_eq_getElem inside, Option.getD_some]
  rw [takeNegatives, count, if_neg (length_eq_zero_iff.not.mpr isSome),
    if_neg (not_lt_of_ge few.le), if_pos few]
  simp only [chosen, Option.bind_eq_bind, Option.bind_some]
  rfl

/-- `choice` may give the first negative each time. -/
def chooseFirst : RandomChoice where
  choose _ population size := if population = 0 then [] else List.replicate size 0
  length_choose _ _ _ some := by rw [if_neg some.ne', length_replicate]
  lt_of_mem _ population _ place isPlace := by
    split at isPlace
    · exact absurd isPlace not_mem_nil
    · rw [eq_of_mem_replicate isPlace]
      exact Nat.pos_of_ne_zero ‹_›

theorem takeNegatives_chooseFirst (hardNegatives group : ℕ) (anchor positive : β)
    (isSome : negatives ≠ []) :
    takeNegatives chooseFirst hardNegatives group (anchor :: positive :: negatives) =
      some (anchor :: positive :: (negatives.take hardNegatives ++
        replicate (hardNegatives - negatives.length) positive)) := by
  rcases Nat.lt_or_ge negatives.length hardNegatives with few | enough
  · have first : chooseFirst.choose group negatives.length (hardNegatives - negatives.length) =
        replicate (hardNegatives - negatives.length) 0 :=
      if_neg (length_eq_zero_iff.not.mpr isSome)
    rw [takeNegatives_of_lt chooseFirst group anchor positive isSome few, first,
      map_replicate, take_of_length_le few.le, getD_cons_zero]
  · rw [takeNegatives_of_le chooseFirst group anchor positive isSome enough,
      Nat.sub_eq_zero_of_le enough, replicate_zero, append_nil]

/-- The rows of a batch are cut into its samples. With `hardNegatives`, if each sample has a
negative, what the model makes of the rows is cut into groups with negatives of their own. -/
def RecoversGroups (hardNegatives : Option ℕ) (batch : List (EmbeddingInputs α)) : Prop :=
  ∃ rows labels, embeddingDataCollator (batch.map embeddingEncode) = some (rows, labels) ∧
    (∀ random, ∃ groups, parseMultiNegativeSentences random rows labels none = some groups ∧
      List.Forall₂ (fun inputs group => List.Forall₂ IsRowOf inputs.sentences group)
        batch groups) ∧
    ∀ count ∈ hardNegatives, (∀ inputs ∈ batch, inputs.negative ≠ []) →
      ∀ (β : Type) (sentences : List (List β)),
        List.Forall₂ (fun inputs own => own.length = inputs.sentences.length) batch sentences →
        ∀ random, ∃ groups,
          parseMultiNegativeSentences random sentences.flatten labels (some count) = some groups ∧
          List.Forall₂ (HasOwnNegatives count) sentences groups

section Counts

variable {batch : List (EmbeddingInputs α)}
  (labelled : ∀ inputs ∈ batch, inputs.label.getD 1 ≠ 0)

variable {β : Type} {hardNegatives : ℕ}

include labelled in
theorem parse_of_each (Holds : List β → List β → Prop) (random : RandomChoice)
    (each : ∀ inputs ∈ batch, ∀ group, ∀ own : List β,
      own.length = inputs.sentences.length →
      ∃ taken, takeNegatives random hardNegatives group own = some taken ∧ Holds own taken)
    {sentences : List (List β)}
    (counts : List.Forall₂ (fun inputs own => own.length = inputs.sentences.length) batch
      sentences) :
    ∃ groups, parseMultiNegativeSentences random sentences.flatten
        (batch.flatMap fun inputs => (embeddingEncode inputs).labels) (some hardNegatives) =
          some groups ∧ List.Forall₂ Holds sentences groups := by
  have run : ∀ start, ∃ groups, (sentences.zipIdx start).mapM (fun part =>
      takeNegatives random hardNegatives part.2 part.1) = some groups ∧
      List.Forall₂ Holds sentences groups := by
    clear labelled
    induction counts with
    | nil => exact fun start => ⟨[], rfl, .nil⟩
    | @cons inputs own batch sentences count _ ih =>
      intro start
      obtain ⟨groups, areGroups, holds⟩ := ih
        (fun other isOther => each other (mem_cons_of_mem _ isOther)) (start + 1)
      obtain ⟨taken, isTaken, first⟩ := each inputs mem_cons_self start own count
      refine ⟨taken :: groups, ?_, .cons first holds⟩
      rw [zipIdx_cons, mapM_cons, areGroups, isTaken]
      rfl
  rw [parseMultiNegativeSentences]
  simp only [splitParts_flatten labelled counts]
  exact run 0

theorem exists_negatives {inputs : EmbeddingInputs α} (isSome : inputs.negative ≠ []) {own : List β}
    (count : own.length = inputs.sentences.length) :
    ∃ anchor positive negatives, own = anchor :: positive :: negatives ∧
      negatives.length = inputs.negative.length ∧ negatives ≠ [] := by
  match own, count with
  | anchor :: positive :: negatives, count =>
    have length : negatives.length = inputs.negative.length := by
      simpa [EmbeddingInputs.sentences] using count
    refine ⟨anchor, positive, negatives, rfl, length, ?_⟩
    rw [← length_pos_iff, length, length_pos_iff]
    exact isSome

variable (haveNegatives : ∀ inputs ∈ batch, inputs.negative ≠ [])

include labelled haveNegatives

/-- With enough negatives, a group has the first ones of its sample. -/
theorem parse_of_enough (enough : ∀ inputs ∈ batch, hardNegatives ≤ inputs.negative.length)
    {sentences : List (List β)}
    (counts : List.Forall₂ (fun inputs own => own.length = inputs.sentences.length) batch sentences)
    (random : RandomChoice) :
    ∃ groups, parseMultiNegativeSentences random sentences.flatten
        (batch.flatMap fun inputs => (embeddingEncode inputs).labels) (some hardNegatives) =
          some groups ∧
      List.Forall₂ (HasOwnNegatives hardNegatives) sentences groups := by
  refine parse_of_each labelled _ random (fun inputs isSample group own count => ?_) counts
  obtain ⟨anchor, positive, negatives, rfl, length, isSome⟩ :=
    exists_negatives (haveNegatives inputs isSample) count
  have fits : hardNegatives ≤ negatives.length := length ▸ enough inputs isSample
  exact ⟨_, takeNegatives_of_le random group anchor positive isSome fits, anchor, positive,
    negatives, _, rfl, rfl, length_take_of_le fits, fun _ => mem_of_mem_take⟩

/-- Where a sample has too few negatives, its positive may be among those that are taken. -/
theorem not_recoversGroups_of_few {inputs : EmbeddingInputs α} (isSample : inputs ∈ batch)
    (few : inputs.negative.length < hardNegatives) :
    ¬ RecoversGroups (some hardNegatives) batch := by
  rintro ⟨rows, labels, isBatch, -, draws⟩
  obtain ⟨_, collated, -⟩ := embeddingDataCollator_eq batch
  rw [collated, Option.some.injEq, Prod.mk.injEq] at isBatch
  obtain ⟨-, rfl⟩ := isBatch
  -- The positive of each sample is the only sentence that is `1`.
  let marked (inputs : EmbeddingInputs α) : List ℕ :=
    0 :: 1 :: replicate inputs.negative.length 2
  have counts : List.Forall₂ (fun inputs own => own.length = inputs.sentences.length) batch
      (batch.map marked) := by
    refine forall₂_map_right_iff.mpr (forall₂_same.mpr fun inputs _ => ?_)
    simp [marked, EmbeddingInputs.sentences]
  obtain ⟨groups, areGroups, ownNegatives⟩ :=
    draws hardNegatives rfl haveNegatives ℕ (batch.map marked) counts chooseFirst
  let takesPositive (own group : List ℕ) : Prop := ∀ anchor positive negatives,
    own = anchor :: positive :: negatives → negatives.length < hardNegatives →
      ∃ later, group = anchor :: positive :: later ∧ positive ∈ later
  have each : ∀ inputs ∈ batch, ∀ group, ∀ own : List ℕ,
      own.length = inputs.sentences.length →
      ∃ taken, takeNegatives chooseFirst hardNegatives group own = some taken ∧
        takesPositive own taken := by
    intro inputs isSample group own count
    obtain ⟨anchor, positive, negatives, rfl, -, isSome⟩ :=
      exists_negatives (haveNegatives inputs isSample) count
    refine ⟨_, takeNegatives_chooseFirst hardNegatives group anchor positive isSome, ?_⟩
    intro anchor' positive' negatives' same fewer
    obtain ⟨rfl, rfl, rfl⟩ : anchor = anchor' ∧ positive = positive' ∧ negatives = negatives' := by
      simpa using same
    refine ⟨_, rfl, mem_append_right _ (mem_replicate.mpr ⟨?_, rfl⟩)⟩
    exact Nat.sub_ne_zero_of_lt fewer
  obtain ⟨_, sameGroups, taken⟩ := parse_of_each labelled takesPositive chooseFirst each counts
  rw [areGroups, Option.some.injEq] at sameGroups
  subst sameGroups
  obtain ⟨group, ⟨anchor, positive, negatives, later, isOwn, isGroup, -, fromOwn⟩, takes⟩ :=
    exists_both_of_forall₂ ownNegatives taken (mem_map_of_mem isSample)
  obtain ⟨rfl, rfl, rfl⟩ : 0 = anchor ∧ 1 = positive ∧
      replicate inputs.negative.length 2 = negatives := by simpa [marked] using isOwn
  obtain ⟨_, sameGroup, isTaken⟩ := takes 0 1 _ rfl (by rwa [length_replicate])
  obtain rfl : later = _ := by simpa [isGroup] using sameGroup
  exact absurd (eq_of_mem_replicate (fromOwn 1 isTaken)) (by decide)

end Counts

/-- **The groups are the samples, and a group with `hardNegatives` has negatives of its own where
no sample has fewer.** -/
theorem recoversGroups_iff {batch : List (EmbeddingInputs α)}
    (defaultLabel : ∀ inputs ∈ batch, inputs.label = none) (hardNegatives : Option ℕ) :
    RecoversGroups hardNegatives batch ↔
      ∀ count ∈ hardNegatives, (∀ inputs ∈ batch, inputs.negative ≠ []) →
        ∀ inputs ∈ batch, count ≤ inputs.negative.length := by
  have labelled : ∀ inputs ∈ batch, inputs.label.getD 1 ≠ 0 := by
    intro inputs isSample
    rw [defaultLabel inputs isSample, Option.getD_none]
    decide
  constructor
  · rintro recovers count isCount haveNegatives inputs isSample
    by_contra fewer
    rw [Option.mem_def.mp isCount] at recovers
    exact not_recoversGroups_of_few labelled haveNegatives isSample (not_le.mp fewer) recovers
  · intro enough
    obtain ⟨rows, collated, areRows⟩ := embeddingDataCollator_eq batch
    refine ⟨rows.flatten, _, collated, fun random => ⟨rows, ?_, areRows⟩, ?_⟩
    · have counts : List.Forall₂ (fun inputs own => own.length = inputs.sentences.length)
          batch rows := areRows.imp fun _ _ same => same.length_eq.symm
      rw [parseMultiNegativeSentences, splitParts_flatten labelled counts]
    · intro count isCount haveNegatives β sentences counts random
      exact parse_of_enough labelled haveNegatives (enough count isCount haveNegatives) counts
        random

def oneToken (token : ℕ) : EncodedSentence ℕ where
  fields := [(inputIdsKey, some token)]
  nodup_keys := nodup_singleton _
  has_inputIds := rfl
  no_negative field isField := by
    have notWord : ¬ negativeWord <:+: inputIdsKey := by decide
    rwa [mem_singleton.mp isField]

def oneNegative : EmbeddingInputs ℕ where
  chosen := oneToken 1
  positive := [oneToken 2]
  negative := [oneToken 3]
  label := none
  some_positive := cons_ne_nil _ _

theorem recoversGroups_oneNegative : RecoversGroups (some 1) [oneNegative] := by
  refine (recoversGroups_iff (by simp [oneNegative]) (some 1)).mpr
    fun count isCount _ inputs isSample => ?_
  rw [mem_singleton.mp isSample, ← Option.some.inj isCount]
  exact le_rfl

theorem not_recoversGroups_oneNegative : ¬ RecoversGroups (some 2) [oneNegative] :=
  not_recoversGroups_of_few (by simp [oneNegative]) (by simp [oneNegative])
    mem_cons_self (by decide)

end Geobench.Template
