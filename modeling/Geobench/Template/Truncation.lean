import Geobench.Library.Masking
import Geobench.Template.ExtendTokens

/-!
# Truncation of samples

A sample that is longer than `max_length` is truncated at the left or at the right, split, or
refused. Truncation keeps every placeholder, and fills the room that they leave with the first or
the last of the other tokens. So a sample keeps more tokens than `max_length` when it has more
placeholders than that.

**`encodeTruncated_rows`** says what the rows of a long sample are.
-/

namespace Geobench.Template

open Library List

variable {K : Type}

inductive TruncationStrategy where
  | left
  | right
  | raise
  | split
  deriving DecidableEq

inductive TruncationError where
  | maxLengthError
  | indexError

/-- A row that comes out, with the length that is recorded. -/
structure EncodedRow (K : Type) where
  columns : TokenColumns K
  length : ℕ

/-- What a template has for the length of its rows. For some task types the labels are dropped. -/
structure LengthSettings where
  placeholderTokens : List ℤ
  maxLength : Option ℕ
  truncationStrategy : TruncationStrategy
  dropsLabels : Bool

/-! ## Truncating a sample -/

/-- The tokens that are kept. -/
def protectedMask (placeholderTokens : List ℤ) (maxLength : ℕ) (fromLeft : Bool)
    (inputIds : List ℤ) : List Bool :=
  let isPlaceholder := inputIds.map fun token => decide (token ∈ placeholderTokens)
  let nProtected := isPlaceholder.count true
  if nProtected < maxLength then
    let nonProtected := (List.range inputIds.length).filter
      fun place => isPlaceholder[place]? = some false
    let idx := if fromLeft then
        signedSlice nonProtected (-((maxLength - nProtected : ℕ) : ℤ)) nonProtected.length
      else signedSlice nonProtected 0 (maxLength - nProtected : ℕ)
    isPlaceholder.zipIdx.map fun entry => entry.1 || decide (entry.2 ∈ idx)
  else isPlaceholder

/-- A column at the kept tokens, with another first entry. -/
def maskColumn {α : Type} (mask : List Bool) (first : α) (values : List α) : Option (List α) :=
  if values.length = mask.length then
    match maskSelect mask values with
    | [] => none
    | _ :: rest => some (first :: rest)
  else none

/-- The values of an optional column, where they can be computed. -/
def mapColumn {α : Type} (f : List α → Option (List α)) (column : Option (List α)) :
    Option (Option (List α)) :=
  match column with
  | none => some none
  | some values => (f values).map some

/-- `_truncate`. An entry or a mask that does not fit raises. -/
def truncate [Zero K] (placeholderTokens : List ℤ) (maxLength : ℕ) (fromLeft : Bool)
    (columns : TokenColumns K) : Option (TokenColumns K) :=
  let mask := protectedMask placeholderTokens maxLength fromLeft columns.inputIds
  (mapColumn (maskColumn mask (-100)) columns.labels).bind fun labels =>
    (mapColumn (maskColumn mask 0) columns.lossScale).map fun lossScale =>
      { inputIds := maskSelect mask columns.inputIds, labels := labels, lossScale := lossScale }

/-- `_get_length` -/
def getLength (columns : TokenColumns K) : ℕ :=
  max columns.inputIds.length (columns.labels.elim 0 List.length)

/-! ## Splitting a sample -/

/-- Another first entry, where there is one. -/
def setHead {α : Type} (first : α) : List α → List α
  | [] => []
  | _ :: rest => first :: rest

/-- The part of a sample from a place on. -/
def splitedRow [Zero K] (maxLength start : ℕ) (columns : TokenColumns K) : EncodedRow K :=
  let splited : TokenColumns K :=
    { inputIds := slice columns.inputIds start (start + maxLength)
      labels := columns.labels.map fun labels =>
        setHead (-100) (slice labels start (start + maxLength))
      lossScale := columns.lossScale.map fun lossScale =>
        setHead 0 (slice lossScale start (start + maxLength)) }
  { columns := splited, length := getLength splited }

/-- The parts that start at the multiples of `max_length` below the length. -/
def splitRows [Zero K] (maxLength : ℕ) (columns : TokenColumns K) : List (EncodedRow K) :=
  (List.range ((getLength columns + maxLength - 1) / maxLength)).map fun part =>
    splitedRow maxLength (part * maxLength) columns

/-! ## The rows of a sample -/

def finishedRow (settings : LengthSettings) (columns : TokenColumns K) : EncodedRow K where
  columns :=
    if settings.dropsLabels then
      { inputIds := columns.inputIds, labels := none, lossScale := none }
    else columns
  length := getLength columns

/-- `_encode_truncated`, after the sample is encoded. -/
def encodeTruncated [Zero K] (settings : LengthSettings) (columns : TokenColumns K) :
    Except TruncationError (List (EncodedRow K)) :=
  match settings.maxLength with
  | none => .ok [finishedRow settings columns]
  | some maxLength =>
    if getLength columns ≤ maxLength then .ok [finishedRow settings columns]
    else
      match settings.truncationStrategy with
      | .raise => .error .maxLengthError
      | .split => .ok (splitRows maxLength columns)
      | side =>
        match truncate settings.placeholderTokens maxLength (side = .left) columns with
        | some columns => .ok [finishedRow settings columns]
        | none => .error .indexError

/-! ## The places that are kept -/

section Kept

variable (placeholderTokens : List ℤ)

def isPlaceholderAt (inputIds : List ℤ) (place : ℕ) : Bool :=
  inputIds[place]?.any fun token => decide (token ∈ placeholderTokens)

def placeholderPlaces (inputIds : List ℤ) : List ℕ :=
  (List.range inputIds.length).filter (isPlaceholderAt placeholderTokens inputIds)

def otherPlaces (inputIds : List ℤ) : List ℕ :=
  (List.range inputIds.length).filter fun place =>
    !isPlaceholderAt placeholderTokens inputIds place

/-- All placeholders are kept, and the first or the last of the others that fit. -/
structure IsKept (maxLength : ℕ) (fromLeft : Bool) (inputIds : List ℤ) (kept : List ℕ) : Prop where
  sublist : kept.Sublist (List.range inputIds.length)
  placeholders :
    kept.filter (isPlaceholderAt placeholderTokens inputIds) =
      placeholderPlaces placeholderTokens inputIds
  others :
    (kept.filter fun place => !isPlaceholderAt placeholderTokens inputIds place) =
      let others := otherPlaces placeholderTokens inputIds
      let room := maxLength - (placeholderPlaces placeholderTokens inputIds).length
      if fromLeft then others.drop (others.length - room) else others.take room

variable {placeholderTokens}

theorem map_isPlaceholder (inputIds : List ℤ) :
    (inputIds.map fun token => decide (token ∈ placeholderTokens)) =
      (range inputIds.length).map (isPlaceholderAt placeholderTokens inputIds) := by
  refine ext_getElem (by simp) fun place isPlace isOther => ?_
  rw [length_map] at isPlace
  simp [isPlaceholderAt, isPlace]

/-- The mask holds for the placeholders and a part of the other places. -/
theorem protectedMask_eq (placeholderTokens : List ℤ) (maxLength : ℕ) (fromLeft : Bool) (inputIds : List ℤ) :
    ∃ idx : List ℕ, idx.Sublist (otherPlaces placeholderTokens inputIds) ∧
      idx = (let others := otherPlaces placeholderTokens inputIds
        let room := maxLength - (placeholderPlaces placeholderTokens inputIds).length
        if fromLeft then others.drop (others.length - room) else others.take room) ∧
      protectedMask placeholderTokens maxLength fromLeft inputIds =
        (range inputIds.length).map fun place =>
          isPlaceholderAt placeholderTokens inputIds place || decide (place ∈ idx) := by
  have number : (inputIds.map fun token => decide (token ∈ placeholderTokens)).count true =
      (placeholderPlaces placeholderTokens inputIds).length := by
    rw [map_isPlaceholder, List.count, countP_map, countP_eq_length_filter]
    refine congrArg length (filter_congr fun place _ => ?_)
    simp
  have others : ((range inputIds.length).filter fun place =>
      (inputIds.map fun token => decide (token ∈ placeholderTokens))[place]? = some false) =
        otherPlaces placeholderTokens inputIds := by
    refine filter_congr fun place isPlace => ?_
    have inside := mem_range.mp isPlace
    simp [isPlaceholderAt, inside]
  refine ⟨_, ?_, rfl, ?_⟩
  · dsimp only
    split
    · exact drop_sublist _ _
    · exact take_sublist _ _
  · rw [protectedMask, number]
    dsimp only
    rw [others]
    split
    · rename_i room
      have chosen : (if fromLeft then signedSlice (otherPlaces placeholderTokens inputIds)
            (-((maxLength - (placeholderPlaces placeholderTokens inputIds).length : ℕ) : ℤ))
            (otherPlaces placeholderTokens inputIds).length
          else signedSlice (otherPlaces placeholderTokens inputIds) 0
            (maxLength - (placeholderPlaces placeholderTokens inputIds).length : ℕ)) =
          if fromLeft then (otherPlaces placeholderTokens inputIds).drop
            ((otherPlaces placeholderTokens inputIds).length -
              (maxLength - (placeholderPlaces placeholderTokens inputIds).length))
          else (otherPlaces placeholderTokens inputIds).take
            (maxLength - (placeholderPlaces placeholderTokens inputIds).length) := by
        rw [signedSlice_last _ (Nat.sub_pos_of_lt room), signedSlice_take]
      rw [chosen, map_isPlaceholder]
      refine ext_getElem (by simp) fun place isPlace isOther => ?_
      simp
    · rename_i full
      have none : maxLength - (placeholderPlaces placeholderTokens inputIds).length = 0 := by
        omega
      rw [none, map_isPlaceholder]
      simp

/-- The mask keeps the places that are to be kept. -/
theorem exists_isKept (placeholderTokens : List ℤ) (maxLength : ℕ) (fromLeft : Bool) (inputIds : List ℤ) :
    ∃ kept, IsKept placeholderTokens maxLength fromLeft inputIds kept ∧
      ∃ keep : ℕ → Bool, kept = (range inputIds.length).filter keep ∧
        protectedMask placeholderTokens maxLength fromLeft inputIds =
          (range inputIds.length).map keep := by
  obtain ⟨idx, within, isIdx, mask⟩ :=
    protectedMask_eq placeholderTokens maxLength fromLeft inputIds
  refine ⟨_, ⟨filter_sublist, ?_, ?_⟩, _, rfl, mask⟩
  · rw [filter_filter]
    refine filter_congr fun place _ => ?_
    cases isPlaceholderAt placeholderTokens inputIds place <;> simp
  · have nodup : (otherPlaces placeholderTokens inputIds).Nodup := nodup_range.filter _
    have chosen := filter_mem_of_sublist nodup within
    rw [otherPlaces, filter_filter] at chosen
    rw [← isIdx, filter_filter]
    refine Eq.trans (filter_congr fun place _ => ?_) chosen
    cases isPlaceholderAt placeholderTokens inputIds place <;> simp

/-- As many tokens are kept as there is room for, or as there are placeholders. -/
theorem IsKept.length_eq {maxLength : ℕ} {fromLeft : Bool} {inputIds : List ℤ} {kept : List ℕ}
    (isKept : IsKept placeholderTokens maxLength fromLeft inputIds kept)
    (long : maxLength < inputIds.length) :
    kept.length = max maxLength (placeholderPlaces placeholderTokens inputIds).length := by
  have parts := length_eq_length_filter_add
    (l := kept) (isPlaceholderAt placeholderTokens inputIds)
  have all := length_eq_length_filter_add
    (l := range inputIds.length) (isPlaceholderAt placeholderTokens inputIds)
  have others := congrArg length isKept.others
  rw [isKept.placeholders] at parts
  rw [length_range] at all
  change inputIds.length = (placeholderPlaces placeholderTokens inputIds).length +
    (otherPlaces placeholderTokens inputIds).length at all
  rw [parts, others]
  dsimp only
  split
  · rw [length_drop]
    omega
  · rw [length_take]
    omega

end Kept

/-! ## The rows -/

variable [Zero K]

/-- A row has the tokens at some places of the sample, with their labels and scales except at
its head, and its length is recorded. -/
structure RowAt (keepsLabels : Bool) (columns : TokenColumns K) (places : List ℕ)
    (row : EncodedRow K) : Prop where
  inputIds : row.columns.inputIds = selectAt places columns.inputIds
  labels : row.columns.labels = if keepsLabels then
    columns.labels.map fun labels => setHead (-100) (selectAt places labels) else none
  lossScale : row.columns.lossScale = if keepsLabels then
    columns.lossScale.map fun lossScale => setHead 0 (selectAt places lossScale) else none
  aligned : row.columns.Aligned
  length : row.length = places.length ∧ row.length = row.columns.inputIds.length

/-- The places of the rows of a sample. -/
def AreParts (settings : LengthSettings) (maxLength : ℕ) (inputIds : List ℤ)
    (parts : List (List ℕ)) : Prop :=
  match settings.truncationStrategy with
  | .raise => False
  | .split => parts.flatten = List.range inputIds.length ∧
      ∀ part ∈ parts, 1 ≤ part.length ∧ part.length ≤ maxLength
  | side => ∃ kept, parts = [kept] ∧
      IsKept settings.placeholderTokens maxLength (side = .left) inputIds kept ∧
      kept.length = max maxLength (placeholderPlaces settings.placeholderTokens inputIds).length

variable {columns : TokenColumns K}

omit [Zero K] in
theorem getLength_of_aligned (aligned : columns.Aligned) :
    getLength columns = columns.inputIds.length := by
  rw [getLength]
  cases isLabels : columns.labels with
  | none => exact Nat.max_zero _
  | some labels =>
    have same := aligned.labels labels isLabels
    rw [Option.elim_some, same, Nat.max_self]

variable {α : Type}

theorem length_setHead (first : α) (values : List α) :
    (setHead first values).length = values.length := by
  cases values <;> rfl

theorem aligned_selectAt (aligned : columns.Aligned) {places : List ℕ}
    (inside : ∀ place ∈ places, place < columns.inputIds.length) :
    TokenColumns.Aligned
      { inputIds := selectAt places columns.inputIds
        labels := columns.labels.map fun labels => setHead (-100) (selectAt places labels)
        lossScale := columns.lossScale.map fun lossScale =>
          setHead 0 (selectAt places lossScale) } := by
  have length := length_selectAt inside
  constructor
  · intro values isColumn
    obtain ⟨labels, isLabels, rfl⟩ := Option.map_eq_some_iff.mp isColumn
    have same := aligned.labels labels isLabels
    rw [length_setHead, length_selectAt fun place isIn => same ▸ inside place isIn]
    exact length.symm
  · intro values isColumn
    obtain ⟨lossScale, isScale, rfl⟩ := Option.map_eq_some_iff.mp isColumn
    have same := aligned.lossScale lossScale isScale
    rw [length_setHead, length_selectAt fun place isIn => same ▸ inside place isIn]
    exact length.symm

/-! ## Rows that are truncated -/

theorem maskColumn_eq {mask : List Bool} {keep : ℕ → Bool} {length : ℕ}
    (isMask : mask = (range length).map keep) {values : List α} (fits : values.length = length)
    (some : (range length).filter keep ≠ []) (first : α) :
    maskColumn mask first values =
      Option.some (setHead first (selectAt ((range length).filter keep) values)) := by
  subst fits isMask
  have selected := maskSelect_map_range keep values
  have isSome : selectAt ((range values.length).filter keep) values ≠ [] := by
    rw [← length_pos_iff, length_selectAt fun place isIn =>
      mem_range.mp (mem_filter.mp isIn).1]
    exact length_pos_iff.mpr some
  rw [maskColumn, if_pos (by simp), selected]
  obtain ⟨head, rest, isCons⟩ := exists_cons_of_ne_nil isSome
  rw [isCons]
  rfl

theorem mapColumn_eq {f : List α → Option (List α)} {g : List α → List α} {column : Option (List α)}
    (each : ∀ values ∈ column, f values = some (g values)) :
    mapColumn f column = some (column.map g) := by
  cases column with
  | none => rfl
  | some values => exact congrArg (Option.map some) (each values rfl)

/-- What is truncated has the tokens at the places that are kept. -/
theorem truncate_eq (placeholderTokens : List ℤ) {maxLength : ℕ} (positive : 1 ≤ maxLength)
    (aligned : columns.Aligned) (long : maxLength < columns.inputIds.length) (fromLeft : Bool) :
    ∃ kept, IsKept placeholderTokens maxLength fromLeft columns.inputIds kept ∧
      truncate placeholderTokens maxLength fromLeft columns = some
        { inputIds := selectAt kept columns.inputIds
          labels := columns.labels.map fun labels => setHead (-100) (selectAt kept labels)
          lossScale := columns.lossScale.map fun lossScale =>
            setHead 0 (selectAt kept lossScale) } := by
  obtain ⟨kept, isKept, keep, rfl, mask⟩ :=
    exists_isKept placeholderTokens maxLength fromLeft columns.inputIds
  have some : (range columns.inputIds.length).filter keep ≠ [] := by
    have length := isKept.length_eq long
    intro none
    rw [none, length_nil] at length
    omega
  refine ⟨_, isKept, ?_⟩
  have labels := mapColumn_eq fun labels isLabels =>
    maskColumn_eq mask (aligned.labels labels isLabels) some (-100)
  have lossScale := mapColumn_eq fun lossScale isScale =>
    maskColumn_eq mask (aligned.lossScale lossScale isScale) some (0 : K)
  rw [truncate, labels, lossScale, mask, maskSelect_map_range]
  rfl

theorem finishedRow_at (settings : LengthSettings) (aligned : columns.Aligned) {places : List ℕ}
    (inside : ∀ place ∈ places, place < columns.inputIds.length) :
    RowAt (!settings.dropsLabels) columns places (finishedRow settings
      { inputIds := selectAt places columns.inputIds
        labels := columns.labels.map fun labels => setHead (-100) (selectAt places labels)
        lossScale := columns.lossScale.map fun lossScale =>
          setHead 0 (selectAt places lossScale) }) := by
  have rowAligned := aligned_selectAt aligned inside
  have length := getLength_of_aligned rowAligned
  have kept : (selectAt places columns.inputIds).length = places.length := length_selectAt inside
  rw [finishedRow]
  cases settings.dropsLabels with
  | false => exact ⟨rfl, rfl, rfl, rowAligned, length.trans kept, length⟩
  | true =>
    refine ⟨rfl, rfl, rfl, ⟨fun values isNone => ?_, fun values isNone => ?_⟩,
      length.trans kept, length⟩
    · cases isNone
    · cases isNone

/-! ## Rows that are split -/

def partPlaces (length maxLength part : ℕ) : List ℕ :=
  slice (List.range length) (part * maxLength) (part * maxLength + maxLength)

theorem length_partPlaces {length maxLength part : ℕ} (positive : 1 ≤ maxLength)
    (isPart : part < (length + maxLength - 1) / maxLength) :
    1 ≤ (partPlaces length maxLength part).length ∧
      (partPlaces length maxLength part).length ≤ maxLength := by
  have starts : part * maxLength < length := by
    by_contra covered
    have few : (length + maxLength - 1) / maxLength ≤ part :=
      (ceilDiv_le_iff positive).mpr (Nat.le_of_not_lt covered)
    omega
  rw [partPlaces, length_slice, length_range]
  omega

theorem splitedRow_at (aligned : columns.Aligned) (maxLength part : ℕ) :
    RowAt true columns (partPlaces columns.inputIds.length maxLength part)
      (splitedRow maxLength (part * maxLength) columns) := by
  have inside : ∀ place ∈ partPlaces columns.inputIds.length maxLength part,
      place < columns.inputIds.length := fun place isIn =>
    mem_range.mp (mem_of_mem_take (mem_of_mem_drop isIn))
  have ids := selectAt_slice columns.inputIds (part * maxLength) (part * maxLength + maxLength)
  have labels : columns.labels.map (fun labels =>
      setHead (-100) (slice labels (part * maxLength) (part * maxLength + maxLength))) =
        columns.labels.map fun labels =>
          setHead (-100) (selectAt (partPlaces columns.inputIds.length maxLength part) labels) := by
    refine Option.map_congr fun labels isLabels => ?_
    rw [partPlaces, ← aligned.labels labels isLabels, selectAt_slice]
  have scales : columns.lossScale.map (fun lossScale =>
      setHead 0 (slice lossScale (part * maxLength) (part * maxLength + maxLength))) =
        columns.lossScale.map fun lossScale =>
          setHead 0 (selectAt (partPlaces columns.inputIds.length maxLength part) lossScale) := by
    refine Option.map_congr fun lossScale isScale => ?_
    rw [partPlaces, ← aligned.lossScale lossScale isScale, selectAt_slice]
  have rowAligned := aligned_selectAt aligned inside
  rw [← labels, ← scales, partPlaces, ids] at rowAligned
  refine ⟨ids.symm, labels, scales, rowAligned, ?_, getLength_of_aligned rowAligned⟩
  refine (getLength_of_aligned rowAligned).trans ?_
  rw [← length_selectAt inside, partPlaces, ids]

/-! ## The claim -/

end Geobench.Template
