import Geobench.Library.JsonDecode
import Geobench.Library.Records

/-!
# The true coordinates of a row

The evaluation and the training reward read the true coordinates of a row from columns that go by
several names. `getTruthCoordinates` takes the first name under which a row has a finite number.
`getGtCoordinates` takes the first name that is a column of the batch, whatever this row has under
it, and after it the reward looks into the solution.

**`sameTruth_iff`** says when both find the same.
-/

namespace Geobench.Rewards

open Library List

/-! ## Numbers -/

inductive PyFloat where
  | finite (value : ℚ)
  | infinity
  | negInfinity
  | nan
  deriving DecidableEq

inductive FloatError where
  | typeError
  | valueError
  | overflowError
  deriving DecidableEq

/-- What the interpreter gives: `float(value)`, which takes no `None`, and `json.loads(text)`
where it does not fail. -/
structure Conversions where
  float : JsonValue → Except FloatError PyFloat
  float_null : float .null = .error .typeError
  loads : CodePoints → Option JsonValue

/-- `low <= value <= high`, which no number holds that is not finite. -/
def PyFloat.between (low high : ℚ) : PyFloat → Bool
  | .finite value => low ≤ value && value ≤ high
  | _ => false

/-- Both coordinates, when they are there and on the globe. -/
def onGlobe (lat lon : Option PyFloat) : Option (PyFloat × PyFloat) :=
  match lat, lon with
  | some lat, some lon =>
    if lat.between (-90) 90 && lon.between (-180) 180 then some (lat, lon) else none
  | _, _ => none

/-- A row, with one value under each of its keys. -/
abbrev DataRow := Record CodePoints JsonValue

/-- `row.get(key)` -/
def rowGet (row : DataRow) (key : CodePoints) : JsonValue := (row.get? key).getD .null

section Conversion

variable (python : Conversions)

def safeFloat (value : JsonValue) : Except FloatError (Option PyFloat) :=
  match python.float value with
  | .ok (.finite number) => .ok (some (.finite number))
  | .ok _ => .ok none
  | .error .overflowError => .error .overflowError
  | .error _ => .ok none

/-- `bool(value)` -/
def truthy : JsonValue → Bool
  | .null => false
  | .bool value => value
  | .number literal => decide (python.float (.number literal) ≠ .ok (.finite 0))
  | .string value => !value.isEmpty
  | .array items => !items.isEmpty
  | .object members => !members.isEmpty

def toFloat (value : JsonValue) : Except FloatError (Option PyFloat) :=
  match value with
  | .null => .ok none
  | value =>
    match python.float value with
    | .ok number => .ok (some number)
    | .error .overflowError => .error .overflowError
    | .error _ => .ok none

/-! ## The evaluation -/

def latKeys : List CodePoints :=
  [codes "latitude".toList, codes "gt_latitude".toList, codes "lat".toList]

def lonKeys : List CodePoints :=
  [codes "longitude".toList, codes "gt_longitude".toList, codes "lon".toList, codes "lng".toList]

def autoField : CodePoints := codes "auto".toList

/-- The first finite number under one of the keys. -/
def firstFinite (row : DataRow) : List CodePoints → Except FloatError (Option PyFloat)
  | [] => .ok none
  | key :: rest => do
      match ← safeFloat python (rowGet row key) with
      | some number => .ok (some number)
      | none => firstFinite row rest

def getTruthCoordinates (row : DataRow) (latitudeField longitudeField : CodePoints) :
    Except FloatError (Option (PyFloat × PyFloat)) := do
  let lat ← firstFinite python row (if latitudeField ≠ autoField then [latitudeField] else latKeys)
  let lon ← firstFinite python row
    (if longitudeField ≠ autoField then [longitudeField] else lonKeys)
  .ok (onGlobe lat lon)

/-! ## The reward -/

/-- Add a row to the columns. A column has `None` for the rows that lack its key. -/
def addRow (batched : List (CodePoints × List JsonValue)) (row : DataRow) (index : ℕ) :
    List (CodePoints × List JsonValue) :=
  let batched := row.fields.foldl (fun batched field =>
    setItem batched field.1
      ((valueAt batched field.1).getD (List.replicate index .null) ++ [field.2])) batched
  batched.map fun column =>
    if column.1 ∈ row.fields.map Prod.fst then column else (column.1, column.2 ++ [.null])

/-- `RowPreprocessor.rows_to_batched` -/
def rowsToBatched (rows : List DataRow) : List (CodePoints × List JsonValue) :=
  rows.zipIdx.foldl (fun batched item => addRow batched item.1 item.2) []

def getIndexedValue (values : List JsonValue) (index : ℕ) : JsonValue :=
  if values.length = 1 ∧ 0 < index then values.headD .null else values.getD index .null

def columnFloat (kwargs : List (CodePoints × List JsonValue)) (index : ℕ) :
    List CodePoints → Except FloatError (Option PyFloat)
  | [] => .ok none
  | key :: rest =>
    match valueAt kwargs key with
    | some values => toFloat python (getIndexedValue values index)
    | none => columnFloat kwargs index rest

def getGtCoordinates (index : ℕ) (kwargs : List (CodePoints × List JsonValue)) :
    Except FloatError (Option (PyFloat × PyFloat)) := do
  let lat ← columnFloat python kwargs index latKeys
  let lon ← columnFloat python kwargs index lonKeys
  .ok (onGlobe lat lon)

def getFirst (members : List (CodePoints × JsonValue)) (keys : List CodePoints) : JsonValue :=
  (keys.findSome? (getMember members)).getD .null

def objectCoordinates (members : List (CodePoints × JsonValue)) :
    Except FloatError (Option (PyFloat × PyFloat)) := do
  let lat ← toFloat python
    (getFirst members [codes "latitude".toList, codes "gt_latitude".toList])
  let lon ← toFloat python
    (getFirst members [codes "longitude".toList, codes "gt_longitude".toList, codes "lng".toList])
  match lat, lon with
  | some lat, some lon => .ok (some (lat, lon))
  | _, _ => .ok none

/-- An object, or a text of one. Errors with the text are caught. -/
def getGtCoordinatesFromSolution : JsonValue → Except FloatError (Option (PyFloat × PyFloat))
  | .object members => objectCoordinates python members
  | .string text =>
    match python.loads text with
    | some (.object members) =>
      match objectCoordinates python members with
      | .ok found => .ok found
      | .error _ => .ok none
    | _ => .ok none
  | _ => .ok none

def solutionKey : CodePoints := codes "solution".toList

/-- The solutions, one for each of `count` completions. -/
def solutionsOf (solution : Option (List JsonValue)) (count : ℕ) : List JsonValue :=
  let solutions := solution.getD (List.replicate count .null)
  if solutions.length = 1 ∧ 1 < count then (List.replicate count solutions).flatten
  else if solutions.length ≠ count then List.replicate count .null
  else solutions

/-- What the reward takes as the true coordinates of one row of a batch: those of the columns, or
else those of the solution. -/
def rewardTruth (rows : List DataRow) (index : ℕ) :
    Except FloatError (Option (PyFloat × PyFloat)) := do
  let kwargs := rowsToBatched rows
  let solution := (solutionsOf (valueAt kwargs solutionKey) rows.length).getD index .null
  match ← getGtCoordinates python index kwargs with
  | some coordinates => .ok (some coordinates)
  | none => getGtCoordinatesFromSolution python solution

end Conversion

/-! ## The columns of a batch -/

section Columns

theorem addRow_eq_addFilled (batched : List (CodePoints × List JsonValue)) (row : DataRow)
    (index : ℕ) : addRow batched row index = addFilled .null batched row index := by
  rw [addRow, addFilled]
  refine map_congr_left fun column _ => ?_
  by_cases isKey : column.1 ∈ row.fields.map Prod.fst
  · rw [if_pos isKey, if_pos isKey]
  · rw [if_neg isKey, if_neg isKey]

theorem rowsToBatched_eq_fillColumns (rows : List DataRow) :
    rowsToBatched rows = fillColumns .null rows := by
  simp only [rowsToBatched, fillColumns, addRow_eq_addFilled]

theorem valueAt_rowsToBatched (rows : List DataRow) (key : CodePoints) :
    valueAt (rowsToBatched rows) key =
      if ∃ row ∈ rows, row.Carries key then some (rows.map (rowGet · key)) else none := by
  rw [rowsToBatched_eq_fillColumns, valueAt_fillColumns]
  rfl

end Columns

/-! ## What a value reads as -/

/-- What a value is to both readers. -/
inductive Reading where
  | number (value : ℚ)
  | unusable
  | tooLarge
  deriving DecidableEq

section Readings

variable (python : Conversions)

def reading (value : JsonValue) : Reading :=
  match python.float value with
  | .ok (.finite number) => .number number
  | .error .overflowError => .tooLarge
  | _ => .unusable

def firstReading (row : DataRow) (keys : List CodePoints) : Reading :=
  ((keys.map fun key => reading python (rowGet row key)).find? (· ≠ .unusable)).getD .unusable

/-- The reading of a row under the first key that is a column of the batch. -/
def columnReading (rows : List DataRow) (row : DataRow) (keys : List CodePoints) : Reading :=
  ((keys.find? fun key => decide (∃ row ∈ rows, row.Carries key)).map fun key =>
    reading python (rowGet row key)).getD .unusable

/-- The reading of what a sample has under the first key that is a column. -/
def keyReading (kwargs : List (CodePoints × List JsonValue)) (index : ℕ)
    (keys : List CodePoints) : Reading :=
  ((keys.findSome? (valueAt kwargs)).map fun values =>
    reading python (getIndexedValue values index)).getD .unusable

/-- A latitude and a longitude that are on the globe. -/
def InRange (lat lon : ℚ) : Prop := (-90 ≤ lat ∧ lat ≤ 90) ∧ -180 ≤ lon ∧ lon ≤ 180

instance (lat lon : ℚ) : Decidable (InRange lat lon) :=
  inferInstanceAs (Decidable ((-90 ≤ lat ∧ lat ≤ 90) ∧ -180 ≤ lon ∧ lon ≤ 180))

/-- The coordinates that two readings give. -/
def judge : Reading → Reading → Except FloatError (Option (PyFloat × PyFloat))
  | .tooLarge, _ => .error .overflowError
  | _, .tooLarge => .error .overflowError
  | .number lat, .number lon =>
    .ok (if InRange lat lon then some (.finite lat, .finite lon) else none)
  | _, _ => .ok none

omit python in
theorem onGlobe_finite (lat lon : ℚ) :
    onGlobe (some (.finite lat)) (some (.finite lon)) =
      if InRange lat lon then some (.finite lat, .finite lon) else none := by
  have same : ((PyFloat.finite lat).between (-90) 90 && (PyFloat.finite lon).between (-180) 180) =
      true ↔ InRange lat lon := by
    simp [PyFloat.between, InRange]
  rw [onGlobe]
  by_cases inside : InRange lat lon
  · rw [if_pos inside, if_pos (same.mpr inside)]
  · rw [if_neg inside, if_neg (mt same.mp inside)]

omit python in
theorem onGlobe_of_not_finite {lat lon : Option PyFloat}
    (notFinite : (∀ value, lat ≠ some (.finite value)) ∨ ∀ value, lon ≠ some (.finite value)) :
    onGlobe lat lon = none := by
  rcases lat with _ | _ | _ | _ | _ <;> rcases lon with _ | _ | _ | _ | _ <;>
    simp_all [onGlobe, PyFloat.between]

theorem firstFinite_eq (row : DataRow) (keys : List CodePoints) :
    firstFinite python row keys =
      match firstReading python row keys with
      | .number value => .ok (some (.finite value))
      | .unusable => .ok none
      | .tooLarge => .error .overflowError := by
  induction keys with
  | nil => rfl
  | cons key rest ih =>
    rw [firstFinite, safeFloat, firstReading, map_cons, find?_cons, reading]
    rw [firstReading] at ih
    cases python.float (rowGet row key) with
    | ok number =>
      cases number with
      | finite value => rfl
      | _ => exact ih
    | error error =>
      cases error with
      | overflowError => rfl
      | _ => exact ih

/-- The evaluation judges the first readings of use. -/
theorem getTruthCoordinates_eq (row : DataRow) :
    getTruthCoordinates python row autoField autoField =
      judge (firstReading python row latKeys) (firstReading python row lonKeys) := by
  rw [getTruthCoordinates, if_neg (not_not.mpr rfl), if_neg (not_not.mpr rfl), firstFinite_eq,
    firstFinite_eq]
  cases firstReading python row latKeys with
  | number lat =>
    cases firstReading python row lonKeys with
    | number lon => exact congrArg Except.ok (onGlobe_finite lat lon)
    | _ => rfl
  | unusable => cases firstReading python row lonKeys <;> rfl
  | tooLarge => rfl

/-- What the reward makes of a value agrees with its reading. A number that is not finite is
kept, but it is nowhere on the globe. -/
inductive Converts : Reading → Except FloatError (Option PyFloat) → Prop where
  | number (value : ℚ) : Converts (.number value) (.ok (some (.finite value)))
  | unusable (found : Option PyFloat) (notFinite : ∀ value, found ≠ some (.finite value)) :
      Converts .unusable (.ok found)
  | tooLarge : Converts .tooLarge (.error .overflowError)

theorem converts_toFloat (value : JsonValue) :
    Converts (reading python value) (toFloat python value) := by
  cases isNull : value with
  | null =>
    rw [toFloat, reading, python.float_null]
    exact .unusable none (by simp)
  | _ =>
    simp only [toFloat, reading]
    cases python.float _ with
    | ok number =>
      cases number with
      | finite value => exact .number value
      | _ => exact .unusable _ (by simp)
    | error error =>
      cases error with
      | overflowError => exact .tooLarge
      | _ => exact .unusable none (by simp)

variable {rows : List DataRow} {index : ℕ} {row : DataRow}

omit python in
theorem getIndexedValue_map (isRow : rows[index]? = some row) (key : CodePoints) :
    getIndexedValue (rows.map (rowGet · key)) index = rowGet row key := by
  have inside := (List.getElem?_eq_some_iff.mp isRow).1
  rw [getIndexedValue, if_neg (by rw [length_map]; omega), getD_eq_getElem?_getD,
    getElem?_map, isRow, Option.map_some, Option.getD_some]

theorem converts_columnFloat (kwargs : List (CodePoints × List JsonValue)) (index : ℕ)
    (keys : List CodePoints) :
    Converts (keyReading python kwargs index keys) (columnFloat python kwargs index keys) := by
  induction keys with
  | nil => exact .unusable none (by simp)
  | cons key rest ih =>
    rw [keyReading, findSome?_cons, columnFloat]
    cases valueAt kwargs key with
    | some values => exact converts_toFloat python (getIndexedValue values index)
    | none => exact ih

/-- The reward judges the readings of the first columns. -/
theorem getGtCoordinates_eq_judge (kwargs : List (CodePoints × List JsonValue)) (index : ℕ) :
    getGtCoordinates python index kwargs =
      judge (keyReading python kwargs index latKeys) (keyReading python kwargs index lonKeys) := by
  have lat := converts_columnFloat python kwargs index latKeys
  have lon := converts_columnFloat python kwargs index lonKeys
  rw [getGtCoordinates]
  generalize keyReading python kwargs index latKeys = latReading at lat ⊢
  generalize keyReading python kwargs index lonKeys = lonReading at lon ⊢
  generalize columnFloat python kwargs index latKeys = latFloat at lat ⊢
  generalize columnFloat python kwargs index lonKeys = lonFloat at lon ⊢
  cases lat with
  | number lat =>
    cases lon with
    | number lon => exact congrArg Except.ok (onGlobe_finite lat lon)
    | unusable found notFinite =>
      exact congrArg Except.ok (onGlobe_of_not_finite (.inr notFinite))
    | tooLarge => rfl
  | unusable found notFinite =>
    cases lon with
    | tooLarge => rfl
    | _ => exact congrArg Except.ok (onGlobe_of_not_finite (.inl notFinite))
  | tooLarge => rfl

/-- The first column of a batch of rows has what the row has under its key. -/
theorem keyReading_rows (isRow : rows[index]? = some row) (keys : List CodePoints) :
    keyReading python (rowsToBatched rows) index keys = columnReading python rows row keys := by
  induction keys with
  | nil => rfl
  | cons key rest ih =>
    rw [columnReading, find?_cons, keyReading, findSome?_cons, valueAt_rowsToBatched]
    by_cases isColumn : ∃ row ∈ rows, row.Carries key
    · rw [if_pos isColumn, decide_eq_true isColumn]
      dsimp only
      rw [Option.map_some, getIndexedValue_map isRow]
      rfl
    · rw [if_neg isColumn, decide_eq_false isColumn]
      exact ih

theorem getGtCoordinates_eq (isRow : rows[index]? = some row) :
    getGtCoordinates python index (rowsToBatched rows) =
      judge (columnReading python rows row latKeys) (columnReading python rows row lonKeys) := by
  rw [getGtCoordinates_eq_judge, keyReading_rows python isRow, keyReading_rows python isRow]

theorem firstReading_eq_columnReading (isRow : row ∈ rows) (keys : List CodePoints)
    (useful : columnReading python rows row keys ≠ .unusable) :
    firstReading python row keys = columnReading python rows row keys := by
  induction keys with
  | nil => exact absurd rfl useful
  | cons key rest ih =>
    rw [columnReading, find?_cons] at useful ⊢
    rw [firstReading, map_cons, find?_cons]
    by_cases isColumn : ∃ row ∈ rows, row.Carries key
    · rw [decide_eq_true isColumn] at useful ⊢
      have ofUse : reading python (rowGet row key) ≠ .unusable := useful
      rw [decide_eq_true ofUse]
      rfl
    · have absent : row.get? key = none := by
        by_contra isThere
        exact isColumn ⟨row, isRow, Option.ne_none_iff_isSome.mp isThere⟩
      have nothing : reading python (rowGet row key) = .unusable := by
        rw [rowGet, absent, Option.getD_none, reading, python.float_null]
      rw [decide_eq_false isColumn] at useful ⊢
      rw [nothing, decide_eq_false (not_not.mpr rfl)]
      exact ih useful

/-! ## When both find the same -/

/-- The first columns of the batch settle a row: they read as numbers on the globe, or one of
them as a number too large for a float. -/
def Settled (rows : List DataRow) (row : DataRow) : Prop :=
  (∃ lat lon, columnReading python rows row latKeys = .number lat ∧
      columnReading python rows row lonKeys = .number lon ∧ InRange lat lon) ∨
    columnReading python rows row latKeys = .tooLarge ∨
      columnReading python rows row lonKeys = .tooLarge

omit python in
theorem judge_eq_none_iff {lat lon : Reading} :
    judge lat lon = .ok none ↔
      ¬ ((∃ latValue lonValue, lat = .number latValue ∧ lon = .number lonValue ∧
          InRange latValue lonValue) ∨ lat = .tooLarge ∨ lon = .tooLarge) := by
  cases lat <;> cases lon <;> simp [judge]

omit python in
/-- As many solutions as completions are taken as they are. -/
theorem solutionsOf_of_length {solutions : Option (List JsonValue)} {count : ℕ}
    (fits : ∀ values, solutions = some values → values.length = count) :
    solutionsOf solutions count = solutions.getD (replicate count .null) := by
  have length : (solutions.getD (replicate count .null)).length = count := by
    cases isSome : solutions with
    | none => exact length_replicate
    | some values => exact fits values isSome
  unfold solutionsOf
  dsimp only
  rw [length, if_neg (by omega), if_neg (not_not.mpr rfl)]

omit python in
theorem solutionsOf_rows (isRow : rows[index]? = some row) :
    (solutionsOf (valueAt (rowsToBatched rows) solutionKey) rows.length).getD index .null =
      rowGet row solutionKey := by
  rw [valueAt_rowsToBatched, getD_eq_getElem?_getD]
  by_cases isColumn : ∃ row ∈ rows, row.Carries solutionKey
  · rw [if_pos isColumn, solutionsOf_of_length (by simp), Option.getD_some, getElem?_map,
      isRow, Option.map_some, Option.getD_some]
  · have absent : row.get? solutionKey = none := by
      by_contra isThere
      exact isColumn ⟨row, mem_of_getElem? isRow, Option.ne_none_iff_isSome.mp isThere⟩
    have inside := (List.getElem?_eq_some_iff.mp isRow).1
    rw [if_neg isColumn, solutionsOf_of_length (by simp), Option.getD_none,
      getElem?_replicate, if_pos inside, Option.getD_some, rowGet, absent, Option.getD_none]

/-- What the reward finds, in one expression. -/
theorem rewardTruth_eq (isRow : rows[index]? = some row) :
    rewardTruth python rows index =
      (judge (columnReading python rows row latKeys) (columnReading python rows row lonKeys)).bind
        fun found =>
          match found with
          | some coordinates => .ok (some coordinates)
          | none => getGtCoordinatesFromSolution python (rowGet row solutionKey) := by
  rw [← getGtCoordinates_eq python isRow, ← solutionsOf_rows isRow]
  rfl

/-- **The evaluation and the reward find the same exactly when the first columns settle the row,
or the first readings of use give what the solution holds.** -/
theorem sameTruth_iff {rows : List DataRow} {index : ℕ} {row : DataRow}
    (isRow : rows[index]? = some row) :
    getTruthCoordinates python row autoField autoField = rewardTruth python rows index ↔
      Settled python rows row ∨
        judge (firstReading python row latKeys) (firstReading python row lonKeys) =
          getGtCoordinatesFromSolution python (rowGet row solutionKey) := by
  rw [getTruthCoordinates_eq, rewardTruth_eq python isRow]
  by_cases settled : Settled python rows row
  · refine iff_of_true ?_ (.inl settled)
    have member := mem_of_getElem? isRow
    have first := firstReading_eq_columnReading python member
    rcases settled with ⟨lat, lon, isLat, isLon, inside⟩ | tooLarge | tooLarge
    · rw [first latKeys (by simp [isLat]), first lonKeys (by simp [isLon]), isLat, isLon, judge,
        if_pos inside]
      rfl
    · rw [first latKeys (by simp [tooLarge]), tooLarge]
      rfl
    · rw [first lonKeys (by simp [tooLarge]), tooLarge]
      cases firstReading python row latKeys <;>
        cases columnReading python rows row latKeys <;> rfl
  · rw [or_iff_right settled, judge_eq_none_iff.mpr settled]
    rfl

end Readings

/-- Whole numbers as they are written, and texts that are no JSON. -/
def wholeNumbers : Conversions where
  float value :=
    match value with
    | .number literal =>
      if literal.all Char.isDigit then .ok (.finite (Nat.ofDigitChars 10 literal 0))
      else .error .valueError
    | .string _ => .error .valueError
    | _ => .error .typeError
  float_null := rfl
  loads _ := none

/-- A row with two columns. -/
def plainRow : DataRow where
  fields := [(codes "latitude".toList, .number "31".toList),
    (codes "longitude".toList, .number "121".toList)]
  nodup_keys := by decide

theorem plainRow_same :
    getTruthCoordinates wholeNumbers plainRow autoField autoField =
      rewardTruth wholeNumbers [plainRow] 0 := by
  have isRow : [plainRow][0]? = some plainRow := rfl
  refine (sameTruth_iff wholeNumbers isRow).mpr (.inl (.inl ⟨31, 121, ?_, ?_, ?_⟩))
  · rfl
  · rfl
  · decide

/-- A row without columns for coordinates, whose solution has them. -/
def solvedRow : DataRow where
  fields := [(solutionKey, .object [(codes "latitude".toList, .number "31".toList),
    (codes "longitude".toList, .number "121".toList)])]
  nodup_keys := by decide

/-- The reward takes the coordinates of the solution, which the evaluation does not read. -/
theorem solvedRow_differs :
    ¬ ∀ (rows : List DataRow) (index : ℕ) (row : DataRow), rows[index]? = some row →
      getTruthCoordinates wholeNumbers row autoField autoField =
        rewardTruth wholeNumbers rows index := by
  intro same
  have evaluated : getTruthCoordinates wholeNumbers solvedRow autoField autoField = .ok none := rfl
  have rewarded : rewardTruth wholeNumbers [solvedRow] 0 =
      .ok (some (.finite 31, .finite 121)) := rfl
  have agree := same [solvedRow] 0 solvedRow rfl
  rw [evaluated, rewarded] at agree
  cases agree

end Geobench.Rewards
