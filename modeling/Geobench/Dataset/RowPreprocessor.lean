import Geobench.Library.ListSlices
import Geobench.Library.Records
import Geobench.Library.Text
import Mathlib.Data.Rat.Defs

/-!
# Preprocessing a batch of rows

A batch of rows is a dictionary of columns. `batchedPreprocess` takes the rows out of it,
preprocesses and checks one after the other, and turns what comes out into columns again. A row
that fails gives nothing.

A column is there for every key that one of the results has, and is `None` where a result lacks it
(`batchedToRows_rowsToBatched`). A key `__#key` then gives its column to `key`, if the columns have
no `key` yet. This looks at the columns of the batch, not at the result that the value belongs to.

**`preprocessesRows_iff`**: the batch gives the results of its rows, and what each row gives alone,
where every such value is kept in the columns as it is in its own result.
-/

namespace Geobench.Dataset

open Library List

/-! ## Rows -/

inductive RowValue where
  | none
  | number (value : ℚ)
  | text (value : Text)
  | list (items : List RowValue)
  | dict (members : List (Text × RowValue))

abbrev Row := Record Text RowValue

inductive RowError where
  | maxLengthError
  | other
  deriving DecidableEq

/-- The columns of a batch have one value for each of its rows. -/
structure Batch where
  columns : Record Text (List RowValue)
  size : ℕ
  some_column : columns.fields ≠ []
  length_column : ∀ column ∈ columns.fields, column.2.length = size

/-! ## Columns -/

section Columns

theorem keys_map {β γ : Type} (change : Text × β → γ) (fields : List (Text × β)) :
    (fields.map fun field => (field.1, change field)).map Prod.fst = fields.map Prod.fst := by
  rw [map_map]
  rfl

/-- `{key: batched_row[key][i] for key in keys}` -/
def rowAt (batched : Record Text (List RowValue)) (index : ℕ) : Row where
  fields := batched.fields.map fun column => (column.1, column.2.getD index .none)
  nodup_keys := by
    rw [keys_map]
    exact batched.nodup_keys

/-- `batched_to_rows`. It raises where there is no column, or one that is shorter than the first. -/
def batchedToRows (batched : Record Text (List RowValue)) : Except RowError (List Row) :=
  match batched.fields with
  | [] => .error .other
  | first :: rest =>
    if rest.all (first.2.length ≤ ·.2.length) then
      .ok ((List.range first.2.length).map (rowAt batched))
    else .error .other

/-- `rows_to_batched` -/
def rowsToBatched (rows : List Row) : Record Text (List RowValue) where
  fields := fillColumns .none rows
  nodup_keys := nodup_keys_fillColumns .none rows

/-- Give the value of a key that has the prefix to the rest of the key, if it has none. -/
def removePrefixKey {β : Type} (start : Text) (row : List (Text × β)) (key : Text) :
    List (Text × β) :=
  match start.isPrefixOf key, valueAt row key with
  | true, some value =>
    let row := row.filter (·.1 ≠ key)
    let newKey := key.drop start.length
    if newKey ∈ row.map Prod.fst then row else setItem row newKey value
  | _, _ => row

theorem nodup_keys_removePrefixKey {β : Type} (start : Text) {row : List (Text × β)}
    (different : (row.map Prod.fst).Nodup) (key : Text) :
    ((removePrefixKey start row key).map Prod.fst).Nodup := by
  have kept : ((row.filter (·.1 ≠ key)).map Prod.fst).Nodup :=
    different.sublist (filter_sublist.map Prod.fst)
  unfold removePrefixKey
  split
  · dsimp only
    split
    · exact kept
    · exact nodup_keys_setItem kept _ _
  · exact different

theorem nodup_keys_removePrefixKeys {β : Type} (start : Text) (keys : List Text)
    {row : List (Text × β)} (different : (row.map Prod.fst).Nodup) :
    ((keys.foldl (removePrefixKey start) row).map Prod.fst).Nodup := by
  induction keys generalizing row with
  | nil => exact different
  | cons key rest ih => exact ih (nodup_keys_removePrefixKey start different key)

/-- `_remove_prefix_keys` -/
def removePrefixKeys {β : Type} (row : Record Text β) (start : Text) : Record Text β where
  fields := (row.fields.map Prod.fst).foldl (removePrefixKey start) row.fields
  nodup_keys := nodup_keys_removePrefixKeys start _ row.nodup_keys

end Columns

/-! ## Checks -/

def objectsKey : Text := "objects".toList

def bboxKey : Text := "bbox".toList

def objectKeys : List Text :=
  ["ref".toList, bboxKey, "bbox_type".toList, "image_id".toList]

def rejectedResponseKey : Text := "rejected_response".toList

def messagesKey : Text := "messages".toList

def contentKey : Text := "content".toList

def roleKey : Text := "role".toList

def messageKeys : List Text := [roleKey, contentKey, "loss".toList]

def roles : List Text :=
  ["system".toList, "user".toList, "tool_call".toList, "tool_response".toList, "tool".toList,
    "assistant".toList]

def bytesKey : Text := "bytes".toList

def pathKey : Text := "path".toList

/-- What a check that fails raises. -/
def check (holds : Bool) : Except RowError Unit := if holds then .ok () else .error .other

/-- `for item in value` -/
def RowValue.items : RowValue → Except RowError (List RowValue)
  | .list items => .ok items
  | .text value => .ok (value.map fun char => .text [char])
  | .dict members => .ok (members.map fun member => .text member.1)
  | _ => .error .other

/-- `value[key]` -/
def RowValue.item (value : RowValue) (key : Text) : Except RowError RowValue :=
  match value with
  | .dict members => (valueAt members key).elim (.error .other) .ok
  | _ => .error .other

section Checks

-- `>` of two values, which raises where they have no order.
variable (greater : RowValue → RowValue → Except RowError Bool)

/-- The corners of a box in order: the smaller coordinates first. -/
def orderBox (box : RowValue) : Except RowError RowValue := do
  let coordinates ← box.items
  check (coordinates.length = 2 ∨ coordinates.length = 4)
  match box with
  | .list [left, top, right, bottom] =>
    let (left, right) := if ← greater left right then (right, left) else (left, right)
    let (top, bottom) := if ← greater top bottom then (bottom, top) else (top, bottom)
    .ok (.list [left, top, right, bottom])
  | .text [left, top, right, bottom] =>
    -- A string is no list of coordinates that could be swapped.
    check (!(← greater (.text [left]) (.text [right])))
    check (!(← greater (.text [top]) (.text [bottom])))
    .ok box
  | .dict [_, _, _, _] => .error .other
  | box => .ok box

/-- `_check_objects` -/
def checkObjects (row : Row) : Except RowError Row :=
  match (row.get? objectsKey).getD .none with
  | .none => .ok row
  | .dict objects => do
      let newObjects := objectKeys.filterMap fun key =>
        (valueAt objects key).map fun value => (key, value)
      let bbox ← (RowValue.dict newObjects).item bboxKey
      let boxes ← (← bbox.items).mapM (orderBox greater)
      let ordered := match bbox with
        | .list _ => .list boxes
        | bbox => bbox
      .ok (row.store objectsKey (.dict (setItem newObjects bboxKey ordered)))
  | _ => .error .other

/-- `_check_rejected_response` -/
def checkRejectedResponse (row : Row) : Except RowError Unit :=
  match row.get? rejectedResponseKey with
  | none => .ok ()
  | some rejectedResponse =>
    match row.get? messagesKey, rejectedResponse with
    | none, _ => .error .other
    | some _, .none => .error .other
    | some (.list messages), .text rejectedResponse => do
        let last ← messages.getLast?.elim (.error .other) .ok
        match ← last.item contentKey with
        | .text content => check (rejectedResponse ≠ content)
        | _ => .ok ()
    | some _, .text _ => .error .other
    | some _, _ => .ok ()

/-- The role and the content of a message, without its other keys. -/
def checkMessage (message : RowValue) : Except RowError RowValue := do
  match message with
  | .dict members =>
    let message := RowValue.dict (members.filter (·.1 ∈ messageKeys))
    let role ← message.item roleKey
    let content ← message.item contentKey
    check (match role with
      | .text role => role ∈ roles
      | _ => false)
    check (match content with
      | .none => false
      | _ => true)
    .ok message
  | _ => .error .other

/-- `_check_messages` -/
def checkMessages (row : Row) : Except RowError Row :=
  match row.get? messagesKey with
  | none => .ok row
  | some (.list messages) => do
      check (!messages.isEmpty)
      .ok (row.store messagesKey (.list (← messages.mapM checkMessage)))
  | some _ => .error .other

/-- `{'bytes': None, 'path': image}` -/
def imageAt (image : RowValue) : RowValue := .dict [(bytesKey, .none), (pathKey, image)]

def castImages (row : Row) (key : Text) : Row :=
  match row.get? key with
  | some (.text image) => row.store key (.list [imageAt (.text image)])
  | some (.list (.text image :: images)) =>
    row.store key (.list ((RowValue.text image :: images).map imageAt))
  | some (.dict image) => row.store key (.list [.dict image])
  | _ => row

def castMedia (row : Row) (key : Text) : Row :=
  match row.get? key with
  | some (.text media) => row.store key (.list [.text media])
  | _ => row

/-- `_cast_mm_data` -/
def castMmData (row : Row) : Row :=
  let row := ["images".toList, "rejected_images".toList].foldl castImages row
  ["videos".toList, "audios".toList].foldl castMedia row

/-- The checks of a result, with what they change of it. -/
def checkRow (row : Row) : Except RowError Row := do
  let row ← checkObjects greater row
  checkRejectedResponse row
  let row ← checkMessages row
  .ok (castMmData row)

end Checks

/-! ## The preprocessor -/

/-- What `preprocess` returns: `None`, a row or a list of rows. -/
inductive Preprocessed where
  | none
  | row (row : Row)
  | rows (rows : List Row)

def Preprocessed.toList : Preprocessed → List Row
  | .none => []
  | .row result => [result]
  | .rows results => results

def streamPrefix : Text := "__@".toList

def keptPrefix : Text := "__#".toList

theorem streamPrefix_ne_nil : streamPrefix ≠ [] := by decide

theorem keptPrefix_ne_nil : keptPrefix ≠ [] := by decide

/-- The columns of the results: `res` -/
def batchedResults (newRows : List Row) : Record Text (List RowValue) :=
  let res := removePrefixKeys (rowsToBatched newRows) keptPrefix
  if res.fields.isEmpty then res.store messagesKey [] else res

structure RowPreprocessor where
  preprocess : Row → Except RowError Preprocessed
  greater : RowValue → RowValue → Except RowError Bool
  tracebackLimit : Option ℕ

namespace RowPreprocessor

variable (preprocessor : RowPreprocessor)

/-- The results of a row, all of which pass the checks. -/
def processRow (row : Row) : Except RowError (List Row) := do
  let preprocessed ← preprocessor.preprocess row
  preprocessed.toList.mapM (checkRow preprocessor.greater)

/-- `_traceback_counter` after an error: the trace of one that is counted is logged. -/
def countTraceback (ignoreMaxLengthError : Bool) (error : RowError) (counter : ℕ) : ℕ :=
  if error = .maxLengthError ∧ ignoreMaxLengthError then counter
  else
    match preprocessor.tracebackLimit with
    | none => counter
    | some limit => if counter < limit then counter + 1 else counter

/-- Process a row of the batch: `new_rows` and the number of logged errors after it. -/
def addRow (strict ignoreMaxLengthError : Bool) (state : List Row × ℕ) (row : Row) :
    Except RowError (List Row × ℕ) :=
  match preprocessor.processRow row with
  | .ok results => .ok (state.1 ++ results, state.2)
  | .error error =>
    if strict then .error error
    else .ok (state.1, preprocessor.countTraceback ignoreMaxLengthError error state.2)

/-- `batched_preprocess` -/
def batchedPreprocess (strict ignoreMaxLengthError : Bool)
    (batchedRow : Record Text (List RowValue)) (counter : ℕ) :
    Except RowError (Record Text (List RowValue) × ℕ) := do
  check (!batchedRow.fields.isEmpty)
  let rows ← batchedToRows (removePrefixKeys batchedRow streamPrefix)
  let (newRows, counter) ←
    rows.foldlM (preprocessor.addRow strict ignoreMaxLengthError) ([], counter)
  .ok (batchedResults newRows, counter)

end RowPreprocessor

/-! ## Removing a prefix -/

abbrev keysOf {β : Type} (row : Record Text β) : List Text := row.fields.map Prod.fst

/-- A key gets the value of the key with the prefix: it is not there yet, or it has the prefix
itself and was removed before. -/
def Restored (start : Text) (keys : List Text) (key : Text) : Prop :=
  key ∉ keys ∨ (start <+: key ∧ key ∈ keys.takeWhile (· ≠ start ++ key))

instance (start : Text) (keys : List Text) (key : Text) : Decidable (Restored start keys key) :=
  inferInstanceAs (Decidable (_ ∨ _))

def valueAfter {β : Type} (start : Text) (row : Record Text β) (through : List Text) (key : Text) :
    Option β :=
  if start ++ key ∈ through ∧ Restored start (keysOf row) key then row.get? (start ++ key)
  else if start <+: key ∧ key ∈ through then none
  else row.get? key

section Removing

variable {β : Type} {start : Text} {row : Record Text β}

theorem takeWhile_keysOf {before after : List Text} {key : Text}
    (areKeys : keysOf row = before ++ key :: after) :
    (keysOf row).takeWhile (· ≠ key) = before ∧ key ∉ before := by
  have nodup : (before ++ key :: after).Nodup := areKeys ▸ row.nodup_keys
  have notBefore : key ∉ before := fun isBefore =>
    (nodup_append.mp nodup).2.2 key isBefore key mem_cons_self rfl
  refine ⟨?_, notBefore⟩
  rw [areKeys, takeWhile_append_of_pos, takeWhile_cons_of_neg (by simp), append_nil]
  intro other isOther
  rw [decide_eq_true_eq]
  rintro rfl
  exact notBefore isOther

variable {through rest : List Text} {key : Text} (areKeys : keysOf row = through ++ key :: rest)

variable {newKey : Text}

theorem valueAt_removePrefixKey_of_some {state : List (Text × β)} {value : β}
    (isValue : valueAt state (start ++ newKey) = some value) (isSome : start ≠ []) (other : Text) :
    valueAt (removePrefixKey start state (start ++ newKey)) other =
      if other = start ++ newKey then none
      else if other = newKey then some ((valueAt state newKey).getD value)
      else valueAt state other := by
  have isPrefix : start.isPrefixOf (start ++ newKey) = true :=
    List.isPrefixOf_iff_prefix.mpr ⟨newKey, rfl⟩
  have differs : newKey ≠ start ++ newKey := fun same =>
    isSome (append_left_eq_self.mp same.symm)
  have kept : ∀ other, valueAt (state.filter (·.1 ≠ start ++ newKey)) other =
      if other = start ++ newKey then none else valueAt state other :=
    fun other => valueAt_filter_ne state _ other
  rw [removePrefixKey, isPrefix, isValue]
  simp only [drop_left]
  split
  · rename_i isThere
    rw [kept]
    split
    · rfl
    · split
      · rename_i isNew
        rw [mem_keys_iff_isSome, kept, if_neg differs, Option.isSome_iff_exists] at isThere
        obtain ⟨own, isOwn⟩ := isThere
        rw [isNew, isOwn, Option.getD_some]
      · rfl
  · rename_i isAbsent
    rw [valueAt_setItem, kept]
    by_cases isNew : other = newKey
    · rw [mem_keys_iff_isSome, kept, if_neg differs, Option.not_isSome_iff_eq_none] at isAbsent
      rw [if_pos isNew, if_pos isNew, isAbsent, isNew, if_neg differs, Option.getD_none]
    · rw [if_neg isNew, if_neg isNew]

theorem valueAfter_concat {other : Text} (notNew : start ++ other ≠ key) (notKey : other ≠ key) :
    valueAfter start row (through ++ [key]) other = valueAfter start row through other := by
  simp only [valueAfter, mem_append, mem_singleton, notNew, notKey, or_false]

include areKeys

theorem restored_iff (isKey : start ++ newKey = key) :
    Restored start (keysOf row) newKey ↔
      newKey ∉ keysOf row ∨ (start <+: newKey ∧ newKey ∈ through) := by
  rw [Restored, isKey, (takeWhile_keysOf areKeys).1]

theorem not_restored (isThrough : start ++ key ∈ through) :
    ¬ Restored start (keysOf row) key := by
  obtain ⟨before, after, rfl⟩ := append_of_mem isThrough
  have areKeys' : keysOf row = before ++ (start ++ key) :: (after ++ key :: rest) := by
    rw [areKeys, append_assoc, cons_append]
  rw [Restored, (takeWhile_keysOf areKeys').1, not_or]
  refine ⟨not_not.mpr (areKeys ▸ mem_append_right _ mem_cons_self), ?_⟩
  exact fun restored => (takeWhile_keysOf areKeys).2 (mem_append_left _ restored.2)

theorem valueAfter_key : valueAfter start row through key = row.get? key := by
  rw [valueAfter, if_neg fun restored => not_restored areKeys restored.1 restored.2,
    if_neg fun removed => (takeWhile_keysOf areKeys).2 removed.2]

/-- A key whose turn it was is gone. -/
theorem valueAfter_concat_key (isPrefix : start <+: key) (some : start ≠ []) :
    valueAfter start row (through ++ [key]) key = none := by
  have longer : start ++ key ≠ key := fun same => some (append_left_eq_self.mp same)
  have notRestored : ¬ (start ++ key ∈ through ++ [key] ∧ Restored start (keysOf row) key) := by
    rintro ⟨isThrough, restored⟩
    rcases mem_append.mp isThrough with isThrough | isKey
    · exact not_restored areKeys isThrough restored
    · exact longer (mem_singleton.mp isKey)
  rw [valueAfter, if_neg notRestored, if_pos ⟨isPrefix, mem_append_right _ mem_cons_self⟩]

theorem valueAfter_concat_newKey (isKey : start ++ newKey = key) (notKey : newKey ≠ key) {value : β}
    (isValue : row.get? key = some value) :
    valueAfter start row (through ++ [key]) newKey =
      some ((valueAfter start row through newKey).getD value) := by
  have notThrough : start ++ newKey ∉ through := isKey ▸ (takeWhile_keysOf areKeys).2
  have isThrough : start ++ newKey ∈ through ++ [key] :=
    mem_append_right _ (mem_singleton.mpr isKey)
  have before : valueAfter start row through newKey =
      if start <+: newKey ∧ newKey ∈ through then none else row.get? newKey := by
    rw [valueAfter, if_neg fun restored => notThrough restored.1]
  rw [before]
  by_cases restored : Restored start (keysOf row) newKey
  · rw [valueAfter, if_pos ⟨isThrough, restored⟩, isKey, isValue]
    rcases (restored_iff areKeys isKey).mp restored with absent | removed
    · rw [show row.get? newKey = none from valueAt_eq_none absent, ite_self, Option.getD_none]
    · rw [if_pos removed, Option.getD_none]
  · have notRestored := restored
    rw [restored_iff areKeys isKey, not_or, not_not] at notRestored
    obtain ⟨own, isOwn⟩ := Option.isSome_iff_exists.mp (mem_keys_iff_isSome.mp notRestored.1)
    have notRemoved : ¬ (start <+: newKey ∧ newKey ∈ through ++ [key]) := by
      rintro ⟨isPrefix, isIn⟩
      rcases mem_append.mp isIn with isIn | isIn
      · exact notRestored.2 ⟨isPrefix, isIn⟩
      · exact notKey (mem_singleton.mp isIn)
    rw [valueAfter, if_neg fun both => restored both.2, if_neg notRemoved, if_neg notRestored.2,
      show row.get? newKey = some own from isOwn, Option.getD_some]

theorem valueAt_removePrefixKey {state : List (Text × β)}
    (holds : ∀ other, valueAt state other = valueAfter start row through other)
    (isSome : start ≠ []) (other : Text) :
    valueAt (removePrefixKey start state key) other =
      valueAfter start row (through ++ [key]) other := by
  by_cases isPrefix : start <+: key
  · obtain ⟨newKey, rfl⟩ := isPrefix
    have isValue : valueAt state (start ++ newKey) = row.get? (start ++ newKey) := by
      rw [holds, valueAfter_key areKeys]
    obtain ⟨value, isThere⟩ : ∃ value, row.get? (start ++ newKey) = some value := by
      have isKey : start ++ newKey ∈ keysOf row := by
        rw [areKeys]
        exact mem_append_right _ mem_cons_self
      exact Option.isSome_iff_exists.mp (mem_keys_iff_isSome.mp isKey)
    rw [valueAt_removePrefixKey_of_some (isValue.trans isThere) isSome]
    split
    · rename_i isKey
      rw [isKey, valueAfter_concat_key areKeys ⟨newKey, rfl⟩ isSome]
    · rename_i notKey
      split
      · rename_i isNew
        subst isNew
        rw [holds, valueAfter_concat_newKey areKeys rfl notKey isThere]
      · rename_i notNew
        rw [holds, valueAfter_concat (fun same => notNew (append_cancel_left same)) notKey]
  · have notBool : start.isPrefixOf key = false := by
      rw [← Bool.not_eq_true, List.isPrefixOf_iff_prefix]
      exact isPrefix
    have same : removePrefixKey start state key = state := by
      rw [removePrefixKey, notBool]
    have notNew : start ++ other ≠ key := fun same => isPrefix ⟨other, same⟩
    rw [same, holds]
    by_cases isKey : other = key
    · subst isKey
      simp only [valueAfter, mem_append, mem_singleton, notNew, isPrefix, false_and, or_false]
    · exact (valueAfter_concat notNew isKey).symm

omit areKeys in
theorem get?_removePrefixKeys (isSome : start ≠ []) (row : Record Text β) (other : Text) :
    (removePrefixKeys row start).get? other = valueAfter start row (keysOf row) other := by
  have run : ∀ (rest through : List Text) (state : List (Text × β)),
      keysOf row = through ++ rest →
      (∀ other, valueAt state other = valueAfter start row through other) →
      valueAt (rest.foldl (removePrefixKey start) state) other =
        valueAfter start row (keysOf row) other := by
    intro rest
    induction rest with
    | nil =>
      intro through state areKeys holds
      rw [areKeys, append_nil]
      exact holds other
    | cons key rest ih =>
      intro through state areKeys holds
      refine ih (through ++ [key]) _ (by rw [areKeys, append_assoc]; rfl) ?_
      exact valueAt_removePrefixKey areKeys holds isSome
  refine run (keysOf row) [] row.fields rfl fun other => ?_
  rw [valueAfter, if_neg fun restored => not_mem_nil restored.1,
    if_neg fun removed => not_mem_nil removed.2]
  rfl

omit areKeys in
/-- A dictionary keeps a value. The shortest key keeps its own, or gives it to a new key. -/
theorem removePrefixKeys_ne_nil (isSome : start ≠ []) {row : Record Text β}
    (some : row.fields ≠ []) : (removePrefixKeys row start).fields ≠ [] := by
  have left : ∀ key, (row.get? key).isSome →
      ∃ other, ((removePrefixKeys row start).get? other).isSome := by
    intro key
    induction isLength : key.length using Nat.strong_induction_on generalizing key with
    | h length ih =>
      intro isThere
      by_cases isPrefix : start <+: key
      · obtain ⟨rest, rfl⟩ := isPrefix
        by_cases isKey : (row.get? rest).isSome
        · refine ih rest.length ?_ rest rfl isKey
          rw [← isLength, length_append]
          exact Nat.lt_add_of_pos_left (length_pos_iff.mpr isSome)
        · refine ⟨rest, ?_⟩
          have restored : Restored start (keysOf row) rest :=
            Or.inl fun isIn => isKey (mem_keys_iff_isSome.mp isIn)
          rw [get?_removePrefixKeys isSome, valueAfter,
            if_pos ⟨mem_keys_iff_isSome.mpr isThere, restored⟩]
          exact isThere
      · refine ⟨key, ?_⟩
        rw [get?_removePrefixKeys isSome, valueAfter]
        split
        · rename_i restored
          exact mem_keys_iff_isSome.mp restored.1
        · rwa [if_neg fun removed => isPrefix removed.1]
  obtain ⟨field, isField⟩ := exists_mem_of_ne_nil _ some
  obtain ⟨other, isThere⟩ := left field.1 (mem_keys_iff_isSome.mp (mem_map_of_mem isField))
  intro isEmpty
  rw [Record.get?, isEmpty, valueAt_nil] at isThere
  exact Bool.noConfusion isThere

end Removing

theorem valueAfter_keysOf {β : Type} (start : Text) (row : Record Text β) (key : Text) :
    valueAfter start row (keysOf row) key =
      if start ++ key ∈ keysOf row ∧ Restored start (keysOf row) key then row.get? (start ++ key)
      else if start <+: key then none
      else row.get? key := by
  rw [valueAfter]
  split
  · rfl
  · by_cases isPrefix : start <+: key
    · rw [if_pos isPrefix]
      split
      · rfl
      · rename_i notRemoved
        exact valueAt_eq_none fun isKey => notRemoved ⟨isPrefix, isKey⟩
    · rw [if_neg isPrefix, if_neg fun removed => isPrefix removed.1]

/-! ### Only the keys matter -/

/-- A dictionary with other values under the same keys. -/
def mapValues {β γ : Type} (change : β → γ) (row : Record Text β) : Record Text γ where
  fields := row.fields.map fun field => (field.1, change field.2)
  nodup_keys := by
    rw [keys_map]
    exact row.nodup_keys

theorem removePrefixKey_map {β γ : Type} (change : β → γ) (start : Text)
    (fields : List (Text × β)) (key : Text) :
    removePrefixKey start (fields.map fun field => (field.1, change field.2)) key =
      (removePrefixKey start fields key).map fun field => (field.1, change field.2) := by
  have kept : (fields.map fun field => (field.1, change field.2)).filter (·.1 ≠ key) =
      (fields.filter (·.1 ≠ key)).map fun field => (field.1, change field.2) := by
    rw [filter_map]
    rfl
  rw [removePrefixKey, removePrefixKey, valueAt_map (fun _ => change)]
  cases start.isPrefixOf key with
  | false => rfl
  | true =>
    cases valueAt fields key with
    | none => rfl
    | some value =>
      simp only [Option.map_some, kept, keys_map]
      split
      · rfl
      · rename_i isNew
        rw [setItem_of_new isNew, setItem_of_new (by rwa [keys_map]), map_append]
        rfl

theorem removePrefixKeys_mapValues {β γ : Type} (change : β → γ) (row : Record Text β)
    (start : Text) :
    (removePrefixKeys (mapValues change row) start).fields =
      (removePrefixKeys row start).fields.map fun field => (field.1, change field.2) := by
  have run : ∀ (keys : List Text) (fields : List (Text × β)),
      keys.foldl (removePrefixKey start) (fields.map fun field => (field.1, change field.2)) =
        (keys.foldl (removePrefixKey start) fields).map fun field => (field.1, change field.2) := by
    intro keys
    induction keys with
    | nil => exact fun _ => rfl
    | cons key rest ih =>
      intro fields
      rw [foldl_cons, foldl_cons, removePrefixKey_map, ih]
  rw [removePrefixKeys, removePrefixKeys, ← run]
  simp only [mapValues, keys_map]

/-! ## Rows and columns -/

theorem get?_rowAt (batched : Record Text (List RowValue)) (index : ℕ) (key : Text) :
    (rowAt batched index).get? key = (batched.get? key).map (·.getD index .none) :=
  valueAt_map (fun _ (values : List RowValue) => values.getD index .none) batched.fields key

theorem batchedToRows_eq {batched : Record Text (List RowValue)} (isSome : batched.fields ≠ [])
    {size : ℕ} (lengths : ∀ column ∈ batched.fields, column.2.length = size) :
    batchedToRows batched = .ok ((range size).map (rowAt batched)) := by
  obtain ⟨first, rest, fields⟩ := exists_cons_of_ne_nil isSome
  have firstLength : first.2.length = size := lengths first (fields ▸ mem_cons_self)
  have longEnough : rest.all (first.2.length ≤ ·.2.length) = true := by
    rw [all_eq_true]
    intro column isColumn
    rw [decide_eq_true_eq, firstLength, lengths column (fields ▸ mem_cons_of_mem _ isColumn)]
  rw [batchedToRows, fields]
  dsimp only
  rw [if_pos longEnough, firstLength]

theorem get?_rowsToBatched (rows : List Row) (key : Text) :
    (rowsToBatched rows).get? key =
      if ∃ row ∈ rows, row.Carries key then
        some (rows.map fun row => (row.get? key).getD .none) else none :=
  valueAt_fillColumns RowValue.none rows key

theorem length_of_get?_rowsToBatched {rows : List Row} {key : Text} {values : List RowValue}
    (isColumn : (rowsToBatched rows).get? key = some values) : values.length = rows.length := by
  rw [get?_rowsToBatched, Option.ite_some_none_eq_some] at isColumn
  rw [← isColumn.2, length_map]

/-- A column has what each row has under its key. -/
theorem getD_rowsToBatched {rows : List Row} {index : ℕ} {row : Row}
    (isRow : rows[index]? = some row) (key : Text) :
    (((rowsToBatched rows).get? key).map (·.getD index .none)).getD .none =
      (row.get? key).getD .none := by
  rw [get?_rowsToBatched]
  split
  · rw [Option.map_some, Option.getD_some, getD_eq_getElem?_getD, getElem?_map, isRow]
    rfl
  · rename_i noCarrier
    have absent : row.get? key = none := by
      by_contra isThere
      exact noCarrier ⟨row, mem_of_getElem? isRow, Option.ne_none_iff_isSome.mp isThere⟩
    rw [absent]
    rfl

theorem rowsToBatched_eq_nil_iff {rows : List Row} :
    (rowsToBatched rows).fields = [] ↔ ∀ row ∈ rows, row.fields = [] := by
  constructor
  · intro isEmpty row isRow
    by_contra isSome
    obtain ⟨field, isField⟩ := exists_mem_of_ne_nil _ isSome
    have value := get?_rowsToBatched rows field.1
    rw [Record.get?, isEmpty, valueAt_nil,
      if_pos ⟨row, isRow, mem_keys_iff_isSome.mp (mem_map_of_mem isField)⟩] at value
    exact Option.some_ne_none _ value.symm
  · intro areEmpty
    refine eq_nil_iff_forall_not_mem.mpr fun column isColumn => ?_
    have isThere : ((rowsToBatched rows).get? column.1).isSome :=
      mem_keys_iff_isSome.mp (mem_map_of_mem isColumn)
    rw [get?_rowsToBatched, if_neg] at isThere
    · exact Bool.noConfusion isThere
    · rintro ⟨row, isRow, carries⟩
      rw [Record.Carries, Record.get?, areEmpty row isRow, valueAt_nil] at carries
      exact Bool.noConfusion carries

/-- A row comes back with `None` for the keys that only other rows have. -/
def IsFilled (rows : List Row) (row filled : Row) : Prop :=
  ∀ key, filled.get? key =
    if ∃ other ∈ rows, other.Carries key then some ((row.get? key).getD .none) else none

/-- Rows with a key overall come back from their columns. -/
def ColumnsRoundTrip : Prop :=
  ∀ rows : List Row, (∃ row ∈ rows, row.fields ≠ []) →
    ∃ filled, batchedToRows (rowsToBatched rows) = .ok filled ∧
      List.Forall₂ (IsFilled rows) rows filled

theorem batchedToRows_rowsToBatched : ColumnsRoundTrip := by
  intro rows isSome
  have some : (rowsToBatched rows).fields ≠ [] := by
    rw [Ne, rowsToBatched_eq_nil_iff]
    simpa using isSome
  have lengths : ∀ column ∈ (rowsToBatched rows).fields, column.2.length = rows.length :=
    fun column isColumn => length_of_get?_rowsToBatched
      ((Record.get?_eq_some_iff _ column.1 column.2).mpr isColumn)
  refine ⟨_, batchedToRows_eq some lengths, ?_⟩
  refine forall₂_iff_get.mpr ⟨by simp, fun index isRow isIndex => ?_⟩
  rw [get_eq_getElem, get_eq_getElem, getElem_map, getElem_range]
  intro key
  rw [get?_rowAt, get?_rowsToBatched]
  split
  · rw [Option.map_some, getD_eq_getElem?_getD, getElem?_map, getElem?_eq_getElem isRow]
    rfl
  · rfl

/-! ## The rows of a batch -/

theorem exists_get?_of_removePrefixKeys {β : Type} {start : Text} (isSome : start ≠ [])
    {row : Record Text β} {key : Text} {value : β}
    (isValue : (removePrefixKeys row start).get? key = some value) :
    ∃ other, row.get? other = some value := by
  rw [get?_removePrefixKeys isSome, valueAfter_keysOf] at isValue
  split at isValue
  · exact ⟨_, isValue⟩
  · split at isValue
    · exact absurd isValue (Option.some_ne_none _).symm
    · exact ⟨_, isValue⟩

/-- Removing a prefix leaves columns of the same length. -/
theorem batchedToRows_removePrefixKeys {start : Text} (isPrefix : start ≠ [])
    {batched : Record Text (List RowValue)} (isSome : batched.fields ≠ []) {size : ℕ}
    (lengths : ∀ key values, batched.get? key = some values → values.length = size) :
    batchedToRows (removePrefixKeys batched start) =
      .ok ((range size).map (rowAt (removePrefixKeys batched start))) := by
  refine batchedToRows_eq (removePrefixKeys_ne_nil isPrefix isSome) fun column isColumn => ?_
  obtain ⟨key, isValue⟩ := exists_get?_of_removePrefixKeys isPrefix
    ((Record.get?_eq_some_iff _ column.1 column.2).mpr isColumn)
  exact lengths key column.2 isValue

namespace Batch

variable (batch : Batch)

def rows : List Row :=
  (List.range batch.size).map (rowAt (removePrefixKeys batch.columns streamPrefix))

theorem batchedToRows_columns :
    batchedToRows (removePrefixKeys batch.columns streamPrefix) = .ok batch.rows := by
  refine batchedToRows_removePrefixKeys streamPrefix_ne_nil batch.some_column
    fun key values isColumn => ?_
  exact batch.length_column (key, values) ((Record.get?_eq_some_iff _ key values).mp isColumn)

def alone (index : ℕ) : Batch where
  columns := mapValues (fun values => [values.getD index .none]) batch.columns
  size := 1
  some_column := by
    rw [mapValues, Ne, map_eq_nil_iff]
    exact batch.some_column
  length_column := by
    intro column isColumn
    obtain ⟨field, -, rfl⟩ := mem_map.mp isColumn
    rfl

theorem rows_alone (index : ℕ) :
    (batch.alone index).rows = [rowAt (removePrefixKeys batch.columns streamPrefix) index] := by
  have same : rowAt (removePrefixKeys (batch.alone index).columns streamPrefix) 0 =
      rowAt (removePrefixKeys batch.columns streamPrefix) index := by
    rw [rowAt, rowAt, Record.mk.injEq, alone, removePrefixKeys_mapValues, map_map]
    rfl
  rw [rows, alone, range_one, map_singleton]
  exact congrArg (fun row => [row]) same

end Batch

/-! ## The results of a batch -/

namespace RowPreprocessor

variable (preprocessor : RowPreprocessor)

def resultsOf (row : Row) : List Row :=
  match preprocessor.processRow row with
  | .ok results => results
  | .error _ => []

/-- A row that fails leaves nothing. The induction is on the rows. -/
theorem foldlM_addRow (ignoreMaxLengthError : Bool) (rows newRows : List Row) (counter : ℕ) :
    ∃ after, rows.foldlM (preprocessor.addRow false ignoreMaxLengthError) (newRows, counter) =
      .ok (newRows ++ rows.flatMap preprocessor.resultsOf, after) := by
  induction rows generalizing newRows counter with
  | nil => exact ⟨counter, by rw [flatMap_nil, append_nil]; rfl⟩
  | cons row rest ih =>
    rw [foldlM_cons, flatMap_cons, ← append_assoc]
    cases isResult : preprocessor.processRow row with
    | ok results =>
      obtain ⟨after, isAfter⟩ := ih (newRows ++ results) counter
      refine ⟨after, ?_⟩
      rw [addRow, resultsOf, isResult]
      exact isAfter
    | error error =>
      obtain ⟨after, isAfter⟩ := ih newRows
        (preprocessor.countTraceback ignoreMaxLengthError error counter)
      refine ⟨after, ?_⟩
      rw [addRow, resultsOf, isResult, append_nil]
      exact isAfter

theorem batchedPreprocess_eq (ignoreMaxLengthError : Bool) (batch : Batch) (counter : ℕ) :
    ∃ after, preprocessor.batchedPreprocess false ignoreMaxLengthError batch.columns counter =
      .ok (batchedResults (batch.rows.flatMap preprocessor.resultsOf), after) := by
  obtain ⟨after, isAfter⟩ := preprocessor.foldlM_addRow ignoreMaxLengthError batch.rows [] counter
  have isSome : check (!batch.columns.fields.isEmpty) = .ok () := by
    rw [check, isEmpty_eq_false_iff.mpr batch.some_column]
    rfl
  refine ⟨after, ?_⟩
  rw [batchedPreprocess, isSome, batch.batchedToRows_columns]
  simp only [bind, Except.bind, isAfter]
  rfl

end RowPreprocessor

/-! ## Values that are kept -/

/-- Rows with the same values, where a key that is not there counts as `None`. -/
def SameRow (first second : Row) : Prop :=
  ∀ key, (first.get? key).getD .none = (second.get? key).getD .none

theorem SameRow.symm {first second : Row} (same : SameRow first second) : SameRow second first :=
  fun key => (same key).symm

theorem SameRow.trans {first second third : Row} (same : SameRow first second)
    (more : SameRow second third) : SameRow first third :=
  fun key => (same key).trans (more key)

theorem sameRows_trans {first second third : List Row} (same : List.Forall₂ SameRow first second)
    (more : List.Forall₂ SameRow second third) : List.Forall₂ SameRow first third := by
  induction same generalizing third with
  | nil => exact more
  | cons here _ ih =>
    cases more with
    | cons next rest => exact .cons (here.trans next) (ih rest)

theorem sameRows_symm {first second : List Row} (same : List.Forall₂ SameRow first second) :
    List.Forall₂ SameRow second first :=
  (same.imp fun _ _ same => same.symm).flip

/-- The values that a result has under prefixed keys are kept in the columns of the results as they
are in the result itself. -/
def KeptAlike (results : List Row) (result : Row) : Prop :=
  ∀ key, (result.get? (keptPrefix ++ key)).getD .none ≠ .none →
    (Restored keptPrefix (keysOf (rowsToBatched results)) key ↔
      Restored keptPrefix (keysOf result) key)

/-- Not all results are empty dictionaries. -/
def SomeField (results : List Row) : Prop := results = [] ∨ ∃ result ∈ results, result.fields ≠ []

/-- What is there under a key when no value is kept for it. -/
def ownValue (result : Row) (key : Text) : RowValue :=
  if keptPrefix <+: key then .none else (result.get? key).getD .none

theorem ownValue_of_restored {result : Row} {keys : List Text} {key : Text}
    (more : ∀ other, other ∈ keysOf result → other ∈ keys)
    (restored : Restored keptPrefix keys key) : ownValue result key = .none := by
  rw [ownValue]
  split
  · rfl
  · rename_i notPrefix
    rcases restored with absent | removed
    · rw [show result.get? key = none from valueAt_eq_none fun isKey => absent (more key isKey)]
      rfl
    · exact absurd removed.1 notPrefix

theorem getD_removePrefixKeys (result : Row) (key : Text) :
    ((removePrefixKeys result keptPrefix).get? key).getD .none =
      if Restored keptPrefix (keysOf result) key then (result.get? (keptPrefix ++ key)).getD .none
      else ownValue result key := by
  have own : (if keptPrefix <+: key then none else result.get? key).getD .none =
      ownValue result key := by
    rw [ownValue]
    split <;> rfl
  rw [get?_removePrefixKeys keptPrefix_ne_nil, valueAfter_keysOf]
  by_cases restored : Restored keptPrefix (keysOf result) key
  · rw [if_pos restored]
    split
    · rfl
    · rename_i absent
      have noKey : result.get? (keptPrefix ++ key) = none :=
        valueAt_eq_none fun isKey => absent ⟨isKey, restored⟩
      rw [own, ownValue_of_restored (fun _ isIn => isIn) restored, noKey, Option.getD_none]
  · rw [if_neg fun both => restored both.2, if_neg restored, own]

section Output

variable {results : List Row} {index : ℕ} {result : Row} (isResult : results[index]? = some result)

include isResult

theorem keysOf_rowsToBatched (key : Text) (isKey : key ∈ keysOf result) :
    key ∈ keysOf (rowsToBatched results) := by
  have isThere : ((rowsToBatched results).get? key).isSome := by
    rw [get?_rowsToBatched, if_pos ⟨result, mem_of_getElem? isResult, mem_keys_iff_isSome.mp isKey⟩]
    rfl
  exact mem_keys_iff_isSome.mpr isThere

theorem getD_output (key : Text) :
    ((rowAt (removePrefixKeys (rowsToBatched results) keptPrefix) index).get? key).getD .none =
      if Restored keptPrefix (keysOf (rowsToBatched results)) key then
        (result.get? (keptPrefix ++ key)).getD .none
      else ownValue result key := by
  have own : ((if keptPrefix <+: key then none else (rowsToBatched results).get? key).map
      (·.getD index .none)).getD .none = ownValue result key := by
    rw [ownValue]
    split
    · rfl
    · exact getD_rowsToBatched isResult key
  rw [get?_rowAt, get?_removePrefixKeys keptPrefix_ne_nil, valueAfter_keysOf]
  by_cases restored : Restored keptPrefix (keysOf (rowsToBatched results)) key
  · rw [if_pos restored]
    split
    · exact getD_rowsToBatched isResult _
    · rename_i absent
      have noKey : result.get? (keptPrefix ++ key) = none := valueAt_eq_none fun isKey =>
        absent ⟨keysOf_rowsToBatched isResult _ isKey, restored⟩
      rw [own, ownValue_of_restored (keysOf_rowsToBatched isResult) restored, noKey,
        Option.getD_none]
  · rw [if_neg fun both => restored both.2, if_neg restored, own]

/-- A result is left as it is where its values are kept alike. -/
theorem sameRow_output_iff :
    SameRow (removePrefixKeys result keptPrefix)
        (rowAt (removePrefixKeys (rowsToBatched results) keptPrefix) index) ↔
      KeptAlike results result := by
  refine forall_congr' fun key => ?_
  rw [getD_removePrefixKeys, getD_output isResult]
  by_cases own : Restored keptPrefix (keysOf result) key <;>
    by_cases all : Restored keptPrefix (keysOf (rowsToBatched results)) key
  · simp [own, all]
  · simp [own, all, ownValue_of_restored (fun _ isIn => isIn) own]
  · simp [own, all, ownValue_of_restored (keysOf_rowsToBatched isResult) all, eq_comm]
  · simp [own, all]

end Output

theorem batchedResults_of_someField {results : List Row} (isSome : ∃ result ∈ results,
    result.fields ≠ []) : batchedToRows (batchedResults results) =
      .ok ((range results.length).map
        (rowAt (removePrefixKeys (rowsToBatched results) keptPrefix))) := by
  have someColumn : (rowsToBatched results).fields ≠ [] := by
    rw [Ne, rowsToBatched_eq_nil_iff]
    simpa using isSome
  have someOutput : (removePrefixKeys (rowsToBatched results) keptPrefix).fields ≠ [] :=
    removePrefixKeys_ne_nil keptPrefix_ne_nil someColumn
  rw [batchedResults, if_neg (by rw [List.isEmpty_iff]; exact someOutput)]
  exact batchedToRows_removePrefixKeys keptPrefix_ne_nil someColumn
    fun _ _ => length_of_get?_rowsToBatched

theorem batchedResults_of_noField {results : List Row}
    (noField : ¬ ∃ result ∈ results, result.fields ≠ []) :
    batchedToRows (batchedResults results) = .ok [] := by
  have noColumn : (rowsToBatched results).fields = [] := by
    rw [rowsToBatched_eq_nil_iff]
    simpa using noField
  have noOutput : removePrefixKeys (rowsToBatched results) keptPrefix = Record.empty := by
    rw [removePrefixKeys, Record.empty, Record.mk.injEq, noColumn]
    rfl
  rw [batchedResults, noOutput]
  rfl

/-- The rows of the columns are the results where none is lost and all values are kept. -/
theorem exists_outputRows (results : List Row) :
    ∃ rows, batchedToRows (batchedResults results) = .ok rows ∧
      rows.length ≤ results.length ∧ (rows.length = results.length ↔ SomeField results) ∧
      (List.Forall₂ SameRow (results.map (removePrefixKeys · keptPrefix)) rows ↔
        SomeField results ∧ ∀ result ∈ results, KeptAlike results result) := by
  by_cases isSome : ∃ result ∈ results, result.fields ≠ []
  · refine ⟨_, batchedResults_of_someField isSome, by simp, by simp [SomeField, isSome], ?_⟩
    rw [forall₂_iff_get]
    constructor
    · rintro ⟨-, areSame⟩
      refine ⟨Or.inr isSome, fun result isResult => ?_⟩
      obtain ⟨index, isIndex, rfl⟩ := mem_iff_getElem.mp isResult
      have same := areSame index (by simpa using isIndex) (by simpa using isIndex)
      rw [get_eq_getElem, get_eq_getElem, getElem_map, getElem_map, getElem_range] at same
      exact (sameRow_output_iff (getElem?_eq_getElem isIndex)).mp same
    · rintro ⟨-, alike⟩
      refine ⟨by simp, fun index isIndex _ => ?_⟩
      rw [length_map] at isIndex
      rw [get_eq_getElem, get_eq_getElem, getElem_map, getElem_map, getElem_range]
      exact (sameRow_output_iff (getElem?_eq_getElem isIndex)).mpr
        (alike _ (getElem_mem isIndex))
  · refine ⟨[], batchedResults_of_noField isSome, Nat.zero_le _, ?_, ?_⟩
    · rw [SomeField, or_iff_left isSome, length_nil, eq_comm, length_eq_zero_iff]
    · rw [SomeField, or_iff_left isSome, forall₂_nil_right_iff, map_eq_nil_iff]
      constructor
      · rintro rfl
        exact ⟨rfl, fun _ isIn => absurd isIn not_mem_nil⟩
      · exact fun both => both.1

/-! ## One row after the other -/

namespace RowPreprocessor

variable (preprocessor : RowPreprocessor)

/-- The rows that a batch gives. -/
def Gives (ignoreMaxLengthError : Bool) (batch : Batch) (rows : List Row) : Prop :=
  ∀ counter, ∃ out after,
    preprocessor.batchedPreprocess false ignoreMaxLengthError batch.columns counter =
      .ok (out, after) ∧ batchedToRows out = .ok rows

theorem gives_iff {ignoreMaxLengthError : Bool} {batch : Batch} {rows : List Row} :
    preprocessor.Gives ignoreMaxLengthError batch rows ↔
      batchedToRows (batchedResults (batch.rows.flatMap preprocessor.resultsOf)) = .ok rows := by
  constructor
  · intro gives
    obtain ⟨out, after, isOut, areRows⟩ := gives 0
    obtain ⟨_, isResult⟩ := preprocessor.batchedPreprocess_eq ignoreMaxLengthError batch 0
    rw [isResult, Except.ok.injEq, Prod.mk.injEq] at isOut
    rw [isOut.1, areRows]
  · intro areRows counter
    obtain ⟨after, isResult⟩ :=
      preprocessor.batchedPreprocess_eq ignoreMaxLengthError batch counter
    exact ⟨_, after, isResult, areRows⟩

/-- The batch gives the results of its rows, in order, and the rows that its rows give one by
one. -/
def PreprocessesRows (ignoreMaxLengthError : Bool) (batch : Batch) : Prop :=
  ∃ rows, preprocessor.Gives ignoreMaxLengthError batch rows ∧
    List.Forall₂ SameRow
      ((batch.rows.flatMap preprocessor.resultsOf).map (removePrefixKeys · keptPrefix)) rows ∧
    ∃ alone, List.Forall₂
        (fun index => preprocessor.Gives ignoreMaxLengthError (batch.alone index))
        (List.range batch.size) alone ∧
      List.Forall₂ SameRow alone.flatten rows

theorem gives_alone_iff {ignoreMaxLengthError : Bool} {batch : Batch} {rows : List Row}
    {index : ℕ} : preprocessor.Gives ignoreMaxLengthError (batch.alone index) rows ↔
      batchedToRows (batchedResults (preprocessor.resultsOf
        (rowAt (removePrefixKeys batch.columns streamPrefix) index))) = .ok rows := by
  rw [gives_iff, Batch.rows_alone, flatMap_singleton]

/-- The batch gives what its rows give where no result is lost, and the values under prefixed keys
are kept in the columns as they are in their own results. -/
theorem preprocessesRows_iff_kept (ignoreMaxLengthError : Bool) (batch : Batch) :
    preprocessor.PreprocessesRows ignoreMaxLengthError batch ↔
      ∀ row ∈ batch.rows, SomeField (preprocessor.resultsOf row) ∧
        ∀ result ∈ preprocessor.resultsOf row,
          KeptAlike (batch.rows.flatMap preprocessor.resultsOf) result ∧
            KeptAlike (preprocessor.resultsOf row) result := by
  choose rowsOf areRows lengths someField same using exists_outputRows
  have isAlone : ∀ index rows,
      preprocessor.Gives ignoreMaxLengthError (batch.alone index) rows ↔
        rowsOf (preprocessor.resultsOf
          (rowAt (removePrefixKeys batch.columns streamPrefix) index)) = rows := by
    intro index rows
    rw [gives_alone_iff, areRows, Except.ok.injEq]
  have parts : (batch.rows.flatMap preprocessor.resultsOf).map (removePrefixKeys · keptPrefix) =
      (batch.rows.map fun row =>
        (preprocessor.resultsOf row).map (removePrefixKeys · keptPrefix)).flatten := by
    rw [map_flatMap, flatMap_def]
  constructor
  · rintro ⟨rows, gives, all, alone, areAlone, concatenated⟩ row isRow
    rw [gives_iff, areRows, Except.ok.injEq] at gives
    subst gives
    have isMap : alone = batch.rows.map fun row => rowsOf (preprocessor.resultsOf row) := by
      have each := forall₂_eq_eq_eq ▸ forall₂_map_left_iff.mpr
        (areAlone.imp fun index rows => (isAlone index rows).mp)
      rw [Batch.rows, map_map]
      exact each.symm
    subst isMap
    have keptInAll := ((same _).mp all).2
    rw [parts] at all
    have oneByOne := forall₂_of_flatten (forall₂_map_left_iff.mpr
      (forall₂_map_right_iff.mpr (forall₂_same.mpr fun row _ => by
        rw [length_map]
        exact lengths _))) (sameRows_trans all (sameRows_symm concatenated))
    rw [forall₂_map_left_iff, forall₂_map_right_iff, forall₂_same] at oneByOne
    obtain ⟨isSome, keptAlone⟩ := (same _).mp (oneByOne row isRow)
    exact ⟨isSome, fun result isResult =>
      ⟨keptInAll result (mem_flatMap.mpr ⟨row, isRow, isResult⟩),
        keptAlone result isResult⟩⟩
  · intro kept
    have isSome : SomeField (batch.rows.flatMap preprocessor.resultsOf) := by
      refine or_iff_not_imp_left.mpr fun notEmpty => ?_
      obtain ⟨result, isResult⟩ := exists_mem_of_ne_nil _ notEmpty
      obtain ⟨row, isRow, ofRow⟩ := mem_flatMap.mp isResult
      rcases (kept row isRow).1 with isEmpty | ⟨some, isSome, someField⟩
      · exact absurd ofRow (isEmpty ▸ not_mem_nil)
      · exact ⟨some, mem_flatMap.mpr ⟨row, isRow, isSome⟩, someField⟩
    have all := (same _).mpr ⟨isSome, fun result isResult => by
      obtain ⟨row, isRow, isResult⟩ := mem_flatMap.mp isResult
      exact ((kept row isRow).2 result isResult).1⟩
    have oneByOne : List.Forall₂ (List.Forall₂ SameRow)
        (batch.rows.map fun row =>
          (preprocessor.resultsOf row).map (removePrefixKeys · keptPrefix))
        (batch.rows.map fun row => rowsOf (preprocessor.resultsOf row)) := by
      rw [forall₂_map_left_iff, forall₂_map_right_iff, forall₂_same]
      intro row isRow
      exact (same _).mpr ⟨(kept row isRow).1, fun result isResult =>
        ((kept row isRow).2 result isResult).2⟩
    refine ⟨_, (preprocessor.gives_iff).mpr (areRows _), all, _, ?_,
      sameRows_trans (sameRows_symm (parts ▸ rel_flatten oneByOne)) all⟩
    rw [Batch.rows, map_map, forall₂_map_right_iff, forall₂_same]
    exact fun index _ => (isAlone index _).mpr rfl

/-- **The batch gives what its rows give where no result is lost, and the values under prefixed keys
are kept in the columns as they are in their own results.** -/
theorem preprocessesRows_iff (ignoreMaxLengthError : Bool) (batch : Batch) :
    ColumnsRoundTrip ∧ preprocessor.PreprocessesRows ignoreMaxLengthError batch ↔
      ∀ row ∈ batch.rows, SomeField (preprocessor.resultsOf row) ∧
        ∀ result ∈ preprocessor.resultsOf row,
          KeptAlike (batch.rows.flatMap preprocessor.resultsOf) result ∧
            KeptAlike (preprocessor.resultsOf row) result := by
  rw [and_iff_right batchedToRows_rowsToBatched, preprocessesRows_iff_kept]

end RowPreprocessor

/-! ### A solution that is lost -/

def queryKey : Text := "query".toList

def solutionKey : Text := "solution".toList

/-- A preprocessor that gives a solution of its own to the query `a`. -/
def answering : RowPreprocessor where
  preprocess row :=
    match row.get? queryKey with
    | some (.text ['a']) => .ok (.row (row.store solutionKey (.text ['x'])))
    | _ => .ok (.row row)
  greater _ _ := .error .other
  tracebackLimit := some 10

/-- The queries `a` and `b`, with the solutions of the dataset. -/
def twoQueries : Batch where
  columns := ⟨[(queryKey, [.text ['a'], .text ['b']]),
    (keptPrefix ++ solutionKey, [.text ['y'], .text ['z']])], by decide⟩
  size := 2
  some_column := cons_ne_nil _ _
  length_column column isColumn := by
    simp only [mem_cons, not_mem_nil, or_false] at isColumn
    rcases isColumn with rfl | rfl <;> rfl

/-- The second query loses its solution, as the first one has a column for it. -/
theorem not_preprocessesRows_twoQueries :
    ¬ (ColumnsRoundTrip ∧ answering.PreprocessesRows true twoQueries) := by
  rintro ⟨-, preprocesses⟩
  have kept := (answering.preprocessesRows_iff_kept true twoQueries).mp preprocesses
  let second := rowAt (removePrefixKeys twoQueries.columns streamPrefix) 1
  have isRow : second ∈ twoQueries.rows := mem_map_of_mem (by decide)
  have isResult : second ∈ answering.resultsOf second := mem_singleton_self second
  have isValue : (second.get? (keptPrefix ++ solutionKey)).getD .none = .text ['z'] := rfl
  have alike := ((kept second isRow).2 second isResult).1 solutionKey
    (by rw [isValue]; exact RowValue.noConfusion)
  exact absurd alike (by decide)

end Geobench.Dataset
