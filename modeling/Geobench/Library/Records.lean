import Mathlib.Data.List.Induction
import Mathlib.Data.List.Nodup
import Mathlib.Algebra.GroupWithZero.Nat

/-!
# Records turned into columns

A dictionary is a list of fields with different keys, in the order in which the keys came up. A
field is stored in its place (`setItem`), and a value is appended to the list under its key
(`append`).

A record has one value under each of its keys. A list of records is transposed into columns by
appending the values of each record, one after the other, to the columns of their keys. A list
whose items have one label each is split into columns in the same way (`column_foldl_label`).

A column then has the values of those records that carry its key (`column_transpose`).
-/

namespace Geobench.Library

open List

variable {κ α : Type}

/-- A dictionary: a list of fields with different keys. -/
structure Record (κ α : Type) where
  fields : List (κ × α)
  nodup_keys : (fields.map Prod.fst).Nodup

variable [DecidableEq κ]

def valueAt {β : Type} (fields : List (κ × β)) (key : κ) : Option β := fields.lookup key

@[simp] theorem valueAt_nil {β : Type} (key : κ) : valueAt ([] : List (κ × β)) key = none := rfl

variable {β : Type}

theorem valueAt_cons (field : κ × β) (rest : List (κ × β)) (key : κ) :
    valueAt (field :: rest) key = if key = field.1 then some field.2 else valueAt rest key := by
  obtain ⟨first, value⟩ := field
  by_cases same : key = first
  · simp [valueAt, same]
  · simp [valueAt, lookup_cons, same, beq_eq_false_iff_ne.mpr same]

variable {fields : List (κ × β)} {key : κ}

theorem valueAt_eq_none (absent : key ∉ fields.map Prod.fst) : valueAt fields key = none := by
  refine lookup_eq_none_iff.mpr fun field isField => ?_
  have differs : key ≠ field.1 := by
    rintro rfl
    exact absent (mem_map_of_mem isField)
  simpa using differs

namespace Record

def get? (record : Record κ α) (key : κ) : Option α := valueAt record.fields key

/-- The record has a field with the key. -/
def Carries (record : Record κ α) (key : κ) : Prop := (record.get? key).isSome

instance (record : Record κ α) (key : κ) : Decidable (record.Carries key) :=
  inferInstanceAs (Decidable ((record.get? key).isSome = true))

end Record

/-! ## Dictionaries in the order of their keys -/

/-- Store a value under a key. A new key comes last, one that is there keeps its place. -/
def setItem {β : Type} (fields : List (κ × β)) (key : κ) (value : β) : List (κ × β) :=
  match fields with
  | [] => [(key, value)]
  | field :: rest =>
    if field.1 = key then (key, value) :: rest else field :: setItem rest key value

theorem keys_setItem (fields : List (κ × β)) (key : κ) (value : β) :
    (setItem fields key value).map Prod.fst =
      fields.map Prod.fst ++ if key ∈ fields.map Prod.fst then [] else [key] := by
  induction fields with
  | nil => simp [setItem]
  | cons field rest ih =>
    rw [setItem]
    split
    · rename_i isKey
      simp [isKey]
    · rename_i isOther
      have differs : key ≠ field.1 := fun same => isOther same.symm
      simp only [map_cons, ih, mem_cons, differs, false_or, cons_append]

theorem setItem_of_new (isNew : key ∉ fields.map Prod.fst) (value : β) :
    setItem fields key value = fields ++ [(key, value)] := by
  induction fields with
  | nil => rfl
  | cons field rest ih =>
    rw [map_cons, mem_cons, not_or] at isNew
    rw [setItem, if_neg (fun same => isNew.1 same.symm), ih isNew.2, cons_append]

theorem valueAt_setItem (fields : List (κ × β)) (key : κ) (value : β) (other : κ) :
    valueAt (setItem fields key value) other =
      if other = key then some value else valueAt fields other := by
  induction fields with
  | nil => rw [setItem, valueAt_cons]
  | cons field rest ih =>
    rw [setItem]
    split
    · rename_i isKey
      rw [valueAt_cons, valueAt_cons, isKey]
      split <;> rfl
    · rename_i isOther
      rw [valueAt_cons, valueAt_cons, ih]
      by_cases same : other = field.1
      · have differs : other ≠ key := fun isKey => isOther (same.symm.trans isKey)
        rw [if_pos same, if_pos same, if_neg differs]
      · rw [if_neg same, if_neg same]

variable {γ : Type}

/-- Changing the values of a dictionary changes the value under each key. -/
theorem valueAt_map (change : κ → β → γ) (fields : List (κ × β)) (key : κ) :
    valueAt (fields.map fun field => (field.1, change field.1 field.2)) key =
      (valueAt fields key).map (change key) := by
  induction fields with
  | nil => rfl
  | cons field rest ih =>
    rw [map_cons, valueAt_cons, valueAt_cons, ih]
    split
    · rename_i isKey
      rw [isKey, Option.map_some]
    · rfl

theorem valueAt_append (first rest : List (κ × β)) (key : κ) :
    valueAt (first ++ rest) key = (valueAt first key).or (valueAt rest key) := by
  induction first with
  | nil => rfl
  | cons field first ih =>
    rw [cons_append, valueAt_cons, valueAt_cons, ih]
    split <;> rfl

theorem valueAt_map_keys {μ : Type} [DecidableEq μ] {rename : κ → μ}
    (injective : Function.Injective rename) (change : β → γ) (fields : List (κ × β)) (key : κ) :
    valueAt (fields.map fun field => (rename field.1, change field.2)) (rename key) =
      (valueAt fields key).map change := by
  induction fields with
  | nil => rfl
  | cons field rest ih =>
    rw [map_cons, valueAt_cons, valueAt_cons, ih]
    by_cases isKey : key = field.1
    · rw [if_pos isKey, if_pos (congrArg rename isKey), Option.map_some]
    · rw [if_neg isKey, if_neg fun same => isKey (injective same)]

omit [DecidableEq κ] in
theorem valueAt_map_keys_eq_none {μ : Type} [DecidableEq μ] {rename : κ → μ} {other : μ}
    (isOther : ∀ key, other ≠ rename key) (change : β → γ) (fields : List (κ × β)) :
    valueAt (fields.map fun field => (rename field.1, change field.2)) other = none := by
  refine valueAt_eq_none fun isKey => ?_
  rw [map_map] at isKey
  obtain ⟨field, -, same⟩ := mem_map.mp isKey
  exact isOther field.1 same.symm

theorem valueAt_filter_ne (fields : List (κ × β)) (key other : κ) :
    valueAt (fields.filter (·.1 ≠ key)) other =
      if other = key then none else valueAt fields other := by
  induction fields with
  | nil => simp
  | cons field rest ih =>
    rw [filter_cons, valueAt_cons]
    by_cases isKey : field.1 = key
    · rw [if_neg (by simp [isKey]), ih, isKey]
      split <;> rfl
    · rw [if_pos (by simp [isKey]), valueAt_cons, ih]
      by_cases same : other = field.1
      · rw [if_pos same, if_pos same, if_neg (same ▸ isKey)]
      · rw [if_neg same, if_neg same]

theorem mem_keys_iff_isSome : key ∈ fields.map Prod.fst ↔ (valueAt fields key).isSome := by
  induction fields with
  | nil => simp
  | cons field rest ih =>
    rw [map_cons, mem_cons, ih, valueAt_cons]
    split
    · rename_i isKey
      simp [isKey]
    · rename_i isOther
      simp [isOther]

/-- Storing fields with different keys. -/
theorem valueAt_foldl_setItem {items : List (κ × β)} (different : (items.map Prod.fst).Nodup)
    (fields : List (κ × β)) (key : κ) :
    valueAt (items.foldl (fun fields item => setItem fields item.1 item.2) fields) key =
      (valueAt items key).or (valueAt fields key) := by
  induction items generalizing fields with
  | nil => rfl
  | cons item rest ih =>
    rw [map_cons, nodup_cons] at different
    rw [foldl_cons, ih different.2, valueAt_setItem, valueAt_cons]
    by_cases isKey : key = item.1
    · rw [isKey, valueAt_eq_none different.1, if_pos rfl, if_pos rfl]
      rfl
    · rw [if_neg isKey, if_neg isKey]

/-- The dictionary that fields are stored into, one after the other. -/
def storeAll {β : Type} (fields : List (κ × β)) : List (κ × β) :=
  fields.foldl (fun stored field => setItem stored field.1 field.2) []

theorem valueAt_storeAll (fields : List (κ × β)) (key : κ) :
    valueAt (storeAll fields) key = valueAt fields.reverse key := by
  induction fields using List.reverseRecOn with
  | nil => rfl
  | append_singleton fields last ih =>
    rw [storeAll, foldl_append, foldl_cons, foldl_nil, valueAt_setItem,
      reverse_concat, valueAt_cons, ← ih, storeAll]

theorem valueAt_map_const (keys : List κ) (value : β) (key : κ) :
    valueAt (keys.map fun stored => (stored, value)) key =
      if key ∈ keys then some value else none := by
  induction keys with
  | nil => rfl
  | cons first keys ih =>
    rw [map_cons, valueAt_cons, ih]
    simp only [mem_cons]
    by_cases isFirst : key = first
    · rw [if_pos isFirst, if_pos (.inl isFirst)]
    · rw [if_neg isFirst]
      simp only [isFirst, false_or]

theorem nodup_keys_setItem (different : (fields.map Prod.fst).Nodup) (key : κ) (value : β) :
    ((setItem fields key value).map Prod.fst).Nodup := by
  rw [keys_setItem]
  split
  · rwa [append_nil]
  · rename_i isNew
    exact different.append (nodup_singleton _) (disjoint_singleton.mpr isNew)

theorem nodup_keys_foldl_setItem (items : List (κ × β)) (different : (fields.map Prod.fst).Nodup) :
    ((items.foldl (fun fields item => setItem fields item.1 item.2) fields).map
      Prod.fst).Nodup := by
  induction items generalizing fields with
  | nil => exact different
  | cons item rest ih => exact ih (nodup_keys_setItem different item.1 item.2)

theorem nodup_keys_storeAll (fields : List (κ × β)) : ((storeAll fields).map Prod.fst).Nodup :=
  nodup_keys_foldl_setItem fields nodup_nil

theorem storeAll_of_nodup (different : (fields.map Prod.fst).Nodup) : storeAll fields = fields := by
  have kept : ∀ stored : List (κ × β), ((stored ++ fields).map Prod.fst).Nodup →
      fields.foldl (fun stored field => setItem stored field.1 field.2) stored =
        stored ++ fields := by
    clear different
    induction fields with
    | nil => simp
    | cons field rest ih =>
      intro stored different
      have isNew : field.1 ∉ stored.map Prod.fst := by
        rw [map_append, map_cons] at different
        intro isStored
        exact (nodup_append.mp different).2.2 _ isStored _ mem_cons_self rfl
      rw [foldl_cons, setItem_of_new isNew]
      rw [ih _ (by simpa using different), append_assoc]
      rfl
  exact kept [] different

namespace Record

/-- The record without a field. -/
def empty : Record κ α := ⟨[], nodup_nil⟩

def store (record : Record κ α) (key : κ) (value : α) : Record κ α where
  fields := setItem record.fields key value
  nodup_keys := nodup_keys_setItem record.nodup_keys key value

variable (record : Record κ α)

@[simp] theorem get?_store (key : κ) (value : α) (other : κ) :
    (record.store key value).get? other =
      if other = key then some value else record.get? other :=
  valueAt_setItem record.fields key value other

/-- A field is found under its key. -/
theorem get?_eq_some_iff (key : κ) (value : α) :
    record.get? key = some value ↔ (key, value) ∈ record.fields := by
  obtain ⟨fields, different⟩ := record
  unfold get?
  induction fields with
  | nil => simp
  | cons field rest ih =>
    rw [map_cons, nodup_cons] at different
    rw [valueAt_cons, mem_cons]
    split
    · rename_i isKey
      have notLater : (key, value) ∉ rest := fun isLater =>
        different.1 (isKey ▸ mem_map_of_mem isLater)
      simp [Prod.ext_iff, isKey ▸ notLater, isKey, eq_comm]
    · rename_i isOther
      simp [Prod.ext_iff, isOther, ih different.2]

theorem mem_store_iff (key : κ) (value : α) (other : κ) (stored : α) :
    (other, stored) ∈ (record.store key value).fields ↔
      if other = key then stored = value else (other, stored) ∈ record.fields := by
  rw [← get?_eq_some_iff, ← get?_eq_some_iff]
  change valueAt (setItem record.fields key value) other = some stored ↔ _
  rw [valueAt_setItem]
  split
  · rw [Option.some.injEq, eq_comm]
  · rfl

/-- Storing one value under several keys. -/
theorem mem_foldl_store_iff {γ : Type} (fields : List (κ × γ)) (value : α) (record : Record κ α)
    (key : κ) (stored : α) :
    (key, stored) ∈ (fields.foldl (fun record field => record.store field.1 value) record).fields ↔
      if key ∈ fields.map Prod.fst then stored = value else (key, stored) ∈ record.fields := by
  induction fields generalizing record with
  | nil => simp
  | cons field rest ih =>
    have keys : key ∈ (field :: rest).map Prod.fst ↔ key = field.1 ∨ key ∈ rest.map Prod.fst := by
      simp
    rw [foldl_cons, ih, mem_store_iff]
    by_cases isLater : key ∈ rest.map Prod.fst
    · rw [if_pos isLater, if_pos (keys.mpr (.inr isLater))]
    · by_cases isFirst : key = field.1
      · rw [if_neg isLater, if_pos isFirst, if_pos (keys.mpr (.inl isFirst))]
      · have notKey := fun isKey => (keys.mp isKey).elim isFirst isLater
        rw [if_neg isLater, if_neg isFirst, if_neg notKey]

end Record

/-! ## Columns -/

/-- Append a value to the column of a key, which is a new one if there is none. -/
def append (columns : List (κ × List α)) (key : κ) (value : α) : List (κ × List α) :=
  match columns with
  | [] => [(key, [value])]
  | column :: rest =>
    if column.1 = key then (key, column.2 ++ [value]) :: rest
    else column :: append rest key value

def appendRecord (columns : List (κ × List α)) (record : Record κ α) : List (κ × List α) :=
  record.fields.foldl (fun columns field => append columns field.1 field.2) columns

def transpose (records : List (Record κ α)) : List (κ × List α) :=
  records.foldl appendRecord []

def column (columns : List (κ × List α)) (key : κ) : List α := (valueAt columns key).getD []

theorem column_cons (first : κ × List α) (rest : List (κ × List α)) (key : κ) :
    column (first :: rest) key = if key = first.1 then first.2 else column rest key := by
  rw [column, valueAt_cons]
  split <;> rfl

theorem column_append (columns : List (κ × List α)) (key : κ) (value : α) (other : κ) :
    column (append columns key value) other =
      column columns other ++ if other = key then [value] else [] := by
  induction columns with
  | nil =>
    rw [append, column_cons]
    rfl
  | cons first rest ih =>
    rw [append]
    split
    · rename_i isKey
      simp only [column_cons, isKey]
      split <;> simp
    · rename_i isOther
      rw [column_cons, column_cons, ih]
      split
      · rename_i atFirst
        have differs : other ≠ key := fun same => isOther (atFirst.symm.trans same)
        rw [if_neg differs, append_nil]
      · rfl

theorem keys_append (columns : List (κ × List α)) (key : κ) (value : α) :
    (append columns key value).map Prod.fst =
      columns.map Prod.fst ++ if key ∈ columns.map Prod.fst then [] else [key] := by
  induction columns with
  | nil => simp [append]
  | cons first rest ih =>
    rw [append]
    split
    · rename_i isKey
      simp [isKey]
    · rename_i isOther
      have differs : key ≠ first.1 := fun same => isOther same.symm
      simp only [map_cons, ih, mem_cons, differs, false_or, cons_append]

variable {columns : List (κ × List α)}

theorem nodup_keys_append (different : (columns.map Prod.fst).Nodup) (key : κ) (value : α) :
    ((append columns key value).map Prod.fst).Nodup := by
  rw [keys_append]
  split
  · rwa [append_nil]
  · rename_i isNew
    exact List.Nodup.append different (nodup_singleton _)
      (disjoint_singleton.mpr isNew)

/-! ## The columns of records -/

theorem column_foldl_append (fields : List (κ × α)) (different : (fields.map Prod.fst).Nodup)
    (columns : List (κ × List α)) (key : κ) :
    column (fields.foldl (fun columns field => append columns field.1 field.2) columns) key =
      column columns key ++ (valueAt fields key).toList := by
  induction fields generalizing columns with
  | nil => simp
  | cons field rest ih =>
    rw [map_cons, nodup_cons] at different
    rw [foldl_cons, ih different.2, column_append, valueAt_cons, append_assoc]
    split
    · rename_i isKey
      rw [valueAt_eq_none (isKey ▸ different.1)]
      rfl
    · rfl

theorem column_appendRecord (columns : List (κ × List α)) (record : Record κ α) (key : κ) :
    column (appendRecord columns record) key = column columns key ++ (record.get? key).toList :=
  column_foldl_append record.fields record.nodup_keys columns key

variable (records : List (Record κ α))

theorem column_foldl_appendRecord (columns : List (κ × List α)) (key : κ) :
    column (records.foldl appendRecord columns) key =
      column columns key ++ records.filterMap (·.get? key) := by
  induction records generalizing columns with
  | nil => simp
  | cons record rest ih =>
    rw [foldl_cons, ih, column_appendRecord, append_assoc, filterMap_cons]
    cases record.get? key <;> rfl

theorem column_transpose (key : κ) :
    column (transpose records) key = records.filterMap (·.get? key) := by
  rw [transpose, column_foldl_appendRecord]
  simp [column]

theorem nodup_keys_foldl_append (fields : List (κ × α)) (different : (columns.map Prod.fst).Nodup) :
    ((fields.foldl (fun columns field => append columns field.1 field.2) columns).map
      Prod.fst).Nodup := by
  induction fields generalizing columns with
  | nil => exact different
  | cons field rest ih => exact ih (nodup_keys_append different field.1 field.2)

theorem nodup_keys_transpose : ((transpose records).map Prod.fst).Nodup := by
  have kept : ∀ columns : List (κ × List α), (columns.map Prod.fst).Nodup →
      ((records.foldl appendRecord columns).map Prod.fst).Nodup := by
    induction records with
    | nil => exact fun _ different => different
    | cons record rest ih =>
      exact fun columns different => ih _ (nodup_keys_foldl_append record.fields different)
  exact kept [] nodup_nil

theorem mem_keys_append {value : α} {other : κ} :
    other ∈ (append columns key value).map Prod.fst ↔
      other ∈ columns.map Prod.fst ∨ other = key := by
  rw [keys_append]
  split
  · rename_i isKey
    simpa using fun same => by simpa [same] using isKey
  · simp

theorem mem_keys_foldl_append (fields : List (κ × α)) :
    key ∈ (fields.foldl (fun columns field => append columns field.1 field.2) columns).map
        Prod.fst ↔ key ∈ columns.map Prod.fst ∨ (valueAt fields key).isSome := by
  induction fields generalizing columns with
  | nil => simp
  | cons field rest ih =>
    rw [foldl_cons, ih, mem_keys_append, valueAt_cons]
    split
    · rename_i isKey
      simp [isKey]
    · rename_i isOther
      simp [isOther]

theorem mem_keys_transpose {records : List (Record κ α)} :
    key ∈ (transpose records).map Prod.fst ↔ ∃ record ∈ records, record.Carries key := by
  have kept : ∀ columns : List (κ × List α),
      key ∈ (records.foldl appendRecord columns).map Prod.fst ↔
        key ∈ columns.map Prod.fst ∨ ∃ record ∈ records, record.Carries key := by
    induction records with
    | nil => simp
    | cons record rest ih =>
      intro columns
      rw [foldl_cons, ih, appendRecord, mem_keys_foldl_append, exists_mem_cons_iff, or_assoc]
      rfl
  simpa [transpose] using kept []

theorem column_eq_of_mem (different : (columns.map Prod.fst).Nodup) {entry : κ × List α}
    (isColumn : entry ∈ columns) : column columns entry.1 = entry.2 := by
  induction columns with
  | nil => cases isColumn
  | cons first rest ih =>
    rw [map_cons, nodup_cons] at different
    rw [column_cons]
    rcases mem_cons.mp isColumn with rfl | inRest
    · rw [if_pos rfl]
    · have differs : entry.1 ≠ first.1 := by
        intro same
        exact different.1 (same ▸ mem_map_of_mem inRest)
      rw [if_neg differs, ih different.2 inRest]

theorem mem_keys_of_column_ne_nil (some : column columns key ≠ []) :
    key ∈ columns.map Prod.fst := by
  by_contra notKey
  exact some (by rw [column, valueAt_eq_none notKey]; rfl)

/-! ## Columns that are filled -/

/-- Add the values of a row to the columns, which have one for each earlier row. A column has `null`
for the rows that lack its key. -/
def addFilled (null : α) (columns : List (κ × List α)) (row : Record κ α) (index : ℕ) :
    List (κ × List α) :=
  let columns := row.fields.foldl (fun columns field =>
    setItem columns field.1
      ((valueAt columns field.1).getD (List.replicate index null) ++ [field.2])) columns
  columns.map fun column =>
    if column.1 ∈ row.fields.map Prod.fst then column else (column.1, column.2 ++ [null])

def fillColumns (null : α) (rows : List (Record κ α)) : List (κ × List α) :=
  rows.zipIdx.foldl (fun columns row => addFilled null columns row.1 row.2) []

section Filled

variable (null : α)

/-- Adding the fields of a row lengthens the columns of their keys. -/
theorem valueAt_foldl_filled (index : ℕ) {fields : List (κ × α)}
    (different : (fields.map Prod.fst).Nodup) (columns : List (κ × List α)) (key : κ) :
    valueAt (fields.foldl (fun columns field =>
        setItem columns field.1
          ((valueAt columns field.1).getD (replicate index null) ++ [field.2])) columns) key =
      match valueAt fields key with
      | some value =>
        some ((valueAt columns key).getD (replicate index null) ++ [value])
      | none => valueAt columns key := by
  induction fields generalizing columns with
  | nil => rfl
  | cons field rest ih =>
    rw [map_cons, nodup_cons] at different
    rw [foldl_cons, ih different.2, valueAt_setItem, valueAt_cons]
    by_cases isKey : key = field.1
    · rw [isKey, valueAt_eq_none different.1]
      simp
    · simp only [if_neg isKey]

theorem valueAt_addFilled (columns : List (κ × List α)) (row : Record κ α) (index : ℕ) (key : κ) :
    valueAt (addFilled null columns row index) key =
      match row.get? key with
      | some value =>
        some ((valueAt columns key).getD (replicate index null) ++ [value])
      | none => (valueAt columns key).map fun values => values ++ [null] := by
  have changed := valueAt_map
    (fun key values => if key ∈ row.fields.map Prod.fst then values else values ++ [null])
    (row.fields.foldl (fun columns field =>
      setItem columns field.1
        ((valueAt columns field.1).getD (replicate index null) ++ [field.2])) columns) key
  have same : addFilled null columns row index = (row.fields.foldl (fun columns field =>
      setItem columns field.1
        ((valueAt columns field.1).getD (replicate index null) ++ [field.2])) columns).map
      fun column => (column.1, if column.1 ∈ row.fields.map Prod.fst then column.2
        else column.2 ++ [null]) := by
    rw [addFilled]
    refine map_congr_left fun column _ => ?_
    split <;> rfl
  rw [same, changed, valueAt_foldl_filled null index row.nodup_keys]
  simp only [mem_keys_iff_isSome]
  cases isValue : valueAt row.fields key with
  | none => simp [Record.get?, isValue]
  | some value => simp [Record.get?, isValue]

theorem valueAt_fillColumns (rows : List (Record κ α)) (key : κ) :
    valueAt (fillColumns null rows) key =
      if ∃ row ∈ rows, row.Carries key then
        some (rows.map fun row => (row.get? key).getD null) else none := by
  have run : ∀ (rest first : List (Record κ α)) (columns : List (κ × List α)),
      (valueAt columns key = if ∃ row ∈ first, row.Carries key then
        some (first.map fun row => (row.get? key).getD null) else none) →
      valueAt ((rest.zipIdx first.length).foldl
          (fun columns row => addFilled null columns row.1 row.2) columns) key =
        if ∃ row ∈ first ++ rest, row.Carries key then
          some ((first ++ rest).map fun row => (row.get? key).getD null) else none := by
    intro rest
    induction rest with
    | nil =>
      intro first columns holds
      simpa using holds
    | cons row rest ih =>
      intro first columns holds
      have step : valueAt (addFilled null columns row first.length) key =
          if ∃ row' ∈ first ++ [row], row'.Carries key then
            some ((first ++ [row]).map fun row => (row.get? key).getD null) else none := by
        have onRow : row.Carries key ↔ (row.get? key).isSome := Iff.rfl
        rw [valueAt_addFilled, holds]
        simp only [mem_append, mem_singleton, or_and_right, exists_or, exists_eq_left,
          onRow, map_append, map_cons, map_nil]
        by_cases earlier : ∃ row' ∈ first, row'.Carries key
        · cases isValue : row.get? key <;> simp [earlier]
        · cases isValue : row.get? key with
          | none => simp [earlier]
          | some value =>
            have nulls : first.map (fun row => (row.get? key).getD null) =
                replicate first.length null := by
              rw [eq_replicate_iff]
              refine ⟨length_map _, fun other isOther => ?_⟩
              obtain ⟨row', isRow, rfl⟩ := mem_map.mp isOther
              have absent : row'.get? key = none := by
                by_contra isThere
                exact earlier ⟨row', isRow, Option.ne_none_iff_isSome.mp isThere⟩
              rw [absent, Option.getD_none]
            rw [nulls]
            simp [earlier]
      have later := ih (first ++ [row]) _ step
      rw [length_append, length_singleton, append_assoc] at later
      simpa using later
  simpa [fillColumns] using run rows [] [] (by simp)

theorem nodup_keys_addFilled {columns : List (κ × List α)}
    (different : (columns.map Prod.fst).Nodup) (row : Record κ α) (index : ℕ) :
    ((addFilled null columns row index).map Prod.fst).Nodup := by
  have kept : ∀ (fields : List (κ × α)) (columns : List (κ × List α)),
      (columns.map Prod.fst).Nodup → ((fields.foldl (fun columns field =>
        setItem columns field.1 ((valueAt columns field.1).getD (replicate index null) ++
          [field.2])) columns).map Prod.fst).Nodup := by
    intro fields
    induction fields with
    | nil => exact fun _ different => different
    | cons field rest ih => exact fun columns different => ih _ (nodup_keys_setItem different _ _)
  rw [addFilled, map_map]
  have sameKey : (Prod.fst ∘ fun column : κ × List α =>
      if column.1 ∈ row.fields.map Prod.fst then column else (column.1, column.2 ++ [null])) =
        Prod.fst := by
    funext column
    rw [Function.comp_apply]
    split <;> rfl
  rw [sameKey]
  exact kept row.fields columns different

theorem nodup_keys_fillColumns (rows : List (Record κ α)) :
    ((fillColumns null rows).map Prod.fst).Nodup := by
  have kept : ∀ (rows : List (Record κ α × ℕ)) (columns : List (κ × List α)),
      (columns.map Prod.fst).Nodup → ((rows.foldl (fun columns row =>
        addFilled null columns row.1 row.2) columns).map Prod.fst).Nodup := by
    intro rows
    induction rows with
    | nil => exact fun _ different => different
    | cons row rest ih =>
      exact fun columns different => ih _ (nodup_keys_addFilled null different row.1 row.2)
  exact kept rows.zipIdx [] nodup_nil

end Filled

/-! ## Lists split by a label -/

variable (label : α → κ)

theorem column_foldl_label (items : List α) (columns : List (κ × List α)) (key : κ) :
    column (items.foldl (fun columns item => append columns (label item) item) columns) key =
      column columns key ++ items.filter fun item => label item = key := by
  induction items generalizing columns with
  | nil => simp
  | cons item rest ih =>
    rw [foldl_cons, ih, column_append, append_assoc, filter_cons]
    by_cases same : key = label item
    · simp [same]
    · have differs : label item ≠ key := fun isKey => same isKey.symm
      simp [same, differs]

theorem nodup_keys_foldl_label (items : List α) (different : (columns.map Prod.fst).Nodup) :
    ((items.foldl (fun columns item => append columns (label item) item) columns).map
      Prod.fst).Nodup := by
  have kept := nodup_keys_foldl_append (items.map fun item => (label item, item)) different
  rwa [foldl_map] at kept

theorem mem_keys_foldl_label (items : List α) :
    key ∈ (items.foldl (fun columns item => append columns (label item) item) columns).map
        Prod.fst ↔ key ∈ columns.map Prod.fst ∨ ∃ item ∈ items, label item = key := by
  induction items generalizing columns with
  | nil => simp
  | cons item rest ih =>
    rw [foldl_cons, ih, mem_keys_append, exists_mem_cons_iff, or_assoc]
    exact or_congr_right (or_congr_left eq_comm)

/-- What relates the entries of two dictionaries relates their columns. -/
theorem column_of_forall₂ (Related : List α → List β → Prop) (empty : Related [] [])
    {first : List (κ × List α)} {second : List (κ × List β)}
    (each : List.Forall₂ (fun entry entry' => entry'.1 = entry.1 ∧ Related entry.2 entry'.2)
      first second) (key : κ) : Related (column first key) (column second key) := by
  induction each with
  | nil => exact empty
  | cons related _ ih =>
    rw [column_cons, column_cons, related.1]
    split
    · exact related.2
    · exact ih

omit [DecidableEq κ] in
theorem keys_of_forall₂ (Related : List α → List β → Prop) {first : List (κ × List α)}
    {second : List (κ × List β)}
    (each : List.Forall₂ (fun entry entry' => entry'.1 = entry.1 ∧ Related entry.2 entry'.2)
      first second) : second.map Prod.fst = first.map Prod.fst := by
  induction each with
  | nil => rfl
  | cons related _ ih => rw [map_cons, map_cons, related.1, ih]

/-! ## Places of columns -/

/-- At a place of a column is the value of that one of the records with its key. -/
theorem getElem?_filterMap_get? (key : κ) (place : ℕ) :
    (records.filterMap (·.get? key))[place]? =
      (records.filter (·.Carries key))[place]?.bind (·.get? key) := by
  induction records generalizing place with
  | nil => simp
  | cons record rest ih =>
    cases carried : record.get? key with
    | none =>
      have lacks : ¬ record.Carries key := by simp [Record.Carries, carried]
      simp [carried, lacks, ih]
    | some value =>
      have carries : record.Carries key := by simp [Record.Carries, carried]
      cases place with
      | zero => simp [carried, carries]
      | succ place => simpa [carried, carries] using ih place

theorem length_filterMap_get? (key : κ) :
    (records.filterMap (·.get? key)).length = (records.filter (·.Carries key)).length := by
  rw [length_filterMap_eq_countP, countP_eq_length_filter]
  congr 2
  funext record
  rw [Bool.eq_iff_iff, decide_eq_true_iff]
  rfl

/-- All columns reach a place if enough records carry each key of theirs. -/
theorem forall_reached_iff {records : List (Record κ α)} {place : ℕ} :
    (∀ entry ∈ transpose records, place < entry.2.length) ↔
      ∀ key, (∃ record ∈ records, record.Carries key) →
        place < (records.filter (·.Carries key)).length := by
  have length_eq : ∀ entry ∈ transpose records,
      entry.2.length = (records.filter (·.Carries entry.1)).length := by
    intro entry isEntry
    rw [← column_eq_of_mem (nodup_keys_transpose records) isEntry, column_transpose,
      length_filterMap_get?]
  constructor
  · intro reached key carried
    obtain ⟨entry, isEntry, rfl⟩ := mem_map.mp (mem_keys_transpose.mpr carried)
    exact length_eq entry isEntry ▸ reached entry isEntry
  · intro reached entry isEntry
    rw [length_eq entry isEntry]
    exact reached entry.1 (mem_keys_transpose.mp (mem_map_of_mem isEntry))

end Geobench.Library
