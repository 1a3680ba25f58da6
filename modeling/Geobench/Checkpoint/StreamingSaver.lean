import Geobench.Library.Decimal
import Geobench.Library.Directory
import Geobench.Library.Filling
import Geobench.Library.JsonRoundTrip
import Geobench.Library.Records

/-!
# Saving tensors into shards

`StreamingSafetensorSaver` collects tensors and writes a shard before it would become too large. The
shards have names without their number at first. `finalize` writes the last one, moves the
shards to the names with their number, and writes an index of them if they are several.

A file of tensors keeps one name to itself, so `saveFile` may write one that cannot be read.

The saver fills its shards as boxes (`Writes`): at each time the closed boxes are the files that
it has written, and it changes no other file. **`writes_addTensors`** has this for all tensors.
-/

namespace Geobench.Checkpoint

open Library List

variable {β : Type}

/-! ## Files -/

/-- A tensor: how many elements it has, how long one is in bytes, and what they are. -/
structure Tensor (β : Type) where
  numel : ℕ
  elementSize : ℕ
  elements : β

def Tensor.nbytes (tensor : Tensor β) : ℕ := tensor.numel * tensor.elementSize

/-- The name that the format keeps to itself. -/
def metadataName : Text := "__metadata__".toList

/-- The tensors of a file that can be read. -/
structure Container (β : Type) extends Record Text (Tensor β) where
  unreserved : metadataName ∉ fields.map Prod.fst

inductive File (β : Type) where
  | container (tensors : Container β)
  | json (value : JsonValue)
  | other

/-- The files of a directory by their names. -/
abbrev OutputDir (β : Type) : Type := Directory CodePoints (File β)

/-- `save_file`. -/
def saveFile (tensors : Record Text (Tensor β)) : File β :=
  if unreserved : metadataName ∉ tensors.fields.map Prod.fst then
    .container ⟨tensors, unreserved⟩
  else .other

/-! ## File names -/

def indexName : Text := "model.safetensors.index.json".toList
def modelName : Text := "model.safetensors".toList
def adapterName : Text := "adapter_model.safetensors".toList
def shardStart : Text := "model-".toList
def shardMiddle : Text := "-of-".toList
def shardEnd : Text := ".safetensors".toList
def totalUnknown : Text := "?????".toList

/-- `f'{number:05d}'`. -/
def pad5 (number : ℕ) : Text := (Nat.toDigits 10 number).leftpad 5 '0'

/-- `f'model-{index:05d}-of-{total}.safetensors'`. -/
def shardOf (index : ℕ) (total : Text) : Text :=
  shardStart ++ pad5 index ++ shardMiddle ++ (total ++ shardEnd)

/-- The name of a shard while their number is not known. -/
def oldName (index : ℕ) : Text := shardOf index totalUnknown

def newName (totalShards index : ℕ) : Text :=
  if totalShards = 1 then modelName else shardOf index (pad5 totalShards)

theorem pad5_injective : Function.Injective pad5 := by
  have reads (number : ℕ) : Nat.ofDigitChars 10 (pad5 number) 0 = number := by
    rw [pad5, List.leftpad, Nat.ofDigitChars_append, Nat.ofDigitChars_replicate_zero,
      Nat.mul_zero, Nat.ofDigitChars_ten_toDigits]
  intro number other same
  rw [← reads number, same, reads other]

theorem not_mem_pad5 {char : Char} (notDigit : ¬ char.isDigit) (number : ℕ) :
    char ∉ pad5 number := by
  rw [pad5, List.leftpad, mem_append, not_or]
  constructor
  · intro isZero
    rw [eq_of_mem_replicate isZero] at notDigit
    exact notDigit (by decide)
  · exact fun isIn => notDigit (isDigit_of_mem_decimal isIn)

theorem shardOf_injective (total : Text) : Function.Injective fun index => shardOf index total := by
  intro index other same
  have starts := append_cancel_right (append_cancel_right same)
  exact pad5_injective (append_cancel_left starts)

theorem oldName_injective : Function.Injective oldName := shardOf_injective totalUnknown

theorem newName_injective {totalShards : ℕ} (several : totalShards ≠ 1) :
    Function.Injective (newName totalShards) := by
  intro index other same
  rw [newName, newName, if_neg several, if_neg several] at same
  exact shardOf_injective _ same

theorem mem_oldName (index : ℕ) : '?' ∈ oldName index := by
  have isUnknown : '?' ∈ totalUnknown := by decide
  rw [oldName, shardOf]
  exact mem_append_right _ (mem_append_left _ isUnknown)

theorem not_mem_shardStart (index : ℕ) : '?' ∉ shardStart ++ pad5 index ++ shardMiddle := by
  have start : '?' ∉ shardStart := by decide
  have middle : '?' ∉ shardMiddle := by decide
  have number : '?' ∉ pad5 index := not_mem_pad5 (by decide) index
  rw [mem_append, mem_append]
  tauto

theorem not_mem_newName (totalShards index : ℕ) : '?' ∉ newName totalShards index := by
  unfold newName
  split
  · decide
  · have start := not_mem_shardStart index
    have total : '?' ∉ pad5 totalShards := not_mem_pad5 (by decide) totalShards
    have last : '?' ∉ shardEnd := by decide
    rw [shardOf, mem_append, mem_append (t := shardEnd)]
    tauto

theorem oldName_ne_newName (index totalShards other : ℕ) :
    oldName index ≠ newName totalShards other :=
  fun same => not_mem_newName totalShards other (same ▸ mem_oldName index)

theorem newName_ne_indexName (totalShards index : ℕ) : newName totalShards index ≠ indexName := by
  have modelLast : modelName.getLast? = some 's' := by decide
  have shardLast : shardEnd.getLast? = some 's' := by decide
  have indexLast : indexName.getLast? = some 'n' := by decide
  intro same
  have last : (newName totalShards index).getLast? = some 's' := by
    unfold newName
    split
    · exact modelLast
    · rw [shardOf, getLast?_append, getLast?_append, shardLast]
      rfl
  rw [same, indexLast] at last
  exact absurd last (by decide)

/-- The number of the shards is put for the characters that stand for it. -/
theorem replace_oldName {totalShards : ℕ} (several : totalShards ≠ 1) (index : ℕ) :
    replaceFrom totalUnknown (pad5 totalShards) 0 (oldName index) = newName totalShards index := by
  have last : '?' ∉ shardEnd := by decide
  rw [newName, if_neg several]
  exact replaceFrom_once (not_mem_shardStart index) last "????".toList (pad5 totalShards)

/-! ## The saver -/

structure Saver (β : Type) where
  maxShardSize : ℤ
  currentShard : Record Text (Tensor β)
  currentShardSize : ℕ
  totalSize : ℕ
  shardIndex : ℕ
  weightMap : Record Text Text
  isSaveRank : Bool
  isPeftFormat : Bool

namespace Saver

/-- A saver whose limit is in bytes. -/
def start (maxShardSize : ℤ) (isSaveRank isPeftFormat : Bool) : Saver β where
  maxShardSize := maxShardSize
  currentShard := .empty
  currentShardSize := 0
  totalSize := 0
  shardIndex := 1
  weightMap := .empty
  isSaveRank := isSaveRank
  isPeftFormat := isPeftFormat

/-- `__init__`: the limit is a number of gigabytes, or a text of it that ends with its unit. -/
def init (decimals : Decimals) (maxShardSize : Text ⊕ ℤ) (isSaveRank isPeftFormat : Bool) :
    Option (Saver β) := do
  let gigabytes ← match maxShardSize with
    | .inl text =>
      if "GB".toList.isSuffixOf text then intOf decimals (text.take (text.length - 2)) else none
    | .inr number => some number
  return start (gigabytes * 1000 ^ 3) isSaveRank isPeftFormat

/-- `_save_current_shard`. -/
def saveCurrentShard (saver : Saver β) (dir : OutputDir β) : Saver β × OutputDir β :=
  if saver.currentShard.fields = [] then (saver, dir)
  else
    let shardFilename :=
      if saver.isPeftFormat then adapterName else oldName saver.shardIndex
    ({ saver with
        weightMap := saver.currentShard.fields.foldl
          (fun weightMap field => weightMap.store field.1 shardFilename) saver.weightMap
        totalSize := saver.totalSize + saver.currentShardSize
        currentShard := .empty
        currentShardSize := 0
        shardIndex := saver.shardIndex + 1 },
      dir.write (codes shardFilename) (saveFile saver.currentShard))

def addTensor (saver : Saver β) (dir : OutputDir β) (name : Text) (tensor : Tensor β) :
    Saver β × OutputDir β :=
  if saver.isSaveRank = false then (saver, dir)
  else
    let saved :=
      if saver.maxShardSize < saver.currentShardSize + tensor.nbytes ∧
          saver.currentShard.fields ≠ [] ∧ saver.isPeftFormat = false then
        saver.saveCurrentShard dir
      else (saver, dir)
    ({ saved.1 with
        currentShard := saved.1.currentShard.store name tensor
        currentShardSize := saved.1.currentShardSize + tensor.nbytes },
      saved.2)

def metadataKey : CodePoints := codes "metadata".toList
def weightMapKey : CodePoints := codes "weight_map".toList

/-- What `_save_index` writes. -/
def index (totalSize : ℕ) (weightMap : List (Text × Text)) : JsonValue :=
  .object
    [(metadataKey,
        .object [(codes "total_size".toList, .number (Nat.toDigits 10 totalSize))]),
      (weightMapKey,
        .object (weightMap.map fun field => (codes field.1, .string (codes field.2))))]

def finalize (saver : Saver β) (dir : OutputDir β) : Saver β × OutputDir β :=
  if saver.isSaveRank = false then (saver, dir)
  else
    let saved := saver.saveCurrentShard dir
    if saved.1.isPeftFormat then saved
    else
      let totalShards := saved.1.shardIndex - 1
      let moved := saved.2.moveAll (fun i => codes (oldName (i + 1)))
        (fun i => codes (newName totalShards (i + 1))) totalShards
      if 1 < totalShards then
        let updatedWeightMap := saved.1.weightMap.fields.map fun field =>
          (field.1, replaceFrom totalUnknown (pad5 totalShards) 0 field.2)
        (saved.1, moved.write (codes indexName) (.json (index saved.1.totalSize updatedWeightMap)))
      else (saved.1, moved)

def addTensors (saver : Saver β) (dir : OutputDir β) (tensors : List (Text × Tensor β)) :
    Saver β × OutputDir β :=
  tensors.foldl (fun saved field => saved.1.addTensor saved.2 field.1 field.2) (saver, dir)

def save (saver : Saver β) (dir : OutputDir β) (tensors : List (Text × Tensor β)) :
    Saver β × OutputDir β :=
  let added := saver.addTensors dir tensors
  added.1.finalize added.2

end Saver

/-! ## The shards are boxes -/

/-- The bytes of tensors together. -/
def nbytes (tensors : List (Text × Tensor β)) : ℕ :=
  (tensors.map fun field => field.2.nbytes).sum

theorem nbytes_append (tensors more : List (Text × Tensor β)) :
    nbytes (tensors ++ more) = nbytes tensors + nbytes more := by
  simp [nbytes]

/-- Tensors are too many for one file. The one file of the adapter format has no limit. -/
def TooLarge (maxShardSize : ℤ) (isPeftFormat : Bool) (tensors : List (Text × Tensor β)) : Prop :=
  isPeftFormat = false ∧ maxShardSize < nbytes tensors

instance (maxShardSize : ℤ) (isPeftFormat : Bool) :
    DecidablePred (TooLarge (β := β) maxShardSize isPeftFormat) :=
  fun _ => inferInstanceAs (Decidable (_ ∧ _))

theorem tooLarge_grows (maxShardSize : ℤ) (isPeftFormat : Bool) (tensors : List (Text × Tensor β))
    (field : Text × Tensor β) (large : TooLarge maxShardSize isPeftFormat tensors) :
    TooLarge maxShardSize isPeftFormat (tensors ++ [field]) := by
  refine ⟨large.1, lt_of_lt_of_le large.2 ?_⟩
  rw [nbytes_append]
  exact_mod_cast Nat.le_add_right _ _

/-- The closed boxes of a filling are the files that a saver has written, and the box that is
filled is its current shard. -/
structure Writes (before : OutputDir β) (saver : Saver β) (dir : OutputDir β)
    (filling : Filling (Text × Tensor β)) : Prop where
  isSaveRank : saver.isSaveRank = true
  currentShard : saver.currentShard.fields = filling.current
  currentShardSize : saver.currentShardSize = nbytes filling.current
  shardIndex : saver.shardIndex = filling.closed.length + 1
  distinct : (filling.contents.map Prod.fst).Nodup
  written : ∀ (i : ℕ) (inside : i < filling.closed.length), ∃ shard : Record Text (Tensor β),
    shard.fields = filling.closed[i] ∧ dir (codes (oldName (i + 1))) = some (saveFile shard)
  unchanged : ∀ name, (∀ i < filling.closed.length, name ≠ codes (oldName (i + 1))) →
    dir name = before name
  weightMap : ∀ name file, (name, file) ∈ saver.weightMap.fields ↔
    ∃ (i : ℕ) (inside : i < filling.closed.length),
      name ∈ filling.closed[i].map Prod.fst ∧ file = oldName (i + 1)

theorem writes_start (before : OutputDir β) (maxShardSize : ℤ) (isPeftFormat : Bool) :
    Writes before (Saver.start maxShardSize true isPeftFormat) before Filling.empty where
  isSaveRank := rfl
  currentShard := rfl
  currentShardSize := rfl
  shardIndex := rfl
  distinct := nodup_nil
  written i inside := absurd inside (Nat.not_lt_zero i)
  unchanged _ _ := rfl
  weightMap name file := by simp [Saver.start, Record.empty, Filling.empty]

variable {before dir : OutputDir β} {saver : Saver β} {filling : Filling (Text × Tensor β)}

variable {name : Text}

theorem Writes.not_mem_current (writes : Writes before saver dir filling) {i : ℕ}
    (inside : i < filling.closed.length) (isClosed : name ∈ filling.closed[i].map Prod.fst) :
    name ∉ filling.current.map Prod.fst := by
  have distinct := writes.distinct
  rw [Filling.contents, map_append] at distinct
  have isEarlier : name ∈ filling.closed.flatten.map Prod.fst := by
    obtain ⟨field, isField, rfl⟩ := mem_map.mp isClosed
    exact mem_map_of_mem (mem_flatten_of_mem (getElem_mem inside) isField)
  exact fun isCurrent => disjoint_of_nodup_append distinct isEarlier isCurrent

theorem Writes.saveCurrentShard (writes : Writes before saver dir filling)
    (isSharded : saver.isPeftFormat = false) :
    Writes before (saver.saveCurrentShard dir).1 (saver.saveCurrentShard dir).2 filling.finish := by
  have isOld := writes.currentShard
  unfold Saver.saveCurrentShard Filling.finish
  rw [isOld]
  split
  · exact writes
  have fileName : (if saver.isPeftFormat = true then adapterName else oldName saver.shardIndex) =
      oldName (filling.closed.length + 1) := by
    rw [isSharded, writes.shardIndex]
    rfl
  have apart : ∀ i < filling.closed.length,
      codes (oldName (i + 1)) ≠ codes (oldName (filling.closed.length + 1)) := by
    intro i inside same
    have := oldName_injective (codes_injective same)
    omega
  dsimp only
  rw [fileName]
  refine ⟨writes.isSaveRank, rfl, rfl, ?_, ?_, ?_, ?_, ?_⟩
  · simp [writes.shardIndex]
  · have same := Filling.contents_finish filling
    simpa [Filling.contents] using writes.distinct
  · intro i inside
    dsimp only at inside
    rw [length_append, length_singleton] at inside
    rcases Nat.lt_succ_iff_lt_or_eq.mp inside with earlier | rfl
    · obtain ⟨shard, isShard, isFile⟩ := writes.written i earlier
      refine ⟨shard, ?_, ?_⟩
      · rw [isShard, getElem_append_left earlier]
      · rw [Directory.write_of_ne _ (apart i earlier), isFile]
    · exact ⟨saver.currentShard, by simp [isOld], Directory.write_self _ _ _⟩
  · intro name differs
    dsimp only at differs
    rw [length_append, length_singleton] at differs
    rw [Directory.write_of_ne _ (differs _ (Nat.lt_succ_self _))]
    exact writes.unchanged name fun i inside => differs i (Nat.lt_succ_of_lt inside)
  · intro name file
    rw [Record.mem_foldl_store_iff, writes.weightMap]
    split
    · rename_i isCurrent
      constructor
      · rintro rfl
        exact ⟨filling.closed.length, by simp, by simpa using isCurrent, rfl⟩
      · rintro ⟨i, inside, isIn, rfl⟩
        rw [length_append, length_singleton] at inside
        rcases Nat.lt_succ_iff_lt_or_eq.mp inside with earlier | rfl
        · rw [getElem_append_left earlier] at isIn
          exact absurd isCurrent (writes.not_mem_current earlier isIn)
        · rfl
    · rename_i notCurrent
      constructor
      · rintro ⟨i, earlier, isIn, isFile⟩
        have inside : i < (filling.closed ++ [filling.current]).length :=
          length_append ▸ Nat.lt_add_right 1 earlier
        exact ⟨i, inside, by rwa [getElem_append_left earlier], isFile⟩
      · rintro ⟨i, inside, isIn, isFile⟩
        rw [length_append, length_singleton] at inside
        rcases Nat.lt_succ_iff_lt_or_eq.mp inside with earlier | rfl
        · rw [getElem_append_left earlier] at isIn
          exact ⟨i, earlier, isIn, isFile⟩
        · exact absurd (by simpa using isIn) notCurrent

@[simp] theorem isPeftFormat_saveCurrentShard (saver : Saver β) (dir : OutputDir β) :
    (saver.saveCurrentShard dir).1.isPeftFormat = saver.isPeftFormat := by
  unfold Saver.saveCurrentShard
  split <;> rfl

@[simp] theorem maxShardSize_saveCurrentShard (saver : Saver β) (dir : OutputDir β) :
    (saver.saveCurrentShard dir).1.maxShardSize = saver.maxShardSize := by
  unfold Saver.saveCurrentShard
  split <;> rfl

@[simp] theorem isPeftFormat_addTensor (saver : Saver β) (dir : OutputDir β) (name : Text)
    (tensor : Tensor β) :
    (saver.addTensor dir name tensor).1.isPeftFormat = saver.isPeftFormat := by
  unfold Saver.addTensor
  dsimp only
  split
  · rfl
  · split <;> simp

@[simp] theorem maxShardSize_addTensor (saver : Saver β) (dir : OutputDir β) (name : Text)
    (tensor : Tensor β) :
    (saver.addTensor dir name tensor).1.maxShardSize = saver.maxShardSize := by
  unfold Saver.addTensor
  dsimp only
  split
  · rfl
  · split <;> simp

/-- A tensor with a new name comes last in the box that is filled. -/
theorem Writes.store (writes : Writes before saver dir filling)
    (isNew : name ∉ filling.contents.map Prod.fst) (tensor : Tensor β) :
    Writes before
      { saver with
        currentShard := saver.currentShard.store name tensor
        currentShardSize := saver.currentShardSize + tensor.nbytes }
      dir ⟨filling.closed, filling.current ++ [(name, tensor)]⟩ where
  isSaveRank := writes.isSaveRank
  currentShard := by
    have notCurrent : name ∉ saver.currentShard.fields.map Prod.fst := by
      rw [writes.currentShard]
      rw [Filling.contents, map_append] at isNew
      exact fun isCurrent => isNew (mem_append_right _ isCurrent)
    change setItem _ _ _ = _
    rw [setItem_of_new notCurrent, writes.currentShard]
  currentShardSize := by
    rw [nbytes_append, writes.currentShardSize]
    simp [nbytes]
  shardIndex := writes.shardIndex
  distinct := by
    have all : (⟨filling.closed, filling.current ++ [(name, tensor)]⟩ :
        Filling (Text × Tensor β)).contents = filling.contents ++ [(name, tensor)] := by
      simp [Filling.contents]
    rw [all, map_append]
    exact writes.distinct.append (nodup_singleton _) (disjoint_singleton.mpr isNew)
  written := writes.written
  unchanged := writes.unchanged
  weightMap := writes.weightMap

/-- Adding a tensor with a new name puts it into the boxes. -/
theorem Writes.addTensor (writes : Writes before saver dir filling)
    (isNew : name ∉ filling.contents.map Prod.fst) (tensor : Tensor β) :
    Writes before (saver.addTensor dir name tensor).1 (saver.addTensor dir name tensor).2
      (filling.put (TooLarge saver.maxShardSize saver.isPeftFormat) (name, tensor)) := by
  have size : nbytes (filling.current ++ [(name, tensor)]) =
      saver.currentShardSize + tensor.nbytes := by
    rw [nbytes_append, writes.currentShardSize]
    simp [nbytes]
  have closes : (saver.maxShardSize < saver.currentShardSize + tensor.nbytes ∧
      saver.currentShard.fields ≠ [] ∧ saver.isPeftFormat = false) ↔
      filling.current ≠ [] ∧ TooLarge saver.maxShardSize saver.isPeftFormat
        (filling.current ++ [(name, tensor)]) := by
    rw [TooLarge, size, writes.currentShard, Nat.cast_add]
    tauto
  unfold Saver.addTensor Filling.put
  rw [if_neg (by simp [writes.isSaveRank])]
  simp only [closes]
  split
  · rename_i isClosed
    have finished : filling.finish = ⟨filling.closed ++ [filling.current], []⟩ :=
      if_neg isClosed.1
    have saved := writes.saveCurrentShard isClosed.2.1
    rw [finished] at saved
    exact saved.store (by simpa [Filling.contents] using isNew) tensor
  · exact writes.store isNew tensor

/-- A saver fills its shards as boxes. -/
theorem writes_addTensors (tensors : List (Text × Tensor β))
    (writes : Writes before saver dir filling)
    (distinct : ((filling.contents ++ tensors).map Prod.fst).Nodup) :
    Writes before (saver.addTensors dir tensors).1 (saver.addTensors dir tensors).2
      (tensors.foldl (Filling.put (TooLarge saver.maxShardSize saver.isPeftFormat)) filling) := by
  induction tensors generalizing saver dir filling with
  | nil => exact writes
  | cons field rest ih =>
    have isNew : field.1 ∉ filling.contents.map Prod.fst := by
      rw [map_append, map_cons] at distinct
      exact fun isOld => disjoint_of_nodup_append distinct isOld mem_cons_self
    have next := ih (writes.addTensor isNew field.2)
    rw [maxShardSize_addTensor, isPeftFormat_addTensor] at next
    refine next ?_
    rw [Filling.contents_put]
    simpa using distinct

end Geobench.Checkpoint
