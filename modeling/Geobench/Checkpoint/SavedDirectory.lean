import Geobench.Checkpoint.StreamingSaver

/-!
# Loading what was saved

`SafetensorLazyLoader` reads the index of a directory if there is one, and the names of the tensors
in the single file otherwise. The saver writes an index of several shards only. It leaves the index
that an earlier save has written, and without a tensor also the single file.

**`loadsSaved_iff`**: the saved tensors are loaded exactly when none has the name that the format
keeps to itself, and they are several shards, or the directory had no index and, where nothing is
saved, no tensors, or its index happens to name the same tensors in files that have them.

**`not_restores_after_shards`** has the usual failure: one file that is saved over several shards.
-/

namespace Geobench.Checkpoint

open Library List

variable {β : Type}

/-! ## The loader -/

structure Loader (β : Type) where
  hfModelDir : OutputDir β
  weightMap : JsonValue

def safetensorsFname (isPeftFormat : Bool) : Text :=
  if isPeftFormat then adapterName else modelName

namespace Loader

/-- `__init__` with `_load_index`, which raises where the index is no dictionary of JSON. -/
def loadIndex (hfModelDir : OutputDir β) (isPeftFormat : Bool) : Option (Loader β) :=
  match hfModelDir (codes indexName) with
  | some (.json (.object members)) =>
    some ⟨hfModelDir, (getMember members Saver.weightMapKey).getD (.object [])⟩
  | some _ => none
  | none =>
    match hfModelDir (codes (safetensorsFname isPeftFormat)) with
    | some (.container tensors) =>
      some ⟨hfModelDir, .object (tensors.fields.map fun field =>
        (codes field.1, .string (codes (safetensorsFname isPeftFormat))))⟩
    | some _ => none
    | none => some ⟨hfModelDir, .object []⟩

/-- `get_tensor`. -/
def getTensor (tensors : Container β) (key : CodePoints) : Option (Tensor β) :=
  (tensors.fields.find? fun field => codes field.1 = key).map Prod.snd

/-- `_load_tensor`, which raises where there is no such file or no such tensor in it. -/
def loadTensor (hfModelDir : OutputDir β) (weightMap : List (CodePoints × JsonValue))
    (key : CodePoints) : Option (Tensor β) :=
  match getMember weightMap key with
  | some (.string filename) =>
    match hfModelDir filename with
    | some (.container tensors) => getTensor tensors key
    | _ => none
  | _ => none

/-- `get_state_dict`, with what `load` of each lazy tensor gives. -/
def getStateDict (loader : Loader β) : Option (List (CodePoints × Option (Tensor β))) :=
  match loader.weightMap with
  | .object members =>
    some (members.map fun member => (member.1, loadTensor loader.hfModelDir members member.1))
  | _ => none

end Loader

/-! ## The properties -/

/-- Loading gives exactly the names of tensors, each with its tensor. -/
def Restores (dir : OutputDir β) (isPeftFormat : Bool) (tensors : Record Text (Tensor β)) : Prop :=
  ∃ stateDict, (Loader.loadIndex dir isPeftFormat).bind Loader.getStateDict = some stateDict ∧
    ∀ key loaded, (key, loaded) ∈ stateDict ↔
      ∃ field ∈ tensors.fields, key = codes field.1 ∧ loaded = some field.2

/-- Each shard of a finished save is a file within the limit or with a single tensor. -/
def ShardsFit (saver : Saver β) (dir : OutputDir β) : Prop :=
  ∀ i < saver.shardIndex - 1, ∃ shard : Container β,
    dir (codes (newName (saver.shardIndex - 1) (i + 1))) = some (.container shard) ∧
      (nbytes shard.fields ≤ saver.maxShardSize ∨ shard.fields.length = 1)

/-- Saving tensors into a directory and loading it gives them back, and the shards, which
the adapter format does not have, are not too large. -/
def RoundTrips (before : OutputDir β) (maxShardSize : ℤ) (isPeftFormat : Bool)
    (tensors : Record Text (Tensor β)) : Prop :=
  let saved := (Saver.start maxShardSize true isPeftFormat).save before tensors.fields
  Restores saved.2 isPeftFormat tensors ∧ (isPeftFormat = false → ShardsFit saved.1 saved.2)

/-- The directory had no index, and where nothing is saved no tensor in its single file. -/
def NoIndex (before : OutputDir β) (isPeftFormat : Bool) (tensors : Record Text (Tensor β)) :
    Prop :=
  before (codes indexName) = none ∧
    (tensors.fields = [] →
      before (codes (safetensorsFname isPeftFormat)) = none ∨
        ∃ held : Container β,
          before (codes (safetensorsFname isPeftFormat)) = some (.container held) ∧
            held.fields = [])

/-- The directory had an index of the same names, and each is in the single file that is written
or in a file that had the same tensor. -/
def IndexServes (before : OutputDir β) (isPeftFormat : Bool) (tensors : Record Text (Tensor β)) :
    Prop :=
  ∃ members files, before (codes indexName) = some (.json (.object members)) ∧
    (getMember members Saver.weightMapKey).getD (.object []) = .object files ∧
    (∀ key ∈ files.map Prod.fst, ∃ field ∈ tensors.fields, key = codes field.1) ∧
    ∀ field ∈ tensors.fields, ∃ filename,
      getMember files (codes field.1) = some (.string filename) ∧
        (filename = codes (safetensorsFname isPeftFormat) ∨
          (isPeftFormat = false → filename ≠ codes (oldName 1)) ∧
            ∃ held : Container β, before filename = some (.container held) ∧ field ∈ held.fields)

/-! ## What is loaded -/

theorem codes_eq_iff {text other : Text} : codes text = codes other ↔ text = other :=
  ⟨codes_injective, congrArg codes⟩

/-- Names that are looked up by their code points are looked up as they are. -/
theorem find?_codes {α : Type} (fields : List (Text × α)) (name : Text) :
    (fields.find? fun field => codes field.1 = codes name).map Prod.snd = valueAt fields name := by
  induction fields with
  | nil => rfl
  | cons field rest ih =>
    rw [valueAt_cons, find?_cons]
    by_cases isName : name = field.1
    · simp [isName]
    · have isOther : ¬ codes field.1 = codes name :=
        fun same => isName (codes_injective same).symm
      simp [isOther, isName, ih]

theorem getMember_codes {α : Type} (fields : List (Text × α)) (value : α → JsonValue)
    (name : Text) :
    getMember (fields.map fun field => (codes field.1, value field.2)) (codes name) =
      (valueAt fields name).map value := by
  rw [← find?_codes, getMember, find?_map, Option.map_map, Option.map_map]
  rfl

theorem getTensor_codes (tensors : Container β) (name : Text) (tensor : Tensor β) :
    Loader.getTensor tensors (codes name) = some tensor ↔ (name, tensor) ∈ tensors.fields := by
  rw [← Record.get?_eq_some_iff, Loader.getTensor, find?_codes]
  rfl

theorem loadTensor_eq_some_iff (dir : OutputDir β) (files : List (CodePoints × JsonValue))
    (name : Text) (tensor : Tensor β) :
    Loader.loadTensor dir files (codes name) = some tensor ↔
      ∃ filename, getMember files (codes name) = some (.string filename) ∧
        ∃ held : Container β, dir filename = some (.container held) ∧
          (name, tensor) ∈ held.fields := by
  unfold Loader.loadTensor
  constructor
  · intro loaded
    split at loaded
    · rename_i filename isFile
      split at loaded
      · rename_i held isHeld
        exact ⟨filename, isFile, held, isHeld, (getTensor_codes held name tensor).mp loaded⟩
      · cases loaded
    · cases loaded
  · rintro ⟨filename, isFile, held, isHeld, isIn⟩
    rw [isFile]
    dsimp only
    rw [isHeld]
    exact (getTensor_codes held name tensor).mpr isIn

theorem exists_member_of_loadTensor {dir : OutputDir β} {files : List (CodePoints × JsonValue)}
    {name : Text} {tensor : Tensor β}
    (isLoaded : Loader.loadTensor dir files (codes name) = some tensor) :
    ∃ member ∈ files, member.1 = codes name := by
  obtain ⟨filename, isFile, -⟩ := (loadTensor_eq_some_iff dir files _ _).mp isLoaded
  obtain ⟨member, isFound, -⟩ := Option.map_eq_some_iff.mp isFile
  exact ⟨member, mem_of_find?_eq_some isFound, by simpa using find?_some isFound⟩

/-- The weight map that the loader finds. -/
def foundFiles (dir : OutputDir β) (isPeftFormat : Bool) : Option (List (CodePoints × JsonValue)) :=
  match (Loader.loadIndex dir isPeftFormat).map Loader.weightMap with
  | some (.object files) => some files
  | _ => none

theorem hfModelDir_of_loadIndex {dir : OutputDir β} {isPeftFormat : Bool} {loader : Loader β}
    (isLoader : Loader.loadIndex dir isPeftFormat = some loader) : loader.hfModelDir = dir := by
  unfold Loader.loadIndex at isLoader
  split at isLoader
  · cases isLoader
    rfl
  · cases isLoader
  · split at isLoader
    · cases isLoader
      rfl
    · cases isLoader
    · cases isLoader
      rfl

/-- The state dictionary has each name of the weight map, with what its file has. -/
theorem stateDict_eq_foundFiles (dir : OutputDir β) (isPeftFormat : Bool) :
    (Loader.loadIndex dir isPeftFormat).bind Loader.getStateDict =
      (foundFiles dir isPeftFormat).map fun files =>
        files.map fun member => (member.1, Loader.loadTensor dir files member.1) := by
  unfold foundFiles
  cases isLoader : Loader.loadIndex dir isPeftFormat with
  | none => rfl
  | some loader =>
    have isDir := hfModelDir_of_loadIndex isLoader
    obtain ⟨hfModelDir, weightMap⟩ := loader
    cases isDir
    cases weightMap <;> rfl

/-- A directory restores tensors when the files that are found are those of the tensors and
each file has its tensor. -/
theorem restores_iff_files (dir : OutputDir β) (isPeftFormat : Bool) (tensors : Record Text (Tensor β)) :
    Restores dir isPeftFormat tensors ↔ ∃ files, foundFiles dir isPeftFormat = some files ∧
      (∀ key ∈ files.map Prod.fst, ∃ field ∈ tensors.fields, key = codes field.1) ∧
      ∀ field ∈ tensors.fields, Loader.loadTensor dir files (codes field.1) = some field.2 := by
  rw [Restores, stateDict_eq_foundFiles]
  simp only [Option.map_eq_some_iff, exists_exists_and_eq_and]
  refine exists_congr fun files => and_congr_right fun _ => ?_
  constructor
  · intro same
    constructor
    · intro key isKey
      obtain ⟨member, isMember, rfl⟩ := mem_map.mp isKey
      obtain ⟨field, isField, isName, -⟩ := (same _ _).mp (mem_map_of_mem isMember)
      exact ⟨field, isField, isName⟩
    · intro field isField
      obtain ⟨member, -, isEntry⟩ := mem_map.mp ((same _ _).mpr ⟨field, isField, rfl, rfl⟩)
      obtain ⟨isName, isLoaded⟩ := Prod.mk.inj isEntry
      rw [← isName, isLoaded]
  · rintro ⟨named, loads⟩ key loaded
    constructor
    · intro isEntry
      obtain ⟨member, isMember, same⟩ := mem_map.mp isEntry
      obtain ⟨rfl, rfl⟩ := Prod.mk.inj same
      obtain ⟨field, isField, isName⟩ := named member.1 (mem_map_of_mem isMember)
      exact ⟨field, isField, isName, isName ▸ loads field isField⟩
    · rintro ⟨field, isField, rfl, rfl⟩
      obtain ⟨member, isMember, isName⟩ := exists_member_of_loadTensor (loads field isField)
      refine mem_map.mpr ⟨member, isMember, ?_⟩
      rw [isName, loads field isField]

/-- Tensors that are restored have no name that the format keeps to itself. -/
theorem unreserved_of_restores {dir : OutputDir β} {isPeftFormat : Bool}
    {tensors : Record Text (Tensor β)} (restores : Restores dir isPeftFormat tensors) :
    metadataName ∉ tensors.fields.map Prod.fst := by
  obtain ⟨files, -, -, loads⟩ := (restores_iff_files dir isPeftFormat tensors).mp restores
  intro isReserved
  obtain ⟨field, isField, isName⟩ := mem_map.mp isReserved
  obtain ⟨-, -, held, -, isHeld⟩ := (loadTensor_eq_some_iff dir files _ _).mp (loads field isField)
  exact held.unreserved (isName ▸ mem_map_of_mem isHeld)

/-! ## One file -/

/-- The directory after tensors were saved that are not too many for one file. -/
def singleDir (before : OutputDir β) (isPeftFormat : Bool) (tensors : Record Text (Tensor β)) :
    OutputDir β := fun name =>
  if tensors.fields = [] then before name
  else if name = codes (safetensorsFname isPeftFormat) then some (saveFile tensors)
  else if isPeftFormat = false ∧ name = codes (oldName 1) then none
  else before name

theorem indexName_ne_safetensorsFname (isPeftFormat : Bool) :
    indexName ≠ safetensorsFname isPeftFormat := by
  cases isPeftFormat <;> decide

theorem indexName_ne_oldName (index : ℕ) : indexName ≠ oldName index := by
  intro same
  have notUnknown : '?' ∉ indexName := by decide
  exact notUnknown (same ▸ mem_oldName index)

theorem singleDir_index (before : OutputDir β) (isPeftFormat : Bool)
    (tensors : Record Text (Tensor β)) :
    singleDir before isPeftFormat tensors (codes indexName) = before (codes indexName) := by
  have notSingle := indexName_ne_safetensorsFname isPeftFormat
  have notOld := indexName_ne_oldName 1
  simp [singleDir, codes_eq_iff, notSingle, notOld]

section Index

variable {dir : OutputDir β} {isPeftFormat : Bool}

theorem foundFiles_of_index {members : List (CodePoints × JsonValue)}
    (isIndex : dir (codes indexName) = some (.json (.object members)))
    (files : List (CodePoints × JsonValue)) :
    foundFiles dir isPeftFormat = some files ↔
      (getMember members Saver.weightMapKey).getD (.object []) = .object files := by
  rw [foundFiles, Loader.loadIndex, isIndex]
  simp only [Option.map_some]
  cases (getMember members Saver.weightMapKey).getD (.object []) <;> simp

theorem exists_index_of_foundFiles {files : List (CodePoints × JsonValue)} {file : File β}
    (isFile : dir (codes indexName) = some file)
    (found : foundFiles dir isPeftFormat = some files) :
    ∃ members, file = .json (.object members) := by
  rw [foundFiles, Loader.loadIndex, isFile] at found
  cases file with
  | json value => cases value <;> simp_all
  | container _ => simp at found
  | other => simp at found

/-- The loader finds the weight map that a save has written. -/
theorem foundFiles_of_saved {totalSize : ℕ} {weightMap : List (Text × Text)}
    (isIndex : dir (codes indexName) = some (.json (Saver.index totalSize weightMap))) :
    foundFiles dir isPeftFormat =
      some (weightMap.map fun field => (codes field.1, .string (codes field.2))) := by
  have notKey : Saver.metadataKey ≠ Saver.weightMapKey := by decide
  refine (foundFiles_of_index isIndex _).mpr ?_
  simp [getMember, notKey]

section

variable (noIndex : dir (codes indexName) = none)
include noIndex

theorem foundFiles_of_container {held : Container β}
    (isSingle : dir (codes (safetensorsFname isPeftFormat)) = some (.container held)) :
    foundFiles dir isPeftFormat = some (held.fields.map fun field =>
      (codes field.1, .string (codes (safetensorsFname isPeftFormat)))) := by
  rw [foundFiles, Loader.loadIndex, noIndex]
  simp only [isSingle, Option.map_some]

theorem foundFiles_of_empty (noSingle : dir (codes (safetensorsFname isPeftFormat)) = none) :
    foundFiles dir isPeftFormat = some [] := by
  rw [foundFiles, Loader.loadIndex, noIndex]
  simp only [noSingle, Option.map_some]

theorem exists_container_of_foundFiles {files : List (CodePoints × JsonValue)} {file : File β}
    (isSingle : dir (codes (safetensorsFname isPeftFormat)) = some file)
    (found : foundFiles dir isPeftFormat = some files) : ∃ held, file = .container held := by
  rw [foundFiles, Loader.loadIndex, noIndex] at found
  simp only [isSingle] at found
  cases file <;> simp_all

/-- A single file without an index restores its tensors. -/
theorem restores_of_container {held : Container β}
    (isSingle : dir (codes (safetensorsFname isPeftFormat)) = some (.container held)) :
    Restores dir isPeftFormat held.toRecord := by
  refine (restores_iff_files dir isPeftFormat _).mpr
    ⟨_, foundFiles_of_container noIndex isSingle, ?_, ?_⟩
  · intro key isKey
    simp only [map_map, mem_map, Function.comp_apply] at isKey
    obtain ⟨field, isField, rfl⟩ := isKey
    exact ⟨field, isField, rfl⟩
  · intro field isField
    have isValue := (held.get?_eq_some_iff field.1 field.2).mpr isField
    refine (loadTensor_eq_some_iff dir _ _ _).mpr ⟨_, ?_, held, isSingle, isField⟩
    rw [getMember_codes held.fields (fun _ => .string (codes (safetensorsFname isPeftFormat)))]
    rw [show valueAt held.fields field.1 = some field.2 from isValue]
    rfl

end

/-- Nothing is restored exactly where no file is found. -/
theorem restores_nil_iff {tensors : Record Text (Tensor β)} (isNil : tensors.fields = []) :
    Restores dir isPeftFormat tensors ↔ foundFiles dir isPeftFormat = some [] := by
  rw [restores_iff_files, isNil]
  simp only [not_mem_nil, false_and, exists_false, false_implies, implies_true, and_true]
  constructor
  · rintro ⟨files, found, none⟩
    cases files with
    | nil => exact found
    | cons file rest => exact (none file.1 (by simp)).elim
  · exact fun found => ⟨[], found, by simp⟩

end Index

section SingleFile

variable {before : OutputDir β} {isPeftFormat : Bool} {tensors : Record Text (Tensor β)}

theorem saveFile_of_unreserved (unreserved : metadataName ∉ tensors.fields.map Prod.fst) :
    saveFile tensors = .container ⟨tensors, unreserved⟩ :=
  dif_pos unreserved

theorem singleDir_of_nil (isNil : tensors.fields = []) :
    singleDir before isPeftFormat tensors = before := by
  funext name
  rw [singleDir, if_pos isNil]

theorem singleDir_single (isSome : tensors.fields ≠ []) :
    singleDir before isPeftFormat tensors (codes (safetensorsFname isPeftFormat)) =
      some (saveFile tensors) := by
  rw [singleDir, if_neg isSome, if_pos rfl]

/-- The file of a tensor that is found is the single one or one that was there. -/
theorem singleDir_eq_container_iff {field : Text × Tensor β} (isField : field ∈ tensors.fields)
    (unreserved : metadataName ∉ tensors.fields.map Prod.fst) (filename : CodePoints) :
    (∃ held : Container β,
        singleDir before isPeftFormat tensors filename = some (.container held) ∧
          field ∈ held.fields) ↔
      filename = codes (safetensorsFname isPeftFormat) ∨
        (isPeftFormat = false → filename ≠ codes (oldName 1)) ∧
          ∃ held : Container β, before filename = some (.container held) ∧
            field ∈ held.fields := by
  have isSome : tensors.fields ≠ [] := ne_nil_of_mem isField
  by_cases isSingle : filename = codes (safetensorsFname isPeftFormat)
  · rw [isSingle, singleDir_single isSome, saveFile_of_unreserved unreserved]
    simp only [true_or, iff_true]
    exact ⟨_, rfl, isField⟩
  · rw [singleDir, if_neg isSome, if_neg isSingle]
    by_cases isMoved : isPeftFormat = false ∧ filename = codes (oldName 1)
    · simp [isMoved.1, isMoved.2, isMoved.1 ▸ isMoved.2 ▸ isSingle]
    · have kept : isPeftFormat = false → filename ≠ codes (oldName 1) :=
        fun isSharded isOld => isMoved ⟨isSharded, isOld⟩
      rw [if_neg isMoved]
      simp only [isSingle, false_or]
      exact (and_iff_right kept).symm

theorem restores_singleDir_iff (before : OutputDir β) (isPeftFormat : Bool)
    (tensors : Record Text (Tensor β)) :
    Restores (singleDir before isPeftFormat tensors) isPeftFormat tensors ↔
      metadataName ∉ tensors.fields.map Prod.fst ∧
        (NoIndex before isPeftFormat tensors ∨ IndexServes before isPeftFormat tensors) := by
  have sameIndex := singleDir_index before isPeftFormat tensors
  constructor
  · intro restores
    have unreserved := unreserved_of_restores restores
    refine ⟨unreserved, ?_⟩
    cases isIndex : before (codes indexName) with
    | none =>
      refine .inl ⟨isIndex, fun isNil => ?_⟩
      rw [restores_nil_iff isNil, singleDir_of_nil isNil] at restores
      cases isSingle : before (codes (safetensorsFname isPeftFormat)) with
      | none => exact .inl rfl
      | some file =>
        obtain ⟨held, rfl⟩ := exists_container_of_foundFiles isIndex isSingle restores
        rw [foundFiles_of_container isIndex isSingle, Option.some.injEq, map_eq_nil_iff] at restores
        exact .inr ⟨held, rfl, restores⟩
    | some file =>
      obtain ⟨files, found, named, loads⟩ := (restores_iff_files _ _ _).mp restores
      rw [isIndex] at sameIndex
      obtain ⟨members, rfl⟩ := exists_index_of_foundFiles sameIndex found
      refine .inr ⟨members, files, isIndex, (foundFiles_of_index sameIndex files).mp found, named,
        fun field isField => ?_⟩
      obtain ⟨filename, isFile, isHeld⟩ :=
        (loadTensor_eq_some_iff _ files _ _).mp (loads field isField)
      exact ⟨filename, isFile, (singleDir_eq_container_iff isField unreserved filename).mp isHeld⟩
  · rintro ⟨unreserved, noIndex | ⟨members, files, isIndex, isMap, named, held⟩⟩
    · obtain ⟨isIndex, leftover⟩ := noIndex
      rw [isIndex] at sameIndex
      by_cases isNil : tensors.fields = []
      · rw [restores_nil_iff isNil, singleDir_of_nil isNil]
        rcases leftover isNil with noSingle | ⟨held, isSingle, isEmpty⟩
        · exact foundFiles_of_empty isIndex noSingle
        · rw [foundFiles_of_container isIndex isSingle, isEmpty]
          rfl
      · have isSingle : singleDir before isPeftFormat tensors
            (codes (safetensorsFname isPeftFormat)) = some (saveFile tensors) :=
          singleDir_single isNil
        rw [saveFile_of_unreserved unreserved] at isSingle
        exact restores_of_container sameIndex isSingle
    · rw [isIndex] at sameIndex
      refine (restores_iff_files _ _ _).mpr
        ⟨files, (foundFiles_of_index sameIndex files).mpr isMap, named, fun field isField => ?_⟩
      obtain ⟨filename, isFile, isHeld⟩ := held field isField
      exact (loadTensor_eq_some_iff _ files _ _).mpr
        ⟨filename, isFile, (singleDir_eq_container_iff isField unreserved filename).mpr isHeld⟩

end SingleFile

/-! ## The end of a save -/

section Moved

variable {before dir : OutputDir β} {saver : Saver β} {filling : Filling (Text × Tensor β)}

/-- The shards with the names that have their number. -/
def movedShards (dir : OutputDir β) (totalShards : ℕ) : OutputDir β :=
  dir.moveAll (fun i => codes (oldName (i + 1))) (fun i => codes (newName totalShards (i + 1)))
    totalShards

theorem codes_oldName_ne (totalShards index other : ℕ) :
    codes (oldName (index + 1)) ≠ codes (newName totalShards (other + 1)) :=
  fun same => oldName_ne_newName _ _ _ (codes_injective same)

/-- Each closed box is under its new name. -/
theorem Writes.moved_new (writes : Writes before saver dir filling) {i : ℕ}
    (inside : i < filling.closed.length) :
    ∃ shard : Record Text (Tensor β), shard.fields = filling.closed[i] ∧
      movedShards dir filling.closed.length
        (codes (newName filling.closed.length (i + 1))) = some (saveFile shard) := by
  obtain ⟨shard, isShard, isFile⟩ := writes.written i inside
  refine ⟨shard, isShard, Eq.trans (Directory.moveAll_new ?_ ?_ ?_ ?_ inside) isFile⟩
  · exact fun index other same => Nat.succ_injective (oldName_injective (codes_injective same))
  · intro index other earlier within same
    have several : filling.closed.length ≠ 1 := by omega
    exact (Nat.ne_of_lt earlier)
      (Nat.succ_injective (newName_injective several (codes_injective same)))
  · exact codes_oldName_ne _
  · intro other within
    obtain ⟨other, -, isOther⟩ := writes.written other within
    exact isOther ▸ rfl

/-- What is neither a box nor had its name is as it was before. -/
theorem Writes.moved_of_ne (writes : Writes before saver dir filling) {name : CodePoints}
    (notOld : ∀ i < filling.closed.length, name ≠ codes (oldName (i + 1)))
    (notNew : ∀ i < filling.closed.length,
      name ≠ codes (newName filling.closed.length (i + 1))) :
    movedShards dir filling.closed.length name = before name :=
  (Directory.moveAll_of_ne dir notOld notNew).trans (writes.unchanged name notOld)

end Moved

section Save

variable (before : OutputDir β) (maxShardSize : ℤ) (isPeftFormat : Bool)
  (tensors : Record Text (Tensor β))

def shardsOf : List (List (Text × Tensor β)) :=
  Filling.boxes (TooLarge maxShardSize isPeftFormat) tensors.fields

variable {tensors} in
theorem mem_of_mem_box {box : List (Text × Tensor β)}
    (isBox : box ∈ shardsOf maxShardSize isPeftFormat tensors) {field : Text × Tensor β}
    (isField : field ∈ box) : field ∈ tensors.fields := by
  rw [← Filling.flatten_boxes (TooLarge maxShardSize isPeftFormat) tensors.fields]
  exact mem_flatten_of_mem isBox isField

variable {tensors} in
theorem unreserved_of_mem_box (unreserved : metadataName ∉ tensors.fields.map Prod.fst)
    {box : List (Text × Tensor β)} (isBox : box ∈ shardsOf maxShardSize isPeftFormat tensors) :
    metadataName ∉ box.map Prod.fst := by
  intro isReserved
  obtain ⟨field, isField, isName⟩ := mem_map.mp isReserved
  have isTensor := mem_of_mem_box maxShardSize isPeftFormat isBox isField
  exact unreserved (isName ▸ mem_map_of_mem isTensor)

/-- The saver and its directory when all tensors were added. -/
def addedTo : Saver β × OutputDir β :=
  (Saver.start maxShardSize true isPeftFormat).addTensors before tensors.fields

theorem writes_addedTo :
    Writes before (addedTo before maxShardSize isPeftFormat tensors).1
      (addedTo before maxShardSize isPeftFormat tensors).2
      (Filling.fill (TooLarge maxShardSize isPeftFormat) tensors.fields) :=
  writes_addTensors tensors.fields (writes_start before maxShardSize isPeftFormat)
    tensors.nodup_keys

theorem settings_addTensors (saver : Saver β) (dir : OutputDir β)
    (fields : List (Text × Tensor β)) :
    (saver.addTensors dir fields).1.isPeftFormat = saver.isPeftFormat ∧
      (saver.addTensors dir fields).1.maxShardSize = saver.maxShardSize := by
  induction fields generalizing saver dir with
  | nil => exact ⟨rfl, rfl⟩
  | cons field rest ih =>
    have next := ih (saver.addTensor dir field.1 field.2).1
      (saver.addTensor dir field.1 field.2).2
    rw [isPeftFormat_addTensor, maxShardSize_addTensor] at next
    exact next

theorem isPeftFormat_addedTo :
    (addedTo before maxShardSize isPeftFormat tensors).1.isPeftFormat = isPeftFormat :=
  (settings_addTensors _ before tensors.fields).1

theorem maxShardSize_addedTo :
    (addedTo before maxShardSize isPeftFormat tensors).1.maxShardSize = maxShardSize :=
  (settings_addTensors _ before tensors.fields).2

theorem saveFile_congr {first second : Record Text (Tensor β)}
    (same : first.fields = second.fields) : saveFile first = saveFile second := by
  obtain ⟨fields, different⟩ := first
  obtain ⟨others, differentOthers⟩ := second
  cases same
  rfl

/-- The adapter format writes one file. -/
theorem save_of_isPeftFormat :
    ((Saver.start maxShardSize true true).save before tensors.fields).2 =
      singleDir before true tensors := by
  have writes := writes_addedTo before maxShardSize true tensors
  have isPeft := isPeftFormat_addedTo before maxShardSize true tensors
  have noLimit : ¬ TooLarge maxShardSize true tensors.fields := fun large => by cases large.1
  have noneClosed := (Filling.closed_fill_eq_nil_iff (tooLarge_grows maxShardSize true)
    tensors.fields).mpr (.inr noLimit)
  have all := Filling.contents_fill (TooLarge maxShardSize true) tensors.fields
  rw [Filling.contents, noneClosed, flatten_nil, nil_append] at all
  have isCurrent := writes.currentShard.trans all
  have sameDir : (addedTo before maxShardSize true tensors).2 = before := by
    funext name
    refine writes.unchanged name fun i inside => ?_
    rw [noneClosed] at inside
    exact absurd inside (Nat.not_lt_zero i)
  change ((addedTo before maxShardSize true tensors).1.finalize
    (addedTo before maxShardSize true tensors).2).2 = _
  rw [Saver.finalize, if_neg (by simp [writes.isSaveRank])]
  dsimp only
  rw [isPeftFormat_saveCurrentShard, isPeft, if_pos rfl, Saver.saveCurrentShard, isCurrent, sameDir]
  funext name
  rw [singleDir]
  split
  · rfl
  · dsimp only
    rw [saveFile_congr isCurrent]
    by_cases isSingle : name = codes adapterName
    · rw [isSingle, Directory.write_self]
      rfl
    · rw [Directory.write_of_ne _ isSingle]
      simp [safetensorsFname, isSingle]

/-- The saver and its directory when the last shard was written. -/
def closedAll : Saver β × OutputDir β :=
  (addedTo before maxShardSize false tensors).1.saveCurrentShard
    (addedTo before maxShardSize false tensors).2

theorem writes_closedAll :
    Writes before (closedAll before maxShardSize tensors).1
      (closedAll before maxShardSize tensors).2
      (Filling.fill (TooLarge maxShardSize false) tensors.fields).finish :=
  (writes_addedTo before maxShardSize false tensors).saveCurrentShard
    (isPeftFormat_addedTo before maxShardSize false tensors)

theorem totalShards_eq :
    (closedAll before maxShardSize tensors).1.shardIndex - 1 =
      (shardsOf maxShardSize false tensors).length := by
  rw [(writes_closedAll before maxShardSize tensors).shardIndex, Nat.add_sub_cancel]
  rfl

theorem save_of_isSharded :
    (Saver.start maxShardSize true false).save before tensors.fields =
      let saved := closedAll before maxShardSize tensors
      let totalShards := (shardsOf maxShardSize false tensors).length
      (saved.1,
        if 1 < totalShards then
          (movedShards saved.2 totalShards).write (codes indexName)
            (.json (Saver.index saved.1.totalSize (saved.1.weightMap.fields.map fun field =>
              (field.1, replaceFrom totalUnknown (pad5 totalShards) 0 field.2))))
        else movedShards saved.2 totalShards) := by
  have isSaveRank := (writes_addedTo before maxShardSize false tensors).isSaveRank
  have isPeft : (closedAll before maxShardSize tensors).1.isPeftFormat = false :=
    (isPeftFormat_saveCurrentShard _ _).trans
      (isPeftFormat_addedTo before maxShardSize false tensors)
  change (addedTo before maxShardSize false tensors).1.finalize
    (addedTo before maxShardSize false tensors).2 = _
  rw [Saver.finalize, if_neg (by simp [isSaveRank])]
  dsimp only
  rw [← closedAll, isPeft, totalShards_eq]
  rw [if_neg Bool.false_ne_true]
  split <;> rfl

/-- Few tensors are one shard, which needs no index. -/
theorem save_of_oneShard
    (few : ¬ (2 ≤ tensors.fields.length ∧ maxShardSize < nbytes tensors.fields)) :
    ((Saver.start maxShardSize true false).save before tensors.fields).2 =
      singleDir before false tensors := by
  have writes := writes_closedAll before maxShardSize tensors
  have oneBox : ¬ (2 ≤ tensors.fields.length ∧ TooLarge maxShardSize false tensors.fields) :=
    fun several => few ⟨several.1, several.2.2⟩
  have notSeveral : ¬ 1 < (shardsOf maxShardSize false tensors).length :=
    mt (Filling.two_le_length_boxes_iff (tooLarge_grows maxShardSize false)
      tensors.fields).mp oneBox
  rw [save_of_isSharded]
  dsimp only
  rw [if_neg notSeveral]
  change movedShards _
    (Filling.fill (TooLarge maxShardSize false) tensors.fields).finish.closed.length = _
  funext name
  by_cases isNil : tensors.fields = []
  · have none : (Filling.fill (TooLarge maxShardSize false) tensors.fields).finish.closed = [] := by
      rw [isNil]
      rfl
    rw [singleDir, if_pos isNil]
    exact writes.moved_of_ne (by simp [none]) (by simp [none])
  · have isBox : (Filling.fill (TooLarge maxShardSize false) tensors.fields).finish.closed =
        [tensors.fields] :=
      Filling.boxes_eq_singleton (tooLarge_grows maxShardSize false) isNil oneBox
    have one :
        (Filling.fill (TooLarge maxShardSize false) tensors.fields).finish.closed.length = 1 :=
      congrArg length isBox
    have fileName : safetensorsFname false = modelName := rfl
    rw [singleDir, if_neg isNil, fileName]
    by_cases isSingle : name = codes modelName
    · obtain ⟨shard, isShard, isFile⟩ := writes.moved_new (i := 0) (by rw [one]; exact Nat.one_pos)
      have sameFields : shard.fields = tensors.fields := isShard.trans (by simp [isBox])
      rw [one] at isFile
      rw [one, isSingle, ← saveFile_congr sameFields]
      exact isFile
    · rw [if_neg isSingle]
      by_cases isOld : name = codes (oldName 1)
      · rw [if_pos ⟨rfl, isOld⟩, isOld, one]
        exact Directory.moveAll_old _ (codes_oldName_ne 1) Nat.one_pos
      · rw [if_neg fun moved => isOld moved.2]
        refine writes.moved_of_ne (fun i inside => ?_) (fun i _ => ?_)
        · have isFirst : i = 0 := by omega
          rw [isFirst]
          exact isOld
        · rw [one]
          exact isSingle

/-- A shard is under its new name also when the index was written. -/
theorem save_shard {i : ℕ} (inside : i < (shardsOf maxShardSize false tensors).length) :
    ∃ shard : Record Text (Tensor β), shard.fields = (shardsOf maxShardSize false tensors)[i] ∧
      ((Saver.start maxShardSize true false).save before tensors.fields).2
        (codes (newName (shardsOf maxShardSize false tensors).length (i + 1))) =
          some (saveFile shard) := by
  obtain ⟨shard, isShard, isFile⟩ :=
    (writes_closedAll before maxShardSize tensors).moved_new inside
  refine ⟨shard, isShard, ?_⟩
  rw [save_of_isSharded]
  dsimp only
  split
  · rw [Directory.write_of_ne _ (codes_eq_iff.not.mpr (newName_ne_indexName _ _))]
    exact isFile
  · exact isFile

theorem shardsFit_save (unreserved : metadataName ∉ tensors.fields.map Prod.fst) :
    ShardsFit ((Saver.start maxShardSize true false).save before tensors.fields).1
      ((Saver.start maxShardSize true false).save before tensors.fields).2 := by
  have total : ((Saver.start maxShardSize true false).save before tensors.fields).1.shardIndex - 1 =
      (shardsOf maxShardSize false tensors).length := by
    rw [save_of_isSharded]
    exact totalShards_eq before maxShardSize tensors
  have limit : ((Saver.start maxShardSize true false).save before tensors.fields).1.maxShardSize =
      maxShardSize := by
    rw [save_of_isSharded]
    exact (maxShardSize_saveCurrentShard _ _).trans
      (maxShardSize_addedTo before maxShardSize false tensors)
  intro i inside
  rw [total] at inside ⊢
  rw [limit]
  obtain ⟨shard, isShard, isFile⟩ := save_shard before maxShardSize tensors inside
  have isBox : shard.fields ∈ shardsOf maxShardSize false tensors :=
    isShard ▸ getElem_mem inside
  have unreservedShard := unreserved_of_mem_box maxShardSize false unreserved isBox
  refine ⟨⟨shard, unreservedShard⟩, ?_, ?_⟩
  · rw [isFile, saveFile_of_unreserved unreservedShard]
  · refine (Filling.of_mem_boxes _ isBox).2.imp_left fun fits => ?_
    exact Int.not_lt.mp fun large => fits ⟨rfl, large⟩

theorem exists_index_of_severalShards (several : 2 ≤ tensors.fields.length)
    (large : maxShardSize < nbytes tensors.fields) :
    1 < (shardsOf maxShardSize false tensors).length ∧
      ((Saver.start maxShardSize true false).save before tensors.fields).2 (codes indexName) =
        some (.json (Saver.index (closedAll before maxShardSize tensors).1.totalSize
          ((closedAll before maxShardSize tensors).1.weightMap.fields.map fun field =>
            (field.1, replaceFrom totalUnknown
              (pad5 (shardsOf maxShardSize false tensors).length) 0 field.2)))) := by
  have isSeveral : 1 < (shardsOf maxShardSize false tensors).length :=
    (Filling.two_le_length_boxes_iff (tooLarge_grows maxShardSize false) tensors.fields).mpr
      ⟨several, rfl, large⟩
  refine ⟨isSeveral, ?_⟩
  rw [save_of_isSharded]
  dsimp only
  rw [if_pos isSeveral, Directory.write_self]

/-- Several shards are found through their index, whatever was in the directory. -/
theorem restores_of_severalShards (unreserved : metadataName ∉ tensors.fields.map Prod.fst)
    (several : 2 ≤ tensors.fields.length) (large : maxShardSize < nbytes tensors.fields) :
    Restores ((Saver.start maxShardSize true false).save before tensors.fields).2 false
      tensors := by
  obtain ⟨isSeveral, isIndex⟩ :=
    exists_index_of_severalShards before maxShardSize tensors several large
  have writes := writes_closedAll before maxShardSize tensors
  refine (restores_iff_files _ _ _).mpr ⟨_, foundFiles_of_saved isIndex, ?_, ?_⟩
  · intro key isKey
    simp only [map_map, mem_map, Function.comp_apply] at isKey
    obtain ⟨⟨name, file⟩, isEntry, rfl⟩ := isKey
    obtain ⟨i, inside, isIn, -⟩ := (writes.weightMap name file).mp isEntry
    obtain ⟨field, isField, rfl⟩ := mem_map.mp isIn
    exact ⟨field, mem_of_mem_box maxShardSize false (getElem_mem inside) isField, rfl⟩
  · intro field isField
    have all := Filling.flatten_boxes (TooLarge maxShardSize false) tensors.fields
    obtain ⟨box, isBox, isIn⟩ := List.mem_flatten.mp (all ▸ isField)
    obtain ⟨i, inside, rfl⟩ := getElem_of_mem isBox
    obtain ⟨shard, isShard, isFile⟩ := save_shard before maxShardSize tensors inside
    have isEntry := (writes.weightMap field.1 (oldName (i + 1))).mpr
      ⟨i, inside, mem_map_of_mem isIn, rfl⟩
    have isValue : valueAt (closedAll before maxShardSize tensors).1.weightMap.fields field.1 =
        some (oldName (i + 1)) :=
      (Record.get?_eq_some_iff _ _ _).mpr isEntry
    have unreservedShard : metadataName ∉ shard.fields.map Prod.fst :=
      isShard ▸ unreserved_of_mem_box maxShardSize false unreserved isBox
    refine (loadTensor_eq_some_iff _ _ _ _).mpr
      ⟨_, ?_, ⟨shard, unreservedShard⟩, isFile.trans (congrArg some (dif_pos unreservedShard)), ?_⟩
    · rw [getMember_codes _ fun file => .string (codes file)]
      rw [valueAt_map (fun _ file => replaceFrom totalUnknown _ 0 file), isValue]
      simp only [Option.map_some, replace_oldName (Nat.ne_of_gt isSeveral)]
    · rw [isShard]
      exact isIn

end Save

/-- **Exactly when a save is loaded back.** -/
theorem loadsSaved_iff (before : OutputDir β) (maxShardSize : ℤ) (isPeftFormat : Bool)
    (tensors : Record Text (Tensor β)) :
    RoundTrips before maxShardSize isPeftFormat tensors ↔
      metadataName ∉ tensors.fields.map Prod.fst ∧
        (isPeftFormat = false ∧ 2 ≤ tensors.fields.length ∧ maxShardSize < nbytes tensors.fields ∨
          NoIndex before isPeftFormat tensors ∨ IndexServes before isPeftFormat tensors) := by
  have fits (isSharded : isPeftFormat = false)
      (unreserved : metadataName ∉ tensors.fields.map Prod.fst) :
      ShardsFit ((Saver.start maxShardSize true isPeftFormat).save before tensors.fields).1
        ((Saver.start maxShardSize true isPeftFormat).save before tensors.fields).2 := by
    subst isSharded
    exact shardsFit_save before maxShardSize tensors unreserved
  have whole : RoundTrips before maxShardSize isPeftFormat tensors ↔
      Restores ((Saver.start maxShardSize true isPeftFormat).save before tensors.fields).2
        isPeftFormat tensors :=
    ⟨And.left, fun restores =>
      ⟨restores, fun isSharded => fits isSharded (unreserved_of_restores restores)⟩⟩
  rw [whole]
  cases isPeftFormat with
  | true =>
    rw [save_of_isPeftFormat, restores_singleDir_iff]
    simp
  | false =>
    by_cases several : 2 ≤ tensors.fields.length ∧ maxShardSize < nbytes tensors.fields
    · simp only [several, and_true, true_or]
      exact ⟨unreserved_of_restores, fun unreserved =>
        restores_of_severalShards before maxShardSize tensors unreserved several.1 several.2⟩
    · rw [save_of_oneShard before maxShardSize tensors several, restores_singleDir_iff]
      simp only [several, and_false, false_or]

/-! ## An index that is left behind -/

/-- A save of one file after one of several shards is not loaded, if an earlier name is not
saved again. -/
theorem not_restores_after_shards (before : OutputDir β) {oldSize maxShardSize : ℤ}
    {old new : Record Text (Tensor β)} (several : 2 ≤ old.fields.length)
    (large : oldSize < nbytes old.fields)
    (unreserved : metadataName ∉ old.fields.map Prod.fst)
    (few : ¬ (2 ≤ new.fields.length ∧ maxShardSize < nbytes new.fields)) {name : Text}
    (isOld : name ∈ old.fields.map Prod.fst) (notNew : name ∉ new.fields.map Prod.fst) :
    ¬ Restores ((Saver.start maxShardSize true false).save
      ((Saver.start oldSize true false).save before old.fields).2 new.fields).2 false new := by
  obtain ⟨-, isIndex⟩ := exists_index_of_severalShards before oldSize old several large
  intro restores
  rw [save_of_oneShard _ _ _ few] at restores
  obtain ⟨files, foundNew, named, -⟩ := (restores_iff_files _ _ _).mp restores
  obtain ⟨files', foundOld, -, loads⟩ := (restores_iff_files _ _ _).mp
    (restores_of_severalShards before oldSize old unreserved several large)
  -- both directories have the index of the first save
  have sameFiles : files' = files := by
    rw [foundFiles_of_saved isIndex] at foundOld
    rw [foundFiles_of_saved ((singleDir_index _ _ _).trans isIndex)] at foundNew
    exact Option.some.inj (foundOld.symm.trans foundNew)
  obtain ⟨field, isField, rfl⟩ := mem_map.mp isOld
  obtain ⟨member, isMember, isName⟩ := exists_member_of_loadTensor (loads field isField)
  obtain ⟨other, isOther, sameName⟩ :=
    named member.1 (mem_map_of_mem (sameFiles ▸ isMember))
  have isSame := codes_injective (isName.symm.trans sameName)
  exact notNew (isSame ▸ mem_map_of_mem isOther)

/-- Two tensors of four bytes, each of which is a shard where the limit is zero. -/
def twoTensors : Record Text (Tensor Unit) where
  fields := [(['a'], ⟨1, 4, ()⟩), (['b'], ⟨1, 4, ()⟩)]
  nodup_keys := by decide

def oneTensor : Record Text (Tensor Unit) where
  fields := [(['c'], ⟨1, 4, ()⟩)]
  nodup_keys := by decide

/-- One tensor saved over the two shards of an earlier save. -/
theorem not_roundTrips_overTwoShards :
    ¬ RoundTrips ((Saver.start 0 true false).save (fun _ => none) twoTensors.fields).2
      5000000000 false oneTensor := by
  have several : 2 ≤ twoTensors.fields.length := by decide
  have large : (0 : ℤ) < nbytes twoTensors.fields := by decide
  have unreserved : metadataName ∉ twoTensors.fields.map Prod.fst := by decide
  have few : ¬ (2 ≤ oneTensor.fields.length ∧ (5000000000 : ℤ) < nbytes oneTensor.fields) := by
    decide
  have isOld : ['a'] ∈ twoTensors.fields.map Prod.fst := by decide
  have notNew : ['a'] ∉ oneTensor.fields.map Prod.fst := by decide
  exact fun roundTrips =>
    not_restores_after_shards _ several large unreserved few isOld notNew roundTrips.1

end Geobench.Checkpoint
