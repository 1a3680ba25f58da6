import Geobench.Dataset.DatasetSyntax
import Geobench.Library.Records
import Geobench.Library.Regex

/-!
# The hub of a dataset

`load_dataset` parses a text, and the hub is the one in front of it or else the default one. The
dataset is the id that a registered name has on the hub, or the text itself, for which
`get_dataset_meta` looks in a dictionary of the kinds and ids of all registered datasets, and then
for one whose id ends with the same name.

The parsed flag has three values, and `dataset_syntax.use_hf or use_hf_default` takes the default one
where the flag is false as well as where there is none. **`selectsHub_iff`**: the hub in front of a
text, and with it the dataset registered there, is selected exactly unless `ms::` stands in front and
the default hub is the other one.
-/

namespace Geobench.Dataset

open Library List

/-! ## The registered datasets -/

structure DatasetMeta (κ : Type) where
  msDatasetId : Option Text
  hfDatasetId : Option Text
  datasetPath : Option Text
  msRevision : Option Text
  hfRevision : Option Text
  rest : κ
  deriving DecidableEq

/-- The keys of `DATASET_MAPPING`: names, or the ids and the path of a dataset without a name. -/
inductive RegistryKey where
  | name (datasetName : Text)
  | ids (ms hf path : Option Text)
  deriving DecidableEq

abbrev Registry (κ : Type) := List (RegistryKey × DatasetMeta κ)

inductive DatasetKind where
  | path
  | repo
  | ms
  | hf
  deriving DecidableEq, Repr

/-- The files and the directories among the paths. -/
structure LocalFiles extends LocalPaths where
  isFile : Text → Bool
  isDir : Text → Bool

/-- `{True: 'hf', False: 'ms'}[use_hf]` -/
def hubKind (useHf : Bool) : DatasetKind := if useHf = true then .hf else .ms

def DatasetMeta.hubId {κ : Type} (datasetMeta : DatasetMeta κ) (useHf : Bool) : Option Text :=
  if useHf = true then datasetMeta.hfDatasetId else datasetMeta.msDatasetId

/-! ## The lookup -/

section Lookup

variable {κ : Type} (files : LocalFiles)

def metaKeys (datasetMeta : DatasetMeta κ) : List (DatasetKind × Text) :=
  (datasetMeta.datasetPath.toList.map fun path =>
      (if files.isDir path = true then .repo else .path, path)) ++
    datasetMeta.msDatasetId.toList.map (DatasetKind.ms, ·) ++
    datasetMeta.hfDatasetId.toList.map (DatasetKind.hf, ·)

/-- `_get_dataset_meta_mapping` -/
def getDatasetMetaMapping (registry : Registry κ) : List ((DatasetKind × Text) × DatasetMeta κ) :=
  storeAll (registry.flatMap fun entry => (metaKeys files entry.2).map fun key => (key, entry.2))

/-- `/datasets--.+?--(.+?)/snapshots/` -/
def snapshotsPattern : Regex :=
  let some := Regex.seq (.one (· ≠ '\n')) (.lazy (· ≠ '\n'))
  .sequence [.word "/datasets--".toList, some, .word "--".toList, .group some,
    .word "/snapshots/".toList]

def getDatasetName (isWindows : Bool) (datasetId : Text) : Text :=
  let datasetId := datasetId.rdropWhile (· = '/')
  match snapshotsPattern.search datasetId with
  | some (group :: _) => group
  | _ =>
    let datasetName := ((splitLast ['/'] datasetId).map Prod.snd).getD datasetId
    if isWindows = true then ((splitLast ['\\'] datasetName).map Prod.snd).getD datasetName
    else datasetName

/-- `_get_matched_dataset_meta` -/
def getMatchedDatasetMeta (isWindows : Bool) (dataset : Text)
    (mapping : List ((DatasetKind × Text) × DatasetMeta κ)) : Option (DatasetMeta κ) :=
  valueAt (storeAll (mapping.map fun entry => (getDatasetName isWindows entry.1.2, entry.2)))
    (getDatasetName isWindows dataset)

def DatasetSyntax.datasetType (self : DatasetSyntax) : DatasetKind :=
  if files.isFile self.dataset = true then .path else .repo

/-- `default` is `DatasetMeta()`. -/
def DatasetSyntax.getDatasetMeta (isWindows : Bool) (registry : Registry κ)
    (default : DatasetMeta κ) (self : DatasetSyntax) (useHf : Bool) : DatasetMeta κ :=
  let mapping := getDatasetMetaMapping files registry
  let found :=
    if self.datasetType files = .path then valueAt mapping (.path, self.dataset)
    else
      let kind := if files.isDir self.dataset = true then .repo else hubKind useHf
      valueAt mapping (kind, self.dataset)
  ((found.or (getMatchedDatasetMeta isWindows self.dataset mapping))).getD default

/-! ## The selection -/

/-- What is given to the loader of a dataset. -/
structure Selection (κ : Type) where
  useHf : Bool
  dataset : Option Text
  datasetType : DatasetKind
  datasetMeta : DatasetMeta κ
  revision : Option Text

/-- The argument `use_hf`, or else the environment variable. -/
def useHfDefault (useHf : Option Bool) (useHfHub : Bool) : Bool := useHf.getD useHfHub

/-- The loop body of `load_dataset` up to the loader. -/
def selectDataset (isWindows : Bool) (registry : Registry κ) (default : DatasetMeta κ)
    (useHfDefault : Bool) (datasetSyntax : DatasetSyntax) : Selection κ :=
  let useHf := datasetSyntax.useHf = some true || useHfDefault
  let selection (dataset : Option Text) (datasetType : DatasetKind) (datasetMeta : DatasetMeta κ) :
      Selection κ :=
    ⟨useHf, dataset, datasetType, datasetMeta,
      if useHf = true then datasetMeta.hfRevision else datasetMeta.msRevision⟩
  match valueAt registry (.name datasetSyntax.dataset) with
  | some datasetMeta =>
    if datasetSyntax.useHf = none ∧ datasetMeta.datasetPath ≠ none then
      selection datasetMeta.datasetPath .path datasetMeta
    else selection (datasetMeta.hubId useHf) (datasetSyntax.datasetType files) datasetMeta
  | none =>
    selection (some datasetSyntax.dataset) (datasetSyntax.datasetType files)
      (datasetSyntax.getDatasetMeta files isWindows registry default useHf)

end Lookup

/-! ## The hub in front of a text -/

/-- A text with a hub in front. A text that is a path has none. -/
structure HubPrefix (paths : LocalPaths) (text : Text) (hub : Bool) : Prop where
  noPath : paths.pathExists text = false
  hub : hubFlag ((splitFirst [':', ':'] text).map Prod.fst) = some hub

section Selects

variable {κ : Type} (files : LocalFiles) (isWindows : Bool) (registry : Registry κ)
  (default : DatasetMeta κ)

/-- The dataset registered last with an id on a hub. -/
def registeredUnder (hub : Bool) (datasetId : Text) : Option (DatasetMeta κ) :=
  (registry.reverse.find? fun entry => entry.2.hubId hub = some datasetId).map Prod.snd

/-- The hub is selected, and the dataset is the one registered there: under its name, or under its
id on the hub, unless the id is a path. -/
structure SelectsHub (hub : Bool) (datasetId : Text) (selection : Selection κ) : Prop where
  useHf : selection.useHf = hub
  named : ∀ datasetMeta ∈ valueAt registry (.name datasetId),
    selection.datasetMeta = datasetMeta ∧ selection.dataset = datasetMeta.hubId hub
  registered : valueAt registry (.name datasetId) = none →
    files.isFile datasetId = false → files.isDir datasetId = false →
      selection.dataset = some datasetId ∧
        ∀ datasetMeta ∈ registeredUnder registry hub datasetId,
          selection.datasetMeta = datasetMeta

variable {files isWindows registry default}

theorem mem_metaKeys {datasetMeta : DatasetMeta κ} {hub : Bool} {datasetId : Text} :
    (hubKind hub, datasetId) ∈ metaKeys files datasetMeta ↔
      datasetMeta.hubId hub = some datasetId := by
  have noPath (isDir : Bool) : (if isDir = true then DatasetKind.repo else .path) ≠ hubKind hub := by
    revert isDir hub
    decide
  rw [metaKeys, mem_append, mem_append]
  simp only [mem_map, Option.mem_toList, Prod.mk.injEq]
  constructor
  · rintro ((⟨path, -, isPath, -⟩ | ⟨other, isOther, isMs, rfl⟩) | ⟨other, isOther, isHf, rfl⟩)
    · exact absurd isPath (noPath _)
    · cases hub with
      | false => exact isOther
      | true => cases isMs
    · cases hub with
      | false => cases isHf
      | true => exact isOther
  · intro isId
    cases hub with
    | false => exact .inl (.inr ⟨datasetId, isId, rfl, rfl⟩)
    | true => exact .inr ⟨datasetId, isId, rfl, rfl⟩

/-- The dictionary has the dataset registered last under an id of a hub. -/
theorem valueAt_getDatasetMetaMapping (hub : Bool) (datasetId : Text) :
    valueAt (getDatasetMetaMapping files registry) (hubKind hub, datasetId) =
      registeredUnder registry hub datasetId := by
  rw [getDatasetMetaMapping, valueAt_storeAll, registeredUnder]
  induction registry using List.reverseRecOn with
  | nil => rfl
  | append_singleton registry entry ih =>
    rw [flatMap_append, flatMap_singleton, reverse_append, valueAt_append, ih,
      ← map_reverse, valueAt_map_const, reverse_concat, find?_cons]
    simp only [mem_reverse, mem_metaKeys]
    by_cases isRegistered : entry.2.hubId hub = some datasetId
    · simp [isRegistered]
    · simp [isRegistered]

theorem selectDataset_useHf (fallback : Bool) (found : DatasetSyntax) :
    (selectDataset files isWindows registry default fallback found).useHf =
      (decide (found.useHf = some true) || fallback) := by
  rw [selectDataset]
  split
  · split
    · rfl
    · rfl
  · rfl

theorem selectDataset_of_named {fallback : Bool} {found : DatasetSyntax}
    {datasetMeta : DatasetMeta κ} (named : valueAt registry (.name found.dataset) = some datasetMeta)
    (isHub : found.useHf ≠ none) :
    (selectDataset files isWindows registry default fallback found).datasetMeta = datasetMeta ∧
      (selectDataset files isWindows registry default fallback found).dataset =
        datasetMeta.hubId (decide (found.useHf = some true) || fallback) := by
  rw [selectDataset, named]
  dsimp only
  rw [if_neg fun noHub => isHub noHub.1]
  exact ⟨rfl, rfl⟩

theorem selectDataset_of_id {fallback : Bool} {found : DatasetSyntax}
    (notNamed : valueAt registry (.name found.dataset) = none)
    (notFile : files.isFile found.dataset = false) (notDir : files.isDir found.dataset = false) :
    (selectDataset files isWindows registry default fallback found).dataset =
        some found.dataset ∧
      ∀ datasetMeta ∈ registeredUnder registry
          (decide (found.useHf = some true) || fallback) found.dataset,
        (selectDataset files isWindows registry default fallback found).datasetMeta =
          datasetMeta := by
  rw [selectDataset, notNamed]
  refine ⟨rfl, fun datasetMeta isRegistered => ?_⟩
  have isRepo : found.datasetType files ≠ .path := by
    rw [DatasetSyntax.datasetType, notFile]
    decide
  show found.getDatasetMeta files isWindows registry default _ = datasetMeta
  rw [DatasetSyntax.getDatasetMeta]
  dsimp only
  rw [if_neg isRepo, notDir, if_neg Bool.false_ne_true, valueAt_getDatasetMetaMapping,
    Option.mem_def.mp isRegistered]
  rfl

/-- **The hub in front of a text is selected** unless it is `ms` and the default is the other
one. -/
theorem selectsHub_iff (decimals : Decimals) {text : Text} {hub : Bool}
    (hubPrefix : HubPrefix files.toLocalPaths text hub) {found : DatasetSyntax}
    (parsed : DatasetSyntax.parse decimals files.toLocalPaths text = .ok found) (fallback : Bool) :
    SelectsHub files registry hub found.dataset
        (selectDataset files isWindows registry default fallback found) ↔
      ¬ (hub = false ∧ fallback = true) := by
  obtain ⟨-, -, -, -, -, isHub⟩ := (parse_eq_ok_iff decimals files.toLocalPaths text found).mp parsed
  rw [hubPrefix.noPath, if_neg Bool.false_ne_true, hubPrefix.hub] at isHub
  constructor
  · rintro selects ⟨rfl, rfl⟩
    have useHf := selects.useHf
    rw [selectDataset_useHf, isHub] at useHf
    cases useHf
  · intro agree
    have same : (decide (found.useHf = some true) || fallback) = hub := by
      rw [isHub]
      revert agree
      cases hub <;> cases fallback <;> decide
    refine ⟨(selectDataset_useHf fallback found).trans same, fun datasetMeta named => ?_,
      fun notNamed notFile notDir => ?_⟩
    · have hasHub : found.useHf ≠ none := by
        rw [isHub]
        exact Option.some_ne_none hub
      rw [← same]
      exact selectDataset_of_named named hasHub
    · rw [← same]
      exact selectDataset_of_id notNamed notFile notDir

/-- No paths. -/
def noFiles : LocalFiles where
  pathExists _ := false
  pathExists_nil := rfl
  isFile _ := false
  isDir _ := false

def poems (hub : Bool) : DatasetMeta Unit :=
  ⟨if hub then none else some "team/poems".toList, if hub then some "team/poems".toList else none,
    none, none, none, ()⟩

def poemRegistry : Registry Unit :=
  [(.ids (some "team/poems".toList) none none, poems false),
    (.ids none (some "team/poems".toList) none, poems true)]

def msPoems : DatasetSyntax := ⟨"team/poems".toList, [], none, some false⟩

theorem msPoems_parsed :
    DatasetSyntax.parse asciiDecimals noFiles.toLocalPaths "ms::team/poems".toList = .ok msPoems :=
  (parse_eq_ok_iff asciiDecimals noFiles.toLocalPaths _ _).mpr
    ⟨by decide +kernel, by decide +kernel, rfl, by decide +kernel, by decide +kernel,
      by decide +kernel⟩

theorem hubPrefix_msPoems : HubPrefix noFiles.toLocalPaths "ms::team/poems".toList false :=
  ⟨rfl, by decide +kernel⟩

theorem selectsHub_iff_msPoems :
    SelectsHub noFiles poemRegistry false msPoems.dataset
        (selectDataset noFiles false poemRegistry (poems false) true msPoems) ↔
      ¬ (false = false ∧ true = true) :=
  selectsHub_iff asciiDecimals hubPrefix_msPoems msPoems_parsed true

/-- With the other hub as the default, the dataset of the other hub is selected. -/
theorem not_selectsHub_msPoems :
    DatasetSyntax.parse asciiDecimals noFiles.toLocalPaths "ms::team/poems".toList = .ok msPoems ∧
      (selectDataset noFiles false poemRegistry (poems false) true msPoems).datasetMeta =
        poems true ∧
      ¬ SelectsHub noFiles poemRegistry false msPoems.dataset
        (selectDataset noFiles false poemRegistry (poems false) true msPoems) := by
  refine ⟨msPoems_parsed, by decide +kernel, fun selects => ?_⟩
  have useHf := selects.useHf
  rw [selectDataset_useHf] at useHf
  cases useHf

end Selects

end Geobench.Dataset
