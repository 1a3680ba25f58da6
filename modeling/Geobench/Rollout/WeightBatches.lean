import Geobench.Library.Loop
import Geobench.Library.Text
import Mathlib.Data.List.Nodup

/-!
# The batches of a weight transfer

The parameters of the trained model are sent to the inference engine in groups. `splitBatches`
gives a numbered parameter of the language model to the group of its number, after it has found
the number of layers in a list of modules. Parameters without a number, and those of other
components, are two more groups.

A model is a tree of modules, of which some are lists. Their names are dotted paths, so no two
parameters have one name (`nodup_namedParameters`).
-/

namespace Geobench.Rollout

open Library List

/-! ## Models -/

/-- A module with its name, its own parameters and its submodules. -/
inductive Module where
  | mk (name : Text) (isModuleList : Bool) (parameters : List Text) (children : List Module)

namespace Module

def name : Module → Text
  | mk name _ _ _ => name

def isModuleList : Module → Bool
  | mk _ isModuleList _ _ => isModuleList

def parameters : Module → List Text
  | mk _ _ parameters _ => parameters

def children : Module → List Module
  | mk _ _ _ children => children

mutual

/-- The modules of a tree with their paths, each before those in it. -/
def paths : Module → List (List Text × Module)
  | mk name isModuleList parameters children =>
    ([], mk name isModuleList parameters children) :: childPaths children

def childPaths : List Module → List (List Text × Module)
  | [] => []
  | child :: rest => child.paths.map (fun found => (child.name :: found.1, found.2)) ++ childPaths rest

end

end Module

/-- A path as a name. -/
def dotted (path : List Text) : Text := ['.'].intercalate path

/-- `named_modules` -/
def Module.namedModules (root : Module) : List (Text × Module) :=
  root.paths.map fun found => (dotted found.1, found.2)

def Module.parameterPaths (root : Module) : List (List Text) :=
  root.paths.flatMap fun found => found.2.parameters.map fun parameter => found.1 ++ [parameter]

/-- `named_parameters` -/
def Module.namedParameters (root : Module) : List Text := root.parameterPaths.map dotted

/-- A module registers no two parameters and no two submodules with one name. -/
structure Module.Registers (module : Module) : Prop where
  parameters : module.parameters.Nodup
  children : (module.children.map Module.name).Nodup
  undotted : ∀ name ∈ module.parameters ++ module.children.map Module.name, '.' ∉ name

instance (module : Module) : Decidable module.Registers :=
  decidable_of_iff (module.parameters.Nodup ∧ (module.children.map Module.name).Nodup ∧
      ∀ name ∈ module.parameters ++ module.children.map Module.name, '.' ∉ name)
    ⟨fun ⟨parameters, children, undotted⟩ => ⟨parameters, children, undotted⟩,
      fun ⟨parameters, children, undotted⟩ => ⟨parameters, children, undotted⟩⟩

structure MultiModelKeys where
  languageModel : List Text
  visionTower : List Text

/-- A model. Its architecture has keys if it is multimodal. -/
structure Model where
  root : Module
  registers : ∀ found ∈ root.paths, found.2.Registers
  modelArch : Option MultiModelKeys

/-! ## Different names -/

theorem flatMap_childPaths {α : Type} (collect : List Text × Module → List α)
    (children : List Module) :
    (Module.childPaths children).flatMap collect =
      children.flatMap fun child =>
        child.paths.flatMap fun found => collect (child.name :: found.1, found.2) := by
  induction children with
  | nil => rfl
  | cons child rest ih =>
    rw [Module.childPaths, flatMap_append, flatMap_map, ih, flatMap_cons]

/-- The paths of a module's parameters are those of its own and those of its submodules'. -/
theorem parameterPaths_mk (name : Text) (isModuleList : Bool) (parameters : List Text)
    (children : List Module) :
    (Module.mk name isModuleList parameters children).parameterPaths =
      parameters.map (fun parameter => [parameter]) ++
        children.flatMap fun child => child.parameterPaths.map (child.name :: ·) := by
  rw [Module.parameterPaths, Module.paths, flatMap_cons, flatMap_childPaths]
  congr 1
  simp only [Module.parameterPaths, map_flatMap, map_map]
  rfl

theorem mem_childPaths {children : List Module} {child : Module} (isChild : child ∈ children)
    {found : List Text × Module} (isFound : found ∈ child.paths) :
    (child.name :: found.1, found.2) ∈ Module.childPaths children := by
  induction children with
  | nil => exact absurd isChild not_mem_nil
  | cons first rest ih =>
    rw [Module.childPaths, mem_append]
    rcases mem_cons.mp isChild with rfl | isLater
    · exact .inl (mem_map_of_mem isFound)
    · exact .inr (ih isLater)

theorem parameterPath_ne_nil {module : Module} {path : List Text}
    (isPath : path ∈ module.parameterPaths) : path ≠ [] := by
  obtain ⟨found, -, isFound⟩ := mem_flatMap.mp isPath
  obtain ⟨parameter, -, rfl⟩ := mem_map.mp isFound
  exact append_ne_nil_of_right_ne_nil _ (cons_ne_nil _ _)

/-- What the modules of a tree register, those of a submodule register. -/
theorem registers_child {name : Text} {isModuleList : Bool} {parameters : List Text}
    {children : List Module}
    (registers : ∀ found ∈ (Module.mk name isModuleList parameters children).paths,
      found.2.Registers) {child : Module} (isChild : child ∈ children) :
    ∀ found ∈ child.paths, found.2.Registers := by
  intro found isFound
  refine registers (child.name :: found.1, found.2) ?_
  rw [Module.paths]
  exact mem_cons_of_mem _ (mem_childPaths isChild isFound)

theorem registers_self {name : Text} {isModuleList : Bool} {parameters : List Text}
    {children : List Module}
    (registers : ∀ found ∈ (Module.mk name isModuleList parameters children).paths,
      found.2.Registers) : (Module.mk name isModuleList parameters children).Registers :=
  registers _ (by rw [Module.paths]; exact mem_cons_self)

theorem nodup_parameterPaths : ∀ module : Module,
    (∀ found ∈ module.paths, found.2.Registers) → module.parameterPaths.Nodup
  | .mk name isModuleList parameters children, registers => by
      have own := registers_self registers
      have inner : ∀ child ∈ children, child.parameterPaths.Nodup := fun child isChild =>
        nodup_parameterPaths child (registers_child registers isChild)
      rw [parameterPaths_mk]
      refine List.Nodup.append ?_ ?_ ?_
      · exact own.parameters.map fun _ _ same => (List.cons.inj same).1
      · rw [nodup_flatMap]
        refine ⟨fun child isChild => (inner child isChild).map (cons_injective), ?_⟩
        refine (pairwise_map.mp own.children).imp fun {child other} differ => ?_
        intro path isPath isOther
        obtain ⟨rest, -, rfl⟩ := mem_map.mp isPath
        obtain ⟨rest', -, same⟩ := mem_map.mp isOther
        exact differ (List.cons.inj same).1.symm
      · intro path isOwn isInner
        obtain ⟨parameter, -, rfl⟩ := mem_map.mp isOwn
        obtain ⟨child, -, isPath⟩ := mem_flatMap.mp isInner
        obtain ⟨rest, isRest, same⟩ := mem_map.mp isPath
        exact parameterPath_ne_nil isRest (List.cons.inj same).2

theorem undotted_of_parameterPaths : ∀ module : Module,
    (∀ found ∈ module.paths, found.2.Registers) → ∀ path ∈ module.parameterPaths,
      ∀ name ∈ path, '.' ∉ name
  | .mk name isModuleList parameters children, registers => by
      have own := registers_self registers
      have inner : ∀ child ∈ children, ∀ path ∈ child.parameterPaths, ∀ name ∈ path, '.' ∉ name :=
        fun child isChild =>
          undotted_of_parameterPaths child (registers_child registers isChild)
      intro path isPath part isPart
      rw [parameterPaths_mk, mem_append] at isPath
      rcases isPath with isOwn | isInner
      · obtain ⟨parameter, isParameter, rfl⟩ := mem_map.mp isOwn
        rw [mem_singleton.mp isPart]
        exact own.undotted _ (mem_append_left _ isParameter)
      · obtain ⟨child, isChild, isPath⟩ := mem_flatMap.mp isInner
        obtain ⟨rest, isRest, rfl⟩ := mem_map.mp isPath
        rcases mem_cons.mp isPart with rfl | isLater
        · exact own.undotted _ (mem_append_right _ (mem_map_of_mem isChild))
        · exact inner child isChild rest isRest part isLater

theorem nodup_namedParameters (model : Model) : model.root.namedParameters.Nodup := by
  have undotted := undotted_of_parameterPaths model.root model.registers
  refine (nodup_parameterPaths model.root model.registers).map_on ?_
  intro path isPath other isOther same
  have back : ∀ path ∈ model.root.parameterPaths, (dotted path).splitOn '.' = path :=
    fun path isPath =>
      splitOn_intercalate '.' (undotted path isPath) (parameterPath_ne_nil isPath)
  rw [← back path isPath, ← back other isOther, same]

/-! ## Names -/

/-- `part in name` -/
def hasPart (part name : Text) : Bool := name.tails.any fun rest => part.isPrefixOf rest

def isRefModel (name : Text) : Bool := hasPart "ref_model".toList name

def MultiModelKeys.isVision (keys : MultiModelKeys) (name : Text) : Bool :=
  keys.visionTower.any fun part => hasPart part name

/-- The digits of the first match of `\.(\d+)\.`. The value of a digit is that of the Unicode
tables. -/
def layerDigits (decimal : Char → Option ℕ) : Text → Option (List ℕ)
  | [] => none
  | char :: rest =>
    let digits := rest.takeWhile fun char => (decimal char).isSome
    if char = '.' ∧ digits ≠ [] ∧ (rest.drop digits.length).head? = some '.' then
      some (digits.filterMap decimal)
    else layerDigits decimal rest

inductive SplitError where
  | assertionError
  | indexError
  | valueError
  | zeroDivisionError
  deriving DecidableEq, Repr

def digitsValue (digits : List ℕ) : ℕ := digits.foldl (fun value digit => value * 10 + digit) 0

/-- `int(number)`, which takes no more than 4300 digits. -/
def intOf (digits : List ℕ) : Except SplitError ℕ :=
  if 4300 < digits.length then .error .valueError else .ok (digitsValue digits)

/-! ## Layers -/

/-- The name of a module without that of an adapter around the model. -/
def stripBaseModel (name : Text) : Text :=
  if "base_model".toList.isPrefixOf name then replaceFrom "base_model.".toList [] 0 name else name

/-- What a module changes about the number of layers. -/
def countLayer (modelArch : Option MultiModelKeys) (layerCount : Option ℕ)
    (named : Text × Module) : Except SplitError (Option ℕ) :=
  if named.2.isModuleList then
    match modelArch with
    | none => .ok (some named.2.children.length)
    | some keys =>
      if keys.isVision named.1 then .ok layerCount
      else
        match keys.languageModel with
        | [] => .error .indexError
        | llm :: _ =>
          if hasPart llm (stripBaseModel named.1) then .ok (some named.2.children.length)
          else .ok layerCount
  else .ok layerCount

/-- The number of layers: the length of the last list of modules that counts. -/
def layerCount (model : Model) : Except SplitError (Option ℕ) :=
  model.root.namedModules.foldlM (countLayer model.modelArch) none

/-! ## Groups -/

/-- Where a parameter is put. -/
inductive Place where
  | layer (group : ℕ)
  | embeds
  | other
  deriving DecidableEq, Repr

/-- The group at an index, which may count from the end. -/
def groupAt (size : ℕ) (group : ℤ) : Except SplitError Place :=
  if 0 ≤ group ∧ group < size then .ok (.layer group.toNat)
  else if group < 0 ∧ -group ≤ size then .ok (.layer (size + group).toNat)
  else .error .indexError

section Split

variable (decimal : Char → Option ℕ) (model : Model) (batches : ℤ)

/-- `ceil(layer_count / args.move_model_batches)` -/
def nLayers (count : ℕ) : ℤ := -Int.fdiv (-count) batches

/-- Where a parameter of the language model is put. -/
def splitLlm (layers : ℤ) (name : Text) : Except SplitError Place :=
  match layerDigits decimal name with
  | none => .ok .embeds
  | some digits => do
      let number ← intOf digits
      if layers = 0 then .error .zeroDivisionError
      else groupAt batches.toNat (Int.fdiv number layers)

def placeOf (layers : ℤ) (name : Text) : Except SplitError Place :=
  match model.modelArch with
  | none => splitLlm decimal batches layers name
  | some keys =>
    if keys.isVision name then .ok .other
    else
      match keys.languageModel with
      | [] => .error .indexError
      | llm :: _ => if hasPart llm name then splitLlm decimal batches layers name else .ok .other

/-- The groups while they are filled. -/
structure Groups where
  parameters : List (List Text)
  llmEmbeds : List Text
  nonLlmParameters : List Text
  deriving DecidableEq

def Groups.append (groups : Groups) (name : Text) : Place → Groups
  | .layer group => { groups with parameters := groups.parameters.modify group (· ++ [name]) }
  | .embeds => { groups with llmEmbeds := groups.llmEmbeds ++ [name] }
  | .other => { groups with nonLlmParameters := groups.nonLlmParameters ++ [name] }

/-- What a parameter changes about the groups. -/
def placeParameter (layers : ℤ) (groups : Groups) (name : Text) : Except SplitError Groups :=
  if isRefModel name then .ok groups
  else (placeOf decimal model batches layers name).map (groups.append name)

def Groups.nonempty (groups : Groups) : List (List Text) :=
  (groups.parameters ++ [groups.llmEmbeds, groups.nonLlmParameters]).filter fun group =>
    !group.isEmpty

end Split

/-! ## Names without adapters -/

def replaceLora (rolloutEnableLora : Bool) (name : Text) : Text :=
  if hasPart "lora_".toList name then []
  else if !rolloutEnableLora then replaceFrom ".base_layer".toList [] 0 name
  else name

def removePrefix (text : Text) (name : Text) : Text :=
  if text.isPrefixOf name then name.drop text.length else name

/-- The names that the engine knows, each once and in some order. -/
def removeLoraAndPrefix (rolloutEnableLora : Bool) (names : List Text) : List Text :=
  ((names.map fun name =>
    removePrefix "_model.".toList (replaceLora rolloutEnableLora name)).dedup).filter fun name =>
      !name.isEmpty

/-! ## The split -/

/-- What the split returns: the groups, and for each of them the names that the engine knows. -/
abbrev Batches := List (List Text) × List (Option (List Text))

/-- `split_batches` -/
def splitBatches (decimal : Char → Option ℕ) (model : Model) (moveModelBatches : Option ℤ)
    (rolloutEnableLora : Bool) : Except SplitError Batches :=
  match moveModelBatches with
  | none => .ok ([model.root.namedParameters.filter fun name => !isRefModel name], [none])
  | some batches => do
      match ← layerCount model with
      | none => .error .assertionError
      | some count =>
        if batches = 0 then .error .zeroDivisionError
        else do
          let groups ← model.root.namedParameters.foldlM
            (placeParameter decimal model batches (nLayers batches count))
            ⟨List.replicate batches.toNat [], [], []⟩
          .ok (groups.nonempty,
            groups.nonempty.map fun group => some (removeLoraAndPrefix rolloutEnableLora group))

end Geobench.Rollout
