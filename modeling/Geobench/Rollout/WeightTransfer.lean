import Geobench.Rollout.WeightBatches

/-!
# Which parameters are transferred

All groups of a split together are meant to have every parameter of the trained model once. A
split that succeeds has them (`transfersOnce_of_ok`), but it fails where a numbered parameter has
no group. **It succeeds exactly where every number is below the number of groups times the layers
of a group** (`splitsOnce_iff`), and these layers are counted in the last list of modules.

In a mixture of experts the last list is that of the experts of a layer, and a layer whose number
is too large for the experts has no group (`experts_not_split`).
-/

namespace Geobench.Rollout

open Library List

/-! ## The condition -/

/-- All groups together have every parameter that is not of the reference model, and once. -/
def TransfersOnce (model : Model) (groups : List (List Text)) : Prop :=
  ∀ name ∈ model.root.namedParameters, isRefModel name = false → groups.flatten.count name = 1

/-- A split that succeeds with groups of that kind. -/
def SplitsOnce (decimal : Char → Option ℕ) (model : Model) (moveModelBatches : Option ℤ)
    (rolloutEnableLora : Bool) : Prop :=
  ∃ batches, splitBatches decimal model moveModelBatches rolloutEnableLora = .ok batches ∧
    TransfersOnce model batches.1

/-- Whether a name is of the language model, which is the first of its parts. -/
def isLanguageModel (modelArch : Option MultiModelKeys) (name : Text) : Bool :=
  match modelArch with
  | none => true
  | some keys => keys.languageModel.head?.any fun llm => hasPart llm name

def isVision (modelArch : Option MultiModelKeys) (name : Text) : Bool :=
  modelArch.any fun keys => keys.isVision name

/-- A module whose length is taken for the number of layers, until there is another one. -/
def countsLayers (modelArch : Option MultiModelKeys) (named : Text × Module) : Bool :=
  named.2.isModuleList && !isVision modelArch named.1 &&
    isLanguageModel modelArch (stripBaseModel named.1)

/-- A name whose number, if it has one, is that of a group. -/
def HasGroup (decimal : Char → Option ℕ) (batches : ℤ) (count : ℕ) (name : Text) : Prop :=
  ∀ digits, layerDigits decimal name = some digits → digits.length ≤ 4300 ∧ 0 < batches ∧
    digitsValue digits < batches * nLayers batches count

/-- A model that can be split: the last list of modules that counts is long enough for the
numbers of all parameters of the language model. -/
def Splittable (decimal : Char → Option ℕ) (model : Model) : Option ℤ → Prop
  | none => True
  | some batches => batches ≠ 0 ∧ ∃ list,
      (model.root.namedModules.filter (countsLayers model.modelArch)).getLast? = some list ∧
        ∀ name ∈ model.root.namedParameters, isRefModel name = false →
          isVision model.modelArch name = false → isLanguageModel model.modelArch name = true →
            HasGroup decimal batches list.2.children.length name

/-! ## The number of layers -/

variable {modelArch : Option MultiModelKeys}

theorem countLayer_eq (named : ∀ keys, modelArch = some keys → keys.languageModel ≠ [])
    (count : Option ℕ) (module : Text × Module) :
    countLayer modelArch count module =
      .ok (if countsLayers modelArch module then some module.2.children.length else count) := by
  unfold countLayer countsLayers
  cases module.2.isModuleList with
  | false => rfl
  | true =>
    cases modelArch with
    | none => rfl
    | some keys =>
      cases isParts : keys.languageModel with
      | nil => exact absurd isParts (named keys rfl)
      | cons llm others =>
        cases vision : keys.isVision module.1 with
        | true => simp [isVision, vision]
        | false =>
          cases language : hasPart llm (stripBaseModel module.1) <;>
            simp [isVision, isLanguageModel, vision, isParts, language]

/-- The length of the last list that counts is the number of layers. -/
theorem foldlM_countLayer (named : ∀ keys, modelArch = some keys → keys.languageModel ≠ [])
    (modules : List (Text × Module)) (count : Option ℕ) :
    modules.foldlM (countLayer modelArch) count =
      .ok (((modules.filter (countsLayers modelArch)).getLast?.map fun list =>
        list.2.children.length).or count) := by
  induction modules generalizing count with
  | nil => rfl
  | cons first rest ih =>
    rw [foldlM_cons, countLayer_eq named]
    change rest.foldlM (countLayer modelArch) _ = _
    rw [ih]
    cases counts : countsLayers modelArch first with
    | false => rw [filter_cons_of_neg (by simp [counts]), if_neg Bool.false_ne_true]
    | true =>
      rw [filter_cons_of_pos counts, if_pos rfl]
      cases isLast : (rest.filter (countsLayers modelArch)).getLast? with
      | none =>
        rw [getLast?_eq_none_iff.mp isLast]
        rfl
      | some last =>
        rw [getLast?_cons, isLast]
        rfl

theorem foldlM_countLayer_unnamed {keys : MultiModelKeys} (unnamed : keys.languageModel = [])
    {modules : List (Text × Module)} {count : Option ℕ} {result : Option ℕ}
    (isOk : modules.foldlM (countLayer (some keys)) count = .ok result) : result = count := by
  induction modules generalizing count with
  | nil =>
    cases isOk
    rfl
  | cons first rest ih =>
    rw [foldlM_cons] at isOk
    obtain ⟨next, isNext, isOk⟩ := bind_eq_ok.mp isOk
    have same : next = count := by
      unfold countLayer at isNext
      dsimp only at isNext
      rw [unnamed] at isNext
      split at isNext
      · split at isNext
        · cases isNext
          rfl
        · cases isNext
      · cases isNext
        rfl
    rw [← same]
    exact ih isOk

/-- A list counts if its architecture names a part for the language model. -/
theorem named_of_countsLayers {module : Text × Module}
    (counts : countsLayers modelArch module = true) :
    ∀ keys, modelArch = some keys → keys.languageModel ≠ [] := by
  rintro keys rfl unnamed
  simp [countsLayers, isLanguageModel, unnamed] at counts

variable {model : Model} {count : ℕ}

/-- The number of layers is the length of the last list that counts. -/
theorem layerCount_eq_some :
    layerCount model = .ok (some count) ↔ ∃ list,
      (model.root.namedModules.filter (countsLayers model.modelArch)).getLast? = some list ∧
        count = list.2.children.length := by
  by_cases named : ∀ keys, model.modelArch = some keys → keys.languageModel ≠ []
  · rw [layerCount, foldlM_countLayer named, Option.or_none, Except.ok.injEq,
      Option.map_eq_some_iff]
    exact exists_congr fun list => and_congr_right fun _ => eq_comm
  · push Not at named
    obtain ⟨keys, isKeys, unnamed⟩ := named
    constructor
    · intro isOk
      rw [layerCount, isKeys] at isOk
      exact absurd (foldlM_countLayer_unnamed unnamed isOk) (Option.some_ne_none count)
    · rintro ⟨list, isLast, -⟩
      have counts := of_mem_filter (mem_of_getLast? isLast)
      exact absurd unnamed (named_of_countsLayers counts keys isKeys)

/-! ## The place of a parameter -/

variable {batches : ℤ}

theorem nLayers_nonneg (count : ℕ) (positive : 0 < batches) : 0 ≤ nLayers batches count := by
  have small : -(count : ℤ) / batches < 1 := Int.ediv_lt_of_lt_mul positive (by omega)
  rw [nLayers, Int.fdiv_eq_ediv_of_nonneg _ (Int.le_of_lt positive)]
  omega

/-- A group is there if its index is not too large. -/
theorem groupAt_ok {size : ℕ} {group : ℤ} (nonnegative : 0 ≤ group) :
    (∃ place, groupAt size group = .ok place) ↔ group < size := by
  unfold groupAt
  by_cases inside : 0 ≤ group ∧ group < size
  · rw [if_pos inside]
    exact iff_of_true ⟨_, rfl⟩ inside.2
  · rw [if_neg inside, if_neg (by omega)]
    refine iff_of_false (by rintro ⟨place, isOk⟩; cases isOk) (by omega)

theorem groupAt_zero (group : ℤ) : groupAt 0 group = .error .indexError := by
  unfold groupAt
  rw [if_neg (by omega), if_neg (by omega)]

variable {decimal : Char → Option ℕ} {name : Text}

/-- A parameter of the language model has a place if its number is that of a group. -/
theorem splitLlm_ok :
    (∃ place, splitLlm decimal batches (nLayers batches count) name = .ok place) ↔
      HasGroup decimal batches count name := by
  unfold splitLlm HasGroup
  cases layerDigits decimal name with
  | none => exact iff_of_true ⟨_, rfl⟩ nofun
  | some digits =>
    have one : (∀ digits', some digits = some digits' → digits'.length ≤ 4300 ∧
        0 < batches ∧ digitsValue digits' < batches * nLayers batches count) ↔
        digits.length ≤ 4300 ∧ 0 < batches ∧
          (digitsValue digits : ℤ) < batches * nLayers batches count := by
      constructor
      · exact fun each => each digits rfl
      · rintro each digits' same
        cases same
        exact each
    rw [one]
    dsimp only
    unfold intOf
    by_cases long : 4300 < digits.length
    · rw [if_pos long]
      exact iff_of_false (by rintro ⟨place, isOk⟩; cases isOk) (by omega)
    rw [if_neg long]
    change (∃ place, (if nLayers batches count = 0 then _ else _) = Except.ok place) ↔ _
    by_cases positive : 0 < batches
    · have nonnegative := nLayers_nonneg count positive
      by_cases noLayers : nLayers batches count = 0
      · rw [if_pos noLayers, noLayers, Int.mul_zero]
        exact iff_of_false (by rintro ⟨place, isOk⟩; cases isOk) (by omega)
      · rw [if_neg noLayers, Int.fdiv_eq_ediv_of_nonneg _ nonnegative,
          groupAt_ok (Int.ediv_nonneg (Int.natCast_nonneg _) nonnegative),
          Int.toNat_of_nonneg (Int.le_of_lt positive), Int.ediv_lt_iff_lt_mul (by omega)]
        omega
    · have noGroups : batches.toNat = 0 := by omega
      rw [noGroups, groupAt_zero]
      refine iff_of_false ?_ (by omega)
      rintro ⟨place, isOk⟩
      split at isOk <;> cases isOk

/-- Where a parameter has a place: one of the language model needs a group. -/
theorem placeOf_ok (named : ∀ keys, model.modelArch = some keys → keys.languageModel ≠ []) :
    (∃ place, placeOf decimal model batches (nLayers batches count) name = .ok place) ↔
      (isVision model.modelArch name = false → isLanguageModel model.modelArch name = true →
        HasGroup decimal batches count name) := by
  unfold placeOf
  cases isArch : model.modelArch with
  | none =>
    rw [splitLlm_ok]
    exact ⟨fun hasGroup _ _ => hasGroup, fun each => each rfl rfl⟩
  | some keys =>
    dsimp only
    cases isParts : keys.languageModel with
    | nil => exact absurd isParts (named keys isArch)
    | cons llm others =>
      cases vision : keys.isVision name with
      | true => exact iff_of_true ⟨_, rfl⟩ (by simp [isVision, vision])
      | false =>
        rw [if_neg Bool.false_ne_true]
        dsimp only
        cases language : hasPart llm name with
        | false =>
          rw [if_neg Bool.false_ne_true]
          exact iff_of_true ⟨_, rfl⟩ (by simp [isLanguageModel, isParts, language])
        | true =>
          rw [if_pos rfl, splitLlm_ok]
          simp [isVision, isLanguageModel, vision, isParts, language]

/-! ## Filling the groups -/

def Groups.names (groups : Groups) : List Text :=
  groups.parameters.flatten ++ (groups.llmEmbeds ++ groups.nonLlmParameters)

variable {group : ℕ}

theorem flatten_modify {groups : List (List Text)} (inside : group < groups.length) (name : Text) :
    (groups.modify group (· ++ [name])).flatten.Perm (name :: groups.flatten) := by
  induction groups generalizing group with
  | nil => exact absurd inside (Nat.not_lt_zero _)
  | cons first rest ih =>
    cases group with
    | zero =>
      rw [modify_zero_cons, flatten_cons, flatten_cons, append_assoc]
      exact perm_middle
    | succ group =>
      rw [modify_succ_cons, flatten_cons, flatten_cons]
      exact ((ih (Nat.lt_of_succ_lt_succ inside)).append_left first).trans perm_middle

theorem groupAt_lt {size : ℕ} {index : ℤ} (isOk : groupAt size index = .ok (.layer group)) :
    group < size := by
  unfold groupAt at isOk
  split at isOk
  · cases isOk
    omega
  · split at isOk
    · cases isOk
      omega
    · cases isOk

variable {layers : ℤ}

theorem placeOf_lt (isOk : placeOf decimal model batches layers name = .ok (.layer group)) :
    group < batches.toNat := by
  have language : ∀ {name : Text}, splitLlm decimal batches layers name = .ok (.layer group) →
      group < batches.toNat := by
    intro name isOk
    unfold splitLlm at isOk
    split at isOk
    · cases isOk
    · obtain ⟨number, -, isOk⟩ := bind_eq_ok.mp isOk
      split at isOk
      · cases isOk
      · exact groupAt_lt isOk
  unfold placeOf at isOk
  split at isOk
  · exact language isOk
  · split at isOk
    · cases isOk
    · split at isOk
      · cases isOk
      · split at isOk
        · exact language isOk
        · cases isOk

variable {groups : Groups}

/-- One step: a name is added to the names of the groups, and no group is lost. -/
theorem append_names {place : Place}
    (inside : ∀ group, place = .layer group → group < groups.parameters.length) :
    (groups.append name place).names.Perm (name :: groups.names) ∧
      (groups.append name place).parameters.length = groups.parameters.length := by
  cases place with
  | layer group =>
    refine ⟨?_, length_modify _ _ _⟩
    exact (flatten_modify (inside group rfl) name).append_right _
  | embeds =>
    refine ⟨?_, rfl⟩
    have moved : ((groups.parameters.flatten ++ groups.llmEmbeds) ++
        name :: groups.nonLlmParameters).Perm
          (name :: ((groups.parameters.flatten ++ groups.llmEmbeds) ++
            groups.nonLlmParameters)) := perm_middle
    simpa only [Groups.names, Groups.append, append_assoc, singleton_append] using moved
  | other =>
    refine ⟨?_, rfl⟩
    simp only [Groups.names, Groups.append, ← append_assoc]
    exact perm_append_singleton _ _

theorem placeParameter_ok {groups' : Groups}
    (isOk : placeParameter decimal model batches layers groups name = .ok groups')
    (length : groups.parameters.length = batches.toNat) :
    groups'.names.Perm ([name].filter (fun name => !isRefModel name) ++ groups.names) ∧
      groups'.parameters.length = batches.toNat := by
  unfold placeParameter at isOk
  split at isOk
  · rename_i isRef
    cases isOk
    rw [filter_cons_of_neg (by simp [isRef])]
    exact ⟨List.Perm.refl _, length⟩
  · rename_i notRef
    obtain ⟨place, isPlace, rfl⟩ := map_eq_ok.mp isOk
    have inside : ∀ group, place = .layer group → group < groups.parameters.length := by
      rintro group rfl
      rw [length]
      exact placeOf_lt isPlace
    rw [filter_cons_of_pos (by simp [notRef])]
    exact ⟨(append_names inside).1, (append_names inside).2.trans length⟩

/-- A whole run: the groups have the names of all parameters that are not of the reference
model. -/
theorem foldlM_placeParameter {names : List Text} {groups' : Groups}
    (isOk : names.foldlM (placeParameter decimal model batches layers) groups = .ok groups')
    (length : groups.parameters.length = batches.toNat) :
    groups'.names.Perm (names.filter (fun name => !isRefModel name) ++ groups.names) := by
  induction names generalizing groups with
  | nil =>
    cases isOk
    exact List.Perm.refl _
  | cons name rest ih =>
    rw [foldlM_cons] at isOk
    obtain ⟨next, isNext, isOk⟩ := bind_eq_ok.mp isOk
    obtain ⟨names, length'⟩ := placeParameter_ok isNext length
    have later := ih isOk length'
    rw [← singleton_append, filter_append, append_assoc]
    exact later.trans ((names.append_left _).trans (perm_append_comm_assoc _ _ _))

/-- A run succeeds if every step does. -/
theorem foldlM_placeParameter_ok (names : List Text) (groups : Groups) :
    (∃ groups', names.foldlM (placeParameter decimal model batches layers) groups = .ok groups') ↔
      ∀ name ∈ names, isRefModel name = false →
        ∃ place, placeOf decimal model batches layers name = .ok place := by
  induction names generalizing groups with
  | nil => exact iff_of_true ⟨groups, rfl⟩ nofun
  | cons name rest ih =>
    rw [foldlM_cons, forall_mem_cons]
    constructor
    · rintro ⟨groups', isOk⟩
      obtain ⟨next, isNext, isOk⟩ := bind_eq_ok.mp isOk
      refine ⟨fun notRef => ?_, (ih next).mp ⟨groups', isOk⟩⟩
      rw [placeParameter, if_neg (by simp [notRef])] at isNext
      obtain ⟨place, isPlace, -⟩ := map_eq_ok.mp isNext
      exact ⟨place, isPlace⟩
    · rintro ⟨first, later⟩
      obtain ⟨next, isNext⟩ : ∃ next,
          placeParameter decimal model batches layers groups name = .ok next := by
        unfold placeParameter
        split
        · exact ⟨groups, rfl⟩
        · rename_i notRef
          obtain ⟨place, isPlace⟩ := first (Bool.eq_false_iff.mpr notRef)
          exact ⟨_, map_eq_ok.mpr ⟨place, isPlace, rfl⟩⟩
      obtain ⟨groups', isOk⟩ := (ih next).mpr later
      exact ⟨groups', bind_eq_ok.mpr ⟨next, isNext, isOk⟩⟩

theorem flatten_nonempty (groups : Groups) : groups.nonempty.flatten = groups.names := by
  rw [Groups.nonempty, flatten_filter_not_isEmpty]
  simp [Groups.names]

/-- Names that are those of the parameters, in any order, have every parameter once. -/
theorem transfersOnce_of_perm {groups : List (List Text)}
    (names : groups.flatten.Perm (model.root.namedParameters.filter fun name => !isRefModel name)) :
    TransfersOnce model groups := by
  intro name isName notRef
  rw [names.count_eq]
  refine count_eq_one_of_mem ((nodup_namedParameters model).filter _) ?_
  exact mem_filter.mpr ⟨isName, by simp [notRef]⟩

/-- A split that succeeds gives every parameter to one group. -/
theorem transfersOnce_of_ok {moveModelBatches : Option ℤ} {rolloutEnableLora : Bool}
    {batches : Batches}
    (isOk : splitBatches decimal model moveModelBatches rolloutEnableLora = .ok batches) :
    TransfersOnce model batches.1 := by
  unfold splitBatches at isOk
  split at isOk
  · cases isOk
    apply transfersOnce_of_perm
    simp
  · obtain ⟨count, -, isOk⟩ := bind_eq_ok.mp isOk
    split at isOk
    · cases isOk
    · split at isOk
      · cases isOk
      · obtain ⟨groups, filled, isOk⟩ := bind_eq_ok.mp isOk
        cases isOk
        apply transfersOnce_of_perm
        rw [flatten_nonempty]
        have names := foldlM_placeParameter filled (length_replicate)
        simpa [Groups.names] using names

/-! ## The result -/

/-- **The weights can be split** exactly where every numbered parameter has a group. -/
theorem splitsOnce_iff (decimal : Char → Option ℕ) (model : Model) (moveModelBatches : Option ℤ)
    (rolloutEnableLora : Bool) :
    SplitsOnce decimal model moveModelBatches rolloutEnableLora ↔
      Splittable decimal model moveModelBatches := by
  have succeeds : SplitsOnce decimal model moveModelBatches rolloutEnableLora ↔
      ∃ batches, splitBatches decimal model moveModelBatches rolloutEnableLora = .ok batches :=
    exists_congr fun batches => and_iff_left_of_imp transfersOnce_of_ok
  rw [succeeds]
  cases moveModelBatches with
  | none => exact iff_of_true ⟨_, rfl⟩ trivial
  | some batches =>
    have places : ∀ list,
        (model.root.namedModules.filter (countsLayers model.modelArch)).getLast? = some list →
          ((∃ groups, model.root.namedParameters.foldlM
            (placeParameter decimal model batches (nLayers batches list.2.children.length))
            ⟨List.replicate batches.toNat [], [], []⟩ = .ok groups) ↔
          ∀ name ∈ model.root.namedParameters, isRefModel name = false →
            isVision model.modelArch name = false → isLanguageModel model.modelArch name = true →
              HasGroup decimal batches list.2.children.length name) := by
      intro list isLast
      have named := named_of_countsLayers (of_mem_filter (mem_of_getLast? isLast))
      rw [foldlM_placeParameter_ok]
      exact forall₂_congr fun name _ => imp_congr_right fun _ => placeOf_ok named
    constructor
    · rintro ⟨result, isOk⟩
      obtain ⟨count, isCount, isOk⟩ := bind_eq_ok.mp isOk
      cases count with
      | none => cases isOk
      | some count =>
        obtain ⟨list, isLast, rfl⟩ := layerCount_eq_some.mp isCount
        dsimp only at isOk
        split at isOk
        · cases isOk
        · rename_i notZero
          obtain ⟨groups, filled, -⟩ := bind_eq_ok.mp isOk
          exact ⟨notZero, list, isLast, (places list isLast).mp ⟨groups, filled⟩⟩
    · rintro ⟨notZero, list, isLast, hasGroups⟩
      obtain ⟨groups, filled⟩ := (places list isLast).mpr hasGroups
      have isCount := layerCount_eq_some.mpr ⟨list, isLast, rfl⟩
      refine ⟨(groups.nonempty, groups.nonempty.map fun group =>
        some (removeLoraAndPrefix rolloutEnableLora group)),
        bind_eq_ok.mpr ⟨some list.2.children.length, isCount, ?_⟩⟩
      dsimp only
      rw [if_neg notZero]
      exact bind_eq_ok.mpr ⟨groups, filled, rfl⟩

/-! ## A mixture of experts -/

def asciiDecimal (char : Char) : Option ℕ :=
  if char.isDigit then some (char.toNat - '0'.toNat) else none

def expertLayer (index : Text) : Module :=
  .mk index false [] [.mk "experts".toList true []
    [.mk ['0'] false ["weight".toList] [], .mk ['1'] false ["weight".toList] []]]

/-- Four layers with two experts each. -/
def mixtureOfExperts : Model where
  root := .mk [] false [] [.mk "layers".toList true []
    [expertLayer ['0'], expertLayer ['1'], expertLayer ['2'], expertLayer ['3']]]
  registers := by decide +kernel
  modelArch := none

/-- **Two groups for four layers of two experts**: the third layer has no group. -/
theorem experts_not_split :
    ¬ ∀ (decimal : Char → Option ℕ) (model : Model) (moveModelBatches : Option ℤ)
      (rolloutEnableLora : Bool),
        SplitsOnce decimal model moveModelBatches rolloutEnableLora := by
  intro always
  have fails : splitBatches asciiDecimal mixtureOfExperts (some 2) false = .error .indexError := by
    decide +kernel
  obtain ⟨batches, isOk, -⟩ := always asciiDecimal mixtureOfExperts (some 2) false
  rw [fails] at isOk
  cases isOk

end Geobench.Rollout
