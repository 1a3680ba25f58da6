import Geobench.DataClean.SavedSamples
import Geobench.Library.Deviation
import Geobench.Library.Ranking

/-!
# Probabilities of the items and their selection

The samples of all models are put together again by item, and each item gets the statistics of its
rewards. Its value is high when its mean is near the middle and its rewards differ, and the values
are scaled to probabilities. Items are then drawn without replacement, with random keys.

**`computeProbabilities_laws`** collects what holds of the records for all rewards. The rewards of a
record are in the order of the samples. In the percentile mode items with the same deviation are
ranked by their places, so that the records follow a new order of the items only when the
deviations are different. The selection has as many items as it should for a count that is not
negative.
-/

namespace Geobench.DataClean

open Library List

/-! ## Numbers -/

/-- The functions on numbers that are used. `argsort` leaves equal numbers in any order. -/
structure Numpy (K : Type) [Field K] [LinearOrder K] where
  exp : K → K
  log : K → K
  sqrt : K → K
  argsort : List K → List ℕ
  argsortOrder : List ℕ → List ℕ
  exp_nonneg : ∀ number, 0 ≤ exp number
  exp_le_one : ∀ number, number ≤ 0 → exp number ≤ 1
  one_le_exp : ∀ number, 0 ≤ number → 1 ≤ exp number
  sqrt_nonneg : ∀ number, 0 ≤ sqrt number
  isArgsort : ∀ numbers, IsArgsort numbers (argsort numbers)
  isArgsort_order : ∀ order, IsArgsort order (argsortOrder order)

inductive VarianceMode where
  | expStd
  | percentile
  deriving DecidableEq

/-- The arguments of the script. -/
structure SelectionArgs (K : Type) [Field K] [LinearOrder K] where
  midTarget : Option K
  tauMu : K
  tauSigma : K
  epsilon : K
  epsilon_pos : 0 < epsilon
  varianceMode : VarianceMode

structure ScoredSample (K : Type) where
  itemId : CodePoints
  reward : K

/-- The record of an item. -/
structure ImageStat (K : Type) where
  item : DatasetItem
  numSamples : ℕ
  rewardMean : K
  rewardStd : K
  rewardMin : K
  rewardMax : K
  sampleRewards : List K
  sMid : K
  sVar : K
  value : K
  probability : K

section Selection

variable {K : Type} [Field K] [LinearOrder K]

/-! ## The records -/

/-- The rewards by item. A sample of no item raises. -/
def rewardsByItem (items : List DatasetItem) (samples : List (ScoredSample K)) :
    Option (List (CodePoints × List K)) :=
  samples.foldlM
    (fun rewards sample =>
      if sample.itemId ∈ rewards.map Prod.fst then
        some (append rewards sample.itemId sample.reward)
      else none)
    (storeAll (items.map fun item => (item.itemId, [])))

def meanOf (rewards : List K) : K := if rewards = [] then 0 else mean rewards

variable (np : Numpy K)

/-- `np.std` -/
def Numpy.std (values : List K) : K := np.sqrt (mean (squaredDistances values))

def stdOf (rewards : List K) : K := if rewards = [] then 0 else np.std rewards

variable (args : SelectionArgs K)

def sMid (mus : List K) (mu : K) : K :=
  let mMu := args.midTarget.getD (mean mus)
  let sMu := np.std mus
  np.exp (-(mu - mMu) ^ 2 / (2 * (args.tauMu * sMu) ^ 2 + args.epsilon))

/-- The divisor of the deviations in the mode `exp_std`. -/
def sigmaScale (sigmas : List K) : K := args.tauSigma * np.std sigmas + args.epsilon

/-- The rank of a place, as a part of 1. -/
def percentileAt (sigmas : List K) (place : ℕ) : K :=
  ((np.argsortOrder (np.argsort sigmas)).getD place 0 : ℕ) / max 1 ((sigmas.length - 1 : ℕ) : K)

def sVar (sigmas : List K) (place : ℕ) (sigma : K) : K :=
  match args.varianceMode with
  | .expStd => 1 - np.exp (-sigma / sigmaScale np args sigmas)
  | .percentile => percentileAt np sigmas place

def probabilityOf (values : List K) (value : K) : K :=
  if values.sum ≤ 0 then 1 / max 1 (values.length : K) else value / values.sum

def valueAtPlace (mus sigmas : List K) (place : ℕ) (rewards : List K) : K :=
  sMid np args mus (meanOf rewards) * sVar np args sigmas place (stdOf np rewards)

def imageStat (mus sigmas values : List K) (place : ℕ) (entry : DatasetItem × List K) :
    ImageStat K :=
  let rewards := entry.2
  { item := entry.1
    numSamples := rewards.length
    rewardMean := meanOf rewards
    rewardStd := stdOf np rewards
    rewardMin := rewards.min?.getD 0
    rewardMax := rewards.max?.getD 0
    sampleRewards := rewards
    sMid := sMid np args mus (meanOf rewards)
    sVar := sVar np args sigmas place (stdOf np rewards)
    value := valueAtPlace np args mus sigmas place rewards
    probability := probabilityOf values (valueAtPlace np args mus sigmas place rewards) }

/-- The records of the items with their rewards. A division by 0 raises. -/
def imageStats (entries : List (DatasetItem × List K)) : Option (List (ImageStat K)) :=
  let mus := entries.map fun entry => meanOf entry.2
  let sigmas := entries.map fun entry => stdOf np entry.2
  if args.varianceMode = .expStd ∧ sigmaScale np args sigmas = 0 then none
  else
    let values := entries.zipIdx.map fun placed =>
      valueAtPlace np args mus sigmas placed.2 placed.1.2
    some (entries.zipIdx.map fun placed => imageStat np args mus sigmas values placed.2 placed.1)

def computeProbabilities (items : List DatasetItem) (samples : List (ScoredSample K)) :
    Option (List (ImageStat K)) :=
  (rewardsByItem items samples).bind fun rewards =>
    imageStats np args (items.map fun item => (item, column rewards item.itemId))

/-! ## The selection -/

/-- `1e-12` -/
def tiny : K := 1 / 1000000000000

/-- The logarithm of the probability and a Gumbel number. -/
def selectionScore (random : K) (probability : K) : K :=
  let prob := max probability tiny
  let u := min (max random tiny) (1 - tiny)
  let gumbel := -np.log (-np.log u)
  np.log prob + gumbel

/-- `weighted_sample_without_replacement`, with the random numbers that come of the seed. -/
def weightedSampleWithoutReplacement (random : ℕ → K) (stats : List (ImageStat K))
    (keepCount : ℤ) : List (ImageStat K) :=
  if stats.length ≤ keepCount then stats
  else
    let keys := stats.zipIdx.map fun placed =>
      (selectionScore np (random placed.2) placed.1.probability, placed.1)
    let sorted := keys.mergeSort fun first second => decide (second.1 ≤ first.1)
    (signedSlice sorted 0 keepCount).map Prod.snd

/-- What `save_run_outputs` writes about the selection: the records with their flags, and the
numbers of the summary. -/
structure RunOutputs (K : Type) where
  selection : List (ImageStat K × Bool)
  numItems : ℕ
  numSamples : ℕ
  numSelected : ℕ

def saveRunOutputs (items : List DatasetItem) (samples : List (ScoredSample K))
    (imageStats selectedStats : List (ImageStat K)) : RunOutputs K where
  selection := imageStats.map fun stat =>
    (stat, decide (stat.item.itemId ∈ selectedStats.map fun selected => selected.item.itemId))
  numItems := items.length
  numSamples := samples.length
  numSelected := selectedStats.length

/-! ## The rewards of an item -/

def ownRewards (samples : List (ScoredSample K)) (itemId : CodePoints) : List K :=
  (samples.filter (·.itemId = itemId)).map ScoredSample.reward

/-- Every sample is one of an item. -/
def OfItems (items : List DatasetItem) (samples : List (ScoredSample K)) : Prop :=
  ∀ sample ∈ samples, sample.itemId ∈ items.map DatasetItem.itemId

variable {samples : List (ScoredSample K)}

omit [Field K] [LinearOrder K] in
theorem foldlM_append_eq_some {columns : List (CodePoints × List K)}
    (known : ∀ sample ∈ samples, sample.itemId ∈ columns.map Prod.fst) :
    ∃ rewards, samples.foldlM
        (fun rewards sample =>
          if sample.itemId ∈ rewards.map Prod.fst then
            some (append rewards sample.itemId sample.reward)
          else none) columns = some rewards ∧
      ∀ itemId, column rewards itemId = column columns itemId ++ ownRewards samples itemId := by
  induction samples generalizing columns with
  | nil => exact ⟨columns, rfl, fun itemId => (append_nil _).symm⟩
  | cons sample rest ih =>
    have isKnown := known sample mem_cons_self
    have keys : (append columns sample.itemId sample.reward).map Prod.fst =
        columns.map Prod.fst := by
      rw [Library.keys_append, if_pos isKnown, append_nil]
    obtain ⟨rewards, isRest, columnsOf⟩ := @ih (append columns sample.itemId sample.reward)
      (by rw [keys]; exact fun other isOther => known other (mem_cons_of_mem _ isOther))
    refine ⟨rewards, ?_, fun itemId => ?_⟩
    · rw [foldlM_cons, if_pos isKnown]
      exact isRest
    · rw [columnsOf, column_append, append_assoc]
      congr 1
      by_cases same : itemId = sample.itemId
      · rw [if_pos same, ownRewards, ownRewards, filter_cons_of_pos (by simp [same])]
        rfl
      · rw [if_neg same, ownRewards, ownRewards, filter_cons_of_neg (by simpa using Ne.symm same)]
        rfl

omit [Field K] [LinearOrder K] in
theorem rewardsByItem_eq_some {items : List DatasetItem}
    (different : (items.map DatasetItem.itemId).Nodup) (known : OfItems items samples) :
    ∃ rewards, rewardsByItem items samples = some rewards ∧
      ∀ item ∈ items, column rewards item.itemId = ownRewards samples item.itemId := by
  have keys : (items.map fun item => (item.itemId, ([] : List K))).map Prod.fst =
      items.map DatasetItem.itemId := by
    rw [map_map]
    rfl
  rw [rewardsByItem, storeAll_of_nodup (by rwa [keys])]
  obtain ⟨rewards, isSome, columnsOf⟩ := @foldlM_append_eq_some K samples
    (items.map fun item => (item.itemId, ([] : List K))) (by rw [keys]; exact known)
  refine ⟨rewards, isSome, fun item isItem => ?_⟩
  rw [columnsOf, column_eq_of_mem (by rwa [keys]) (mem_map_of_mem isItem), nil_append]

def entriesOf (items : List DatasetItem) (samples : List (ScoredSample K)) :
    List (DatasetItem × List K) :=
  items.map fun item => (item, ownRewards samples item.itemId)

theorem computeProbabilities_eq {items : List DatasetItem}
    (different : (items.map DatasetItem.itemId).Nodup) (known : OfItems items samples) :
    computeProbabilities np args items samples = imageStats np args (entriesOf items samples) := by
  obtain ⟨rewards, isSome, columnsOf⟩ := rewardsByItem_eq_some different known
  have same : (items.map fun item => (item, column rewards item.itemId)) =
      entriesOf items samples :=
    map_congr_left fun item isItem => by rw [columnsOf item isItem]
  rw [computeProbabilities, isSome, Option.bind_some, same]

/-! ## Probabilities -/

section Probabilities

variable [IsStrictOrderedRing K]

omit [IsStrictOrderedRing K] in
theorem stdOf_nonneg (rewards : List K) : 0 ≤ stdOf np rewards := by
  rw [stdOf]
  split
  · exact le_refl 0
  · exact np.sqrt_nonneg _

/-- The scores of the deviations all have one sign, that of their divisor. -/
theorem sVar_signs (sigmas : List K) :
    (∀ place sigma, 0 ≤ sigma → 0 ≤ sVar np args sigmas place sigma) ∨
      ∀ place sigma, 0 ≤ sigma → sVar np args sigmas place sigma ≤ 0 := by
  unfold sVar
  cases args.varianceMode with
  | percentile =>
    refine .inl fun place _ _ => ?_
    exact div_nonneg (Nat.cast_nonneg _) (le_trans zero_le_one (le_max_left _ _))
  | expStd =>
    rcases le_total 0 (sigmaScale np args sigmas) with nonneg | nonpos
    · refine .inl fun _ sigma isNonneg => sub_nonneg.mpr (np.exp_le_one _ ?_)
      exact div_nonpos_of_nonpos_of_nonneg (neg_nonpos.mpr isNonneg) nonneg
    · refine .inr fun _ sigma isNonneg => sub_nonpos.mpr (np.one_le_exp _ ?_)
      exact div_nonneg_of_nonpos (neg_nonpos.mpr isNonneg) nonpos

theorem values_signs (mus sigmas : List K) (entries : List ((DatasetItem × List K) × ℕ)) :
    (∀ value ∈ entries.map fun placed => valueAtPlace np args mus sigmas placed.2 placed.1.2,
        0 ≤ value) ∨
      ∀ value ∈ entries.map fun placed => valueAtPlace np args mus sigmas placed.2 placed.1.2,
        value ≤ 0 := by
  rcases sVar_signs np args sigmas with nonneg | nonpos
  · refine .inl fun value isValue => ?_
    obtain ⟨placed, -, rfl⟩ := mem_map.mp isValue
    exact mul_nonneg (np.exp_nonneg _) (nonneg _ _ (stdOf_nonneg np _))
  · refine .inr fun value isValue => ?_
    obtain ⟨placed, -, rfl⟩ := mem_map.mp isValue
    exact mul_nonpos_of_nonneg_of_nonpos (np.exp_nonneg _) (nonpos _ _ (stdOf_nonneg np _))

theorem probabilityOf_nonneg {values : List K}
    (signs : (∀ value ∈ values, 0 ≤ value) ∨ ∀ value ∈ values, value ≤ 0) {value : K}
    (isValue : value ∈ values) : 0 ≤ probabilityOf values value := by
  rw [probabilityOf]
  split
  · exact div_nonneg zero_le_one (le_trans zero_le_one (le_max_left _ _))
  · rename_i positive
    have positive := not_le.mp positive
    rcases signs with nonneg | nonpos
    · exact div_nonneg (nonneg value isValue) positive.le
    · have atMost := sum_le_card_nsmul values 0 nonpos
      rw [smul_zero] at atMost
      exact absurd atMost (not_le.mpr positive)

theorem sum_probabilityOf {values : List K} (some : values ≠ []) :
    (values.map (probabilityOf values)).sum = 1 := by
  by_cases nonpos : values.sum ≤ 0
  · have one_le : (1 : K) ≤ values.length := Nat.one_le_cast.mpr (length_pos_iff.mpr some)
    have same : values.map (probabilityOf values) =
        replicate values.length (1 / (values.length : K)) := by
      rw [← map_const']
      refine map_congr_left fun value _ => ?_
      rw [probabilityOf, if_pos nonpos, max_eq_right one_le]
    rw [same, sum_replicate, nsmul_eq_mul, mul_one_div_cancel (by linarith)]
  · have same : values.map (probabilityOf values) = values.map (· * values.sum⁻¹) := by
      refine map_congr_left fun value _ => ?_
      rw [probabilityOf, if_neg nonpos, div_eq_mul_inv]
    rw [same, sum_map_mul_right, map_id']
    exact mul_inv_cancel₀ (not_le.mp nonpos).ne'

end Probabilities

/-! ## The order of the samples -/

/-- The records differ at most in the order of their rewards. -/
structure SameUpToOrder (first second : ImageStat K) : Prop where
  rewards : first.sampleRewards.Perm second.sampleRewards
  others : { first with sampleRewards := [] } = { second with sampleRewards := [] }

variable {first second : List K}

omit [Field K] in
theorem min?_perm (rearranged : first.Perm second) : first.min? = second.min? := by
  cases isMin : first.min? with
  | none =>
    rw [min?_eq_none_iff.mp isMin, nil_perm] at rearranged
    rw [rearranged]
    rfl
  | some least =>
    obtain ⟨isMember, below⟩ := min?_eq_some_iff.mp isMin
    exact (min?_eq_some_iff.mpr ⟨rearranged.mem_iff.mp isMember,
      fun value isValue => below value (rearranged.mem_iff.mpr isValue)⟩).symm

omit [Field K] in
theorem max?_perm (rearranged : first.Perm second) : first.max? = second.max? := by
  cases isMax : first.max? with
  | none =>
    rw [max?_eq_none_iff.mp isMax, nil_perm] at rearranged
    rw [rearranged]
    rfl
  | some greatest =>
    obtain ⟨isMember, above⟩ := max?_eq_some_iff.mp isMax
    exact (max?_eq_some_iff.mpr ⟨rearranged.mem_iff.mp isMember,
      fun value isValue => above value (rearranged.mem_iff.mpr isValue)⟩).symm

omit [Field K] [LinearOrder K] in
theorem isEmpty_perm (rearranged : first.Perm second) : first = [] ↔ second = [] := by
  rw [← length_eq_zero_iff, ← length_eq_zero_iff, rearranged.length_eq]

omit [LinearOrder K] in
theorem meanOf_perm (rearranged : first.Perm second) : meanOf first = meanOf second := by
  simp only [meanOf, isEmpty_perm rearranged, mean_perm rearranged]

theorem std_perm (rearranged : first.Perm second) : np.std first = np.std second := by
  rw [Numpy.std, Numpy.std, mean_perm (squaredDistances_perm rearranged)]

theorem stdOf_perm (rearranged : first.Perm second) : stdOf np first = stdOf np second := by
  simp only [stdOf, isEmpty_perm rearranged, std_perm np rearranged]

omit [Field K] [LinearOrder K] in
theorem ownRewards_perm {others : List (ScoredSample K)} (rearranged : samples.Perm others)
    (itemId : CodePoints) : (ownRewards samples itemId).Perm (ownRewards others itemId) :=
  (rearranged.filter _).map _

variable {others : List K}

theorem sameUpToOrder_imageStat (mus sigmas values : List K) (place : ℕ) (item : DatasetItem)
    {rewards : List K} (rearranged : rewards.Perm others) :
    SameUpToOrder (imageStat np args mus sigmas values place (item, rewards))
      (imageStat np args mus sigmas values place (item, others)) where
  rewards := rearranged
  others := by
    simp only [imageStat, valueAtPlace, meanOf_perm rearranged, stdOf_perm np rearranged,
      min?_perm rearranged, max?_perm rearranged, rearranged.length_eq]

/-- The records of rearranged samples differ at most in the order of their rewards. -/
theorem imageStats_rearranged (items : List DatasetItem) {others : List (ScoredSample K)}
    (rearranged : samples.Perm others) :
    Option.Rel (List.Forall₂ SameUpToOrder) (imageStats np args (entriesOf items samples))
      (imageStats np args (entriesOf items others)) := by
  have own := ownRewards_perm rearranged
  have mus : (entriesOf items samples).map (fun entry => meanOf entry.2) =
      (entriesOf items others).map fun entry => meanOf entry.2 := by
    rw [entriesOf, entriesOf, map_map, map_map]
    exact map_congr_left fun item _ => meanOf_perm (own item.itemId)
  have sigmas : (entriesOf items samples).map (fun entry => stdOf np entry.2) =
      (entriesOf items others).map fun entry => stdOf np entry.2 := by
    rw [entriesOf, entriesOf, map_map, map_map]
    exact map_congr_left fun item _ => stdOf_perm np (own item.itemId)
  unfold imageStats
  rw [mus, sigmas]
  dsimp only
  generalize (entriesOf items others).map (fun entry => meanOf entry.2) = mus
  generalize (entriesOf items others).map (fun entry => stdOf np entry.2) = sigmas
  split
  · exact .none
  · have values : (entriesOf items samples).zipIdx.map (fun placed =>
          valueAtPlace np args mus sigmas placed.2 placed.1.2) =
        (entriesOf items others).zipIdx.map fun placed =>
          valueAtPlace np args mus sigmas placed.2 placed.1.2 := by
      rw [entriesOf, entriesOf, zipIdx_map, zipIdx_map, map_map, map_map]
      refine map_congr_left fun placed _ => ?_
      change valueAtPlace np args mus sigmas placed.2 (ownRewards samples placed.1.itemId) =
        valueAtPlace np args mus sigmas placed.2 (ownRewards others placed.1.itemId)
      rw [valueAtPlace, valueAtPlace, meanOf_perm (own placed.1.itemId),
        stdOf_perm np (own placed.1.itemId)]
    rw [values]
    generalize (entriesOf items others).zipIdx.map (fun placed =>
      valueAtPlace np args mus sigmas placed.2 placed.1.2) = values
    rw [entriesOf, entriesOf, zipIdx_map, zipIdx_map, map_map, map_map]
    refine .some (forall₂_map_left_iff.mpr (forall₂_map_right_iff.mpr
      (forall₂_same.mpr fun placed _ => ?_)))
    exact sameUpToOrder_imageStat np args mus sigmas _ placed.2 placed.1 (own placed.1.itemId)

/-! ## The order of the items -/

/-- The score of a deviation, by its value alone. -/
def sVarOf (sigmas : List K) (sigma : K) : K :=
  match args.varianceMode with
  | .expStd => 1 - np.exp (-sigma / sigmaScale np args sigmas)
  | .percentile => (sigmas.countP (· < sigma) : ℕ) / max 1 ((sigmas.length - 1 : ℕ) : K)

/-- Ranks do not depend on places. -/
def Ranked (sigmas : List K) : Prop := args.varianceMode = .expStd ∨ sigmas.Nodup

variable {sigmas : List K}

theorem sVar_eq_sVarOf (ranked : Ranked args sigmas) {place : ℕ} {sigma : K}
    (isSigma : sigmas[place]? = some sigma) :
    sVar np args sigmas place sigma = sVarOf np args sigmas sigma := by
  rw [sVar, sVarOf]
  cases isMode : args.varianceMode with
  | expStd => rfl
  | percentile =>
    have different : sigmas.Nodup := by
      rcases ranked with isOther | different
      · rw [isMode] at isOther
        cases isOther
      · exact different
    obtain ⟨inside, isSigma⟩ := List.getElem?_eq_some_iff.mp isSigma
    have rank := rank_eq_countP (np.isArgsort sigmas) (np.isArgsort_order _) different inside
    dsimp only
    rw [percentileAt, rank, getD_eq_getElem _ _ inside, isSigma]

theorem sVarOf_perm (rearranged : sigmas.Perm others) (sigma : K) :
    sVarOf np args sigmas sigma = sVarOf np args others sigma := by
  rw [sVarOf, sVarOf, sigmaScale, sigmaScale, std_perm np rearranged, rearranged.countP_eq,
    rearranged.length_eq]

def valueOf (mus sigmas : List K) (entry : DatasetItem × List K) : K :=
  sMid np args mus (meanOf entry.2) * sVarOf np args sigmas (stdOf np entry.2)

/-- The record of an entry, wherever it stands. -/
def statOf (mus sigmas values : List K) (entry : DatasetItem × List K) : ImageStat K :=
  let value := valueOf np args mus sigmas entry
  { imageStat np args mus sigmas values 0 entry with
    sVar := sVarOf np args sigmas (stdOf np entry.2)
    value := value
    probability := probabilityOf values value }

variable {entries : List (DatasetItem × List K)}

omit [Field K] [LinearOrder K] in
/-- A list with its places, of which the places make no difference. -/
theorem map_zipIdx_eq_map {β : Type} {f : (DatasetItem × List K) × ℕ → β}
    {g : DatasetItem × List K → β}
    (agree : ∀ place entry, entries[place]? = some entry → f (entry, place) = g entry) :
    entries.zipIdx.map f = entries.map g := by
  refine ext_getElem? fun place => ?_
  rw [getElem?_map, getElem?_zipIdx, getElem?_map, Nat.zero_add, Option.map_map]
  cases isEntry : entries[place]? with
  | none => rfl
  | some entry => exact congrArg some (agree place entry isEntry)

/-- Records that do not depend on places. -/
theorem imageStats_eq_map (entries : List (DatasetItem × List K))
    (ranked : Ranked args (entries.map fun entry => stdOf np entry.2)) :
    imageStats np args entries =
      if args.varianceMode = .expStd ∧
          sigmaScale np args (entries.map fun entry => stdOf np entry.2) = 0 then none
      else
        some (entries.map (statOf np args (entries.map fun entry => meanOf entry.2)
          (entries.map fun entry => stdOf np entry.2)
          (entries.map (valueOf np args (entries.map fun entry => meanOf entry.2)
            (entries.map fun entry => stdOf np entry.2))))) := by
  have score {place : ℕ} {entry : DatasetItem × List K} (isEntry : entries[place]? = some entry) :
      sVar np args (entries.map fun entry => stdOf np entry.2) place (stdOf np entry.2) =
        sVarOf np args (entries.map fun entry => stdOf np entry.2) (stdOf np entry.2) :=
    sVar_eq_sVarOf np args ranked (by rw [getElem?_map, isEntry, Option.map_some])
  unfold imageStats
  dsimp only
  generalize entries.map (fun entry => meanOf entry.2) = mus
  generalize entries.map (fun entry => stdOf np entry.2) = sigmas at score ⊢
  have values : entries.zipIdx.map (fun placed =>
        valueAtPlace np args mus sigmas placed.2 placed.1.2) =
      entries.map (valueOf np args mus sigmas) :=
    map_zipIdx_eq_map fun place entry isEntry => by
      rw [valueAtPlace, valueOf, score isEntry]
  rw [values]
  generalize entries.map (valueOf np args mus sigmas) = values
  have records : entries.zipIdx.map (fun placed =>
        imageStat np args mus sigmas values placed.2 placed.1) =
      entries.map (statOf np args mus sigmas values) :=
    map_zipIdx_eq_map fun place entry isEntry => by
      simp only [imageStat, statOf, valueAtPlace, valueOf, score isEntry]
  rw [records]

variable {mus : List K}

theorem sMid_perm (rearranged : mus.Perm others) (mu : K) :
    sMid np args mus mu = sMid np args others mu := by
  rw [sMid, sMid, mean_perm rearranged, std_perm np rearranged]

omit np args in
theorem probabilityOf_perm {values : List K} (rearranged : values.Perm others) (value : K) :
    probabilityOf values value = probabilityOf others value := by
  rw [probabilityOf, probabilityOf, rearranged.sum_eq, rearranged.length_eq]

theorem valueOf_perm {otherMus otherSigmas : List K} (sameMus : mus.Perm otherMus)
    (sameSigmas : sigmas.Perm otherSigmas) :
    valueOf np args mus sigmas = valueOf np args otherMus otherSigmas := by
  funext entry
  rw [valueOf, valueOf, sMid_perm np args sameMus, sVarOf_perm np args sameSigmas]

theorem statOf_perm {otherMus otherSigmas values otherValues : List K} (sameMus : mus.Perm otherMus)
    (sameSigmas : sigmas.Perm otherSigmas) (sameValues : values.Perm otherValues) :
    statOf np args mus sigmas values = statOf np args otherMus otherSigmas otherValues := by
  funext entry
  simp only [statOf, imageStat, valueOf_perm np args sameMus sameSigmas,
    sMid_perm np args sameMus, sVarOf_perm np args sameSigmas, probabilityOf_perm sameValues]

/-- The records of rearranged items are rearranged, when ranks do not depend on places. -/
theorem imageStats_perm {others : List (DatasetItem × List K)} (rearranged : others.Perm entries)
    (ranked : Ranked args (entries.map fun entry => stdOf np entry.2)) :
    Option.Rel List.Perm (imageStats np args others) (imageStats np args entries) := by
  have mus := rearranged.map fun entry => meanOf entry.2
  have sigmas := rearranged.map fun entry => stdOf np entry.2
  have rankedOthers : Ranked args (others.map fun entry => stdOf np entry.2) :=
    ranked.imp_right sigmas.nodup_iff.mpr
  rw [imageStats_eq_map np args others rankedOthers, imageStats_eq_map np args entries ranked]
  generalize others.map (fun entry => meanOf entry.2) = otherMus at mus ⊢
  generalize others.map (fun entry => stdOf np entry.2) = otherSigmas at sigmas ⊢
  generalize entries.map (fun entry => meanOf entry.2) = mus' at mus ⊢
  generalize entries.map (fun entry => stdOf np entry.2) = sigmas' at sigmas ⊢
  have scale : sigmaScale np args otherSigmas = sigmaScale np args sigmas' := by
    rw [sigmaScale, sigmaScale, std_perm np sigmas]
  have value := valueOf_perm np args mus sigmas
  have values : (others.map (valueOf np args otherMus otherSigmas)).Perm
      (entries.map (valueOf np args mus' sigmas')) := by
    rw [value]
    exact rearranged.map _
  rw [scale, statOf_perm np args mus sigmas values]
  split
  · exact .none
  · exact .some (rearranged.map _)

/-! ## The selected items -/

def itemIds (stats : List (ImageStat K)) : List CodePoints := stats.map fun stat => stat.item.itemId

/-- The selection has as many records as it should, which are some of the records. -/
theorem weightedSample_subperm (random : ℕ → K) (stats : List (ImageStat K)) (keepCount : ℕ) :
    (weightedSampleWithoutReplacement np random stats keepCount).length =
        min keepCount stats.length ∧
      (weightedSampleWithoutReplacement np random stats keepCount).Subperm stats := by
  rw [weightedSampleWithoutReplacement]
  by_cases all : stats.length ≤ keepCount
  · rw [if_pos (Int.ofNat_le.mpr all), Nat.min_eq_right all]
    exact ⟨rfl, List.Subperm.refl stats⟩
  · rw [if_neg (fun isLe => all (Int.ofNat_le.mp isLe))]
    dsimp only
    generalize isKeys : (stats.zipIdx.map fun placed =>
      (selectionScore np (random placed.2) placed.1.probability, placed.1)) = keys
    have values : keys.map Prod.snd = stats := by
      rw [← isKeys, map_map]
      exact zipIdx_map_fst 0 stats
    have rearranged := mergeSort_perm keys fun first second => decide (second.1 ≤ first.1)
    generalize (keys.mergeSort fun first second => decide (second.1 ≤ first.1)) = sorted
      at rearranged ⊢
    have length : sorted.length = stats.length := by
      rw [rearranged.length_eq, ← isKeys, length_map, length_zipIdx]
    have first : signedSlice sorted 0 keepCount = sorted.take keepCount :=
      signedSlice_natCast sorted (Nat.zero_le _) (by omega)
    rw [first]
    refine ⟨?_, ?_⟩
    · rw [length_map, length_take, length]
    · have sub := ((take_sublist keepCount sorted).map Prod.snd).subperm
      exact sub.trans (values ▸ (rearranged.map Prod.snd).subperm)

/-- As many of different items are among some of them as there are of these. -/
theorem countP_mem {κ : Type} [DecidableEq κ] {items selected : List κ} (different : items.Nodup)
    (within : selected.Subperm items) :
    items.countP (fun item => decide (item ∈ selected)) = selected.length := by
  obtain ⟨part, rearranged, sublist⟩ := within
  have nodup : selected.Nodup := rearranged.nodup_iff.mp (different.sublist sublist)
  have same : (items.filter fun item => decide (item ∈ selected)).Perm selected := by
    rw [perm_ext_iff_of_nodup (different.filter _) nodup]
    intro item
    rw [mem_filter, decide_eq_true_eq, and_iff_right_iff_imp]
    exact fun isSelected => sublist.subset (rearranged.mem_iff.mpr isSelected)
  rw [countP_eq_length_filter, same.length_eq]

omit [Field K] [LinearOrder K] in
/-- The flags agree with the count of the summary. -/
theorem countP_selection (items : List DatasetItem) (samples : List (ScoredSample K))
    {stats selected : List (ImageStat K)} (different : (itemIds stats).Nodup)
    (within : selected.Subperm stats) :
    (saveRunOutputs items samples stats selected).selection.countP (fun flagged => flagged.2) =
      (saveRunOutputs items samples stats selected).numSelected := by
  have sub : (itemIds selected).Subperm (itemIds stats) := by
    obtain ⟨part, rearranged, sublist⟩ := within
    exact ⟨itemIds part, rearranged.map _, sublist.map _⟩
  have count := countP_mem different sub
  rw [itemIds, itemIds, countP_map, length_map] at count
  simpa [saveRunOutputs, countP_map, Function.comp_def] using count

/-! ## All together -/

/-- The statistics of a record are those of the rewards. -/
structure StatsOf (rewards : List K) (stat : ImageStat K) : Prop where
  numSamples : stat.numSamples = rewards.length
  rewardMean : stat.rewardMean = meanOf rewards
  rewardStd : stat.rewardStd = stdOf np rewards
  rewardMin : stat.rewardMin = rewards.min?.getD 0
  rewardMax : stat.rewardMax = rewards.max?.getD 0
  sampleRewards : stat.sampleRewards = rewards

/-- What holds of the records of items with their samples, and of every selection of them. -/
structure SelectionLaws (items : List DatasetItem) (samples : List (ScoredSample K))
    (records : List (ImageStat K)) : Prop where
  own : List.Forall₂ (fun item record => record.item = item ∧
    StatsOf np (ownRewards samples item.itemId) record) items records
  nonneg : ∀ record ∈ records, 0 ≤ record.probability
  sum : (records.map ImageStat.probability).sum = 1
  rearrangedSamples : ∀ others : List (ScoredSample K), others.Perm samples →
    ∃ otherRecords, computeProbabilities np args items others = some otherRecords ∧
      List.Forall₂ SameUpToOrder otherRecords records
  rearrangedItems : ∀ others : List DatasetItem, others.Perm items →
    Ranked args (records.map ImageStat.rewardStd) →
      ∃ otherRecords, computeProbabilities np args others samples = some otherRecords ∧
        otherRecords.Perm records
  selected : ∀ (random : ℕ → K) (keepCount : ℕ),
    let selected := weightedSampleWithoutReplacement np random records keepCount
    selected.length = min keepCount items.length ∧ selected.Subperm records ∧
      (itemIds selected).Nodup ∧
      (saveRunOutputs items samples records selected).selection.countP (fun flagged => flagged.2) =
        (saveRunOutputs items samples records selected).numSelected

variable {records : List (ImageStat K)}

theorem imageStats_eq_some (isSome : imageStats np args entries = some records) :
    ∃ mus sigmas : List K, records = entries.zipIdx.map fun placed =>
      imageStat np args mus sigmas (entries.zipIdx.map fun placed =>
        valueAtPlace np args mus sigmas placed.2 placed.1.2) placed.2 placed.1 := by
  unfold imageStats at isSome
  dsimp only at isSome
  split at isSome
  · cases isSome
  · cases isSome
    exact ⟨_, _, rfl⟩

theorem forall₂_imageStats (isSome : imageStats np args entries = some records) :
    List.Forall₂ (fun entry record => record.item = entry.1 ∧ StatsOf np entry.2 record) entries
      records := by
  obtain ⟨mus, sigmas, rfl⟩ := imageStats_eq_some np args isSome
  generalize (entries.zipIdx.map fun placed =>
    valueAtPlace np args mus sigmas placed.2 placed.1.2) = values
  have ownEntries : entries = entries.zipIdx.map Prod.fst := (zipIdx_map_fst 0 entries).symm
  rw [forall₂_map_right_iff]
  nth_rewrite 1 [ownEntries]
  rw [forall₂_map_left_iff, forall₂_same]
  exact fun placed _ => ⟨rfl, rfl, rfl, rfl, rfl, rfl, rfl⟩

variable [IsStrictOrderedRing K]

/-- Only a negative `tau_sigma` can make the divisor 0. -/
theorem sigmaScale_pos (nonneg : 0 ≤ args.tauSigma) (sigmas : List K) :
    0 < sigmaScale np args sigmas :=
  add_pos_of_nonneg_of_pos (mul_nonneg nonneg (np.sqrt_nonneg _)) args.epsilon_pos

theorem isSome_imageStats (usable : args.varianceMode = .percentile ∨ 0 ≤ args.tauSigma)
    (entries : List (DatasetItem × List K)) : (imageStats np args entries).isSome := by
  have noRaise : ¬ (args.varianceMode = .expStd ∧
      sigmaScale np args (entries.map fun entry => stdOf np entry.2) = 0) := by
    rintro ⟨isExpStd, isZero⟩
    rcases usable with isPercentile | nonneg
    · rw [isExpStd] at isPercentile
      cases isPercentile
    · exact (sigmaScale_pos np args nonneg _).ne' isZero
  rw [imageStats, if_neg noRaise]
  rfl

theorem probabilities_of_imageStats (isSome : imageStats np args entries = some records)
    (some : entries ≠ []) :
    (∀ record ∈ records, 0 ≤ record.probability) ∧
      (records.map ImageStat.probability).sum = 1 := by
  obtain ⟨mus, sigmas, rfl⟩ := imageStats_eq_some np args isSome
  have signs := values_signs np args mus sigmas entries.zipIdx
  generalize isValues : (entries.zipIdx.map fun placed =>
    valueAtPlace np args mus sigmas placed.2 placed.1.2) = values at signs ⊢
  constructor
  · intro record isRecord
    obtain ⟨placed, isPlaced, rfl⟩ := mem_map.mp isRecord
    refine probabilityOf_nonneg signs ?_
    rw [← isValues]
    exact mem_map_of_mem isPlaced
  · have probabilities : (entries.zipIdx.map fun placed =>
          imageStat np args mus sigmas values placed.2 placed.1).map ImageStat.probability =
        values.map (probabilityOf values) := by
      have asValues := congrArg (map (probabilityOf values)) isValues
      rw [map_map] at asValues ⊢
      exact asValues
    have someValues : values ≠ [] := by
      rw [← isValues]
      simpa using some
    rw [probabilities, sum_probabilityOf someValues]

omit [IsStrictOrderedRing K] [Field K] [LinearOrder K] np args in
theorem exists_of_rel_some {R : List (ImageStat K) → List (ImageStat K) → Prop}
    {found : Option (List (ImageStat K))} (related : Option.Rel R found (some records)) :
    ∃ others, found = some others ∧ R others records := by
  cases related with
  | some holds => exact ⟨_, rfl, holds⟩

/-- **The records of items with different ids and of any of their samples follow the laws**, and
they are there unless a negative `tau_sigma` makes a divisor 0. -/
theorem computeProbabilities_laws {items : List DatasetItem} (some : items ≠ [])
    (different : (items.map DatasetItem.itemId).Nodup) {samples : List (ScoredSample K)}
    (known : OfItems items samples) :
    (args.varianceMode = .percentile ∨ 0 ≤ args.tauSigma →
      (computeProbabilities np args items samples).isSome) ∧
    ∀ records, computeProbabilities np args items samples = Option.some records →
      SelectionLaws np args items samples records := by
  have computed := computeProbabilities_eq np args different known
  rw [computed]
  refine ⟨fun usable => isSome_imageStats np args usable _, fun records isSome => ?_⟩
  have own := forall₂_imageStats np args isSome
  have ownItems : List.Forall₂ (fun item record => record.item = item ∧
      StatsOf np (ownRewards samples item.itemId) record) items records := by
    rw [entriesOf, forall₂_map_left_iff] at own
    exact own
  have ids : itemIds records = items.map DatasetItem.itemId :=
    (map_eq_of_forall₂ ownItems fun item record both => by rw [both.1]).symm
  have stds : records.map ImageStat.rewardStd =
      (entriesOf items samples).map fun entry => stdOf np entry.2 :=
    (map_eq_of_forall₂ own fun entry record both => both.2.rewardStd.symm).symm
  have someEntries : entriesOf items samples ≠ [] := by
    simpa [entriesOf] using some
  have probabilities := probabilities_of_imageStats np args isSome someEntries
  refine ⟨ownItems, probabilities.1, probabilities.2, fun others rearranged => ?_,
    fun others rearranged ranked => ?_, fun random keepCount => ?_⟩
  · have knownOthers : OfItems items others := fun sample isSample =>
      known sample (rearranged.mem_iff.mp isSample)
    have related := imageStats_rearranged np args items rearranged
    rw [isSome] at related
    rw [computeProbabilities_eq np args different knownOthers]
    exact exists_of_rel_some related
  · have ids := rearranged.map DatasetItem.itemId
    have knownOthers : OfItems others samples := fun sample isSample =>
      ids.mem_iff.mpr (known sample isSample)
    have related := imageStats_perm np args (rearranged.map fun item =>
      (item, ownRewards samples item.itemId)) (stds ▸ ranked)
    rw [← entriesOf, ← entriesOf, isSome] at related
    rw [computeProbabilities_eq np args (ids.nodup_iff.mpr different) knownOthers]
    exact exists_of_rel_some related
  · obtain ⟨length, sub⟩ := weightedSample_subperm np random records keepCount
    have differentRecords : (itemIds records).Nodup := ids ▸ different
    refine ⟨by rw [length, ownItems.length_eq], sub, ?_,
      countP_selection items samples differentRecords sub⟩
    obtain ⟨part, rearranged, sublist⟩ := sub
    exact (rearranged.map _).nodup_iff.mp (differentRecords.sublist (sublist.map _))

end Selection

/-! ## Two items -/

def fewRoots : Numpy ℚ where
  exp _ := 1
  log _ := 0
  sqrt number := if number = 1 / 4 then 1 / 2 else if number = 1 / 16 then 1 / 4 else 0
  argsort := stableArgsort
  argsortOrder := stableArgsort
  exp_nonneg _ := zero_le_one
  exp_le_one _ _ := le_refl 1
  one_le_exp _ _ := le_refl 1
  sqrt_nonneg _ := by
    split
    · norm_num
    · split <;> norm_num
  isArgsort := isArgsort_stableArgsort
  isArgsort_order := isArgsort_stableArgsort

def plainArgs (tauSigma : ℚ) (varianceMode : VarianceMode) : SelectionArgs ℚ where
  midTarget := none
  tauMu := 1
  tauSigma := tauSigma
  epsilon := 1 / 4
  epsilon_pos := by norm_num
  varianceMode := varianceMode

def imageNamed (itemId : CodePoints) : DatasetItem where
  itemId := itemId
  imagePath := itemId
  relativePath := itemId
  gtText := .none
  gtLatitude := .none
  gtLongitude := .none

def twoImages : List DatasetItem := [imageNamed [97], imageNamed [98]]

def twoSamples : List (ScoredSample ℚ) := [⟨[98], 0⟩, ⟨[98], 1⟩]

theorem computeProbabilities_laws_twoImages :
    ((plainArgs 1 .percentile).varianceMode = .percentile ∨ 0 ≤ (plainArgs 1 .percentile).tauSigma →
      (computeProbabilities fewRoots (plainArgs 1 .percentile) twoImages twoSamples).isSome) ∧
    ∀ records,
      computeProbabilities fewRoots (plainArgs 1 .percentile) twoImages twoSamples = some records →
      SelectionLaws fewRoots (plainArgs 1 .percentile) twoImages twoSamples records :=
  computeProbabilities_laws fewRoots (plainArgs 1 .percentile) (by decide) (by decide)
    (by simp [OfItems, twoSamples, twoImages, imageNamed])

/-- What a record says of its rewards. -/
def rewardsIn (records : Option (List (ImageStat ℚ))) : Option (List (List ℚ)) :=
  records.map fun records => records.map ImageStat.sampleRewards

/-- What a record says of its deviation. -/
def scoresIn (records : List (ImageStat ℚ)) : List (CodePoints × ℚ) :=
  records.map fun record => (record.item.itemId, record.sVar)

/-- **Why the laws say no more**: the rewards of a record follow the order of the samples, equal
deviations are ranked by place, a negative count is counted from the end, and a negative
`tau_sigma` can make a divisor 0. -/
theorem orders_and_signs_matter :
    (¬ ∀ (args : SelectionArgs ℚ) (items : List DatasetItem)
        (samples others : List (ScoredSample ℚ)), others.Perm samples →
        computeProbabilities fewRoots args items others =
          computeProbabilities fewRoots args items samples) ∧
      (¬ ∀ (args : SelectionArgs ℚ) (items others : List DatasetItem)
        (samples : List (ScoredSample ℚ)) (records otherRecords : List (ImageStat ℚ)),
        others.Perm items → computeProbabilities fewRoots args items samples = some records →
        computeProbabilities fewRoots args others samples = some otherRecords →
          otherRecords.Perm records) ∧
      (¬ ∀ (random : ℕ → ℚ) (stats : List (ImageStat ℚ)) (keepCount : ℤ),
        ((weightedSampleWithoutReplacement fewRoots random stats keepCount).length : ℤ) =
          min keepCount stats.length) ∧
      ¬ ∀ args : SelectionArgs ℚ,
        (computeProbabilities fewRoots args twoImages twoSamples).isSome := by
  refine ⟨fun same => ?_, fun rearranges => ?_, fun counts => ?_, fun succeeds => ?_⟩
  · have agree := same (plainArgs 1 .percentile) twoImages twoSamples twoSamples.reverse
      (reverse_perm _)
    have inOrder : rewardsIn (computeProbabilities fewRoots (plainArgs 1 .percentile) twoImages
        twoSamples) = some [[], [0, 1]] := by decide +kernel
    have reversed : rewardsIn (computeProbabilities fewRoots (plainArgs 1 .percentile) twoImages
        twoSamples.reverse) = some [[], [1, 0]] := by decide +kernel
    rw [agree, inOrder] at reversed
    exact absurd reversed (by decide)
  · have inOrder : (computeProbabilities fewRoots (plainArgs 1 .percentile) twoImages []).map
        scoresIn = some [([97], 0), ([98], 1)] := by decide +kernel
    have reversed : (computeProbabilities fewRoots (plainArgs 1 .percentile) twoImages.reverse
        []).map scoresIn = some [([98], 0), ([97], 1)] := by decide +kernel
    obtain ⟨records, isSome, scores⟩ := Option.map_eq_some_iff.mp inOrder
    obtain ⟨otherRecords, isOther, otherScores⟩ := Option.map_eq_some_iff.mp reversed
    have rearranged := (rearranges _ _ _ _ _ _ (reverse_perm _) isSome isOther).map
      fun record => (record.item.itemId, record.sVar)
    rw [← scoresIn, ← scoresIn, scores, otherScores] at rearranged
    exact absurd (rearranged.mem_iff.mp mem_cons_self) (by decide)
  · have negative := counts (fun _ => 0) [] (-1)
    exact absurd negative (by rw [length_nil]; omega)
  · have raises : (computeProbabilities fewRoots (plainArgs (-1) .expStd) twoImages
        twoSamples).isSome = false := by decide +kernel
    rw [succeeds] at raises
    cases raises

end Geobench.DataClean
