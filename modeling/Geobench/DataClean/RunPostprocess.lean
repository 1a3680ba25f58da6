import Geobench.DataClean.GroupSelection
import Geobench.Library.Splicing

/-!
# Runs that are scored again

A finished run is scored again from the mean, the deviation and the maximum of the rewards of each
image. Each statistic is replaced by its rank among all images, and the ranks are combined. A row
that does not pass a hard filter has the value 0. From the values come probabilities, and either
the rows with the largest values or random ones are selected.

**`postprocess_topk`**: as many rows are selected as should be, and none is left out whose value is
larger than that of one that is selected. So no row that does not pass the filters is preferred to
one that does and has a positive value.
-/

namespace Geobench.DataClean

open Library List

/-! ## Rows and arguments -/

/-- Powers of numbers that are not negative. -/
structure Power (K : Type) [Field K] [LinearOrder K] where
  pow : K → K → K
  pow_nonneg : ∀ base exponent, 0 ≤ base → 0 ≤ pow base exponent
  pow_mono : ∀ base other exponent, 0 ≤ base → base ≤ other → 0 ≤ exponent →
    pow base exponent ≤ pow other exponent

inductive CombineMode where
  | product
  | sum

inductive Statistic where
  | mean
  | std
  | max
  deriving DecidableEq

/-- A row of `image_stats.jsonl`. A reward that is missing counts as 0. -/
structure RunStat (ι K : Type) where
  itemId : ι
  rewardMean : Option K
  rewardStd : Option K
  rewardMax : Option K

structure PostprocessArgs (K : Type) where
  combineMode : CombineMode
  includeMeanScore : Bool
  meanWeight : K
  stdWeight : K
  maxWeight : K
  minRewardMean : Option K
  minRewardStd : Option K
  minRewardMax : Option K

structure ProcessedRow (ι K : Type) where
  row : RunStat ι K
  meanScore : K
  stdScore : K
  maxScore : K
  scoreFilterPass : Bool
  value : K
  probability : K

def PostprocessArgs.weight {K : Type} (args : PostprocessArgs K) : Statistic → K
  | .mean => args.meanWeight
  | .std => args.stdWeight
  | .max => args.maxWeight

def PostprocessArgs.threshold {K : Type} (args : PostprocessArgs K) : Statistic → Option K
  | .mean => args.minRewardMean
  | .std => args.minRewardStd
  | .max => args.minRewardMax

def PostprocessArgs.activeComponents {K : Type} (args : PostprocessArgs K) : List Statistic :=
  if args.includeMeanScore then [.mean, .std, .max] else [.std, .max]

section Values

variable {ι K : Type} [Field K] [LinearOrder K]

def RunStat.reward (row : RunStat ι K) : Statistic → K
  | .mean => row.rewardMean.getD 0
  | .std => row.rewardStd.getD 0
  | .max => row.rewardMax.getD 0

/-- `percentile_ranks` -/
def percentileRanks (values : List K) : List K :=
  (stableArgsort (stableArgsort values)).map fun rank : ℕ =>
    (rank : K) / max 1 ((values.length - 1 : ℕ) : K)

def scoreAt (rows : List (RunStat ι K)) (place : ℕ) (statistic : Statistic) : K :=
  (percentileRanks (rows.map fun row => row.reward statistic)).getD place 0

/-! ## Values -/

variable (power : Power K) (args : PostprocessArgs K)

/-- A power, where 0 with a negative exponent raises. -/
def Power.raised (base exponent : K) : Option K :=
  if base = 0 ∧ exponent < 0 then none else some (power.pow base exponent)

/-- A reward is not below its threshold, if there is one. -/
def PostprocessArgs.reaches (row : RunStat ι K) (statistic : Statistic) : Bool :=
  (args.threshold statistic).all fun threshold => decide (threshold ≤ row.reward statistic)

def PostprocessArgs.passes (row : RunStat ι K) : Bool :=
  args.reaches row .mean && args.reaches row .std && args.reaches row .max

/-- The scores combined, in the mode of the arguments. -/
def combine (score : Statistic → K) : Option K :=
  match args.combineMode with
  | .product => args.activeComponents.foldlM (fun value statistic =>
    (power.raised (score statistic) (args.weight statistic)).map (value * ·)) 1
  | .sum =>
    let totalWeight := (args.activeComponents.map args.weight).sum
    let weightedSum := (args.activeComponents.map fun statistic =>
      score statistic * args.weight statistic).sum
    some (if 0 < totalWeight then weightedSum / totalWeight else 0)

def valueAtRow (rows : List (RunStat ι K)) (place : ℕ) (row : RunStat ι K) : Option K :=
  if args.passes row then combine power args (scoreAt rows place) else some 0

def runValues (rows : List (RunStat ι K)) : Option (List K) :=
  rows.zipIdx.mapM fun placed => valueAtRow power args rows placed.2 placed.1

/-- The rows with their scores, values and probabilities, in the order of the run. -/
def processedRows (rows : List (RunStat ι K)) : Option (List (ProcessedRow ι K)) :=
  (runValues power args rows).map fun values =>
    (rows.zipIdx.zip values).map fun entry =>
      { row := entry.1.1
        meanScore := scoreAt rows entry.1.2 .mean
        stdScore := scoreAt rows entry.1.2 .std
        maxScore := scoreAt rows entry.1.2 .max
        scoreFilterPass := args.passes entry.1.1
        value := entry.2
        probability := probabilityOf values entry.2 }

/-! ## The selection -/

/-- Where a count of rows to keep can be given. -/
structure KeepCounts where
  argument : Option ℤ
  runConfig : Option ℤ
  summary : Option ℤ

/-- `resolve_keep_count` -/
def KeepCounts.resolve (counts : KeepCounts) (numItems : ℕ) : ℤ :=
  match counts.argument, counts.runConfig, counts.summary with
  | some count, _, _ => min count numItems
  | none, some count, _ => min count numItems
  | none, none, some count => min count numItems
  | none, none, none => numItems

/-- `weighted_sample_without_replacement` for these rows. -/
def weightedRows (np : Numpy K) (random : ℕ → K) (rows : List (ProcessedRow ι K))
    (keepCount : ℤ) : List (ProcessedRow ι K) :=
  if rows.length ≤ keepCount then rows
  else
    let scored := rows.zipIdx.map fun placed =>
      (selectionScore np (random placed.2) placed.1.probability, placed.1)
    let sorted := scored.insertionSort fun first second => second.1 ≤ first.1
    (signedSlice sorted 0 keepCount).map Prod.snd

variable (str : ι → CodePoints)

/-- The order of value, probability and the id as a text. -/
def keyLe (first second : ProcessedRow ι K) : Bool :=
  decide (first.value < second.value ∨ first.value = second.value ∧
    (first.probability < second.probability ∨ first.probability = second.probability ∧
      str first.row.itemId ≤ str second.row.itemId))

/-- The rows from the largest key on. Equal rows stay in their order. -/
def topkOrder (rows : List (ProcessedRow ι K)) : List (ProcessedRow ι K) :=
  rows.insertionSort fun first second => keyLe str second first = true

variable (np : Numpy K) (random : ℕ → K) (mode : SelectionMode) (counts : KeepCounts)

def selectRows (rows : List (ProcessedRow ι K)) : List (ProcessedRow ι K) :=
  let keepCount := counts.resolve rows.length
  match mode with
  | .weighted => weightedRows np random rows keepCount
  | .topk => signedSlice (topkOrder str rows) 0 keepCount

/-- The rows that are written, with their flags. A run without rows raises. -/
def postprocess [DecidableEq ι] (rows : List (RunStat ι K)) :
    Option (List (ProcessedRow ι K × Bool)) :=
  if rows = [] then none
  else (processedRows power args rows).map fun processed =>
    let selected := selectRows str np random mode counts processed
    let selectedIds := selected.map fun row : ProcessedRow ι K => row.row.itemId
    (processed.map fun row => (row, decide (row.row.itemId ∈ selectedIds))).insertionSort
      fun first second => second.1.probability ≤ first.1.probability

/-! ## The values of the rows -/

section Laws

variable {power args} {rows : List (RunStat ι K)}

/-- The scores combined, where nothing raises. -/
def combined (power : Power K) (args : PostprocessArgs K) (score : Statistic → K) : K :=
  match args.combineMode with
  | .product => (args.activeComponents.map fun statistic =>
    power.pow (score statistic) (args.weight statistic)).prod
  | .sum =>
    let totalWeight := (args.activeComponents.map args.weight).sum
    let weightedSum := (args.activeComponents.map fun statistic =>
      score statistic * args.weight statistic).sum
    if 0 < totalWeight then weightedSum / totalWeight else 0

theorem combine_eq (weights : ∀ statistic, 0 ≤ args.weight statistic) (score : Statistic → K) :
    combine power args score = some (combined power args score) := by
  have run : ∀ (statistics : List Statistic) (start : K),
      statistics.foldlM (fun value statistic =>
        (power.raised (score statistic) (args.weight statistic)).map (value * ·)) start =
          some (start * (statistics.map fun statistic =>
            power.pow (score statistic) (args.weight statistic)).prod) := by
    intro statistics
    induction statistics with
    | nil => exact fun start => congrArg some (mul_one start).symm
    | cons statistic rest ih =>
      intro start
      have raised : power.raised (score statistic) (args.weight statistic) =
          some (power.pow (score statistic) (args.weight statistic)) :=
        if_neg fun zero => not_lt.mpr (weights statistic) zero.2
      rw [foldlM_cons, raised, map_cons, prod_cons, ← mul_assoc]
      exact ih _
  rw [combine, combined]
  cases args.combineMode with
  | product => exact (run _ 1).trans (congrArg some (one_mul _))
  | sum => rfl

/-- The value of a row at a place, where nothing raises. -/
def rowValue (power : Power K) (args : PostprocessArgs K) (rows : List (RunStat ι K))
    (place : ℕ) (row : RunStat ι K) : K :=
  if args.passes row then combined power args (scoreAt rows place) else 0

/-- Without negative weights nothing raises. -/
theorem runValues_eq (weights : ∀ statistic, 0 ≤ args.weight statistic)
    (rows : List (RunStat ι K)) : runValues power args rows =
      some (rows.zipIdx.map fun placed => rowValue power args rows placed.2 placed.1) := by
  refine mapM_eq_some fun placed _ => ?_
  rw [valueAtRow, rowValue]
  split
  · exact combine_eq weights _
  · rfl

theorem length_runValues {values : List K} (areValues : runValues power args rows = some values) :
    values.length = rows.length := by
  have length := (mapM_eq_some_iff.mp areValues).length_eq
  rw [length_zipIdx] at length
  exact length.symm

theorem map_row_processedRows {processed : List (ProcessedRow ι K)}
    (isProcessed : processedRows power args rows = some processed) :
    processed.map ProcessedRow.row = rows := by
  obtain ⟨values, areValues, rfl⟩ := Option.map_eq_some_iff.mp isProcessed
  have length := length_runValues areValues
  have first : (rows.zipIdx.zip values).map Prod.fst = rows.zipIdx :=
    map_fst_zip (by rw [length_zipIdx, length])
  have kept : (rows.zipIdx.zip values).map (fun entry => entry.1.1) =
      ((rows.zipIdx.zip values).map Prod.fst).map Prod.fst := by
    rw [map_map]
    rfl
  rw [map_map]
  refine kept.trans ?_
  rw [first]
  exact zipIdx_map_fst 0 rows

theorem value_of_not_passes {processed : List (ProcessedRow ι K)}
    (isProcessed : processedRows power args rows = some processed) {row : ProcessedRow ι K}
    (isRow : row ∈ processed) :
    row.scoreFilterPass = args.passes row.row ∧ (row.scoreFilterPass = false → row.value = 0) := by
  obtain ⟨values, areValues, rfl⟩ := Option.map_eq_some_iff.mp isProcessed
  obtain ⟨entry, isEntry, rfl⟩ := mem_map.mp isRow
  refine ⟨rfl, fun fails => ?_⟩
  have related := forall₂_zip (mapM_eq_some_iff.mp areValues) isEntry
  dsimp only at fails
  rw [valueAtRow, fails] at related
  exact (Option.some.inj related).symm

/-! ## The order of the rows -/

section Order

variable (str : ι → CodePoints)

def keyOf (row : ProcessedRow ι K) : K ×ₗ (K ×ₗ CodePoints) :=
  toLex (row.value, toLex (row.probability, str row.row.itemId))

omit [Field K] in
theorem keyLe_iff (first second : ProcessedRow ι K) :
    keyLe str first second = true ↔ keyOf str first ≤ keyOf str second := by
  rw [keyLe, decide_eq_true_eq, keyOf, keyOf, Prod.Lex.toLex_le_toLex, Prod.Lex.toLex_le_toLex]

omit [Field K] in
theorem topkOrder_perm (rows : List (ProcessedRow ι K)) : (topkOrder str rows).Perm rows :=
  perm_insertionSort _ rows

omit [Field K] in
theorem topkOrder_pairwise (rows : List (ProcessedRow ι K)) :
    (topkOrder str rows).Pairwise fun first second => keyOf str second ≤ keyOf str first := by
  have transitive : IsTrans (ProcessedRow ι K) fun first second =>
      keyLe str second first = true := ⟨fun first second third => by
    rw [keyLe_iff, keyLe_iff, keyLe_iff]
    exact fun before after => le_trans after before⟩
  have total : Std.Total fun first second : ProcessedRow ι K => keyLe str second first = true :=
    ⟨fun first second => by
      rw [keyLe_iff, keyLe_iff]
      exact le_total _ _⟩
  exact (pairwise_insertionSort _ rows).imp fun before => (keyLe_iff str _ _).mp before

end Order

/-! ## The rows that are selected -/

section Topk

variable {str : ι → CodePoints} {processed : List (ProcessedRow ι K)}

def rowIds (rows : List (ProcessedRow ι K)) : List ι := rows.map fun row => row.row.itemId

variable {keep : ℕ}

theorem selectRows_topk {np : Numpy K} {random : ℕ → K} {counts : KeepCounts}
    (isKeep : counts.resolve processed.length = keep) :
    selectRows str np random .topk counts processed = (topkOrder str processed).take keep := by
  rw [selectRows, isKeep, signedSlice_take]

omit [Field K] [LinearOrder K] in
theorem countP_marked [DecidableEq ι] {selected : List (ProcessedRow ι K)}
    (different : (rowIds processed).Nodup)
    (within : selected.Subperm processed) :
    processed.countP (fun row => decide (row.row.itemId ∈ rowIds selected)) =
      selected.length := by
  have sub : (rowIds selected).Subperm (rowIds processed) := by
    obtain ⟨part, rearranged, sublist⟩ := within
    exact ⟨rowIds part, rearranged.map _, sublist.map _⟩
  have count := countP_mem different sub
  rw [rowIds, rowIds, countP_map, length_map] at count
  exact count

omit [Field K] in
theorem mem_take_iff (different : (rowIds processed).Nodup) {row : ProcessedRow ι K}
    (isRow : row ∈ processed) :
    row.row.itemId ∈ rowIds ((topkOrder str processed).take keep) ↔
      row ∈ (topkOrder str processed).take keep := by
  constructor
  · intro isMarked
    obtain ⟨other, isOther, same⟩ := mem_map.mp isMarked
    have isProcessed := (topkOrder_perm str processed).mem_iff.mp (mem_of_mem_take isOther)
    rwa [← inj_on_of_nodup_map different isProcessed isRow same]
  · exact fun isTaken => mem_map_of_mem isTaken

omit [Field K] in
theorem keyOf_le_of_taken {chosen left : ProcessedRow ι K}
    (isChosen : chosen ∈ (topkOrder str processed).take keep) (isRow : left ∈ processed)
    (isLeft : left ∉ (topkOrder str processed).take keep) : keyOf str left ≤ keyOf str chosen := by
  have isIn := (topkOrder_perm str processed).mem_iff.mpr isRow
  have ordered := topkOrder_pairwise str processed
  rw [← take_append_drop keep (topkOrder str processed)] at isIn ordered
  have isLate := (mem_append.mp isIn).resolve_left isLeft
  exact (pairwise_append.mp ordered).2.2 chosen isChosen left isLate

/-- What is selected from the top: as many rows as should be, of which none has a smaller value
than one that is left out. A row that does not pass the filters has the value 0. -/
structure TopkLaws (args : PostprocessArgs K) (rows : List (RunStat ι K)) (keep : ℤ)
    (output : List (ProcessedRow ι K × Bool)) : Prop where
  rows : (output.map fun entry => entry.1.row).Perm rows
  passes : ∀ entry ∈ output, entry.1.scoreFilterPass = args.passes entry.1.row
  count : ((output.countP fun entry => entry.2 : ℕ) : ℤ) = keep
  filtered : ∀ chosen ∈ output, ∀ left ∈ output, chosen.2 = true → left.2 = false →
    chosen.1.scoreFilterPass = false → left.1.scoreFilterPass = true → ¬ 0 < left.1.value
  preferred : ∀ chosen ∈ output, ∀ left ∈ output, chosen.2 = true → left.2 = false →
    left.1.value ≤ chosen.1.value

theorem topkLaws_marked [DecidableEq ι] {power : Power K} {args : PostprocessArgs K}
    {rows : List (RunStat ι K)} (isProcessed : processedRows power args rows = some processed)
    (different : (rowIds processed).Nodup) (atMost : keep ≤ rows.length)
    {output : List (ProcessedRow ι K × Bool)}
    (rearranged : output.Perm (processed.map fun row =>
      (row, decide (row.row.itemId ∈ rowIds ((topkOrder str processed).take keep))))) :
    TopkLaws args rows keep output := by
  have own := map_row_processedRows isProcessed
  have length : processed.length = rows.length := by rw [← own, length_map]
  have marked : ∀ entry ∈ output, entry.1 ∈ processed ∧
      (entry.2 = true ↔ entry.1 ∈ (topkOrder str processed).take keep) := by
    intro entry isEntry
    obtain ⟨row, isRow, rfl⟩ := mem_map.mp (rearranged.mem_iff.mp isEntry)
    exact ⟨isRow, decide_eq_true_iff.trans (mem_take_iff different isRow)⟩
  have preferred : ∀ chosen ∈ output, ∀ left ∈ output, chosen.2 = true → left.2 = false →
      left.1.value ≤ chosen.1.value := by
    intro chosen isChosen left isLeft isTaken isOut
    have taken := (marked chosen isChosen).2.mp isTaken
    have leftOut : left.1 ∉ (topkOrder str processed).take keep := fun isIn => by
      rw [(marked left isLeft).2.mpr isIn] at isOut
      cases isOut
    have ordered := keyOf_le_of_taken taken (marked left isLeft).1 leftOut
    rw [keyOf, keyOf, Prod.Lex.toLex_le_toLex] at ordered
    exact ordered.elim le_of_lt fun same => same.1.le
  refine ⟨?_, fun entry isEntry => ?_, ?_, ?_, preferred⟩
  · have rows := rearranged.map fun entry => entry.1.row
    rw [map_map] at rows
    exact rows.trans (List.Perm.of_eq own)
  · exact (value_of_not_passes isProcessed (marked entry isEntry).1).1
  · have subperm : ((topkOrder str processed).take keep).Subperm processed :=
      (take_sublist keep _).subperm.trans (topkOrder_perm str processed).subperm
    have count := countP_marked different subperm
    rw [length_take, (topkOrder_perm str processed).length_eq, length,
      Nat.min_eq_left atMost] at count
    rw [rearranged.countP_eq, countP_map]
    exact congrArg Nat.cast count
  · intro chosen isChosen left isLeft isTaken isOut fails _
    have smaller := preferred chosen isChosen left isLeft isTaken isOut
    rw [(value_of_not_passes isProcessed (marked chosen isChosen).1).2 fails] at smaller
    exact not_lt.mpr smaller

end Topk

end Laws

theorem KeepCounts.resolve_le (counts : KeepCounts) (numItems : ℕ) :
    counts.resolve numItems ≤ numItems := by
  unfold KeepCounts.resolve
  split
  · exact min_le_right _ _
  · exact min_le_right _ _
  · exact min_le_right _ _
  · exact le_rfl

/-- **Rows are selected from the top**, for a count that is not negative. -/
theorem postprocess_topk [DecidableEq ι] (power : Power K) (args : PostprocessArgs K)
    (str : ι → CodePoints) (np : Numpy K) (random : ℕ → K) (counts : KeepCounts)
    {rows : List (RunStat ι K)} (different : (rows.map RunStat.itemId).Nodup)
    (nonneg : 0 ≤ counts.resolve rows.length) :
    (rows ≠ [] → (∀ statistic, 0 ≤ args.weight statistic) →
      (postprocess power args str np random .topk counts rows).isSome) ∧
    ∀ output, postprocess power args str np random .topk counts rows = some output →
      TopkLaws args rows (counts.resolve rows.length) output := by
  refine ⟨fun some weights => ?_, fun output isOutput => ?_⟩
  · rw [postprocess, if_neg some, processedRows, runValues_eq weights]
    rfl
  · rw [postprocess] at isOutput
    split at isOutput
    · cases isOutput
    · obtain ⟨processed, isProcessed, rfl⟩ := Option.map_eq_some_iff.mp isOutput
      have own := map_row_processedRows isProcessed
      have length : processed.length = rows.length := by rw [← own, length_map]
      obtain ⟨keep, isKeep⟩ := Int.eq_ofNat_of_zero_le nonneg
      have atMost := counts.resolve_le rows.length
      have taken : selectRows str np random .topk counts processed =
          (topkOrder str processed).take keep := selectRows_topk (length ▸ isKeep)
      rw [← own, map_map] at different
      rw [isKeep] at atMost ⊢
      dsimp only
      rw [taken]
      exact topkLaws_marked isProcessed different (Int.ofNat_le.mp atMost)
        (perm_insertionSort _ _)

/-! ## Two rows -/

def zeroOnePower : Power ℚ where
  pow base exponent := if exponent = 0 then 1 else base
  pow_nonneg base exponent nonneg := by
    split
    · exact zero_le_one
    · exact nonneg
  pow_mono base other exponent _ smaller _ := by
    split
    · exact le_rfl
    · exact smaller

def productArgs (minRewardMax : Option ℚ) : PostprocessArgs ℚ where
  combineMode := .product
  includeMeanScore := false
  meanWeight := 1
  stdWeight := 1
  maxWeight := 1
  minRewardMean := none
  minRewardStd := none
  minRewardMax := minRewardMax

/-- The first row has the larger maximum, and the second one the larger deviation. -/
def twoStats : List (RunStat CodePoints ℚ) :=
  [⟨[97], none, some 0, some 1⟩, ⟨[98], none, some 1, some 0⟩]

def keepRows (count : ℤ) : KeepCounts := ⟨some count, none, none⟩

def selectFrom (args : PostprocessArgs ℚ) (count : ℤ) :
    Option (List (ProcessedRow CodePoints ℚ × Bool)) :=
  postprocess zeroOnePower args id fewRoots (fun _ => 0) .topk (keepRows count) twoStats

theorem postprocess_topk_twoStats :
    (twoStats ≠ [] → (∀ statistic, 0 ≤ (productArgs none).weight statistic) →
      (selectFrom (productArgs none) 1).isSome) ∧
    ∀ output, selectFrom (productArgs none) 1 = some output →
      TopkLaws (productArgs none) twoStats 1 output :=
  postprocess_topk zeroOnePower (productArgs none) id fewRoots (fun _ => 0) (keepRows 1)
    (by decide) (by decide)

/-- What the output says of the rows: their ids, and whether they pass and are selected. -/
def flagsIn (output : Option (List (ProcessedRow CodePoints ℚ × Bool))) :
    Option (List (CodePoints × Bool × Bool)) :=
  output.map fun entries => entries.map fun entry =>
    (entry.1.row.itemId, entry.1.scoreFilterPass, entry.2)

/-- **Of two rows with the value 0 the one that does not pass is selected**, and for a negative
count another number of rows is. -/
theorem selectFrom_zeroValues :
    flagsIn (selectFrom (productArgs (some 1)) 1) =
        some [([97], true, false), ([98], false, true)] ∧
      flagsIn (selectFrom (productArgs none) (-1)) =
        some [([97], true, false), ([98], true, true)] := by
  constructor <;> decide +kernel

end Values

end Geobench.DataClean
