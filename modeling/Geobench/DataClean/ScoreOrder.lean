import Geobench.DataClean.RunPostprocess
import Geobench.Library.Masking

/-!
# How values follow the statistics

The ranks of a run order equal rewards by their places, so that equal rows get different values.
With this order of the rewards the values are monotone: `processedRows_laws` says it of two rows of
a run, of a row whose rewards are raised, and of rows in another order.
-/

namespace Geobench.DataClean

open Library List

variable {ι K : Type} [Field K] [LinearOrder K]

/-! ## Scores -/

/-- A row has a smaller reward than another one, or an equal one and is earlier. -/
def RewardPrecedes (rows : List (RunStat ι K)) (statistic : Statistic) (first second : ℕ) : Prop :=
  Precedes (rows.map fun row => row.reward statistic) first second

/-- How many rows have a smaller reward than the one at a place. -/
def rankAt (rows : List (RunStat ι K)) (statistic : Statistic) (place : ℕ) : ℕ :=
  (List.range rows.length).countP
    (Precedes (rows.map fun row => row.reward statistic) · place)

theorem scoreAt_eq {rows : List (RunStat ι K)} {place : ℕ} (inside : place < rows.length)
    (statistic : Statistic) : scoreAt rows place statistic =
      (rankAt rows statistic place : K) / max 1 ((rows.length - 1 : ℕ) : K) := by
  have isPlace : place < (rows.map fun row => row.reward statistic).length := by
    rwa [length_map]
  have rank := stableRank_eq_countP isPlace
  have ranks : (stableArgsort (stableArgsort (rows.map fun row => row.reward statistic))).length =
      rows.length := by
    rw [(isArgsort_stableArgsort _).length_eq, (isArgsort_stableArgsort _).length_eq, length_map]
  rw [getD_eq_getElem _ _ (ranks ▸ inside), length_map] at rank
  rw [scoreAt, percentileRanks, getD_eq_getElem _ _ (by rwa [length_map, ranks]),
    getElem_map, rank, length_map, rankAt]

variable [IsStrictOrderedRing K]

theorem divisor_pos (rows : List (RunStat ι K)) :
    (0 : K) < max 1 ((rows.length - 1 : ℕ) : K) := lt_max_of_lt_left one_pos

theorem scoreAt_nonneg {rows : List (RunStat ι K)} {place : ℕ} (inside : place < rows.length)
    (statistic : Statistic) : 0 ≤ scoreAt rows place statistic := by
  rw [scoreAt_eq inside]
  exact div_nonneg (Nat.cast_nonneg _) (divisor_pos rows).le

/-- A larger rank among as many rows is a larger score. -/
theorem scoreAt_mono {rows others : List (RunStat ι K)} (same : rows.length = others.length)
    {place other : ℕ} (inside : place < rows.length) (isOther : other < others.length)
    {statistic : Statistic}
    (smaller : rankAt rows statistic place ≤ rankAt others statistic other) :
    scoreAt rows place statistic ≤ scoreAt others other statistic := by
  rw [scoreAt_eq inside, scoreAt_eq isOther, same]
  exact div_le_div_of_nonneg_right (Nat.cast_le.mpr smaller) (divisor_pos others).le

/-! ## Scores combined -/

section Combined

variable {power : Power K} {args : PostprocessArgs K}

theorem combined_nonneg (weights : ∀ statistic, 0 ≤ args.weight statistic) {score : Statistic → K}
    (nonneg : ∀ statistic, 0 ≤ score statistic) : 0 ≤ combined power args score := by
  rw [combined]
  cases args.combineMode with
  | product =>
    refine prod_nonneg fun factor isFactor => ?_
    obtain ⟨statistic, _, rfl⟩ := mem_map.mp isFactor
    exact power.pow_nonneg _ _ (nonneg statistic)
  | sum =>
    dsimp only
    split
    · rename_i positive
      refine div_nonneg (sum_nonneg fun term isTerm => ?_) positive.le
      obtain ⟨statistic, _, rfl⟩ := mem_map.mp isTerm
      exact mul_nonneg (nonneg statistic) (weights statistic)
    · exact le_rfl

/-- Larger scores give larger values. -/
theorem combined_mono (weights : ∀ statistic, 0 ≤ args.weight statistic)
    {score other : Statistic → K} (nonneg : ∀ statistic, 0 ≤ score statistic)
    (larger : ∀ statistic ∈ args.activeComponents, score statistic ≤ other statistic) :
    combined power args score ≤ combined power args other := by
  rw [combined, combined]
  cases args.combineMode with
  | product =>
    dsimp only
    generalize args.activeComponents = statistics at larger
    induction statistics with
    | nil => exact le_rfl
    | cons statistic rest ih =>
      rw [map_cons, map_cons, prod_cons, prod_cons]
      have first := power.pow_mono _ _ (args.weight statistic) (nonneg statistic)
        (larger statistic mem_cons_self) (weights statistic)
      refine mul_le_mul first (ih fun later isLater => larger later
        (mem_cons_of_mem _ isLater)) (prod_nonneg fun factor isFactor => ?_) ?_
      · obtain ⟨later, _, rfl⟩ := mem_map.mp isFactor
        exact power.pow_nonneg _ _ (nonneg later)
      · exact (power.pow_nonneg _ _ (nonneg statistic)).trans first
  | sum =>
    dsimp only
    split
    · rename_i positive
      refine div_le_div_of_nonneg_right (sum_le_sum fun statistic isActive => ?_)
        positive.le
      exact mul_le_mul_of_nonneg_right (larger statistic isActive) (weights statistic)
    · exact le_rfl

end Combined

/-! ## Values and probabilities at the places -/

section Places

variable (power : Power K) (args : PostprocessArgs K)

omit [IsStrictOrderedRing K] in
def placeValue (rows : List (RunStat ι K)) (place : ℕ) : K :=
  (rows[place]?).elim 0 (rowValue power args rows place)

def placeValues (rows : List (RunStat ι K)) : List K :=
  (List.range rows.length).map (placeValue power args rows)

def placeScores (rows : List (RunStat ι K)) (place : ℕ) : K × K :=
  (placeValue power args rows place,
    probabilityOf (placeValues power args rows) (placeValue power args rows place))

def ProcessedRow.scores (row : ProcessedRow ι K) : K × K := (row.value, row.probability)

variable {power args} {rows : List (RunStat ι K)}

omit [IsStrictOrderedRing K] in
theorem placeValue_eq {place : ℕ} {row : RunStat ι K} (isRow : rows[place]? = some row) :
    placeValue power args rows place = rowValue power args rows place row := by
  rw [placeValue, isRow, Option.elim_some]

omit [IsStrictOrderedRing K] in
theorem runValues_eq_placeValues (weights : ∀ statistic, 0 ≤ args.weight statistic) :
    runValues power args rows = some (placeValues power args rows) := by
  rw [runValues_eq weights, placeValues]
  refine congrArg some (ext_getElem (by simp) fun place isPlace _ => ?_)
  rw [length_map, length_zipIdx] at isPlace
  simp [placeValue_eq (getElem?_eq_getElem isPlace)]

omit [IsStrictOrderedRing K] in
/-- The scores of the rows, place by place. -/
theorem map_scores (weights : ∀ statistic, 0 ≤ args.weight statistic)
    {processed : List (ProcessedRow ι K)}
    (isProcessed : processedRows power args rows = some processed) :
    processed.map ProcessedRow.scores =
      (range rows.length).map (placeScores power args rows) := by
  rw [processedRows, runValues_eq_placeValues weights, Option.map_some, Option.some.injEq]
    at isProcessed
  subst isProcessed
  have length : (placeValues power args rows).length = rows.length := by simp [placeValues]
  refine ext_getElem (by simp [length]) fun place isPlace _ => ?_
  simp [ProcessedRow.scores, placeScores, placeValues]

theorem rowValue_nonneg (weights : ∀ statistic, 0 ≤ args.weight statistic) {place : ℕ}
    (inside : place < rows.length) (row : RunStat ι K) :
    0 ≤ rowValue power args rows place row := by
  rw [rowValue]
  split
  · exact combined_nonneg weights fun statistic => scoreAt_nonneg inside statistic
  · exact le_rfl

theorem placeValue_nonneg (weights : ∀ statistic, 0 ≤ args.weight statistic) (place : ℕ) :
    0 ≤ placeValue power args rows place := by
  rw [placeValue]
  cases isRow : rows[place]? with
  | none => exact le_rfl
  | some row =>
    exact rowValue_nonneg weights (List.getElem?_eq_some_iff.mp isRow).1 row

theorem probabilityOf_mono (values : List K) {value other : K} (larger : value ≤ other) :
    probabilityOf values value ≤ probabilityOf values other := by
  rw [probabilityOf, probabilityOf]
  split
  · exact le_rfl
  · rename_i positive
    exact div_le_div_of_nonneg_right larger (not_le.mp positive).le

/-! ## Two rows of a run -/

/-- A row that precedes another one in each reward has no larger value and probability. -/
theorem placeScores_mono (weights : ∀ statistic, 0 ≤ args.weight statistic) {first second : ℕ}
    {firstRow secondRow : RunStat ι K} (isFirst : rows[first]? = some firstRow)
    (isSecond : rows[second]? = some secondRow) (passes : args.passes secondRow)
    (precedes : ∀ statistic ∈ args.activeComponents, RewardPrecedes rows statistic first second) :
    (placeScores power args rows first).1 ≤ (placeScores power args rows second).1 ∧
      (placeScores power args rows first).2 ≤ (placeScores power args rows second).2 := by
  have inside := (List.getElem?_eq_some_iff.mp isFirst).1
  have isOther := (List.getElem?_eq_some_iff.mp isSecond).1
  have larger : placeValue power args rows first ≤ placeValue power args rows second := by
    rw [placeValue_eq isFirst, placeValue_eq isSecond, rowValue, rowValue, if_pos passes]
    split
    · refine combined_mono weights (fun statistic => scoreAt_nonneg inside statistic)
        fun statistic isActive => scoreAt_mono rfl inside isOther ?_
      refine countP_mono_left fun other _ before => ?_
      rw [decide_eq_true_eq] at before ⊢
      exact before.trans (precedes statistic isActive)
    · exact combined_nonneg weights fun statistic => scoreAt_nonneg isOther statistic
  exact ⟨larger, probabilityOf_mono _ larger⟩

/-! ## A row whose rewards are raised -/

section Raised

variable {place : ℕ} {row raised : RunStat ι K}

omit [LinearOrder K] [IsStrictOrderedRing K] in
theorem getD_rewards_set (inside : place < rows.length) (statistic : Statistic) (other : ℕ) :
    ((rows.set place raised).map fun row => row.reward statistic).getD other 0 =
      if place = other then raised.reward statistic
      else (rows.map fun row => row.reward statistic).getD other 0 := by
  rw [map_set, getD_eq_getElem?_getD, getElem?_set]
  split
  · rw [if_pos (by rwa [length_map]), Option.getD_some]
  · rw [getD_eq_getElem?_getD]

omit [LinearOrder K] [IsStrictOrderedRing K] in
theorem getD_rewards (isRow : rows[place]? = some row) (statistic : Statistic) :
    (rows.map fun row => row.reward statistic).getD place 0 = row.reward statistic := by
  rw [getD_eq_getElem?_getD, getElem?_map, isRow]
  rfl

omit [IsStrictOrderedRing K] in
/-- The rank of a row whose reward is raised does not get smaller, and no other rank larger. -/
theorem rankAt_set (isRow : rows[place]? = some row) {statistic : Statistic}
    (larger : row.reward statistic ≤ raised.reward statistic) :
    rankAt rows statistic place ≤ rankAt (rows.set place raised) statistic place ∧
      ∀ other, other ≠ place →
        rankAt (rows.set place raised) statistic other ≤ rankAt rows statistic other := by
  have inside := (List.getElem?_eq_some_iff.mp isRow).1
  have own := getD_rewards isRow statistic
  rw [rankAt, rankAt, length_set]
  refine ⟨countP_mono_left fun first _ before => ?_, fun other differs => ?_⟩
  · rw [decide_eq_true_eq, Precedes, own] at before
    rw [decide_eq_true_eq, Precedes, getD_rewards_set inside, getD_rewards_set inside, if_pos rfl]
    by_cases same : place = first
    · subst same
      rw [own] at before
      exact absurd before (by simp)
    · rw [if_neg same]
      obtain before | ⟨before, earlier⟩ := before
      · exact .inl (before.trans_le larger)
      · exact (before.trans_le larger).lt_or_eq.imp_right fun same => ⟨same, earlier⟩
  · rw [rankAt, rankAt, length_set]
    refine countP_mono_left fun first _ before => ?_
    rw [decide_eq_true_eq, Precedes, getD_rewards_set inside, getD_rewards_set inside,
      if_neg (Ne.symm differs)] at before
    rw [decide_eq_true_eq, Precedes]
    by_cases same : place = first
    · subst same
      rw [if_pos rfl] at before
      rw [own]
      obtain before | ⟨before, earlier⟩ := before
      · exact .inl (larger.trans_lt before)
      · exact (larger.trans_eq before).lt_or_eq.imp_right fun same => ⟨same, earlier⟩
    · rwa [if_neg same] at before

omit [IsStrictOrderedRing K] in
theorem passes_of_raised (larger : ∀ statistic, row.reward statistic ≤ raised.reward statistic)
    (passes : args.passes row = true) : args.passes raised = true := by
  have reaches : ∀ statistic, args.reaches row statistic = true →
      args.reaches raised statistic = true := by
    intro statistic
    rw [PostprocessArgs.reaches, PostprocessArgs.reaches]
    cases args.threshold statistic with
    | none => exact id
    | some threshold =>
      intro isReached
      rw [Option.all_some, decide_eq_true_eq] at isReached ⊢
      exact isReached.trans (larger statistic)
  rw [PostprocessArgs.passes, Bool.and_eq_true, Bool.and_eq_true] at passes ⊢
  exact ⟨⟨reaches _ passes.1.1, reaches _ passes.1.2⟩, reaches _ passes.2⟩

/-- The value of the row does not get smaller, and no other value larger. -/
theorem placeValue_set (weights : ∀ statistic, 0 ≤ args.weight statistic)
    (isRow : rows[place]? = some row)
    (larger : ∀ statistic, row.reward statistic ≤ raised.reward statistic) :
    placeValue power args rows place ≤ placeValue power args (rows.set place raised) place ∧
      ∀ other, other ≠ place →
        placeValue power args (rows.set place raised) other ≤ placeValue power args rows other := by
  have inside := (List.getElem?_eq_some_iff.mp isRow).1
  have length : rows.length = (rows.set place raised).length := length_set.symm
  refine ⟨?_, fun other differs => ?_⟩
  · have isRaised : (rows.set place raised)[place]? = some raised := by
      rw [getElem?_set_self inside]
    rw [placeValue_eq isRow, placeValue_eq isRaised, rowValue, rowValue]
    split
    · rename_i passes
      rw [if_pos (passes_of_raised larger passes)]
      exact combined_mono weights (fun statistic => scoreAt_nonneg inside statistic)
        fun statistic _ => scoreAt_mono length inside (length ▸ inside)
          (rankAt_set isRow (larger statistic)).1
    · exact rowValue_nonneg weights (length ▸ inside) raised
  · have same : (rows.set place raised)[other]? = rows[other]? :=
      getElem?_set_ne (Ne.symm differs)
    cases isOther : rows[other]? with
    | none => rw [placeValue, placeValue, same, isOther, Option.elim_none, Option.elim_none]
    | some otherRow =>
      have isIn := (List.getElem?_eq_some_iff.mp isOther).1
      rw [placeValue_eq isOther, placeValue_eq (same.trans isOther), rowValue, rowValue]
      split
      · exact combined_mono weights
          (fun statistic => scoreAt_nonneg (length ▸ isIn) statistic)
          fun statistic _ => scoreAt_mono length.symm (length ▸ isIn) isIn
            ((rankAt_set isRow (larger statistic)).2 other differs)
      · exact le_rfl

omit [IsStrictOrderedRing K] in
/-- The values with one of them put first. -/
theorem sum_placeValues (inside : place < rows.length) :
    (placeValues power args rows).sum = placeValue power args rows place +
      (((range rows.length).erase place).map (placeValue power args rows)).sum := by
  have apart := perm_cons_erase (mem_range.mpr inside)
  rw [placeValues, (apart.map _).sum_eq, map_cons, sum_cons]

/-- A value that gets larger while the others get smaller is a larger part of them all. -/
theorem probabilityOf_le_of_raised {values others : List K} {value other rest otherRest : K}
    (length : values.length = others.length) (total : values.sum = value + rest)
    (otherTotal : others.sum = other + otherRest) (nonneg : 0 ≤ value)
    (otherRest_nonneg : 0 ≤ otherRest) (larger : value ≤ other) (smaller : otherRest ≤ rest) :
    probabilityOf values value ≤ probabilityOf others other := by
  have one_le : (1 : K) ≤ max 1 (values.length : K) := le_max_left _ _
  rw [probabilityOf, probabilityOf, ← length, total, otherTotal]
  split
  · rename_i nonpos
    split
    · exact le_rfl
    · -- nothing else has a value
      rename_i positive
      have none : otherRest = 0 := by linarith
      rw [none, add_zero] at positive ⊢
      rw [div_self (not_le.mp positive).ne']
      exact div_le_one_of_le₀ one_le (zero_le_one.trans one_le)
  · rename_i positive
    split
    · have zero : value = 0 := by linarith
      rw [zero, zero_div]
      exact div_nonneg zero_le_one (zero_le_one.trans one_le)
    · rename_i otherPositive
      rw [div_le_div_iff₀ (not_le.mp positive) (not_le.mp otherPositive)]
      have crossed := mul_le_mul larger smaller otherRest_nonneg (nonneg.trans larger)
      calc value * (other + otherRest) = other * value + value * otherRest := by ring
        _ ≤ other * value + other * rest := add_le_add_right crossed _
        _ = other * (value + rest) := by ring

/-- A row whose rewards are raised has no smaller value and probability. -/
theorem placeScores_set (weights : ∀ statistic, 0 ≤ args.weight statistic)
    (isRow : rows[place]? = some row)
    (larger : ∀ statistic, row.reward statistic ≤ raised.reward statistic) :
    (placeScores power args rows place).1 ≤
        (placeScores power args (rows.set place raised) place).1 ∧
      (placeScores power args rows place).2 ≤
        (placeScores power args (rows.set place raised) place).2 := by
  have inside := (List.getElem?_eq_some_iff.mp isRow).1
  have length : (rows.set place raised).length = rows.length := length_set
  have isRaised : place < (rows.set place raised).length := length ▸ inside
  have values := @placeValue_set _ _ _ _ _ power _ _ _ _ _ weights isRow larger
  refine ⟨values.1, ?_⟩
  have total := @sum_placeValues _ _ _ _ power args _ _ inside
  have raisedTotal := @sum_placeValues _ _ _ _ power args _ _ isRaised
  rw [length] at raisedTotal
  refine probabilityOf_le_of_raised ?_ total raisedTotal (placeValue_nonneg weights place)
    (sum_nonneg fun value isValue => ?_) values.1 (sum_le_sum fun other isOther => ?_)
  · rw [placeValues, placeValues, length_map, length_map, length_range, length_range, length]
  · obtain ⟨other, _, rfl⟩ := mem_map.mp isValue
    exact placeValue_nonneg weights other
  · exact values.2 other ((nodup_range.mem_erase_iff.mp isOther).1)

end Raised

/-! ## Rows in another order -/

/-- Rows with an equal reward that is used stay in their order. -/
def KeepsTies (args : PostprocessArgs K) (rows : List (RunStat ι K)) (order : List ℕ) : Prop :=
  ∀ statistic ∈ args.activeComponents, order.Pairwise fun first second =>
    (rows.map fun row => row.reward statistic).getD first 0 =
      (rows.map fun row => row.reward statistic).getD second 0 → first < second

section Rearranged

variable {order : List ℕ}

omit [Field K] [LinearOrder K] [IsStrictOrderedRing K] in
theorem getElem?_rearranged (isOrder : order.Perm (range rows.length)) {place : ℕ}
    (inside : place < rows.length) :
    (selectAt order rows)[place]? = rows[order.getD place 0]? := by
  have within : ∀ other ∈ order, other < rows.length := fun other isOther =>
    mem_range.mp (isOrder.mem_iff.mp isOther)
  have isPlace : place < order.length := by rwa [isOrder.length_eq, length_range]
  have each := map_getElem?_selectAt within
  have entry := congrArg (·[place]?) each
  rw [getElem?_map, getElem?_map, getElem?_eq_getElem isPlace, Option.map_some] at entry
  rw [getD_eq_getElem _ _ isPlace]
  cases isRow : (selectAt order rows)[place]? with
  | none =>
    rw [isRow] at entry
    cases entry
  | some row =>
    rw [isRow, Option.map_some, Option.some.injEq] at entry
    exact entry.symm

omit [Field K] [LinearOrder K] [IsStrictOrderedRing K] in
theorem length_rearranged (isOrder : order.Perm (range rows.length)) :
    (selectAt order rows).length = rows.length := by
  rw [length_selectAt fun other isOther => mem_range.mp (isOrder.mem_iff.mp isOther),
    isOrder.length_eq, length_range]

omit [LinearOrder K] [IsStrictOrderedRing K] in
theorem getD_rewards_rearranged (isOrder : order.Perm (range rows.length))
    (statistic : Statistic) {place : ℕ} (inside : place < rows.length) :
    ((selectAt order rows).map fun row => row.reward statistic).getD place 0 =
      (rows.map fun row => row.reward statistic).getD (order.getD place 0) 0 := by
  rw [getD_eq_getElem?_getD, getD_eq_getElem?_getD, getElem?_map,
    getElem?_map, getElem?_rearranged isOrder inside]

omit [IsStrictOrderedRing K] in
theorem precedes_rearranged (isOrder : order.Perm (range rows.length))
    (keeps : KeepsTies args rows order) {statistic : Statistic}
    (isActive : statistic ∈ args.activeComponents) {first second : ℕ}
    (isFirst : first < rows.length) (isSecond : second < rows.length) :
    RewardPrecedes (selectAt order rows) statistic first second ↔
      RewardPrecedes rows statistic (order.getD first 0) (order.getD second 0) := by
  have length : order.length = rows.length := by rw [isOrder.length_eq, length_range]
  have ties := pairwise_iff_getElem.mp (keeps statistic isActive)
  rw [RewardPrecedes, RewardPrecedes, Precedes, Precedes,
    getD_rewards_rearranged isOrder statistic isFirst,
    getD_rewards_rearranged isOrder statistic isSecond]
  refine or_congr_right (and_congr_right fun tie => ?_)
  have inFirst : first < order.length := length ▸ isFirst
  have inSecond : second < order.length := length ▸ isSecond
  rw [getD_eq_getElem _ _ inFirst, getD_eq_getElem _ _ inSecond] at tie ⊢
  constructor
  · exact fun before => ties first second inFirst inSecond before tie
  · intro before
    by_contra late
    obtain same | later := (not_lt.mp late).eq_or_lt
    · subst same
      exact lt_irrefl _ before
    · exact lt_asymm before (ties second first inSecond inFirst later tie.symm)

omit [IsStrictOrderedRing K] in
theorem rankAt_rearranged (isOrder : order.Perm (range rows.length))
    (keeps : KeepsTies args rows order) {statistic : Statistic}
    (isActive : statistic ∈ args.activeComponents) {place : ℕ} (inside : place < rows.length) :
    rankAt (selectAt order rows) statistic place = rankAt rows statistic (order.getD place 0) := by
  have length : order.length = rows.length := by rw [isOrder.length_eq, length_range]
  have places : order = (range rows.length).map (order.getD · 0) := by
    rw [← length, map_getD_range]
  rw [rankAt, rankAt, length_rearranged isOrder]
  refine Eq.trans ?_ ((places ▸ isOrder).countP_eq _)
  rw [countP_map]
  refine countP_congr fun other isOther => ?_
  rw [Function.comp_apply, decide_eq_true_eq, decide_eq_true_eq]
  exact precedes_rearranged isOrder keeps isActive (mem_range.mp isOther) inside

omit [Field K] [LinearOrder K] [IsStrictOrderedRing K] in
theorem getD_order_lt (isOrder : order.Perm (range rows.length)) {place : ℕ}
    (inside : place < rows.length) : order.getD place 0 < rows.length := by
  have isPlace : place < order.length := by rwa [isOrder.length_eq, length_range]
  rw [getD_eq_getElem _ _ isPlace]
  exact mem_range.mp (isOrder.mem_iff.mp (getElem_mem isPlace))

omit [IsStrictOrderedRing K] in
theorem combined_congr {score other : Statistic → K}
    (same : ∀ statistic ∈ args.activeComponents, score statistic = other statistic) :
    combined power args score = combined power args other := by
  have powers : (args.activeComponents.map fun statistic =>
      power.pow (score statistic) (args.weight statistic)) =
        args.activeComponents.map fun statistic =>
          power.pow (other statistic) (args.weight statistic) :=
    map_congr_left fun statistic isActive => by rw [same statistic isActive]
  have products : (args.activeComponents.map fun statistic =>
      score statistic * args.weight statistic) =
        args.activeComponents.map fun statistic => other statistic * args.weight statistic :=
    map_congr_left fun statistic isActive => by rw [same statistic isActive]
  rw [combined, combined, powers, products]

omit [IsStrictOrderedRing K] in
theorem placeValue_rearranged (isOrder : order.Perm (range rows.length))
    (keeps : KeepsTies args rows order) {place : ℕ} (inside : place < rows.length) :
    placeValue power args (selectAt order rows) place =
      placeValue power args rows (order.getD place 0) := by
  have isOld := getD_order_lt isOrder inside
  have isNew : place < (selectAt order rows).length := (length_rearranged isOrder).symm ▸ inside
  have isRow := getElem?_eq_getElem isOld
  rw [placeValue_eq isRow, placeValue_eq ((getElem?_rearranged isOrder inside).trans isRow),
    rowValue, rowValue]
  refine if_congr Iff.rfl (combined_congr fun statistic isActive => ?_) rfl
  rw [scoreAt_eq isNew, scoreAt_eq isOld, rankAt_rearranged isOrder keeps isActive inside,
    length_rearranged isOrder]

omit [IsStrictOrderedRing K] in
theorem placeValues_rearranged (isOrder : order.Perm (range rows.length))
    (keeps : KeepsTies args rows order) :
    placeValues power args (selectAt order rows) = order.map (placeValue power args rows) := by
  have length : order.length = rows.length := by rw [isOrder.length_eq, length_range]
  conv_rhs => rw [← map_getD_range order 0, map_map, length]
  rw [placeValues, length_rearranged isOrder]
  exact map_congr_left fun place isPlace =>
    placeValue_rearranged isOrder keeps (mem_range.mp isPlace)

omit [IsStrictOrderedRing K] in
theorem map_placeScores_rearranged (isOrder : order.Perm (range rows.length))
    (keeps : KeepsTies args rows order) :
    (range rows.length).map (placeScores power args (selectAt order rows)) =
      selectAt order ((range rows.length).map (placeScores power args rows)) := by
  have length : order.length = rows.length := by rw [isOrder.length_eq, length_range]
  have rearranged : (placeValues power args (selectAt order rows)).Perm
      (placeValues power args rows) := by
    rw [placeValues_rearranged isOrder keeps]
    exact isOrder.map _
  have chosen : selectAt order (range rows.length) = order :=
    selectAt_eq_of_map (map_congr_left fun place isPlace =>
      getElem?_range (mem_range.mp (isOrder.mem_iff.mp isPlace)))
  rw [selectAt_map, chosen]
  conv_rhs => rw [← map_getD_range order 0, map_map, length]
  refine map_congr_left fun place isPlace => ?_
  have value := @placeValue_rearranged _ _ _ _ power _ _ _ isOrder keeps _
    (mem_range.mp isPlace)
  rw [Function.comp_apply, placeScores, placeScores, value, probabilityOf_perm rearranged]

end Rearranged

/-! ## The claim -/

/-- The values of a run follow the rewards. A row that precedes another one in each reward that
is used has no larger scores; a row whose rewards are raised has no smaller scores; and rows in an
order that keeps ties have the same scores. -/
structure ScoreLaws (power : Power K) (args : PostprocessArgs K) (rows : List (RunStat ι K))
    (processed : List (ProcessedRow ι K)) : Prop where
  ordered : ∀ first second firstRow secondRow, processed[first]? = some firstRow →
    processed[second]? = some secondRow → firstRow.scoreFilterPass = true →
    secondRow.scoreFilterPass = true →
    (∀ statistic ∈ args.activeComponents, RewardPrecedes rows statistic first second) →
    firstRow.value ≤ secondRow.value ∧ firstRow.probability ≤ secondRow.probability
  raised : ∀ place row raised, rows[place]? = some row →
    (∀ statistic, row.reward statistic ≤ raised.reward statistic) →
    ∃ others before after, processedRows power args (rows.set place raised) = some others ∧
      processed[place]? = some before ∧ others[place]? = some after ∧
      before.value ≤ after.value ∧ before.probability ≤ after.probability
  rearranged : ∀ order, order.Perm (List.range rows.length) → KeepsTies args rows order →
    ∃ others, processedRows power args (selectAt order rows) = some others ∧
      others.map ProcessedRow.scores = selectAt order (processed.map ProcessedRow.scores)

omit [Field K] [LinearOrder K] [IsStrictOrderedRing K] in
theorem exists_of_map_scores {processed : List (ProcessedRow ι K)} {count : ℕ} {f : ℕ → K × K}
    (same : processed.map ProcessedRow.scores = (range count).map f) {place : ℕ}
    (inside : place < count) : ∃ row, processed[place]? = some row ∧ row.scores = f place := by
  have entry := congrArg (·[place]?) same
  rw [getElem?_map, getElem?_map, getElem?_range inside] at entry
  exact Option.map_eq_some_iff.mp entry

/-- **What holds of the values and probabilities of every run.** -/
theorem processedRows_laws (power : Power K) {args : PostprocessArgs K}
    (weights : ∀ statistic, 0 ≤ args.weight statistic) (rows : List (RunStat ι K)) :
    ∃ processed, processedRows power args rows = some processed ∧
      ScoreLaws power args rows processed := by
  have exists_processed : ∀ rows : List (RunStat ι K), ∃ processed,
      processedRows power args rows = some processed := by
    intro rows
    rw [processedRows, runValues_eq weights]
    exact ⟨_, rfl⟩
  obtain ⟨processed, isProcessed⟩ := exists_processed rows
  have scores := map_scores weights isProcessed
  have own := map_row_processedRows isProcessed
  have length : processed.length = rows.length := by rw [← own, length_map]
  refine ⟨processed, isProcessed, ⟨?_, ?_, ?_⟩⟩
  · intro first second firstRow secondRow isFirst isSecond _ passes precedes
    have isRow : ∀ {place : ℕ} {row : ProcessedRow ι K}, processed[place]? = some row →
        rows[place]? = some row.row ∧ row.scores = placeScores power args rows place := by
      intro place row isRow
      have inside := length ▸ (List.getElem?_eq_some_iff.mp isRow).1
      obtain ⟨other, isOther, scoresOf⟩ := exists_of_map_scores scores inside
      obtain rfl := Option.some.inj (isRow.symm.trans isOther)
      refine ⟨?_, scoresOf⟩
      rw [← own, getElem?_map, isRow]
      rfl
    have kept := (value_of_not_passes isProcessed (mem_of_getElem? isSecond)).1
    have larger := @placeScores_mono _ _ _ _ _ power _ _ weights _ _ _ _ (isRow isFirst).1
      (isRow isSecond).1 (kept ▸ passes) precedes
    rw [← (isRow isFirst).2, ← (isRow isSecond).2] at larger
    exact larger
  · intro place row raised isRow larger
    have inside := (List.getElem?_eq_some_iff.mp isRow).1
    obtain ⟨others, areOthers⟩ := exists_processed (rows.set place raised)
    obtain ⟨before, isBefore, scoresBefore⟩ := exists_of_map_scores scores inside
    obtain ⟨after, isAfter, scoresAfter⟩ := exists_of_map_scores (map_scores weights areOthers)
      (length_set.symm ▸ inside)
    have greater := @placeScores_set _ _ _ _ _ power _ _ _ _ _ weights isRow larger
    rw [← scoresBefore, ← scoresAfter] at greater
    exact ⟨others, before, after, areOthers, isBefore, isAfter, greater⟩
  · intro order isOrder keeps
    obtain ⟨others, areOthers⟩ := exists_processed (selectAt order rows)
    refine ⟨others, areOthers, ?_⟩
    rw [map_scores weights areOthers, scores, length_rearranged isOrder,
      map_placeScores_rearranged isOrder keeps]

end Places

/-! ## Equal rows -/

theorem weight_nonneg (minRewardMax : Option ℚ) (statistic : Statistic) :
    0 ≤ (productArgs minRewardMax).weight statistic := by
  cases statistic <;> exact zero_le_one

theorem processedRows_laws_twoStats :
    ∃ processed, processedRows zeroOnePower (productArgs none) twoStats = some processed ∧
      ScoreLaws zeroOnePower (productArgs none) twoStats processed :=
  processedRows_laws zeroOnePower (weight_nonneg none) twoStats

/-- Two rows with the same rewards. -/
def equalStats : List (RunStat CodePoints ℚ) :=
  [⟨[97], none, some 1, some 1⟩, ⟨[98], none, some 1, some 1⟩]

def valuesIn (rows : List (RunStat CodePoints ℚ)) : Option (List (CodePoints × ℚ)) :=
  (processedRows zeroOnePower (productArgs none) rows).map fun processed =>
    processed.map fun row => (row.row.itemId, row.value)

/-- **Of two equal rows the later one has the larger value**, in either order. -/
theorem valuesIn_equalStats :
    valuesIn equalStats = some [([97], 0), ([98], 1)] ∧
      valuesIn equalStats.reverse = some [([98], 0), ([97], 1)] := by
  constructor <;> decide +kernel

end Geobench.DataClean
