import Geobench.Library.ListSlices
import Geobench.Library.Queues
import Geobench.Library.Records
import Geobench.Library.Sampling

/-!
# The order of training rows

Before training the rows are split by domain, each domain is split into four buckets at the
medians of its rewards, the rows of a domain are put in the order of a schedule, and the domains
are mixed. Buckets and domains are queues that are emptied into one list, by random choices or in
turns.
-/

namespace Geobench.Tools

open Library List

/-! ## Buckets -/

inductive Bucket where
  | highMeanLowStd
  | lowMeanLowStd
  | highMeanHighStd
  | lowMeanHighStd
  deriving DecidableEq

def bucketOrder : List Bucket :=
  [.highMeanLowStd, .lowMeanLowStd, .highMeanHighStd, .lowMeanHighStd]

/-- A row with what orders it. The other fields are of any type. -/
structure Row (δ R ρ : Type) where
  category : δ
  rewardMean : R
  rewardStd : R
  fields : ρ

structure BucketRow (δ R ρ : Type) where
  row : Row δ R ρ
  bucket : Bucket

structure Medians (R : Type) where
  rewardMeanMedian : R
  rewardStdMedian : R

inductive OrderError where
  | statisticsError
  | indexError
  | valueError
  deriving DecidableEq

section Assignment

variable {δ R ρ : Type} [DecidableEq δ] [LE R] [DecidableLE R] [Add R] [Div R] [OfNat R 2]

/-- `statistics.median`. -/
def median (values : List R) : Except OrderError R :=
  let sorted := values.mergeSort fun first second => decide (first ≤ second)
  let middle := sorted.length / 2
  if sorted.length % 2 = 1 then
    match sorted[middle]? with
    | some value => .ok value
    | none => .error .indexError
  else
    match sorted[middle - 1]?, sorted[middle]? with
    | some below, some above => .ok ((below + above) / 2)
    | _, _ => .error .statisticsError

def bucketOf (medians : Medians R) (row : Row δ R ρ) : Bucket :=
  if medians.rewardMeanMedian ≤ row.rewardMean then
    if medians.rewardStdMedian ≤ row.rewardStd then .highMeanHighStd else .highMeanLowStd
  else
    if medians.rewardStdMedian ≤ row.rewardStd then .lowMeanHighStd else .lowMeanLowStd

/-- The rows of each domain, in the order in which the domains come up. -/
def byDomain (rows : List (Row δ R ρ)) : List (δ × List (Row δ R ρ)) :=
  rows.foldl (fun domains row => append domains row.category row) []

def assignDomain (domainRows : List (Row δ R ρ)) :
    Except OrderError (List (BucketRow δ R ρ) × Medians R) := do
  let meanMid ← median (domainRows.map Row.rewardMean)
  let stdMid ← median (domainRows.map Row.rewardStd)
  let medians := ⟨meanMid, stdMid⟩
  .ok (domainRows.map fun row => ⟨row, bucketOf medians row⟩, medians)

/-- The rows of each domain with their buckets, and the medians of each domain. -/
def assignBuckets (rows : List (Row δ R ρ)) :
    Except OrderError (List (δ × List (BucketRow δ R ρ)) × List (δ × Medians R)) := do
  let assigned ← (byDomain rows).mapM fun entry => do
    let (domainRows, medians) ← assignDomain entry.2
    .ok (entry.1, domainRows, medians)
  .ok (assigned.map fun entry => (entry.1, entry.2.1), assigned.map fun entry =>
    (entry.1, entry.2.2))

/-! ### What is assigned -/

theorem exists_median {values : List R} (nonempty : values ≠ []) :
    ∃ value, median values = .ok value := by
  have positive := length_pos_iff.mpr nonempty
  have inside : ∀ place < values.length, ∃ value,
      (values.mergeSort fun first second => decide (first ≤ second))[place]? = some value := by
    intro place before
    exact ⟨_, getElem?_eq_getElem (by rwa [length_mergeSort])⟩
  unfold median
  dsimp only
  rw [length_mergeSort]
  split
  · obtain ⟨value, isValue⟩ := inside (values.length / 2) (by omega)
    exact ⟨value, by rw [isValue]⟩
  · obtain ⟨below, isBelow⟩ := inside (values.length / 2 - 1) (by omega)
    obtain ⟨above, isAbove⟩ := inside (values.length / 2) (by omega)
    exact ⟨_, by rw [isBelow, isAbove]⟩

omit [LE R] [DecidableLE R] [Add R] [Div R] [OfNat R 2] in
theorem column_byDomain (rows : List (Row δ R ρ)) (domain : δ) :
    column (byDomain rows) domain = rows.filter fun row => row.category = domain := by
  rw [byDomain, column_foldl_label]
  rfl

omit [LE R] [DecidableLE R] [Add R] [Div R] [OfNat R 2] in
theorem nodup_keys_byDomain (rows : List (Row δ R ρ)) :
    ((byDomain rows).map Prod.fst).Nodup :=
  nodup_keys_foldl_label Row.category rows nodup_nil

omit [LE R] [DecidableLE R] [Add R] [Div R] [OfNat R 2] in
theorem rows_ne_nil_of_mem_byDomain {rows : List (Row δ R ρ)} {entry : δ × List (Row δ R ρ)}
    (isEntry : entry ∈ byDomain rows) : entry.2 ≠ [] := by
  have isKey : entry.1 ∈ (byDomain rows).map Prod.fst := mem_map_of_mem isEntry
  rw [byDomain, mem_keys_foldl_label] at isKey
  obtain ⟨row, isRow, isCategory⟩ := isKey.resolve_left not_mem_nil
  rw [← column_eq_of_mem (nodup_keys_byDomain rows) isEntry, column_byDomain]
  exact ne_nil_of_mem (mem_filter.mpr ⟨isRow, by simpa using isCategory⟩)

omit [DecidableEq δ] in
theorem exists_assignDomain {domainRows : List (Row δ R ρ)} (nonempty : domainRows ≠ []) :
    ∃ assigned, assignDomain domainRows = .ok assigned ∧
      assigned.1.map BucketRow.row = domainRows := by
  have means : domainRows.map Row.rewardMean ≠ [] := by simpa using nonempty
  have stds : domainRows.map Row.rewardStd ≠ [] := by simpa using nonempty
  obtain ⟨meanMid, isMean⟩ := exists_median means
  obtain ⟨stdMid, isStd⟩ := exists_median stds
  refine ⟨_, by rw [assignDomain, isMean, isStd]; rfl, ?_⟩
  simp [Function.comp_def]

/-- Every row gets a bucket, and keeps its place in its domain. -/
theorem exists_assignBuckets (rows : List (Row δ R ρ)) :
    ∃ assigned, assignBuckets rows = .ok assigned ∧
      (assigned.1.map Prod.fst).Nodup ∧
      ∀ domain, (column assigned.1 domain).map BucketRow.row =
        rows.filter fun row => row.category = domain := by
  obtain ⟨assigned, isAssigned, each⟩ : ∃ assigned,
      (byDomain rows).mapM (fun entry => do
        let (domainRows, medians) ← assignDomain entry.2
        .ok (entry.1, domainRows, medians)) = Except.ok (ε := OrderError) assigned ∧
      List.Forall₂ (fun entry entry' => entry'.1 = entry.1 ∧
        entry'.2.1.map BucketRow.row = entry.2) (byDomain rows) assigned := by
    refine exists_mapM_forall₂ fun entry isEntry => ?_
    obtain ⟨found, isFound, sameRows⟩ :=
      exists_assignDomain (rows_ne_nil_of_mem_byDomain isEntry)
    exact ⟨(entry.1, found.1, found.2), by rw [isFound]; rfl, rfl, sameRows⟩
  let Related (domainRows : List (Row δ R ρ)) (bucketRows : List (BucketRow δ R ρ)) : Prop :=
    bucketRows.map BucketRow.row = domainRows
  have related : List.Forall₂ (fun entry entry' => entry'.1 = entry.1 ∧
      Related entry.2 entry'.2) (byDomain rows)
      (assigned.map fun entry => (entry.1, entry.2.1)) := by
    rw [forall₂_map_right_iff]
    exact each
  refine ⟨_, by rw [assignBuckets, isAssigned]; rfl, ?_, fun domain => ?_⟩
  · rw [keys_of_forall₂ Related related]
    exact nodup_keys_byDomain rows
  · rw [← column_byDomain]
    exact column_of_forall₂ Related rfl related domain

end Assignment

/-! ## The order in a domain -/

inductive Schedule where
  | fourStage
  | curriculumMix
  | random
  deriving DecidableEq

section Ordering

variable {σ α δ R ρ : Type} (rng : Rng σ)

/-- The element at a chosen position. -/
def chosen (items : List α) (place : ℕ) : Except OrderError α :=
  match items[place]? with
  | some item => .ok item
  | none => .error .indexError

/-- `queues[key].popleft()`. -/
def popleftOf [DecidableEq δ] (queues : Queues δ α) (key : δ) :
    Except OrderError (α × Queues δ α) :=
  match popleft queues key with
  | some popped => .ok popped
  | none => .error .indexError

/-- Shuffle the values of a dictionary in the order of its keys. -/
def shuffleValues {κ : Type} : List (κ × List α) → σ → List (κ × List α) × σ
  | [], random => ([], random)
  | (key, values) :: rest, random =>
    let (values, random) := rng.shuffle values random
    let (rest, random) := shuffleValues rest random
    ((key, values) :: rest, random)

def phases : List (Bucket → ℚ) :=
  [fun
    | .highMeanLowStd => 70 / 100
    | .lowMeanLowStd => 20 / 100
    | .highMeanHighStd => 10 / 100
    | .lowMeanHighStd => 0,
   fun
    | .highMeanLowStd => 30 / 100
    | .lowMeanLowStd => 35 / 100
    | .highMeanHighStd => 25 / 100
    | .lowMeanHighStd => 10 / 100,
   fun
    | .highMeanLowStd => 15 / 100
    | .lowMeanLowStd => 25 / 100
    | .highMeanHighStd => 35 / 100
    | .lowMeanHighStd => 25 / 100]

/-- The queues of the buckets, what has been taken from them, and the source of choices. -/
structure Mixing (σ α : Type) where
  queues : Queues Bucket α
  ordered : List α
  random : σ

/-- Choose a bucket by weight, and any that has rows when that one has none. -/
def mixBucket (weights : List ℚ) (queues : Queues Bucket α) (random : σ) :
    Except OrderError (Bucket × σ) :=
  let drawn := rng.choices weights random
  (chosen bucketOrder drawn.1).bind fun bucket =>
    if (queues bucket).isEmpty then
      let available := bucketOrder.filter fun name => !(queues name).isEmpty
      let drawnAgain := rng.choice available.length drawn.2
      (chosen available drawnAgain.1).map fun bucket => (bucket, drawnAgain.2)
    else .ok (bucket, drawn.2)

/-- Take one row from a bucket. -/
def mixStep (weights : List ℚ) (mixing : Mixing σ α) : Except OrderError (Mixing σ α) := do
  let (bucket, random) ← mixBucket rng weights mixing.queues mixing.random
  let (row, queues) ← popleftOf mixing.queues bucket
  .ok ⟨queues, mixing.ordered ++ [row], random⟩

/-- Take rows until as many as wanted are taken or none is left. -/
def mixPhase (weights : List ℚ) : ℕ → Mixing σ α → Except OrderError (Mixing σ α)
  | 0, mixing => .ok mixing
  | target + 1, mixing =>
    if noneWaits bucketOrder mixing.queues then .ok mixing
    else do
      let mixing ← mixStep rng weights mixing
      mixPhase weights target mixing

/-- Mix the buckets in three phases, then take what is left. -/
def curriculumMixOrder (buckets : List (Bucket × List α)) (random : σ) :
    Except OrderError (List α × σ) := do
  let total := (buckets.map fun entry => entry.2.length).sum
  let phaseSize := max 1 (total / phases.length)
  let mixing ← phases.foldlM (fun mixing phase =>
    mixPhase rng (bucketOrder.map phase) (min phaseSize (total - mixing.ordered.length)) mixing)
    ⟨column buckets, [], random⟩
  .ok (mixing.ordered ++ bucketOrder.flatMap mixing.queues, mixing.random)

def splitBuckets (domainRows : List (BucketRow δ R ρ)) : List (Bucket × List (BucketRow δ R ρ)) :=
  domainRows.foldl (fun buckets row => append buckets row.bucket row)
    (bucketOrder.map fun bucket => (bucket, []))

def orderDomainRows (schedule : Schedule) (domainRows : List (BucketRow δ R ρ)) (random : σ) :
    Except OrderError (List (BucketRow δ R ρ) × σ) :=
  let (buckets, random) := shuffleValues rng (splitBuckets domainRows) random
  match schedule with
  | .random => .ok (rng.shuffle domainRows random)
  | .fourStage => .ok (bucketOrder.flatMap (column buckets), random)
  | .curriculumMix => curriculumMixOrder rng buckets random

/-! ### What is ordered -/

theorem mem_bucketOrder (bucket : Bucket) : bucket ∈ bucketOrder := by
  cases bucket <;> decide

theorem exists_chosen {items : List α} {place : ℕ} (inside : place < items.length) :
    ∃ item ∈ items, chosen items place = .ok item := by
  refine ⟨items[place], getElem_mem inside, ?_⟩
  rw [chosen, getElem?_eq_getElem inside]

theorem exists_popleftOf [DecidableEq δ] {queues : Queues δ α} {key : δ}
    (waits : queues key ≠ []) :
    ∃ popped, popleftOf queues key = .ok popped ∧ popleft queues key = some popped := by
  cases isQueue : queues key with
  | nil => exact absurd isQueue waits
  | cons item rest =>
    have popped := popleft_eq_some_iff.mpr ⟨rest, isQueue, rfl⟩
    exact ⟨_, by rw [popleftOf, popped], popped⟩

theorem forall₂_shuffleValues {κ : Type} (entries : List (κ × List α)) (random : σ) :
    List.Forall₂ (fun entry entry' => entry'.1 = entry.1 ∧ entry'.2.Perm entry.2) entries
      (shuffleValues rng entries random).1 := by
  induction entries generalizing random with
  | nil => exact .nil
  | cons entry rest ih => exact .cons ⟨rfl, rng.shuffle_perm entry.2 random⟩ (ih _)

theorem column_splitBuckets (domainRows : List (BucketRow δ R ρ)) (bucket : Bucket) :
    column (splitBuckets domainRows) bucket = domainRows.filter fun row => row.bucket = bucket := by
  rw [splitBuckets, column_foldl_label]
  cases bucket <;> rfl

theorem column_shuffleValues_perm (domainRows : List (BucketRow δ R ρ)) (random : σ)
    (bucket : Bucket) :
    (column (shuffleValues rng (splitBuckets domainRows) random).1 bucket).Perm
      (domainRows.filter fun row => row.bucket = bucket) := by
  rw [← column_splitBuckets]
  exact column_of_forall₂ (fun rows rows' => rows'.Perm rows) (List.Perm.refl [])
    (forall₂_shuffleValues rng _ random) bucket

variable {rng} {label : α → Bucket} {filled : Queues Bucket α}

variable {weights : List ℚ}

theorem exists_mixBucket (fits : weights.length = bucketOrder.length) {queues : Queues Bucket α}
    (waits : noneWaits bucketOrder queues = false) (random : σ) :
    ∃ found, mixBucket rng weights queues random = .ok found ∧ queues found.1 ≠ [] := by
  have someWeight : weights ≠ [] := by
    rintro rfl
    cases fits
  have inside := rng.choices_lt someWeight random
  rw [fits] at inside
  obtain ⟨first, -, isFirst⟩ := exists_chosen inside
  unfold mixBucket
  dsimp only
  rw [isFirst]
  by_cases noRow : (queues first).isEmpty = true
  · have someBucket : 0 < (bucketOrder.filter fun name => !(queues name).isEmpty).length := by
      rw [length_pos_iff, Ne, filter_eq_nil_iff]
      intro none
      rw [Bool.eq_false_iff] at waits
      exact waits (noneWaits_iff.mpr fun key isKey => by simpa using none key isKey)
    obtain ⟨bucket, isIn, isChosen⟩ :=
      exists_chosen (rng.choice_lt someBucket (rng.choices weights random).2)
    refine ⟨_, by rw [Except.bind, if_pos noRow, isChosen]; rfl, ?_⟩
    simpa using (mem_filter.mp isIn).2
  · exact ⟨_, by rw [Except.bind, if_neg noRow], by simpa using noRow⟩

theorem exists_mixStep (fits : weights.length = bucketOrder.length) {mixing : Mixing σ α}
    (drains : Drains label filled mixing.queues mixing.ordered)
    (waits : noneWaits bucketOrder mixing.queues = false) :
    ∃ mixing', mixStep rng weights mixing = .ok mixing' ∧
      Drains label filled mixing'.queues mixing'.ordered := by
  obtain ⟨found, isFound, someRow⟩ := exists_mixBucket fits waits mixing.random
  obtain ⟨popped, isPopped, isFront⟩ := exists_popleftOf someRow
  refine ⟨⟨popped.2, mixing.ordered ++ [popped.1], found.2⟩, ?_, drains.popleft isFront⟩
  rw [mixStep, isFound, ok_bind]
  dsimp only
  rw [isPopped, ok_bind]

theorem exists_mixPhase (fits : weights.length = bucketOrder.length) (target : ℕ)
    {mixing : Mixing σ α} (drains : Drains label filled mixing.queues mixing.ordered) :
    ∃ mixing', mixPhase rng weights target mixing = .ok mixing' ∧
      Drains label filled mixing'.queues mixing'.ordered := by
  induction target generalizing mixing with
  | zero => exact ⟨mixing, rfl, drains⟩
  | succ target ih =>
    rw [mixPhase]
    split
    · exact ⟨mixing, rfl, drains⟩
    · rename_i waits
      obtain ⟨mixing', isStep, drains'⟩ := exists_mixStep fits drains (by simpa using waits)
      rw [isStep, ok_bind]
      exact ih drains'

/-- The phases and the rest take all rows, those of each bucket in their order. -/
theorem exists_curriculumMixOrder {buckets : List (Bucket × List α)}
    (labelled : ∀ bucket, ∀ row ∈ column buckets bucket, label row = bucket) (random : σ) :
    ∃ found, curriculumMixOrder rng buckets random = .ok found ∧
      ∀ bucket, found.1.filter (fun row => label row = bucket) = column buckets bucket := by
  have run : ∀ (phases : List (Bucket → ℚ)) (target : Mixing σ α → ℕ) (mixing : Mixing σ α),
      Drains label (column buckets) mixing.queues mixing.ordered →
      ∃ mixing', phases.foldlM (fun mixing phase =>
          mixPhase rng (bucketOrder.map phase) (target mixing) mixing) mixing = .ok mixing' ∧
        Drains label (column buckets) mixing'.queues mixing'.ordered := by
    intro phases target
    induction phases with
    | nil => exact fun mixing drains => ⟨mixing, rfl, drains⟩
    | cons phase rest ih =>
      intro mixing drains
      obtain ⟨mixing', isPhase, drains'⟩ :=
        exists_mixPhase (length_map phase) (target mixing) drains
      rw [foldlM_cons, isPhase, ok_bind]
      exact ih mixing' drains'
  obtain ⟨mixing, ran, drains⟩ := run phases _ ⟨column buckets, [], random⟩ (.start labelled)
  refine ⟨_, by rw [curriculumMixOrder, ran, ok_bind], ?_⟩
  have different : bucketOrder.Nodup := by decide
  refine (drains.extend different).filter_eq fun bucket => ?_
  rw [if_pos (mem_bucketOrder bucket)]

variable (rng) in
/-- The order of a domain is a permutation of its rows, and with four stages it is sorted by
bucket. -/
theorem exists_orderDomainRows (schedule : Schedule) (domainRows : List (BucketRow δ R ρ))
    (random : σ) :
    ∃ found, orderDomainRows rng schedule domainRows random = .ok found ∧
      found.1.Perm domainRows ∧
      (schedule = .fourStage → found.1.Pairwise fun first second =>
        bucketOrder.idxOf first.bucket ≤ bucketOrder.idxOf second.bucket) := by
  have shuffled := column_shuffleValues_perm rng domainRows random
  have labelled : ∀ bucket,
      ∀ row ∈ column (shuffleValues rng (splitBuckets domainRows) random).1 bucket,
        row.bucket = bucket := by
    intro bucket row isRow
    have isIn := (shuffled bucket).mem_iff.mp isRow
    simpa using (mem_filter.mp isIn).2
  cases schedule with
  | random =>
    exact ⟨_, rfl, rng.shuffle_perm domainRows _, fun same => absurd same (by decide)⟩
  | fourStage =>
    refine ⟨_, rfl, perm_of_filter_perm BucketRow.bucket fun bucket => ?_, fun _ => ?_⟩
    · rw [Library.filter_flatMap labelled (by decide), if_pos (mem_bucketOrder bucket)]
      exact shuffled bucket
    · refine pairwise_flatMap.mpr ⟨fun bucket _ => ?_, ?_⟩
      · -- rows of one bucket
        refine pairwise_of_forall_mem_list fun first isFirst second isSecond => ?_
        rw [labelled bucket first isFirst, labelled bucket second isSecond]
      · -- rows of an earlier and of a later bucket
        have increasing : bucketOrder.Pairwise fun first second =>
            bucketOrder.idxOf first ≤ bucketOrder.idxOf second := by decide
        refine increasing.imp fun earlier first isFirst second isSecond => ?_
        rw [labelled _ first isFirst, labelled _ second isSecond]
        exact earlier
  | curriculumMix =>
    obtain ⟨found, isFound, parts⟩ := exists_curriculumMixOrder labelled
      (shuffleValues rng (splitBuckets domainRows) random).2
    refine ⟨found, isFound, ?_, fun same => absurd same (by decide)⟩
    refine perm_of_filter_perm BucketRow.bucket fun bucket => ?_
    rw [parts bucket]
    exact shuffled bucket

end Ordering

/-! ## The domains mixed -/

inductive Balance where
  | ratio
  | random
  | sequentialDomain
  deriving DecidableEq

section Interleaving

variable {σ δ α : Type} [DecidableEq δ] [LE δ] [DecidableLE δ] (rng : Rng σ)

/-- The domains that have rows, those of the wanted order first. -/
def orderedDomainNames (orderedByDomain : List (δ × List α)) (domainOrder : List δ) : List δ :=
  let available := (orderedByDomain.filter fun entry => !entry.2.isEmpty).map Prod.fst
  let names := domainOrder.foldl
    (fun names domain => if domain ∈ available ∧ domain ∉ names then names ++ [domain] else names)
    []
  let sorted := available.mergeSort fun first second => decide (first ≤ second)
  names ++ sorted.filter fun domain => domain ∉ names

/-- Each domain as often as its ratio, which is one if it has none. -/
def cycleOf (domainRatio : List (δ × ℤ)) (names : List δ) : List δ :=
  names.flatMap fun domain => List.replicate ((valueAt domainRatio domain).getD 1).toNat domain

/-- The queues, the rows taken from them, and whether a row was taken in this pass. -/
structure Turns (δ α : Type) where
  queues : Queues δ α
  rows : List α
  madeProgress : Bool

def takeTurn (turns : Turns δ α) (domain : δ) : Turns δ α :=
  match popleft turns.queues domain with
  | some (row, queues) => ⟨queues, turns.rows ++ [row], true⟩
  | none => turns

/-- Take a row at each place of the cycle. When there is none, take one from each domain. -/
def ratioPass (names cycle : List δ) (queues : Queues δ α) (rows : List α) : Turns δ α :=
  let turns := cycle.foldl takeTurn ⟨queues, rows, false⟩
  if turns.madeProgress then turns
  else (names.filter fun domain => !(turns.queues domain).isEmpty).foldl takeTurn turns

def ratioBody (names cycle : List δ) : LoopBody OrderError (Queues δ α × List α) (List α) :=
  fun _ state =>
    if noneWaits names state.1 then .ok (.inr state.2)
    else
      let turns := ratioPass names cycle state.1 state.2
      .ok (.inl (turns.queues, turns.rows))

/-- The loop that takes one row from a domain that is chosen. -/
def randomBody (names : List δ) : LoopBody OrderError (Queues δ α × List α × σ) (List α) :=
  fun _ state =>
    if noneWaits names state.1 then .ok (.inr state.2.1)
    else do
      let activeDomains := names.filter fun domain => !(state.1 domain).isEmpty
      let (place, random) := rng.choice activeDomains.length state.2.2
      let domain ← chosen activeDomains place
      let (row, queues) ← popleftOf state.1 domain
      .ok (.inl (queues, state.2.1 ++ [row], random))

/-- Mix the domains, in at most as many passes as there is fuel. -/
def interleaveDomains (fuel : ℕ) (orderedByDomain : List (δ × List α)) (domainBalance : Balance)
    (domainRatio : List (δ × ℤ)) (random : σ) (domainOrder : List δ) :
    Except OrderError (Option (List α)) :=
  let names := orderedDomainNames orderedByDomain domainOrder
  let queues := column orderedByDomain
  match domainBalance with
  | .sequentialDomain => .ok (some (names.flatMap queues))
  | .random =>
    if cycleOf domainRatio names = [] then .error .valueError
    else (randomBody rng names).execute fuel 0 (queues, [], random)
  | .ratio =>
    if cycleOf domainRatio names = [] then .error .valueError
    else (ratioBody names (cycleOf domainRatio names)).execute fuel 0 (queues, [])

end Interleaving

/-! ## The whole order -/

section Pipeline

variable {σ δ R ρ : Type} [DecidableEq δ] [LE δ] [DecidableLE δ]
variable [LE R] [DecidableLE R] [Add R] [Div R] [OfNat R 2] (rng : Rng σ)

/-- Order the rows of each domain, in the order in which the domains came up. -/
def orderDomains (schedule : Schedule) (domains : List (δ × List (BucketRow δ R ρ)))
    (random : σ) : Except OrderError (List (δ × List (BucketRow δ R ρ)) × σ) :=
  mapAccumM (fun entry random =>
    (orderDomainRows rng schedule entry.2 random).map fun found => ((entry.1, found.1), found.2))
    domains random

def effectiveDomainRatio (domainRatio : List (δ × ℤ)) (domains : List δ) : List (δ × ℤ) :=
  (domains.mergeSort fun first second => decide (first ≤ second)).map fun domain =>
    (domain, (valueAt domainRatio domain).getD 1)

def trainOrder (fuel : ℕ) (rows : List (Row δ R ρ)) (schedule : Schedule)
    (domainBalance : Balance) (domainRatio : List (δ × ℤ)) (domainOrder : List δ) (random : σ) :
    Except OrderError (Option (List (BucketRow δ R ρ))) := do
  let (domains, _) ← assignBuckets rows
  let (orderedByDomain, random) ← orderDomains rng schedule domains random
  interleaveDomains rng fuel orderedByDomain domainBalance
    (effectiveDomainRatio domainRatio (domains.map Prod.fst)) random domainOrder

end Pipeline

end Geobench.Tools
