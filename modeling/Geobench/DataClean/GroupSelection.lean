import Geobench.DataClean.GroupCandidates
import Geobench.DataClean.Probabilities

/-!
# Selection inside the groups

`group_select` splits the scored rows into the groups that their paths name. In a group with several
rows it draws or ranks as many as it should keep, and marks each row whose item id is that of one
that was picked.

**`selectsWell_iff`**: every group has as many marked rows as it should exactly when no row that is
left out has the item id of one that is picked. Different item ids are enough
(`distinguishable_of_nodup`). `preparesAndSelects_iff` puts this together with the candidates.
-/

namespace Geobench.DataClean

open Library List

/-! ## Rows -/

/-- A row of the scorer: its path and item id as texts and its deviation as a number, where they can
be read, and its other fields. -/
structure StatRow (K : Type) where
  relativePath : Text
  itemId : Option Text
  rewardStd : Option K
  others : GroupRow

structure MemberRow (K : Type) where
  row : StatRow K
  groupId : Text
  groupMemberStem : Text

/-- What `compute_group_probabilities` adds to a row. -/
structure ScoredRow (K : Type) where
  member : MemberRow K
  groupRewardStdStd : K
  sVar : K
  value : K
  probability : K

structure OutputRow (K : Type) where
  member : MemberRow K
  scores : Option (ScoredRow K)
  groupSize : ℕ
  selectionReason : Text
  selected : Bool

structure SelectionSummary where
  matchedGroups : ℕ
  totalRows : ℕ
  singletonGroups : ℕ
  multiItemGroups : ℕ
  selectedRows : ℕ

structure GroupResult (K : Type) where
  outputRows : List (OutputRow K)
  summary : SelectionSummary
  selectedRows : List (OutputRow K)

inductive SelectionMode where
  | weighted
  | topk

def SelectionMode.name : SelectionMode → Text
  | .weighted => "weighted".toList
  | .topk => "topk".toList

/-- The arguments of the selection. `main` refuses a count that is not positive. -/
structure GroupArgs (K : Type) where
  keepCount : ℕ
  keepCount_pos : 1 ≤ keepCount
  selectionMode : SelectionMode
  epsilon : K

section Selecting

variable {K : Type} [Field K] [LinearOrder K]

/-- The row can be scored and marked. -/
def MemberRow.Readable (member : MemberRow K) : Prop :=
  member.row.itemId.isSome ∧ member.row.rewardStd.isSome

instance (member : MemberRow K) : Decidable member.Readable :=
  inferInstanceAs (Decidable (_ ∧ _))

def MemberRow.ofStatRow (row : StatRow K) : MemberRow K where
  row := row
  groupId := (inferGroupFromRelativePath row.relativePath).1
  groupMemberStem := (inferGroupFromRelativePath row.relativePath).2

variable (np : Numpy K)

def computeGroupProbabilities (epsilon : K) (rows : List (MemberRow K)) : List (ScoredRow K) :=
  let rewardStds := rows.map fun member => member.row.rewardStd.getD 0
  let weights := rewardStds.map (· + epsilon)
  (rows.zip rewardStds).map fun scored =>
    { member := scored.1
      groupRewardStdStd := np.std rewardStds
      sVar := scored.2
      value := probabilityOf weights (scored.2 + epsilon)
      probability := probabilityOf weights (scored.2 + epsilon) }

def sortedKeys (random : ℕ → K) (rows : List (ScoredRow K)) : List (K × ScoredRow K) :=
  (rows.zipIdx.map fun placed =>
    (selectionScore np (random placed.2) placed.1.probability, placed.1)).mergeSort
      fun first second => decide (second.1 ≤ first.1)

def weightedSample (random : ℕ → K) (rows : List (ScoredRow K)) (keepCount : ℕ) :
    List (ScoredRow K) :=
  if rows.length ≤ keepCount then rows
  else ((sortedKeys np random rows).take keepCount).map Prod.snd

/-- The order of the keys of `topk_select`. -/
def topkLe (first second : ScoredRow K) : Bool :=
  let firstId := first.member.row.itemId.getD []
  let secondId := second.member.row.itemId.getD []
  decide (first.sVar < second.sVar ∨ first.sVar = second.sVar ∧
    (first.probability < second.probability ∨ first.probability = second.probability ∧
      (first.member.row.relativePath < second.member.row.relativePath ∨
        first.member.row.relativePath = second.member.row.relativePath ∧ firstId ≤ secondId)))

def topkRanked (rows : List (ScoredRow K)) : List (ScoredRow K) :=
  rows.mergeSort fun first second => topkLe second first

def topkSelect (rows : List (ScoredRow K)) (keepCount : ℕ) : List (ScoredRow K) :=
  (topkRanked rows).take keepCount

variable (args : GroupArgs K) (random : ℕ → K)

def pick (rows : List (ScoredRow K)) (keepCount : ℕ) : List (ScoredRow K) :=
  match args.selectionMode with
  | .weighted => weightedSample np random rows keepCount
  | .topk => topkSelect rows keepCount

/-- The rows of one group that come out, and how many are counted as selected. A row of several
that cannot be read raises. -/
def selectGroup (group : Text × List (MemberRow K)) : Option (List (OutputRow K) × ℕ) :=
  match group.2 with
  | [member] =>
    some ([{ member := member
             scores := none
             groupSize := 1
             selectionReason := "singleton_group".toList
             selected := true }], 1)
  | rows =>
    if ∀ member ∈ rows, member.Readable then
      let scoredRows := computeGroupProbabilities np args.epsilon rows
      let picked := pick np args random scoredRows (min args.keepCount rows.length)
      let pickedIds := picked.map fun row => row.member.row.itemId
      some (scoredRows.map fun row =>
        { member := row.member
          scores := some row
          groupSize := rows.length
          selectionReason := "group_".toList ++ args.selectionMode.name
          selected := decide (row.member.row.itemId ∈ pickedIds) }, picked.length)
    else none

def outputLe (first second : OutputRow K) : Bool :=
  decide (first.member.groupId < second.member.groupId ∨
    first.member.groupId = second.member.groupId ∧
      first.member.row.relativePath ≤ second.member.row.relativePath)

def groupSelect (imageStats : List (StatRow K)) : Option (GroupResult K) :=
  let grouped := groupBy MemberRow.groupId (imageStats.map MemberRow.ofStatRow)
  ((sortedGroups grouped).mapM (selectGroup np args random)).map fun results =>
    let outputRows := results.flatMap Prod.fst
    { outputRows := outputRows.mergeSort outputLe
      summary :=
        { matchedGroups := grouped.length
          totalRows := imageStats.length
          singletonGroups := grouped.countP (·.2.length = 1)
          multiItemGroups := grouped.countP (·.2.length ≠ 1)
          selectedRows := (results.map Prod.snd).sum }
      selectedRows := (outputRows.filter (·.selected)).mergeSort outputLe }

/-! ## The rows of a group -/

/-- The rows in the order in which they are picked. -/
def ranked (rows : List (ScoredRow K)) : List (ScoredRow K) :=
  match args.selectionMode with
  | .weighted => (sortedKeys np random rows).map Prod.snd
  | .topk => topkRanked rows

theorem ranked_perm (rows : List (ScoredRow K)) : (ranked np args random rows).Perm rows := by
  rw [ranked]
  split
  · have rearranged := mergeSort_perm (rows.zipIdx.map fun placed =>
      (selectionScore np (random placed.2) placed.1.probability, placed.1))
      fun first second => decide (second.1 ≤ first.1)
    have values := rearranged.map Prod.snd
    rw [map_map] at values
    exact values.trans (List.Perm.of_eq (zipIdx_map_fst 0 rows))
  · exact mergeSort_perm rows _

theorem pick_perm (rows : List (ScoredRow K)) (keepCount : ℕ) :
    (pick np args random rows keepCount).Perm ((ranked np args random rows).take keepCount) := by
  have length := (ranked_perm np args random rows).length_eq
  rw [pick]
  cases isMode : args.selectionMode with
  | weighted =>
    dsimp only
    rw [weightedSample]
    split
    · rename_i all
      rw [take_of_length_le (length ▸ all)]
      exact (ranked_perm np args random rows).symm
    · rw [ranked, isMode, map_take]
  | topk =>
    dsimp only
    rw [topkSelect, ranked, isMode]

theorem map_member_computeGroupProbabilities (epsilon : K) (rows : List (MemberRow K)) :
    (computeGroupProbabilities np epsilon rows).map ScoredRow.member = rows := by
  rw [computeGroupProbabilities, map_map]
  exact map_fst_zip (by rw [length_map])

def scoredIn (group : Text × List (MemberRow K)) : List (ScoredRow K) :=
  computeGroupProbabilities np args.epsilon group.2

theorem length_scoredIn (group : Text × List (MemberRow K)) :
    (scoredIn np args group).length = group.2.length := by
  rw [scoredIn, ← length_map (f := ScoredRow.member), map_member_computeGroupProbabilities]

/-- The ids of the rows that are picked, in a group with several rows. -/
def pickedIn (group : Text × List (MemberRow K)) : List (Option Text) :=
  ((ranked np args random (scoredIn np args group)).take args.keepCount).map
    fun row => row.member.row.itemId

/-- No row that is left out has the item id of one that is picked. -/
def LeavesApart (group : Text × List (MemberRow K)) : Prop :=
  ∀ row ∈ (ranked np args random (scoredIn np args group)).drop args.keepCount,
    row.member.row.itemId ∉ pickedIn np args random group

/-- The rows whose id is picked are the picked ones exactly when the others are apart. -/
theorem countP_picked_iff (group : Text × List (MemberRow K)) :
    (scoredIn np args group).countP
        (fun row => row.member.row.itemId ∈ pickedIn np args random group) =
      min args.keepCount group.2.length ↔ LeavesApart np args random group := by
  have rearranged := ranked_perm np args random (scoredIn np args group)
  have length := rearranged.length_eq.trans (length_scoredIn np args group)
  have all : ((ranked np args random (scoredIn np args group)).take args.keepCount).countP
      (fun row => row.member.row.itemId ∈ pickedIn np args random group) =
        min args.keepCount group.2.length := by
    rw [← length, ← length_take]
    refine countP_eq_length.mpr fun row isPicked => decide_eq_true ?_
    exact mem_map_of_mem (f := fun row : ScoredRow K => row.member.row.itemId) isPicked
  rw [← rearranged.countP_eq, ← take_append_drop args.keepCount
    (ranked np args random (scoredIn np args group)), countP_append, all,
    Nat.add_eq_left, countP_eq_zero]
  simp only [decide_eq_true_eq]
  rfl

theorem take_ranked_min (group : Text × List (MemberRow K)) :
    (ranked np args random (scoredIn np args group)).take (min args.keepCount group.2.length) =
      (ranked np args random (scoredIn np args group)).take args.keepCount := by
  have length := (ranked_perm np args random (scoredIn np args group)).length_eq
  rw [length_scoredIn] at length
  rw [← length, ← take_eq_take_min]

/-- What a group gives: its rows, as many counted as it should keep, and as many marked if the
others are apart from the picked ones. -/
theorem selectGroup_eq_some {group : Text × List (MemberRow K)}
    {given : List (OutputRow K) × ℕ}
    (isGiven : selectGroup np args random group = some given) :
    given.1.map OutputRow.member = group.2 ∧ given.2 = min args.keepCount group.2.length ∧
      (given.1.countP (·.selected) = min args.keepCount group.2.length ↔
        LeavesApart np args random group) := by
  obtain ⟨label, rows⟩ := group
  have positive := args.keepCount_pos
  rw [selectGroup] at isGiven
  dsimp only at isGiven
  split at isGiven
  · rename_i member
    cases isGiven
    have one : min args.keepCount [member].length = 1 := by
      rw [length_singleton]
      omega
    refine ⟨rfl, one.symm, iff_of_true ?_ fun row isRow => ?_⟩
    · rw [one]
      rfl
    · -- the only row is picked
      have length := (ranked_perm np args random (scoredIn np args (label, [member]))).length_eq
      rw [length_scoredIn, length_singleton] at length
      rw [drop_of_length_le (by omega)] at isRow
      cases isRow
  · split at isGiven
    · rw [Option.some.injEq] at isGiven
      have picked := pick_perm np args random (scoredIn np args (label, rows))
        (min args.keepCount rows.length)
      have first := take_ranked_min np args random (label, rows)
      dsimp only at first
      rw [first] at picked
      have ids : ∀ itemId, itemId ∈ (pick np args random (scoredIn np args (label, rows))
          (min args.keepCount rows.length)).map (fun row => row.member.row.itemId) ↔
          itemId ∈ pickedIn np args random (label, rows) := fun _ => (picked.map _).mem_iff
      subst isGiven
      refine ⟨?_, ?_, ?_⟩
      · rw [map_map]
        exact map_member_computeGroupProbabilities np args.epsilon rows
      · have length := (ranked_perm np args random (scoredIn np args (label, rows))).length_eq
        rw [length_scoredIn] at length
        exact picked.length_eq.trans (by rw [length_take, length])
      · rw [← countP_picked_iff, countP_map]
        refine Eq.congr_left (countP_congr fun row _ => ?_)
        change decide (_ ∈ _) = true ↔ _
        rw [decide_eq_true_eq, decide_eq_true_eq]
        exact ids row.member.row.itemId
    · cases isGiven

theorem isSome_selectGroup_iff (group : Text × List (MemberRow K)) :
    (selectGroup np args random group).isSome ↔
      group.2.length = 1 ∨ ∀ member ∈ group.2, member.Readable := by
  obtain ⟨label, rows⟩ := group
  rw [selectGroup]
  dsimp only
  split
  · exact iff_of_true rfl (.inl rfl)
  · rename_i several
    have notOne : rows.length ≠ 1 := fun one => by
      obtain ⟨member, same⟩ := length_eq_one_iff.mp one
      exact several member same
    split
    · rename_i readable
      exact iff_of_true rfl (.inr readable)
    · rename_i unreadable
      exact iff_of_false (by simp) (not_or.mpr ⟨notOne, unreadable⟩)

/-! ## The claim about the selection -/

def groupsOf (imageStats : List (StatRow K)) : List (Text × List (MemberRow K)) :=
  groupBy MemberRow.groupId (imageStats.map MemberRow.ofStatRow)

omit [Field K] [LinearOrder K] in
theorem nodup_groupsOf (imageStats : List (StatRow K)) :
    ((groupsOf imageStats).map Prod.fst).Nodup := nodup_keys_groupBy _ _

omit [Field K] [LinearOrder K] in
theorem groupId_of_mem {imageStats : List (StatRow K)} {group : Text × List (MemberRow K)}
    (isGroup : group ∈ groupsOf imageStats) {member : MemberRow K} (isIn : member ∈ group.2) :
    member.groupId = group.1 := by
  rw [eq_filter_of_mem_groupBy isGroup] at isIn
  simpa using (mem_filter.mp isIn).2

def sizeIn (rows : List (OutputRow K)) (groupId : Text) : ℕ :=
  rows.countP fun row => row.member.groupId = groupId

def selectedIn (rows : List (OutputRow K)) (groupId : Text) : ℕ :=
  rows.countP fun row => decide (row.member.groupId = groupId) && row.selected

def groupIds (rows : List (OutputRow K)) : List Text :=
  (rows.map fun row => row.member.groupId).dedup

/-- Each row comes out once in its group, each group has as many selected rows as it should, and
the summary has the counts of the rows. -/
structure SelectedWell (imageStats : List (StatRow K)) (keepCount : ℕ) (result : GroupResult K) :
    Prop where
  rows : (result.outputRows.map OutputRow.member).Perm (imageStats.map MemberRow.ofStatRow)
  counts : ∀ groupId, selectedIn result.outputRows groupId =
    min keepCount (sizeIn result.outputRows groupId)
  matchedGroups : result.summary.matchedGroups = (groupIds result.outputRows).length
  totalRows : result.summary.totalRows = result.outputRows.length
  singletonGroups : result.summary.singletonGroups =
    (groupIds result.outputRows).countP fun groupId => sizeIn result.outputRows groupId = 1
  multiItemGroups : result.summary.multiItemGroups =
    (groupIds result.outputRows).countP fun groupId => sizeIn result.outputRows groupId ≠ 1
  selected : result.summary.selectedRows = result.outputRows.countP (·.selected)
  selectedRows : result.selectedRows.Perm (result.outputRows.filter (·.selected))

def SelectsWell (imageStats : List (StatRow K)) : Prop :=
  ∃ result, groupSelect np args random imageStats = some result ∧
    SelectedWell imageStats args.keepCount result

/-- In a group with several rows all can be read, and no row that is left out has the item id of one
that is picked. -/
def Distinguishable (imageStats : List (StatRow K)) : Prop :=
  ∀ group ∈ groupsOf imageStats,
    (group.2.length = 1 ∨ ∀ member ∈ group.2, member.Readable) ∧
      LeavesApart np args random group

structure Gives (imageStats : List (StatRow K))
    (gives : Text × List (MemberRow K) → List (OutputRow K) × ℕ) : Prop where
  selectGroup : ∀ group ∈ groupsOf imageStats,
    selectGroup np args random group = some (gives group)

variable {np args random}

theorem groupSelect_eq_some {imageStats : List (StatRow K)} {result : GroupResult K}
    (isResult : groupSelect np args random imageStats = some result) :
    ∃ gives, Gives np args random imageStats gives ∧
      result.outputRows.Perm ((groupsOf imageStats).flatMap fun group => (gives group).1) ∧
      result.summary.matchedGroups = (groupsOf imageStats).length ∧
      result.summary.totalRows = imageStats.length ∧
      result.summary.singletonGroups = (groupsOf imageStats).countP (·.2.length = 1) ∧
      result.summary.multiItemGroups = (groupsOf imageStats).countP (·.2.length ≠ 1) ∧
      result.summary.selectedRows = ((groupsOf imageStats).map fun group => (gives group).2).sum ∧
      result.selectedRows.Perm (result.outputRows.filter (·.selected)) := by
  rw [groupSelect, Option.map_eq_some_iff] at isResult
  obtain ⟨results, areResults, rfl⟩ := isResult
  have sorted : (sortedGroups (groupsOf imageStats)).Perm (groupsOf imageStats) :=
    mergeSort_perm _ _
  have areSome : ∀ group ∈ groupsOf imageStats, (selectGroup np args random group).isSome := by
    intro group isGroup
    by_contra isNone
    rw [Option.not_isSome_iff_eq_none] at isNone
    have failed := mapM_eq_none (sorted.mem_iff.mpr isGroup) isNone
    change (sortedGroups (groupsOf imageStats)).mapM _ = some results at areResults
    rw [failed] at areResults
    cases areResults
  have isGiven : ∀ group ∈ groupsOf imageStats, selectGroup np args random group =
      some ((selectGroup np args random group).getD ([], 0)) := by
    intro group isGroup
    obtain ⟨given, isGiven⟩ := Option.isSome_iff_exists.mp (areSome group isGroup)
    rw [isGiven, Option.getD_some]
  have all : (sortedGroups (groupsOf imageStats)).mapM (selectGroup np args random) = _ :=
    mapM_eq_some fun group isGroup => isGiven group (sorted.mem_iff.mp isGroup)
  have same := Option.some.inj (areResults.symm.trans all)
  refine ⟨fun group => (selectGroup np args random group).getD ([], 0), ⟨isGiven⟩, ?_, rfl, rfl,
    rfl, rfl, ?_, ?_⟩
  · refine (mergeSort_perm _ _).trans ?_
    rw [same, flatMap_map]
    exact sorted.flatMap_right _
  · dsimp only
    rw [same, map_map]
    exact (sorted.map _).sum_eq
  · exact (mergeSort_perm _ _).trans ((mergeSort_perm _ _).filter _).symm

theorem isSome_groupSelect {imageStats : List (StatRow K)}
    (areSome : ∀ group ∈ groupsOf imageStats, (selectGroup np args random group).isSome) :
    ∃ result, groupSelect np args random imageStats = some result := by
  have sorted : (sortedGroups (groupsOf imageStats)).Perm (groupsOf imageStats) :=
    mergeSort_perm _ _
  have all : (sortedGroups (groupsOf imageStats)).mapM (selectGroup np args random) =
      some ((sortedGroups (groupsOf imageStats)).map fun group =>
        (selectGroup np args random group).getD ([], 0)) := by
    refine mapM_eq_some fun group isGroup => ?_
    obtain ⟨given, isGiven⟩ :=
      Option.isSome_iff_exists.mp (areSome group (sorted.mem_iff.mp isGroup))
    rw [isGiven, Option.getD_some]
  exact ⟨_, Option.map_eq_some_iff.mpr ⟨_, all, rfl⟩⟩

section Counts

variable {imageStats : List (StatRow K)}
  {gives : Text × List (MemberRow K) → List (OutputRow K) × ℕ}

variable {group : Text × List (MemberRow K)}

theorem Gives.member (given : Gives np args random imageStats gives)
    (isGroup : group ∈ groupsOf imageStats) : (gives group).1.map OutputRow.member = group.2 :=
  (selectGroup_eq_some np args random (given.selectGroup group isGroup)).1

theorem Gives.label (given : Gives np args random imageStats gives)
    (group : Text × List (MemberRow K)) (isGroup : group ∈ groupsOf imageStats)
    (row : OutputRow K) (isRow : row ∈ (gives group).1) : row.member.groupId = group.1 := by
  refine groupId_of_mem isGroup ?_
  rw [← given.member isGroup]
  exact mem_map_of_mem isRow

variable {rows : List (OutputRow K)}

variable (given : Gives np args random imageStats gives)
  (rearranged : rows.Perm ((groupsOf imageStats).flatMap fun group => (gives group).1))
include given rearranged

/-- The rows of a group among all rows. -/
theorem Gives.sizeIn_eq (isGroup : group ∈ groupsOf imageStats) :
    sizeIn rows group.1 = group.2.length := by
  have count := countP_flatMap_group (nodup_groupsOf imageStats) given.label (fun _ => true) isGroup
  simp only [Bool.and_true, countP_true] at count
  rw [sizeIn, rearranged.countP_eq, count, ← given.member isGroup, length_map]

theorem Gives.selectedIn_eq (isGroup : group ∈ groupsOf imageStats) :
    selectedIn rows group.1 = (gives group).1.countP (·.selected) := by
  rw [selectedIn, rearranged.countP_eq]
  exact countP_flatMap_group (nodup_groupsOf imageStats) given.label (·.selected) isGroup

/-- The rows are those that came in. -/
theorem Gives.map_member :
    (rows.map OutputRow.member).Perm (imageStats.map MemberRow.ofStatRow) := by
  have members : ((groupsOf imageStats).flatMap fun group => (gives group).1).map
      OutputRow.member = (groupsOf imageStats).flatMap Prod.snd := by
    rw [map_flatMap]
    exact flatMap_congr fun group isGroup => given.member isGroup
  exact (rearranged.map _).trans (members ▸ flatMap_groupBy_perm _ _)

theorem Gives.groupIds_perm : (groupIds rows).Perm ((groupsOf imageStats).map Prod.fst) := by
  refine (perm_ext_iff_of_nodup (nodup_dedup _) (nodup_groupsOf _)).mpr ?_
  intro groupId
  have labels : (rows.map fun row => row.member.groupId).Perm
      ((imageStats.map MemberRow.ofStatRow).map MemberRow.groupId) := by
    have rearranged := (given.map_member rearranged).map MemberRow.groupId
    rwa [map_map] at rearranged
  change groupId ∈ (rows.map fun row => row.member.groupId).dedup ↔
    groupId ∈ (groupBy MemberRow.groupId (imageStats.map MemberRow.ofStatRow)).map Prod.fst
  rw [mem_dedup, labels.mem_iff, mem_keys_groupBy, mem_map]

/-- Every group has as many marked rows as it should if the rows that are left out are apart. -/
theorem Gives.counts_iff :
    (∀ groupId, selectedIn rows groupId = min args.keepCount (sizeIn rows groupId)) ↔
      ∀ group ∈ groupsOf imageStats, LeavesApart np args random group := by
  have each : ∀ group ∈ groupsOf imageStats, (selectedIn rows group.1 =
      min args.keepCount (sizeIn rows group.1) ↔ LeavesApart np args random group) := by
    intro group isGroup
    rw [given.selectedIn_eq rearranged isGroup, given.sizeIn_eq rearranged isGroup]
    exact (selectGroup_eq_some np args random (given.selectGroup group isGroup)).2.2
  constructor
  · intro counts group isGroup
    exact (each group isGroup).mp (counts group.1)
  · intro apart groupId
    by_cases isKey : groupId ∈ (groupsOf imageStats).map Prod.fst
    · obtain ⟨group, isGroup, rfl⟩ := mem_map.mp isKey
      exact (each group isGroup).mpr (apart group isGroup)
    · -- a group that is none has no rows
      have noRow : ∀ row ∈ rows, row.member.groupId ≠ groupId := by
        intro row isRow same
        refine isKey ((given.groupIds_perm rearranged).mem_iff.mp (mem_dedup.mpr ?_))
        exact mem_map.mpr ⟨row, isRow, same⟩
      have noSize : sizeIn rows groupId = 0 :=
        countP_eq_zero.mpr fun row isRow => by simp [noRow row isRow]
      have noneSelected : selectedIn rows groupId = 0 :=
        countP_eq_zero.mpr fun row isRow => by simp [noRow row isRow]
      rw [noSize, noneSelected, Nat.min_zero]

/-- The number of selected rows is the sum of those of the groups. -/
theorem Gives.countP_selected
    (counts : ∀ groupId, selectedIn rows groupId = min args.keepCount (sizeIn rows groupId)) :
    rows.countP (·.selected) = ((groupsOf imageStats).map fun group => (gives group).2).sum := by
  rw [rearranged.countP_eq, countP_flatMap]
  refine congrArg sum (map_congr_left fun group isGroup => ?_)
  have isGiven := (selectGroup_eq_some np args random (given.selectGroup group isGroup)).2.1
  rw [Function.comp_apply, ← given.selectedIn_eq rearranged isGroup, counts,
    given.sizeIn_eq rearranged isGroup, isGiven]

theorem Gives.countP_sizes (counts : ℕ → Bool) :
    (groupIds rows).countP (fun groupId => counts (sizeIn rows groupId)) =
      (groupsOf imageStats).countP fun group => counts group.2.length := by
  rw [(given.groupIds_perm rearranged).countP_eq, countP_map]
  refine countP_congr fun group isGroup => ?_
  rw [Function.comp_apply, given.sizeIn_eq rearranged isGroup]

end Counts

/-- All is selected well exactly when no row that is left out has the item id of one that is
picked, and the rows can be read. -/
theorem selectsWell_iff (imageStats : List (StatRow K)) :
    SelectsWell np args random imageStats ↔ Distinguishable np args random imageStats := by
  constructor
  · rintro ⟨result, isResult, well⟩
    obtain ⟨gives, given, rearranged, -⟩ := groupSelect_eq_some isResult
    have apart := (given.counts_iff rearranged).mp well.counts
    refine fun group isGroup => ⟨?_, apart group isGroup⟩
    rw [← isSome_selectGroup_iff np args random, given.selectGroup group isGroup]
    rfl
  · intro distinguishable
    obtain ⟨result, isResult⟩ := isSome_groupSelect fun group isGroup =>
      (isSome_selectGroup_iff np args random group).mpr (distinguishable group isGroup).1
    obtain ⟨gives, given, rearranged, matched, total, single, several, selected, flagged⟩ :=
      groupSelect_eq_some isResult
    have counts := (given.counts_iff rearranged).mpr fun group isGroup =>
      (distinguishable group isGroup).2
    have rows := given.map_member rearranged
    refine ⟨result, isResult, rows, counts, ?_, ?_, ?_, ?_, ?_, flagged⟩
    · rw [matched, (given.groupIds_perm rearranged).length_eq, length_map]
    · have length := rows.length_eq
      rw [length_map, length_map] at length
      rw [total, length]
    · exact single.trans (given.countP_sizes rearranged (decide <| · = 1)).symm
    · exact several.trans (given.countP_sizes rearranged (decide <| · ≠ 1)).symm
    · exact selected.trans (given.countP_selected rearranged counts).symm

/-- Different item ids are enough, in the groups that have more rows than are kept. -/
theorem distinguishable_of_nodup {imageStats : List (StatRow K)}
    (readable : ∀ group ∈ groupsOf imageStats,
      group.2.length = 1 ∨ ∀ member ∈ group.2, member.Readable)
    (different : ∀ group ∈ groupsOf imageStats, args.keepCount < group.2.length →
      (group.2.map fun member => member.row.itemId).Nodup) :
    Distinguishable np args random imageStats := by
  refine fun group isGroup => ⟨readable group isGroup, fun row isLeft => ?_⟩
  have rearranged := ranked_perm np args random (scoredIn np args group)
  have length := rearranged.length_eq.trans (length_scoredIn np args group)
  by_cases all : group.2.length ≤ args.keepCount
  · rw [drop_of_length_le (length ▸ all)] at isLeft
    cases isLeft
  · have ids := different group isGroup (Nat.lt_of_not_le all)
    rw [← map_member_computeGroupProbabilities np args.epsilon group.2, map_map] at ids
    replace ids := (rearranged.map _).nodup_iff.mpr ids
    rw [← take_append_drop args.keepCount (ranked np args random (scoredIn np args group)),
      map_append, nodup_append] at ids
    exact fun isPicked => ids.2.2 _ isPicked _ (mem_map_of_mem isLeft) rfl

variable (np args random)

/-- **Candidates and selection go well exactly when the candidates are separable and the rows that
are left out are apart from the picked ones.** -/
theorem preparesAndSelects_iff (files : FileSystem) (selectionRows annotationRows : List GroupRow)
    (maxSamples : Option ℤ) (imageStats : List (StatRow K)) :
    files.PreparesWell selectionRows annotationRows maxSamples ∧
        SelectsWell np args random imageStats ↔
      (∃ targetGroups candidates,
        collectTargetGroups maxSamples [] selectionRows = some targetGroups ∧
          files.candidates targetGroups annotationRows = some candidates ∧
          Separable candidates) ∧
        Distinguishable np args random imageStats := by
  rw [preparesWell_iff, selectsWell_iff]

end Selecting

/-! ## Two directories -/

def rowWithPath (imagePath : Text) : GroupRow := Record.empty.store Key.imagePath (.text imagePath)

/-- Paths that lead to themselves. -/
def plainFiles : FileSystem := ⟨id, id⟩

/-- **Two images with the same name in two directories have the same link.** -/
theorem not_preparesWell_twoDirectories :
    ¬ plainFiles.PreparesWell [rowWithPath "x.jpg".toList]
      [rowWithPath "/a/x_1.jpg".toList, rowWithPath "/b/x_1.jpg".toList] none := by
  rw [preparesWell_iff]
  rintro ⟨targetGroups, candidates, isTarget, areCandidates, separable⟩
  have target : collectTargetGroups none [] [rowWithPath "x.jpg".toList] = some [['x']] := by
    decide +kernel
  have paths : (plainFiles.candidates [['x']] [rowWithPath "/a/x_1.jpg".toList,
      rowWithPath "/b/x_1.jpg".toList]).map (fun candidates => candidates.map Candidate.path) =
        some [[['x'], "x_1.jpg".toList], [['x'], "x_1.jpg".toList]] := by decide +kernel
  obtain rfl := Option.some.inj (isTarget.symm.trans target)
  rw [areCandidates, Option.map_some, Option.some.injEq] at paths
  have different := separable.paths
  rw [paths] at different
  simp at different

end Geobench.DataClean
