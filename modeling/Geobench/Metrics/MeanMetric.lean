import Mathlib.Algebra.Order.BigOperators.Group.List
import Mathlib.Tactic.Linarith
import Geobench.Library.Collectives

/-!
# The mean over all ranks

There are two copies of `MeanMetric`. A rank adds up what it is given, and `compute` divides the
sum of all ranks by their count. The copy of `metrics/utils.py` always takes part in the
reduction; the one of `metrics/geo_metric.py` returns before it where the rank was given nothing,
and takes the length of a tensor without dimensions, which raises.

**`meansAgree_iff`**: both copies return the mean of all ranks exactly where there is no such
tensor and either all ranks were given something or none was. Where they were not, the copy of
`geo_metric.py` has a rank that waits in the reduction (`GeoMetric.exists_waiting`).
-/

namespace Geobench.Metrics

open Library Library.Collective List

/-! ## What is added up -/

/-- What `update` is given: a number, a tensor without dimensions, a tensor whose rows are the
entries along its first dimension, or a list of numbers. -/
inductive Update where
  | number (value : ℚ)
  | zeroDim (value : ℚ)
  | tensor (rows : List (List ℚ))
  | sequence (values : List ℚ)
  deriving DecidableEq, Repr

def Update.total : Update → ℚ
  | .number value => value
  | .zeroDim value => value
  | .tensor rows => rows.flatten.sum
  | .sequence values => values.sum

def Update.size : Update → ℕ
  | .number _ => 1
  | .zeroDim _ => 1
  | .tensor rows => rows.length
  | .sequence values => values.length

def Update.isZeroDim : Update → Bool
  | .zeroDim _ => true
  | _ => false

structure MeanMetric where
  state : ℚ
  count : ℕ
  deriving DecidableEq, Repr

def MeanMetric.empty : MeanMetric := ⟨0, 0⟩

def MeanMetric.add (metric : MeanMetric) (state : ℚ) (count : ℕ) : MeanMetric :=
  ⟨metric.state + state, metric.count + count⟩

/-- `all_reduce` adds the states and the counts of the ranks. -/
def allReduce (tensors : List MeanMetric) : MeanMetric :=
  ⟨(tensors.map MeanMetric.state).sum, (tensors.map MeanMetric.count).sum⟩

/-! ## The copy of `metrics/utils.py` -/

namespace Utils

def update (metric : MeanMetric) : Update → Option MeanMetric
  | .number value => some (metric.add value 1)
  | .zeroDim value => some (metric.add value 1)
  | .tensor rows => some (metric.add rows.flatten.sum rows.length)
  | .sequence values => some (metric.add values.sum values.length)

/-- What is returned at the end of `compute`. -/
def valueOf (nanValue : Option ℚ) (metric : MeanMetric) : Option ℚ :=
  if metric.count = 0 then nanValue else some (metric.state / metric.count)

def compute (nanValue : Option ℚ) (isInitialized : Bool) (metric : MeanMetric) :
    Program MeanMetric (Option ℚ) :=
  if isInitialized then
    .calls metric fun reduced => .returns (valueOf nanValue reduced)
  else .returns (valueOf nanValue metric)

end Utils

/-! ## The copy of `metrics/geo_metric.py` -/

namespace GeoMetric

/-- `update`, which raises where it takes the length of a tensor without dimensions. -/
def update (metric : MeanMetric) : Update → Option MeanMetric
  | .number value => some (metric.add value 1)
  | .zeroDim _ => none
  | .tensor rows => some (metric.add rows.flatten.sum rows.length)
  | .sequence values => some (metric.add values.sum values.length)

def compute (nanValue : Option ℚ) (isInitialized : Bool) (metric : MeanMetric) :
    Program MeanMetric (Option ℚ) :=
  if metric.count = 0 then .returns nanValue
  else if isInitialized then
    .calls metric fun reduced => .returns (some (reduced.state / reduced.count))
  else .returns (some (metric.state / metric.count))

end GeoMetric

/-! ## Jobs -/

/-- The updates on each rank. There is one rank where `torch.distributed` is not initialized. -/
structure Job where
  isInitialized : Bool
  ranks : List (List Update)
  alone : isInitialized = false → ranks.length = 1

/-- What the ranks do in `compute` after their updates, where none of these raises. -/
def programs (update : MeanMetric → Update → Option MeanMetric)
    (compute : Bool → MeanMetric → Program MeanMetric (Option ℚ)) (job : Job) :
    Option (List (Program MeanMetric (Option ℚ))) :=
  job.ranks.mapM fun updates =>
    (updates.foldlM update .empty).map (compute job.isInitialized)

def Utils.programs (nanValue : Option ℚ) : Job → Option (List (Program MeanMetric (Option ℚ))) :=
  Metrics.programs Utils.update (Utils.compute nanValue)

def GeoMetric.programs (nanValue : Option ℚ) :
    Job → Option (List (Program MeanMetric (Option ℚ))) :=
  Metrics.programs GeoMetric.update (GeoMetric.compute nanValue)

def totalOf (updates : List Update) : ℚ := (updates.map Update.total).sum

def sizeOf (updates : List Update) : ℕ := (updates.map Update.size).sum

/-- The sum of all ranks over the count of all ranks. -/
def Job.mean (nanValue : Option ℚ) (job : Job) : Option ℚ :=
  let count := (job.ranks.map sizeOf).sum
  if count = 0 then nanValue else some ((job.ranks.map totalOf).sum / count)

/-- No update raises, every rank takes part in every call, and every rank returns the mean. -/
def ReturnsMean (nanValue : Option ℚ) (job : Job)
    (programs : Option (List (Program MeanMetric (Option ℚ)))) : Prop :=
  ∃ started, programs = some started ∧ ∃ rounds,
    Completes allReduce started rounds (job.ranks.map fun _ => job.mean nanValue)

/-- Both copies return the mean, and thereby the same. -/
def MeansAgree (nanValue : Option ℚ) (job : Job) : Prop :=
  ReturnsMean nanValue job (GeoMetric.programs nanValue job) ∧
    ReturnsMean nanValue job (Utils.programs nanValue job)

/-! ## Updates -/

theorem Utils.update_eq (metric : MeanMetric) (given : Update) :
    Utils.update metric given = some (metric.add given.total given.size) := by
  cases given <;> rfl

theorem GeoMetric.update_eq (metric : MeanMetric) {given : Update}
    (sized : given.isZeroDim = false) :
    GeoMetric.update metric given = some (metric.add given.total given.size) := by
  cases given with
  | zeroDim value => simp [Update.isZeroDim] at sized
  | number value => rfl
  | tensor rows => rfl
  | sequence values => rfl

def metricOf (updates : List Update) : MeanMetric := ⟨totalOf updates, sizeOf updates⟩

variable {updates : List Update}

theorem foldlM_update {update : MeanMetric → Update → Option MeanMetric}
    (adds : ∀ metric, ∀ given ∈ updates,
      update metric given = some (metric.add given.total given.size)) (metric : MeanMetric) :
    updates.foldlM update metric = some (metric.add (totalOf updates) (sizeOf updates)) := by
  induction updates generalizing metric with
  | nil => simp [totalOf, sizeOf, MeanMetric.add]
  | cons given updates inductionHypothesis =>
    have later := inductionHypothesis
      (fun metric given member => adds metric given (mem_cons_of_mem _ member))
    rw [foldlM_cons, adds metric given (mem_cons_self ..)]
    simp only [Option.bind_eq_bind, Option.bind_some, later]
    simp [totalOf, sizeOf, MeanMetric.add, add_assoc]

variable {job : Job}

theorem programs_eq {update : MeanMetric → Update → Option MeanMetric}
    {compute : Bool → MeanMetric → Program MeanMetric (Option ℚ)}
    (adds : ∀ updates ∈ job.ranks, ∀ metric, ∀ given ∈ updates,
      update metric given = some (metric.add given.total given.size)) :
    programs update compute job =
      some (job.ranks.map fun updates => compute job.isInitialized (metricOf updates)) := by
  have each : ∀ updates ∈ job.ranks,
      (updates.foldlM update .empty).map (compute job.isInitialized) =
        some (compute job.isInitialized (metricOf updates)) := by
    intro updates member
    rw [foldlM_update (adds updates member)]
    simp [MeanMetric.add, MeanMetric.empty, metricOf]
  unfold programs
  generalize job.ranks = ranks at each ⊢
  induction ranks with
  | nil => rfl
  | cons updates ranks inductionHypothesis =>
    rw [mapM_cons, each updates (mem_cons_self ..),
      inductionHypothesis fun updates member => each updates (mem_cons_of_mem _ member)]
    rfl

variable (nanValue : Option ℚ)

theorem Utils.programs_eq (job : Job) :
    Utils.programs nanValue job = some (job.ranks.map fun updates =>
      Utils.compute nanValue job.isInitialized (metricOf updates)) :=
  Metrics.programs_eq fun _ _ metric given _ => Utils.update_eq metric given

theorem GeoMetric.programs_eq
    (sized : ∀ updates ∈ job.ranks, ∀ given ∈ updates, given.isZeroDim = false) :
    GeoMetric.programs nanValue job = some (job.ranks.map fun updates =>
      GeoMetric.compute nanValue job.isInitialized (metricOf updates)) :=
  Metrics.programs_eq fun updates rank metric given member =>
    GeoMetric.update_eq metric (sized updates rank given member)

/-! ## The reduction -/

theorem allReduce_metrics (ranks : List (List Update)) :
    allReduce (ranks.map metricOf) = ⟨(ranks.map totalOf).sum, (ranks.map sizeOf).sum⟩ := by
  simp [allReduce, metricOf, Function.comp_def]

theorem Job.mean_eq_valueOf (job : Job) :
    job.mean nanValue = Utils.valueOf nanValue (allReduce (job.ranks.map metricOf)) := by
  rw [allReduce_metrics]
  simp [Job.mean, Utils.valueOf]

theorem Job.mean_of_alone (only : job.ranks = [updates]) :
    job.mean nanValue = Utils.valueOf nanValue (metricOf updates) := by
  rw [Job.mean_eq_valueOf, allReduce_metrics]
  simp [metricOf, only]

/-- The copy of `metrics/utils.py` returns the mean of every job. -/
theorem Utils.returnsMean (job : Job) : ReturnsMean nanValue job (Utils.programs nanValue job) := by
  refine ⟨_, Utils.programs_eq nanValue job, ?_⟩
  by_cases initialized : job.isInitialized = true
  · have once := completes_once allReduce (job.ranks.map metricOf) (Utils.valueOf nanValue)
    rw [← job.mean_eq_valueOf nanValue] at once
    simpa [Utils.compute, initialized, Function.comp_def] using once
  · have alone := job.alone (by simpa using initialized)
    obtain ⟨updates, only⟩ := length_eq_one_iff.mp alone
    refine ⟨[], ?_⟩
    have returned : Completes allReduce ([job.mean nanValue].map .returns) []
        [job.mean nanValue] := .returned _
    simpa [Utils.compute, initialized, only, Job.mean_of_alone nanValue only] using returned

/-! ## The copy that returns early -/

theorem mean_of_empty (empty : ∀ updates ∈ job.ranks, sizeOf updates = 0) :
    job.mean nanValue = nanValue := by
  have count : (job.ranks.map sizeOf).sum = 0 := by
    refine sum_eq_zero fun size member => ?_
    obtain ⟨updates, rank, rfl⟩ := mem_map.mp member
    exact empty updates rank
  simp [Job.mean, count]

theorem GeoMetric.completes_of_empty (empty : ∀ updates ∈ job.ranks, sizeOf updates = 0) :
    Completes allReduce (job.ranks.map fun updates =>
      GeoMetric.compute nanValue job.isInitialized (metricOf updates)) []
      (job.ranks.map fun _ => job.mean nanValue) := by
  have returns : (job.ranks.map fun updates =>
      GeoMetric.compute nanValue job.isInitialized (metricOf updates)) =
        (job.ranks.map fun _ => job.mean nanValue).map .returns := by
    rw [map_map]
    refine map_congr_left fun updates member => ?_
    simp [GeoMetric.compute, metricOf, empty updates member, mean_of_empty nanValue empty]
  rw [returns]
  exact .returned _

/-- Where every rank was given something, the two copies do the same. -/
theorem GeoMetric.compute_eq (isInitialized : Bool) {metric : MeanMetric} (given : metric.count ≠ 0)
    (alone : isInitialized = false) :
    GeoMetric.compute nanValue isInitialized metric =
      Utils.compute nanValue isInitialized metric := by
  simp [GeoMetric.compute, Utils.compute, Utils.valueOf, given, alone]

theorem GeoMetric.completes_of_given (initialized : job.isInitialized = true)
    (given : ∀ updates ∈ job.ranks, sizeOf updates ≠ 0) :
    ∃ rounds, Completes allReduce (job.ranks.map fun updates =>
      GeoMetric.compute nanValue job.isInitialized (metricOf updates)) rounds
      (job.ranks.map fun _ => job.mean nanValue) := by
  have calls : (job.ranks.map fun updates =>
      GeoMetric.compute nanValue job.isInitialized (metricOf updates)) =
        (job.ranks.map metricOf).map fun metric => .calls metric fun reduced =>
          .returns (some (reduced.state / reduced.count)) := by
    rw [map_map]
    refine map_congr_left fun updates member => ?_
    simp [GeoMetric.compute, metricOf, given updates member, initialized]
  have once := completes_once allReduce (job.ranks.map metricOf)
    fun reduced => some (reduced.state / (reduced.count : ℚ))
  rw [calls]
  by_cases someRank : job.ranks = []
  · simpa [someRank] using once
  · have count : (job.ranks.map sizeOf).sum ≠ 0 := by
      obtain ⟨updates, member⟩ := exists_mem_of_ne_nil _ someRank
      have least := single_le_sum (by simp) _ (mem_map_of_mem (f := sizeOf) member)
      have positive := given updates member
      omega
    have mean : job.mean nanValue =
        some ((allReduce (job.ranks.map metricOf)).state /
          ((allReduce (job.ranks.map metricOf)).count : ℚ)) := by
      rw [allReduce_metrics]
      simp [Job.mean, count]
    rw [mean]
    simpa [Function.comp_def] using once

/-- A rank which was given nothing returns, while another one calls. -/
theorem GeoMetric.mixed_of_some (initialized : job.isInitialized = true) {idle busy : List Update}
    (idleRank : idle ∈ job.ranks) (nothing : sizeOf idle = 0) (busyRank : busy ∈ job.ranks)
    (something : sizeOf busy ≠ 0) : Mixed (job.ranks.map fun updates =>
      GeoMetric.compute nanValue job.isInitialized (metricOf updates)) := by
  refine ⟨⟨nanValue, mem_map.mpr ⟨idle, idleRank, ?_⟩⟩,
    metricOf busy, fun reduced => .returns (some (reduced.state / reduced.count)),
    mem_map.mpr ⟨busy, busyRank, ?_⟩⟩
  · simp [GeoMetric.compute, metricOf, nothing]
  · simp [GeoMetric.compute, metricOf, something, initialized]

/-- **Where only some of the ranks were given something, a run ends with a rank that waits.** -/
theorem GeoMetric.exists_waiting
    (sized : ∀ updates ∈ job.ranks, ∀ given ∈ updates, given.isZeroDim = false)
    (initialized : job.isInitialized = true) {idle busy : List Update} (idleRank : idle ∈ job.ranks)
    (nothing : sizeOf idle = 0) (busyRank : busy ∈ job.ranks) (something : sizeOf busy ≠ 0) :
    ∃ started ranks, GeoMetric.programs nanValue job = some started ∧
      Relation.ReflTransGen (Step allReduce) (started.map .running) ranks ∧
      Terminal allReduce ranks ∧ ∃ value next, Rank.waiting value next ∈ ranks := by
  obtain ⟨ranks, run, terminal, waits⟩ := exists_waiting_of_mixed
    (GeoMetric.mixed_of_some nanValue initialized idleRank nothing busyRank something)
  exact ⟨_, ranks, GeoMetric.programs_eq nanValue sized, run, terminal, waits⟩

/-! ## Tensors without dimensions -/

theorem foldlM_eq_none {update : MeanMetric → Update → Option MeanMetric} {given : Update}
    (member : given ∈ updates) (raises : ∀ metric, update metric given = none)
    (metric : MeanMetric) :
    updates.foldlM update metric = none := by
  induction updates generalizing metric with
  | nil => simp at member
  | cons first updates inductionHypothesis =>
    rw [foldlM_cons]
    rcases mem_cons.mp member with rfl | later
    · simp [raises]
    · cases update metric first with
      | none => rfl
      | some next => exact inductionHypothesis later next

theorem mapM_eq_none {α β : Type} {f : α → Option β} {items : List α} {item : α}
    (member : item ∈ items) (nothing : f item = none) : items.mapM f = none := by
  induction items with
  | nil => simp at member
  | cons first items inductionHypothesis =>
    rw [mapM_cons]
    rcases mem_cons.mp member with rfl | later
    · simp [nothing]
    · cases f first with
      | none => rfl
      | some value => simp [inductionHypothesis later]

theorem GeoMetric.sized_of_programs {nanValue : Option ℚ}
    {started : List (Program MeanMetric (Option ℚ))}
    (runs : GeoMetric.programs nanValue job = some started) :
    ∀ updates ∈ job.ranks, ∀ given ∈ updates, given.isZeroDim = false := by
  intro updates rank given member
  cases given with
  | zeroDim value =>
    have raises : updates.foldlM GeoMetric.update .empty = none :=
      foldlM_eq_none member (fun _ => rfl) .empty
    have nothing : GeoMetric.programs nanValue job = none :=
      mapM_eq_none rank (by simp [raises])
    simp [nothing] at runs
  | number value => rfl
  | tensor rows => rfl
  | sequence values => rfl

/-! ## Both copies -/

theorem GeoMetric.returnsMean_iff (job : Job) :
    ReturnsMean nanValue job (GeoMetric.programs nanValue job) ↔
      (∀ updates ∈ job.ranks, ∀ given ∈ updates, given.isZeroDim = false) ∧
        (job.isInitialized = true →
          (∀ updates ∈ job.ranks, sizeOf updates = 0) ∨
            ∀ updates ∈ job.ranks, sizeOf updates ≠ 0) := by
  constructor
  · rintro ⟨started, runs, rounds, completes⟩
    have sized := GeoMetric.sized_of_programs runs
    refine ⟨sized, fun initialized => ?_⟩
    by_contra both
    push Not at both
    obtain ⟨⟨busy, busyRank, something⟩, idle, idleRank, nothing⟩ := both
    rw [GeoMetric.programs_eq nanValue sized, Option.some.injEq] at runs
    subst runs
    exact not_completes_of_mixed
      (GeoMetric.mixed_of_some nanValue initialized idleRank nothing busyRank something)
      rounds _ completes
  · rintro ⟨sized, together⟩
    refine ⟨_, GeoMetric.programs_eq nanValue sized, ?_⟩
    by_cases initialized : job.isInitialized = true
    · rcases together initialized with empty | given
      · exact ⟨[], GeoMetric.completes_of_empty nanValue empty⟩
      · exact GeoMetric.completes_of_given nanValue initialized given
    · obtain ⟨updates, only⟩ := length_eq_one_iff.mp (job.alone (by simpa using initialized))
      by_cases nothing : sizeOf updates = 0
      · exact ⟨[], GeoMetric.completes_of_empty nanValue (by simpa [only] using nothing)⟩
      · obtain ⟨started, runs, completes⟩ := Utils.returnsMean nanValue job
        rw [Utils.programs_eq, Option.some.injEq] at runs
        subst runs
        have same : GeoMetric.compute nanValue job.isInitialized (metricOf updates) =
            Utils.compute nanValue job.isInitialized (metricOf updates) :=
          GeoMetric.compute_eq nanValue job.isInitialized nothing (by simpa using initialized)
        simpa [only, same] using completes

/-- Two ranks, one of which is given nothing. -/
def oneIdleRank : Job := ⟨true, [[.number 1], []], by simp⟩

theorem exists_waiting_oneIdleRank :
    ∃ started ranks, GeoMetric.programs (some 0) oneIdleRank = some started ∧
      Relation.ReflTransGen (Step allReduce) (started.map .running) ranks ∧
      Terminal allReduce ranks ∧ ∃ value next, Rank.waiting value next ∈ ranks := by
  have sized : ∀ updates ∈ oneIdleRank.ranks, ∀ given ∈ updates, given.isZeroDim = false := by
    simp [oneIdleRank, Update.isZeroDim]
  exact GeoMetric.exists_waiting (some 0) sized rfl (.tail _ (.head _)) rfl (.head _) (by decide)

end Geobench.Metrics
