import Mathlib.Algebra.Order.BigOperators.Group.Finset

/-!
# Many senders on one queue

Every sender puts its items on one queue, in their order, and an end marker after them. The
marker is `none`. One receiver takes what is on the queue, puts the items of each sender
together and stops at as many markers as there are senders. Puts and takes interleave in any
way.

A receiver that has stopped has received the items of every sender (`received_of_done`),
whatever the interleaving is. It can always still stop (`exists_done`), has stopped when
nothing more can happen (`done_of_final`), and no run goes on for ever (`wellFounded_step`).
-/

namespace Geobench.Library

universe u v

variable {ι : Type u} {α : Type v}

/-- What the senders have not put yet, what waits on the queue, what the receiver has received
of each, and how many of them have ended. -/
structure Gathering (ι : Type u) (α : Type v) where
  unsent : ι → List (Option α)
  queued : List (ι × Option α)
  received : ι → List α
  finished : ℕ

namespace Gathering

variable [DecidableEq ι]

/-- Nothing is put yet. -/
def start (items : ι → List α) : Gathering ι α :=
  ⟨fun sender => (items sender).map some ++ [none], [], fun _ => [], 0⟩

def put (gathering : Gathering ι α) (sender : ι) (item : Option α) (rest : List (Option α)) :
    Gathering ι α :=
  { gathering with
    unsent := Function.update gathering.unsent sender rest
    queued := gathering.queued ++ [(sender, item)] }

def take (gathering : Gathering ι α) (sender : ι) (item : α) (rest : List (ι × Option α)) :
    Gathering ι α :=
  { gathering with
    queued := rest
    received :=
      Function.update gathering.received sender (gathering.received sender ++ [item]) }

def finish (gathering : Gathering ι α) (rest : List (ι × Option α)) : Gathering ι α :=
  { gathering with queued := rest, finished := gathering.finished + 1 }

/-- What waits on the queue from a sender. -/
def queuedOf (sender : ι) (queued : List (ι × Option α)) : List (Option α) :=
  (queued.filter fun message => message.1 = sender).map Prod.snd

@[simp] theorem queuedOf_cons_self (sender : ι) (item : Option α)
    (rest : List (ι × Option α)) :
    queuedOf sender ((sender, item) :: rest) = item :: queuedOf sender rest := by
  simp [queuedOf]

theorem queuedOf_cons_ne {sender other : ι} (different : other ≠ sender) (item : Option α)
    (rest : List (ι × Option α)) :
    queuedOf sender ((other, item) :: rest) = queuedOf sender rest := by
  simp [queuedOf, different]

/-- Nothing is lost, doubled or moved. Of every sender, what was received, its marker if it
has ended, what waits on the queue and what is still to come are what it puts. -/
def Conserved (items : ι → List α) (gathering : Gathering ι α) (ended : Finset ι) : Prop :=
  ended.card = gathering.finished ∧
    ∀ sender, (gathering.received sender).map some ++
      ((if sender ∈ ended then [none] else []) ++
        (queuedOf sender gathering.queued ++ gathering.unsent sender)) =
      (items sender).map some ++ [none]

/-- The marker is the last that a sender puts. -/
theorem eq_of_marked {received items : List α} {rest : List (Option α)}
    (same : received.map some ++ none :: rest = items.map some ++ [none]) :
    received = items ∧ rest = [] := by
  induction received generalizing items with
  | nil =>
    cases items with
    | nil => simpa using same
    | cons item items => simp at same
  | cons first received ih =>
    cases items with
    | nil => simp at same
    | cons item items =>
      simp only [List.map_cons, List.cons_append, List.cons.injEq, Option.some.injEq] at same
      obtain ⟨received_eq, rest_eq⟩ := ih same.2
      exact ⟨by rw [same.1, received_eq], rest_eq⟩

/-- A sender of which something is on the queue has not ended. -/
theorem not_mem_of_queued {items : ι → List α} {gathering : Gathering ι α} {ended : Finset ι}
    (conserved : Conserved items gathering ended) {sender : ι} {item : Option α}
    {rest : List (ι × Option α)} (waits : gathering.queued = (sender, item) :: rest) :
    sender ∉ ended := by
  intro hasEnded
  have same := conserved.2 sender
  rw [if_pos hasEnded, waits, queuedOf_cons_self] at same
  have nothing := (eq_of_marked same).2
  simp at nothing

theorem conserved_start (items : ι → List α) : Conserved items (start items) ∅ :=
  ⟨rfl, fun _ => rfl⟩

variable [Fintype ι]

/-- A sender puts its next item, or the receiver takes one as long as senders have not ended. -/
inductive Step : Gathering ι α → Gathering ι α → Prop where
  | put {gathering : Gathering ι α} {sender : ι} {item : Option α} {rest : List (Option α)} :
      gathering.unsent sender = item :: rest → Step gathering (gathering.put sender item rest)
  | take {gathering : Gathering ι α} {sender : ι} {item : α} {rest : List (ι × Option α)} :
      gathering.finished < Fintype.card ι → gathering.queued = (sender, some item) :: rest →
        Step gathering (gathering.take sender item rest)
  | finish {gathering : Gathering ι α} {sender : ι} {rest : List (ι × Option α)} :
      gathering.finished < Fintype.card ι → gathering.queued = (sender, none) :: rest →
        Step gathering (gathering.finish rest)

/-- Any interleaving of puts and takes. -/
abbrev Steps : Gathering ι α → Gathering ι α → Prop := Relation.ReflTransGen Step

/-- The receiver has stopped. -/
def Done (gathering : Gathering ι α) : Prop := gathering.finished = Fintype.card ι

theorem Step.conserved {items : ι → List α} {gathering gathering' : Gathering ι α}
    (step : Step gathering gathering') {ended : Finset ι}
    (conserved : Conserved items gathering ended) :
    ∃ ended', Conserved items gathering' ended' := by
  cases step with
  | @put target item rest isNext =>
    refine ⟨ended, conserved.1, fun sender => ?_⟩
    have same := conserved.2 sender
    by_cases isTarget : target = sender
    · subst isTarget
      simpa [Gathering.put, isNext, queuedOf] using same
    · simpa [Gathering.put, queuedOf, isTarget, Function.update_of_ne (Ne.symm isTarget)] using same
  | @take target item rest going waits =>
    have notEnded := not_mem_of_queued conserved waits
    refine ⟨ended, conserved.1, fun sender => ?_⟩
    have same := conserved.2 sender
    by_cases isTarget : target = sender
    · subst isTarget
      simpa [Gathering.take, notEnded, waits] using same
    · rw [waits, queuedOf_cons_ne isTarget] at same
      simpa [Gathering.take, Function.update_of_ne (Ne.symm isTarget)] using same
  | @finish target rest going waits =>
    have notEnded := not_mem_of_queued conserved waits
    refine ⟨insert target ended, ?_, fun sender => ?_⟩
    · rw [Finset.card_insert_of_notMem notEnded, conserved.1]
      rfl
    · have same := conserved.2 sender
      by_cases isTarget : target = sender
      · subst isTarget
        simpa [Gathering.finish, notEnded, waits] using same
      · rw [waits, queuedOf_cons_ne isTarget] at same
        simpa [Gathering.finish, Finset.mem_insert, Ne.symm isTarget] using same

section Run

variable {items : ι → List α} {gathering : Gathering ι α}

section

variable (run : Steps (start items) gathering)
include run

theorem conservation : ∃ ended, Conserved items gathering ended := by
  induction run with
  | refl => exact ⟨∅, conserved_start items⟩
  | tail _ step ih =>
    obtain ⟨ended, conserved⟩ := ih
    exact step.conserved conserved

/-- A receiver that has stopped has received all items of every sender. -/
theorem received_of_done (done : gathering.Done) : gathering.received = items := by
  obtain ⟨ended, allEnded, same⟩ := conservation run
  have everyone : ended = Finset.univ := by
    rw [← Finset.card_eq_iff_eq_univ, allEnded, done]
  funext sender
  have marked := same sender
  rw [if_pos (everyone ▸ Finset.mem_univ sender)] at marked
  exact (eq_of_marked marked).1

theorem finished_le : gathering.finished ≤ Fintype.card ι := by
  obtain ⟨ended, allEnded, _⟩ := conservation run
  rw [← allEnded]
  exact Finset.card_le_univ ended

/-- As long as the receiver has not stopped, there is a step. -/
theorem exists_step (going : ¬gathering.Done) : ∃ gathering', Step gathering gathering' := by
  have fewer : gathering.finished < Fintype.card ι := lt_of_le_of_ne (finished_le run) going
  obtain ⟨ended, allEnded, same⟩ := conservation run
  cases waits : gathering.queued with
  | cons message rest =>
    obtain ⟨sender, item⟩ := message
    cases item with
    | none => exact ⟨_, .finish fewer waits⟩
    | some item => exact ⟨_, .take fewer waits⟩
  | nil =>
    have someone : ∃ sender, sender ∉ ended := by
      by_contra everyone
      have isUniv : ended = Finset.univ := by
        ext sender
        simpa using not_not.mp fun missing => everyone ⟨sender, missing⟩
      exact going (by rw [Done, ← allEnded, isUniv, Finset.card_univ])
    obtain ⟨sender, notEnded⟩ := someone
    have left := same sender
    rw [if_neg notEnded, waits] at left
    cases isNext : gathering.unsent sender with
    | cons item rest => exact ⟨_, .put isNext⟩
    | nil =>
      rw [isNext] at left
      have marked : none ∈ (gathering.received sender).map some := by
        simp only [queuedOf, List.filter_nil, List.map_nil, List.append_nil] at left
        rw [left]
        simp
      simp at marked

end

/-- What is left to do: an item that is not put yet is put and taken. -/
def work (gathering : Gathering ι α) : ℕ :=
  2 * (∑ sender, (gathering.unsent sender).length) + gathering.queued.length

theorem Step.work_lt {gathering' : Gathering ι α} (step : Step gathering gathering') :
    gathering'.work < gathering.work := by
  cases step with
  | @put target item rest isNext =>
    have fewer : ∑ sender, ((gathering.put target item rest).unsent sender).length <
        ∑ sender, (gathering.unsent sender).length := by
      apply Finset.sum_lt_sum
      · intro sender _
        by_cases isTarget : target = sender
        · subst isTarget
          simp [Gathering.put, isNext]
        · simp [Gathering.put, Function.update_of_ne (Ne.symm isTarget)]
      · exact ⟨target, Finset.mem_univ target, by simp [Gathering.put, isNext]⟩
    have oneMore : (gathering.put target item rest).queued.length =
        gathering.queued.length + 1 := by
      simp [Gathering.put]
    rw [work, work, oneMore]
    omega
  | take _ waits => simp [work, Gathering.take, waits]
  | finish _ waits => simp [work, Gathering.finish, waits]

/-- No run goes on for ever. -/
theorem wellFounded_step : WellFounded fun next (gathering : Gathering ι α) =>
    Step gathering next :=
  Subrelation.wf Step.work_lt (measure work).wf

/-- The receiver can always still stop. -/
theorem exists_done (run : Steps (start items) gathering) :
    ∃ gathering', Steps gathering gathering' ∧ gathering'.Done := by
  induction gathering using (wellFounded_step (ι := ι) (α := α)).induction with
  | _ gathering ih =>
    by_cases done : gathering.Done
    · exact ⟨gathering, .refl, done⟩
    · obtain ⟨next, step⟩ := exists_step run done
      obtain ⟨gathering', further, isDone⟩ := ih next step (run.tail step)
      exact ⟨gathering', .head step further, isDone⟩

/-- When nothing more can happen, the receiver has stopped. -/
theorem done_of_final (run : Steps (start items) gathering)
    (final : ∀ gathering', ¬Step gathering gathering') : gathering.Done := by
  by_contra going
  obtain ⟨next, step⟩ := exists_step run going
  exact final next step

end Run

end Gathering

end Geobench.Library
