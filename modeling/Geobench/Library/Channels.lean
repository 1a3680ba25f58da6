import Mathlib.Logic.Relation
import Mathlib.Tactic.Common

/-!
# Channels with an end marker

One sender puts items on channels, in an order of its own. Each channel has one
consumer, which takes the items of its channel in their order and ends at the first end
marker. The marker is `none`. Puts and takes interleave in any way.

Nothing that is put is lost, doubled or moved (`conservation`). So what a consumer has
received begins what precedes the first marker on its channel (`received_prefix`), and is
all of it once the consumer has ended (`received_of_ended`). A consumer whose channel
gets a marker can always still end (`exists_ended`), and has ended when nothing more can
happen (`ended_of_final`).
-/

namespace Geobench.Library

open List

universe u v

variable {ι : Type u} {α : Type v}

/-- The items before the first end marker. -/
def untilEnd : List (Option α) → List α
  | [] => []
  | none :: _ => []
  | some item :: rest => item :: untilEnd rest

theorem untilEnd_append (items : List α) (rest : List (Option α)) :
    untilEnd (items.map some ++ rest) = items ++ untilEnd rest := by
  induction items with
  | nil => rfl
  | cons item items ih => exact congrArg (item :: ·) ih

/-- No item is lost before the end marker exactly when no item is the marker. -/
theorem untilEnd_eq_iff (before : List (Option α)) (last : α) :
    untilEnd (before ++ [some last] ++ [none]) = (before ++ [some last]).filterMap id ↔
      none ∉ before := by
  induction before with
  | nil => exact ⟨fun _ => not_mem_nil, fun _ => rfl⟩
  | cons first rest ih =>
    cases first with
    | none =>
      constructor
      · intro same
        simp [untilEnd] at same
      · intro unmarked
        exact absurd mem_cons_self unmarked
    | some item =>
      rw [cons_append, cons_append, untilEnd, @filterMap_cons_some _ _ id (some item) _ item rfl,
        cons_inj_right, ih, mem_cons, not_or]
      exact ⟨fun unmarked => ⟨nofun, unmarked⟩, And.right⟩

/-- The items put on channels and not yet, those waiting there, and what the consumers
received. -/
structure Channels (ι : Type u) (α : Type v) where
  unsent : List (ι × Option α)
  queued : ι → List (Option α)
  received : ι → List α
  ended : ι → Bool

namespace Channels

variable [DecidableEq ι]

def sentOn (channel : ι) (sends : List (ι × Option α)) : List (Option α) :=
  (sends.filter fun send => send.1 = channel).map Prod.snd

theorem sentOn_append (channel : ι) (sends more : List (ι × Option α)) :
    sentOn channel (sends ++ more) = sentOn channel sends ++ sentOn channel more := by
  rw [sentOn, filter_append, map_append]
  rfl

theorem sentOn_cons_self (channel : ι) (item : Option α) (rest : List (ι × Option α)) :
    sentOn channel ((channel, item) :: rest) = item :: sentOn channel rest := by
  simp [sentOn]

theorem sentOn_cons_ne {channel other : ι} (different : other ≠ channel) (item : Option α)
    (rest : List (ι × Option α)) :
    sentOn channel ((other, item) :: rest) = sentOn channel rest := by
  simp [sentOn, different]

/-- Nothing is put on a channel that no item is for. -/
theorem sentOn_eq_nil {channel : ι} {sends : List (ι × Option α)}
    (others : channel ∉ sends.map Prod.fst) : sentOn channel sends = [] := by
  rw [sentOn, map_eq_nil_iff, filter_eq_nil_iff]
  intro send member same
  exact others (of_decide_eq_true same ▸ mem_map_of_mem member)

/-- Nothing is put yet. -/
def start (sends : List (ι × Option α)) : Channels ι α :=
  ⟨sends, fun _ => [], fun _ => [], fun _ => false⟩

def put (channels : Channels ι α) (channel : ι) (item : Option α) (rest : List (ι × Option α)) :
    Channels ι α :=
  { channels with
    unsent := rest
    queued := Function.update channels.queued channel (channels.queued channel ++ [item]) }

def take (channels : Channels ι α) (channel : ι) (item : α) (rest : List (Option α)) :
    Channels ι α :=
  { channels with
    queued := Function.update channels.queued channel rest
    received := Function.update channels.received channel (channels.received channel ++ [item]) }

def finish (channels : Channels ι α) (channel : ι) (rest : List (Option α)) : Channels ι α :=
  { channels with
    queued := Function.update channels.queued channel rest
    ended := Function.update channels.ended channel true }

/-- The sender puts its next item, or a consumer that has not ended takes one. -/
inductive Step : Channels ι α → Channels ι α → Prop where
  | put {channels : Channels ι α} {channel : ι} {item : Option α} {rest : List (ι × Option α)} :
      channels.unsent = (channel, item) :: rest → Step channels (channels.put channel item rest)
  | take {channels : Channels ι α} {channel : ι} {item : α} {rest : List (Option α)} :
      channels.ended channel = false → channels.queued channel = some item :: rest →
        Step channels (channels.take channel item rest)
  | finish {channels : Channels ι α} {channel : ι} {rest : List (Option α)} :
      channels.ended channel = false → channels.queued channel = none :: rest →
        Step channels (channels.finish channel rest)

/-- Any interleaving of puts and takes. -/
abbrev Steps : Channels ι α → Channels ι α → Prop := Relation.ReflTransGen Step

/-- What a consumer took from its channel, the marker included. -/
def taken (channels : Channels ι α) (channel : ι) : List (Option α) :=
  (channels.received channel).map some ++ bif channels.ended channel then [none] else []

/-- What was taken from a channel, waits there or is still to be put there. -/
def all (channels : Channels ι α) (channel : ι) : List (Option α) :=
  channels.taken channel ++ channels.queued channel ++ sentOn channel channels.unsent

theorem Step.all_eq {channels channels' : Channels ι α} (step : Step channels channels')
    (channel : ι) : channels'.all channel = channels.all channel := by
  cases step with
  | @put target item rest isNext =>
    by_cases same : target = channel
    · subst same
      simp [all, taken, Channels.put, isNext, sentOn_cons_self]
    · simp [all, taken, Channels.put, isNext, sentOn_cons_ne same,
        Function.update_of_ne (Ne.symm same)]
  | @take target item rest going waits =>
    by_cases same : target = channel
    · subst same
      simp [all, taken, Channels.take, going, waits]
    · simp [all, taken, Channels.take, Function.update_of_ne (Ne.symm same)]
  | @finish target rest going waits =>
    by_cases same : target = channel
    · subst same
      simp [all, taken, Channels.finish, going, waits]
    · simp [all, taken, Channels.finish, Function.update_of_ne (Ne.symm same)]

section Run

variable {sends : List (ι × Option α)} {channels : Channels ι α}

/-- Nothing is lost, doubled or moved: at any time, what was taken from a channel, what
waits there and what is still to come are what is put on it. -/
theorem conservation (run : Steps (start sends) channels) (channel : ι) :
    channels.all channel = sentOn channel sends := by
  induction run with
  | refl => rfl
  | tail _ step ih => exact (step.all_eq channel).trans ih

theorem received_prefix (run : Steps (start sends) channels) (channel : ι) :
    channels.received channel <+: untilEnd (sentOn channel sends) := by
  rw [← conservation run channel, all, taken, append_assoc, append_assoc, untilEnd_append]
  exact prefix_append _ _

variable {channel : ι}

theorem received_of_ended (run : Steps (start sends) channels)
    (ended : channels.ended channel = true) :
    channels.received channel = untilEnd (sentOn channel sends) := by
  rw [← conservation run channel, all, taken, ended, cond_true, append_assoc,
    append_assoc, untilEnd_append]
  exact (append_nil _).symm

/-- The sender can put all that it has left. -/
theorem exists_all_sent (channels : Channels ι α) :
    ∃ channels', Steps channels channels' ∧ channels'.unsent = [] := by
  obtain ⟨unsent, queued, received, ended⟩ := channels
  induction unsent generalizing queued with
  | nil => exact ⟨_, .refl, rfl⟩
  | cons send rest ih =>
    obtain ⟨channel, item⟩ := send
    obtain ⟨channels', run, isEmpty⟩ :=
      ih (Function.update queued channel (queued channel ++ [item]))
    exact ⟨channels', .head (.put rfl) run, isEmpty⟩

/-- A consumer with a marker on its queue can end. -/
theorem exists_ended_of_queued (marked : none ∈ channels.queued channel) :
    ∃ channels', Steps channels channels' ∧ channels'.ended channel = true := by
  generalize waits : channels.queued channel = queue at marked
  cases ended : channels.ended channel with
  | true => exact ⟨channels, .refl, ended⟩
  | false =>
    induction queue generalizing channels with
    | nil => cases marked
    | cons first rest ih =>
      cases first with
      | none =>
        refine ⟨_, .single (.finish ended waits), ?_⟩
        exact Function.update_self channel true channels.ended
      | some item =>
        have later : none ∈ rest := (mem_cons.mp marked).resolve_left nofun
        have waitsLater : (channels.take channel item rest).queued channel = rest := by
          exact Function.update_self channel rest channels.queued
        obtain ⟨channels', run, hasEnded⟩ := ih waitsLater later ended
        exact ⟨channels', .head (.take ended waits) run, hasEnded⟩

/-- A consumer whose channel gets a marker can always still end. -/
theorem exists_ended (run : Steps (start sends) channels) (marked : none ∈ sentOn channel sends) :
    ∃ channels', Steps channels channels' ∧ channels'.ended channel = true := by
  obtain ⟨allSent, sending, isEmpty⟩ := exists_all_sent channels
  have conserved := conservation (run.trans sending) channel
  rw [all, isEmpty] at conserved
  rw [← conserved] at marked
  simp only [sentOn, filter_nil, map_nil, append_nil, mem_append] at marked
  rcases marked with taken | waits
  · cases ended : allSent.ended channel with
    | true => exact ⟨allSent, sending, ended⟩
    | false => simp [Channels.taken, ended] at taken
  · obtain ⟨channels', taking, ended⟩ := exists_ended_of_queued waits
    exact ⟨channels', sending.trans taking, ended⟩

/-- When nothing more can happen, a consumer whose channel gets a marker has ended. -/
theorem ended_of_final (run : Steps (start sends) channels) (marked : none ∈ sentOn channel sends)
    (final : ∀ channels', ¬ Step channels channels') : channels.ended channel = true := by
  obtain ⟨channels', further, ended⟩ := exists_ended run marked
  rcases Relation.ReflTransGen.cases_head further with rfl | ⟨next, step, -⟩
  · exact ended
  · exact absurd step (final next)

end Run

end Channels

end Geobench.Library
