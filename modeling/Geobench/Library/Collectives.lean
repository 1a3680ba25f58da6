import Mathlib.Data.List.Basic
import Mathlib.Logic.Relation

/-!
# Ranks that call a collective

A rank runs a program that ends with a result, or takes part in a call with a value of its own
and goes on with what the values of all ranks are reduced to. A call returns when every rank takes
part in it.

`Completes` is a run in which every rank takes part in every call. The ranks may arrive at a call
in any order; **`Completes.terminal`**: the order does not change where a run ends. Where one rank
returns and another one calls, the other one waits without end (`exists_waiting_of_mixed`).
-/

namespace Geobench.Library.Collective

open List

variable {α β : Type}

/-! ## Programs and runs -/

/-- What a rank does. -/
inductive Program (α β : Type) where
  | returns (result : β)
  | calls (value : α) (next : α → Program α β)

/-- The ranks return `results`, and all of them take part in the calls with the values `rounds`. -/
inductive Completes (reduce : List α → α) :
    List (Program α β) → List (List α) → List β → Prop where
  | returned (results : List β) : Completes reduce (results.map .returns) [] results
  | called {pending : List (α × (α → Program α β))} {rounds : List (List α)} {results : List β}
      (someRank : pending ≠ [])
      (rest : Completes reduce
        (pending.map fun rank => rank.2 (reduce (pending.map Prod.fst))) rounds results) :
      Completes reduce (pending.map fun rank => .calls rank.1 rank.2)
        (pending.map Prod.fst :: rounds) results

/-- A rank, which may wait in a call. -/
inductive Rank (α β : Type) where
  | running (program : Program α β)
  | waiting (value : α) (next : α → Program α β)

def Rank.program : Rank α β → Program α β
  | .running program => program
  | .waiting value next => .calls value next

/-- A rank arrives at a call, or a call returns on all ranks. -/
inductive Step (reduce : List α → α) : List (Rank α β) → List (Rank α β) → Prop where
  | arrive (pre post : List (Rank α β)) (value : α) (next : α → Program α β) :
      Step reduce (pre ++ .running (.calls value next) :: post)
        (pre ++ .waiting value next :: post)
  | leave (pending : List (α × (α → Program α β))) (someRank : pending ≠ []) :
      Step reduce (pending.map fun rank => .waiting rank.1 rank.2)
        (pending.map fun rank => .running (rank.2 (reduce (pending.map Prod.fst))))

/-- No rank can go on. -/
def Terminal (reduce : List α → α) (ranks : List (Rank α β)) : Prop :=
  ∀ next, ¬ Step reduce ranks next

/-- A single call, after which each rank returns what it makes of the reduced value. -/
theorem completes_once (reduce : List α → α) (values : List α) (result : α → β) :
    ∃ rounds, Completes reduce
      (values.map fun value => .calls value fun reduced => .returns (result reduced)) rounds
      (values.map fun _ => result (reduce values)) := by
  by_cases someRank : values = []
  · have returned : Completes reduce (([] : List β).map .returns) [] [] := .returned []
    exact ⟨[], by simpa [someRank] using returned⟩
  · let pending : List (α × (α → Program α β)) :=
      values.map fun value => (value, fun reduced => .returns (result reduced))
    have own : pending.map Prod.fst = values := by simp [pending, Function.comp_def]
    have rest : Completes reduce (pending.map fun rank => rank.2 (reduce (pending.map Prod.fst)))
        [] (values.map fun _ => result (reduce values)) := by
      have returned : Completes reduce ((values.map fun _ => result (reduce values)).map .returns)
          [] (values.map fun _ => result (reduce values)) := .returned _
      rw [own]
      simpa [pending, Function.comp_def] using returned
    have called := Completes.called (by simpa [pending] using someRank) rest
    exact ⟨_, by simpa [pending, Function.comp_def] using called⟩

/-! ## The order of arrival -/

theorem pending_of_waiting {ranks : List (Rank α β)} {pending : List (α × (α → Program α β))}
    (programs : ranks.map Rank.program = pending.map fun rank => .calls rank.1 rank.2) :
    (∃ pre post value next, ranks = pre ++ .running (.calls value next) :: post) ∨
      ranks = pending.map fun rank => .waiting rank.1 rank.2 := by
  induction ranks generalizing pending with
  | nil =>
    cases pending with
    | nil => exact .inr rfl
    | cons _ _ => simp at programs
  | cons rank ranks inductionHypothesis =>
    cases pending with
    | nil => simp at programs
    | cons first pending =>
      simp only [map_cons, List.cons.injEq] at programs
      obtain ⟨program, others⟩ := programs
      cases rank with
      | running running =>
        simp only [Rank.program] at program
        exact .inl ⟨[], ranks, first.1, first.2, by simp [program]⟩
      | waiting value next =>
        simp only [Rank.program, Program.calls.injEq] at program
        obtain ⟨rfl, rfl⟩ := program
        rcases inductionHypothesis others with ⟨pre, post, value, next, arrives⟩ | waits
        · exact .inl ⟨.waiting first.1 first.2 :: pre, post, value, next, by simp [arrives]⟩
        · exact .inr (by simp [waits])

variable {results : List β}

theorem running_of_returned {ranks : List (Rank α β)}
    (programs : ranks.map Rank.program = results.map .returns) :
    ranks = results.map fun result => .running (.returns result) := by
  induction ranks generalizing results with
  | nil =>
    cases results with
    | nil => rfl
    | cons _ _ => simp at programs
  | cons rank ranks inductionHypothesis =>
    cases results with
    | nil => simp at programs
    | cons result results =>
      simp only [map_cons, List.cons.injEq] at programs ⊢
      refine ⟨?_, inductionHypothesis programs.2⟩
      cases rank with
      | running program => simpa [Rank.program] using programs.1
      | waiting value next => simp [Rank.program] at programs

theorem calls_injective {first second : List (α × (α → Program α β))}
    (same : first.map (fun rank => Program.calls rank.1 rank.2) =
      second.map fun rank => .calls rank.1 rank.2) : first = second := by
  refine map_injective_iff.mpr ?_ same
  rintro ⟨value, next⟩ ⟨value', next'⟩ equal
  simpa using equal

variable {reduce : List α → α}

theorem Completes.of_calls {pending : List (α × (α → Program α β))} (someRank : pending ≠ [])
    {rounds : List (List α)}
    (completes : Completes reduce (pending.map fun rank => .calls rank.1 rank.2) rounds results) :
    ∃ later, Completes reduce
      (pending.map fun rank => rank.2 (reduce (pending.map Prod.fst))) later results := by
  generalize hPrograms : (pending.map fun rank => Program.calls rank.1 rank.2) = calling
    at completes
  cases completes with
  | returned =>
    cases pending with
    | nil => exact absurd rfl someRank
    | cons _ _ =>
      cases results with
      | nil => simp at hPrograms
      | cons _ _ => simp at hPrograms
  | called _ rest =>
    obtain rfl := calls_injective hPrograms
    exact ⟨_, rest⟩

variable {programs : List (Program α β)}

/-- Where a rank returns, all ranks do. -/
theorem Completes.of_returns {rounds : List (List α)}
    (completes : Completes reduce programs rounds results) {result : β}
    (returns : .returns result ∈ programs) : programs = results.map .returns := by
  cases completes with
  | returned => rfl
  | called => simp at returns

/-- A step leaves the programs as they are, or is a call of all ranks. -/
theorem Step.completes {reduce : List α → α} {ranks after : List (Rank α β)}
    (step : Step reduce ranks after) {rounds : List (List α)} {results : List β}
    (completes : Completes reduce (ranks.map Rank.program) rounds results) :
    ∃ later, Completes reduce (after.map Rank.program) later results := by
  cases step with
  | arrive pre post value next =>
    exact ⟨rounds, by simpa [Rank.program] using completes⟩
  | leave pending someRank =>
    have programs : (pending.map fun rank => Rank.waiting rank.1 rank.2).map Rank.program =
        pending.map fun rank => .calls rank.1 rank.2 := by
      simp [Rank.program]
    rw [programs] at completes
    obtain ⟨later, rest⟩ := completes.of_calls someRank
    exact ⟨later, by simpa [Rank.program, Function.comp_def] using rest⟩

/-- Whatever the order of arrival is, a run ends where all ranks have returned. -/
theorem Completes.terminal {reduce : List α → α} {programs : List (Program α β)}
    {rounds : List (List α)} {results : List β} (completes : Completes reduce programs rounds results)
    {ranks : List (Rank α β)}
    (steps : Relation.ReflTransGen (Step reduce) (programs.map .running) ranks)
    (terminal : Terminal reduce ranks) :
    ranks = results.map fun result => .running (.returns result) := by
  have reached : ∃ later, Completes reduce (ranks.map Rank.program) later results := by
    clear terminal
    induction steps with
    | refl => exact ⟨rounds, by simpa [Function.comp_def, Rank.program] using completes⟩
    | tail _ step inductionHypothesis => exact step.completes inductionHypothesis.choose_spec
  obtain ⟨later, reached⟩ := reached
  generalize hPrograms : ranks.map Rank.program = left at reached
  cases reached with
  | returned => exact running_of_returned hPrograms
  | @called pending _ _ someRank _ =>
    rcases pending_of_waiting hPrograms with ⟨pre, post, value, next, rfl⟩ | rfl
    · exact absurd (.arrive pre post value next) (terminal _)
    · exact absurd (.leave pending someRank) (terminal _)

/-! ## Ranks that wait without end -/

/-- A rank returns, and another one calls. -/
def Mixed (programs : List (Program α β)) : Prop :=
  (∃ result, .returns result ∈ programs) ∧ ∃ value next, .calls value next ∈ programs

theorem not_completes_of_mixed (mixed : Mixed programs) (rounds : List (List α))
    (results : List β) :
    ¬ Completes reduce programs rounds results := by
  obtain ⟨⟨result, returns⟩, value, next, calls⟩ := mixed
  intro completes
  cases completes with
  | returned => simp at calls
  | called => simp at returns

def Rank.arrived : Program α β → Rank α β
  | .returns result => .running (.returns result)
  | .calls value next => .waiting value next

theorem steps_arrived (reduce : List α → α) (pre : List (Rank α β))
    (programs : List (Program α β)) :
    Relation.ReflTransGen (Step reduce) (pre ++ programs.map .running)
      (pre ++ programs.map Rank.arrived) := by
  induction programs generalizing pre with
  | nil => simp [Relation.ReflTransGen.refl]
  | cons program programs inductionHypothesis =>
    have later := inductionHypothesis (pre ++ [Rank.arrived program])
    simp only [append_assoc, singleton_append] at later
    simp only [map_cons]
    cases program with
    | returns result => exact later
    | calls value next => exact .head (.arrive pre _ value next) later

/-- Where a rank returns and another one calls, a run ends with a rank that waits. -/
theorem exists_waiting_of_mixed (mixed : Mixed programs) :
    ∃ ranks, Relation.ReflTransGen (Step reduce) (programs.map .running) ranks ∧
      Terminal reduce ranks ∧ ∃ value next, Rank.waiting value next ∈ ranks := by
  obtain ⟨⟨result, returns⟩, value, next, calls⟩ := mixed
  refine ⟨programs.map Rank.arrived, by simpa using steps_arrived reduce [] programs, ?_,
    value, next, mem_map.mpr ⟨_, calls, rfl⟩⟩
  intro after step
  have returned : Rank.running (.returns result) ∈ programs.map Rank.arrived :=
    mem_map.mpr ⟨_, returns, rfl⟩
  generalize hRanks : programs.map Rank.arrived = ranks at step returned
  cases step with
  | arrive pre post value next =>
    have arrives : Rank.running (.calls value next) ∈ programs.map Rank.arrived := by
      rw [hRanks]
      simp
    obtain ⟨program, -, equal⟩ := mem_map.mp arrives
    cases program <;> simp [Rank.arrived] at equal
  | leave pending => simp at returned

end Geobench.Library.Collective
