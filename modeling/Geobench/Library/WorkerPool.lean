import Mathlib.Data.List.Perm.Basic

/-!
# Workers with a queue of jobs

Jobs wait on a queue. A worker that is idle takes the next job, and returns its result on
another queue or ends on the job. The workers are alike, so those that are idle are counted,
and jobs that are held may be returned in any order.

Every job waits, is held, has its result or was lost with its worker (`Accounts`). So when as
many results are received as jobs were submitted, each job has its result among them
(`Accounts.complete`), and workers that do not end can always go on until then
(`Accounts.exists_step`).
-/

namespace Geobench.Library

open List

universe u v

variable {α : Type u} {β : Type v}

/-- The jobs that wait, how many workers are idle, the jobs that workers hold and the results
that wait. -/
structure WorkerPool (α : Type u) (β : Type v) where
  waiting : List α
  idle : ℕ
  held : List α
  returned : List β

namespace WorkerPool

/-- Workers without a job. -/
def start (workers : ℕ) : WorkerPool α β := ⟨[], workers, [], []⟩

def submit (pool : WorkerPool α β) (job : α) : WorkerPool α β :=
  { pool with waiting := pool.waiting ++ [job] }

def receive (pool : WorkerPool α β) (rest : List β) : WorkerPool α β :=
  { pool with returned := rest }

variable (work : α → Option β)

/-- A worker takes a job, returns the result of one or ends on it. -/
inductive Step : WorkerPool α β → WorkerPool α β → Prop where
  | take {pool : WorkerPool α β} {job : α} {rest : List α} {idle : ℕ} :
      pool.idle = idle + 1 → pool.waiting = job :: rest →
        Step pool ⟨rest, idle, pool.held ++ [job], pool.returned⟩
  | finish {pool : WorkerPool α β} {before after : List α} {job : α} {result : β} :
      pool.held = before ++ job :: after → work job = some result →
        Step pool ⟨pool.waiting, pool.idle + 1, before ++ after, pool.returned ++ [result]⟩
  | lose {pool : WorkerPool α β} {before after : List α} {job : α} :
      pool.held = before ++ job :: after → work job = none →
        Step pool ⟨pool.waiting, pool.idle, before ++ after, pool.returned⟩

/-- Every job is accounted for: it waits, is held, has its result or is lost. -/
def Accounts (workers : ℕ) (submitted : List α) (received : List β)
    (pool : WorkerPool α β) : Prop :=
  ∃ finished lost : List α,
    (pool.waiting ++ (pool.held ++ (finished ++ lost))).Perm submitted ∧
      finished.map work = (received ++ pool.returned).map some ∧
        (∀ job ∈ lost, work job = none) ∧
          pool.idle + pool.held.length ≤ workers ∧ (finished ≠ [] → 0 < workers)

/-- All workers are still there. -/
def Staffed (workers : ℕ) (pool : WorkerPool α β) : Prop :=
  pool.idle + pool.held.length = workers

variable {work} {workers : ℕ} {submitted : List α} {received : List β}
  {pool pool' : WorkerPool α β}

theorem accounts_start : Accounts work workers [] [] (start workers) :=
  ⟨[], [], .refl _, rfl, nofun, Nat.le_refl _, fun some => absurd rfl some⟩

theorem Accounts.submit (accounts : Accounts work workers submitted received pool) (job : α) :
    Accounts work workers (submitted ++ [job]) received (pool.submit job) := by
  obtain ⟨finished, lost, perm, results, areLost, count, someone⟩ := accounts
  refine ⟨finished, lost, ?_, results, areLost, count, someone⟩
  calc ((pool.waiting ++ [job]) ++ (pool.held ++ (finished ++ lost))).Perm
        (pool.waiting ++ (pool.held ++ (finished ++ lost)) ++ [job]) := by
        rw [append_assoc, append_assoc]
        exact perm_append_comm.append_left _
    List.Perm _ (submitted ++ [job]) := perm.append_right _

theorem Accounts.receive (accounts : Accounts work workers submitted received pool) {result : β}
    {rest : List β} (next : pool.returned = result :: rest) :
    Accounts work workers submitted (received ++ [result]) (pool.receive rest) := by
  obtain ⟨finished, lost, perm, results, areLost, count, someone⟩ := accounts
  refine ⟨finished, lost, perm, ?_, areLost, count, someone⟩
  rw [results, next]
  simp [WorkerPool.receive]

/-- A step moves a job on its way. -/
theorem Accounts.step (accounts : Accounts work workers submitted received pool)
    (step : Step work pool pool') : Accounts work workers submitted received pool' := by
  obtain ⟨finished, lost, perm, results, areLost, count, someone⟩ := accounts
  cases step with
  | @take job rest idle isIdle waits =>
    refine ⟨finished, lost, ?_, results, areLost, ?_, someone⟩
    · rw [waits] at perm
      refine List.Perm.trans ?_ perm
      simp only [append_assoc, cons_append, nil_append]
      calc (rest ++ (pool.held ++ job :: (finished ++ lost))).Perm
            (rest ++ job :: (pool.held ++ (finished ++ lost))) :=
            perm_middle.append_left _
        List.Perm _ (job :: (rest ++ (pool.held ++ (finished ++ lost)))) := perm_middle
    · simp only [length_append, length_singleton]
      omega
  | @finish before after job result holds isResult =>
    rw [holds] at perm count
    refine ⟨finished ++ [job], lost, ?_, ?_, areLost, ?_, fun _ => ?_⟩
    · refine List.Perm.trans (List.Perm.append_left _ ?_) perm
      simp only [append_assoc, cons_append, nil_append]
      apply List.Perm.append_left
      calc (after ++ (finished ++ job :: lost)).Perm (after ++ job :: (finished ++ lost)) :=
            perm_middle.append_left _
        List.Perm _ (job :: (after ++ (finished ++ lost))) := perm_middle
    · rw [map_append, results, map_singleton, isResult]
      simp
    · simp only [length_append, length_cons] at count ⊢
      omega
    · simp only [length_append, length_cons] at count
      omega
  | @lose before after job holds isLost =>
    rw [holds] at perm count
    refine ⟨finished, lost ++ [job], ?_, results, ?_, ?_, someone⟩
    · refine List.Perm.trans (List.Perm.append_left _ ?_) perm
      simp only [append_assoc, cons_append]
      apply List.Perm.append_left
      calc (after ++ (finished ++ (lost ++ [job]))).Perm
            (after ++ job :: (finished ++ lost)) := by
            apply List.Perm.append_left
            rw [← append_assoc]
            exact perm_append_singleton job (finished ++ lost)
        List.Perm _ (job :: (after ++ (finished ++ lost))) := perm_middle
    · intro other isOther
      rcases mem_append.mp isOther with before | isJob
      · exact areLost other before
      · rw [mem_singleton.mp isJob]
        exact isLost
    · simp only [length_append, length_cons] at count ⊢
      omega

/-- Workers stay as long as the jobs that they hold have results. -/
theorem Staffed.step (staffed : Staffed workers pool) (step : Step work pool pool')
    (works : ∀ job ∈ pool.held, work job ≠ none) : Staffed workers pool' := by
  rw [Staffed] at staffed ⊢
  cases step with
  | take isIdle waits =>
    simp only [length_append, length_singleton]
    omega
  | finish holds isResult =>
    rw [holds] at staffed
    simp only [length_append, length_cons] at staffed ⊢
    omega
  | lose holds isLost =>
    exact absurd isLost (works _ (by rw [holds]; exact mem_append_right _ mem_cons_self))

section

variable (accounts : Accounts work workers submitted received pool)
include accounts

theorem Accounts.mem_of_held {job : α} (isHeld : job ∈ pool.held) : job ∈ submitted := by
  obtain ⟨finished, lost, perm, -⟩ := accounts
  exact perm.mem_iff.mp (mem_append_right _ (mem_append_left _ isHeld))

theorem Accounts.exists_job {result : β} (isResult : result ∈ received ++ pool.returned) :
    ∃ job ∈ submitted, work job = some result := by
  obtain ⟨finished, lost, perm, results, -⟩ := accounts
  have isSome : some result ∈ finished.map work := by
    rw [results]
    exact mem_map_of_mem isResult
  obtain ⟨job, isJob, same⟩ := mem_map.mp isSome
  refine ⟨job, perm.mem_iff.mp ?_, same⟩
  exact mem_append_right _ (mem_append_right _ (mem_append_left _ isJob))

/-- When as many results are received as jobs were submitted, no job is left and each has its
result among them. -/
theorem Accounts.complete (all : submitted.length ≤ received.length) :
    pool.waiting = [] ∧ pool.held = [] ∧ pool.returned = [] ∧
      (∀ job ∈ submitted, ∃ result ∈ received, work job = some result) ∧
        (submitted ≠ [] → 0 < workers) := by
  obtain ⟨finished, lost, perm, results, -, -, someone⟩ := accounts
  have count := perm.length_eq
  have sameCount := congrArg length results
  simp only [length_append, length_map] at count sameCount
  have noneWaits : pool.waiting = [] := eq_nil_of_length_eq_zero (by omega)
  have noneHeld : pool.held = [] := eq_nil_of_length_eq_zero (by omega)
  have noneReturned : pool.returned = [] := eq_nil_of_length_eq_zero (by omega)
  have noneLost : lost = [] := eq_nil_of_length_eq_zero (by omega)
  rw [noneWaits, noneHeld, noneLost, nil_append, nil_append, append_nil] at perm
  rw [noneReturned, append_nil] at results
  refine ⟨noneWaits, noneHeld, noneReturned, ?_, ?_⟩
  · intro job isJob
    have isSome : work job ∈ received.map some := by
      rw [← results]
      exact mem_map_of_mem (perm.mem_iff.mpr isJob)
    obtain ⟨result, isResult, same⟩ := mem_map.mp isSome
    exact ⟨result, isResult, same.symm⟩
  · intro some
    apply someone
    rintro rfl
    exact some (nil_perm.mp perm)

/-- Once all results are received, jobs can be submitted anew. -/
theorem Accounts.restart (all : submitted.length ≤ received.length) :
    Accounts work workers [] [] pool := by
  obtain ⟨noneWaits, noneHeld, noneReturned, -⟩ := accounts.complete all
  obtain ⟨finished, lost, -, -, -, count, -⟩ := accounts
  refine ⟨[], [], ?_, ?_, nofun, count, fun some => absurd rfl some⟩
  · rw [noneWaits, noneHeld]
    exact .refl _
  · rw [noneReturned]
    rfl

/-- Workers that stay go on until all results are received. -/
theorem Accounts.exists_step (staffed : Staffed workers pool) (someone : 0 < workers)
    (works : ∀ job ∈ submitted, work job ≠ none) (more : received.length < submitted.length) :
    pool.returned ≠ [] ∨ ∃ pool', Step work pool pool' := by
  obtain ⟨waiting, idle, held, returned⟩ := pool
  cases held with
  | cons job rest =>
    have isSubmitted := accounts.mem_of_held (mem_cons_self : job ∈ job :: rest)
    obtain ⟨result, isResult⟩ := Option.ne_none_iff_exists'.mp (works job isSubmitted)
    have holds : (⟨waiting, idle, job :: rest, returned⟩ : WorkerPool α β).held =
      [] ++ job :: rest := rfl
    exact .inr ⟨_, .finish holds isResult⟩
  | nil =>
    obtain ⟨count, rfl⟩ : ∃ count, idle = count + 1 := by
      rw [Staffed] at staffed
      exact Nat.exists_eq_succ_of_ne_zero (by simp at staffed; omega)
    cases waiting with
    | cons job rest => exact .inr ⟨_, .take rfl rfl⟩
    | nil =>
      obtain ⟨finished, lost, perm, results, areLost, -⟩ := accounts
      left
      rintro rfl
      have noneLost : lost = [] := by
        rw [eq_nil_iff_forall_not_mem]
        intro job isLost
        exact works job (perm.mem_iff.mp (by simp [isLost])) (areLost job isLost)
      have count := perm.length_eq
      have sameCount := congrArg length results
      simp [noneLost] at count sameCount
      omega

end

/-- What the workers still have to do. -/
def load (pool : WorkerPool α β) : ℕ :=
  3 * pool.waiting.length + 2 * pool.held.length + pool.returned.length

theorem Step.load_lt (step : Step work pool pool') : pool'.load < pool.load := by
  cases step with
  | take isIdle waits =>
    simp only [load, waits, length_append, length_cons, length_nil]
    omega
  | finish holds isResult =>
    simp only [load, holds, length_append, length_cons, length_nil]
    omega
  | lose holds isLost =>
    simp only [load, holds, length_append, length_cons]
    omega

end WorkerPool

end Geobench.Library
