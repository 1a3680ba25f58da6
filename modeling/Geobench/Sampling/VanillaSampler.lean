import Geobench.Library.ListSlices
import Geobench.Library.Text
import Mathlib.Algebra.Order.Ring.Unbundled.Rat
import Mathlib.Data.List.Sort

/-!
# Sampling with a cache

A batch of rows is sampled in one call of the engine. Each row that the cache does not serve is sent
`numReturnSequences` times, and takes its responses from the list of all of them. The rows are then
written with the choices that the reward models accept.

A row that the cache serves gets the list of the cache itself, and `doSample` appends the answer of
the dataset to it. The cache then has one choice more than it is asked for, so that the next row
with the same key is sampled again, or has the answer among its choices.

**`givesOwn_iff`**: every batch of a run gives each row its own responses, and leaves the cache as
it was loaded, where no choice of a row that the cache serves is accepted.
-/

namespace Geobench.Sampling

open Library List

/-! ## Rows -/

structure ChatMessage where
  role : Text
  content : Text
  deriving DecidableEq

def assistantRole : Text := "assistant".toList

def systemRole : Text := "system".toList

/-- A row of the dataset. Its last message is the answer of the assistant. -/
structure SampleRow (ρ : Type) where
  history : List ChatMessage
  answer : Text
  others : ρ
  deriving DecidableEq

namespace SampleRow

variable {ρ : Type}

def messages (row : SampleRow ρ) : List ChatMessage := row.history ++ [⟨assistantRole, row.answer⟩]

/-- `row['messages'][-1]['content'] = content` -/
def answerWith (row : SampleRow ρ) (content : Text) : SampleRow ρ := { row with answer := content }

end SampleRow

/-- What the engine is asked. -/
structure InferRequest (ρ : Type) where
  messages : List ChatMessage
  others : ρ
  deriving DecidableEq

/-- A row that is written. -/
structure SampledLine (κ ρ : Type) where
  id : κ
  row : SampleRow ρ
  rejectedResponse : Option Text
  deriving DecidableEq

/-! ## Rewards -/

/-- What a reward model gives for messages, with the answers of the dataset. -/
abbrev RewardModel := List (List ChatMessage) → List Text → List ℚ

/-- `normalize` -/
def normalize (rewards : List ℚ) : List ℚ :=
  let low := rewards.foldl min (rewards.headD 0)
  let high := rewards.foldl max (rewards.headD 0)
  if low = high then
    rewards.map fun _ => if low = 0 then 0 else min 1 low
  else rewards.map fun reward => (reward - low) / (high - low + 1 / 100000)

/-- `get_reward`: the normalized scores, and which rewards are above the threshold -/
def getReward (model : RewardModel) (inferRequests : List (List ChatMessage))
    (groundTruths : List Text) (threshold : ℚ) : List ℚ × List Bool :=
  let rewards := model inferRequests groundTruths
  (normalize rewards, rewards.map fun reward => threshold < reward)

/-! ## The sampler -/

/-- The arguments, the key of a row and the code that is called. -/
structure VanillaSampler (κ ρ : Type) where
  system : Text
  numReturnSequences : ℕ
  nBestToKeep : ℕ
  prmThreshold : ℚ
  /-- `int(num_return_sequences * easy_query_threshold)` -/
  easyQueryLimit : Option ℤ
  getMessagesMd5 : SampleRow ρ → κ
  /-- What a call of the engine gives for each request. An exception is `none`. -/
  infer : (call : ℕ) → List (InferRequest ρ) → List (Option Text)
  length_infer : ∀ call requests, (infer call requests).length = requests.length
  ormModel : Option RewardModel
  prmModel : Option RewardModel
  /-- `np.argsort`, with any order of equal scores -/
  argsort : List ℚ → List ℕ
  perm_argsort : ∀ scores, (argsort scores).Perm (List.range scores.length)
  pairwise_argsort : ∀ scores,
    (argsort scores).Pairwise fun first second => scores.getD first 0 ≤ scores.getD second 0

/-- The choices of the cache for each key. -/
abbrev Caches (κ : Type) := κ → Option (List Text)

/-- The list of choices of a row: that of the cache, or one of its own. -/
inductive ChoiceList (κ : Type) where
  | cached (uuid : κ)
  | own (choices : List Text)

def ChoiceList.read {κ : Type} (caches : Caches κ) : ChoiceList κ → List Text
  | .cached uuid => (caches uuid).getD []
  | .own choices => choices

namespace VanillaSampler

variable {κ ρ : Type} (sampler : VanillaSampler κ ρ)

/-- The row is in the cache with as many choices as are asked for. -/
def served (caches : Caches κ) (row : SampleRow ρ) : Option (List Text) :=
  (caches (sampler.getMessagesMd5 row)).filter (·.length = sampler.numReturnSequences)

/-- The request of a row: with the system prompt, and without the answer. -/
def inferRequest (row : SampleRow ρ) : InferRequest ρ :=
  let messages := if sampler.system = [] then row.messages
    else
      match row.messages with
      | first :: rest =>
        if first.role = systemRole then { first with content := sampler.system } :: rest
        else ⟨systemRole, sampler.system⟩ :: first :: rest
      | [] => []
  { messages := if (messages.getLast?.map ChatMessage.role) = some assistantRole then
      messages.dropLast else messages
    others := row.others }

def inferRequests (caches : Caches κ) (rows : List (SampleRow ρ)) : List (InferRequest ρ) :=
  rows.flatMap fun row =>
    match sampler.served caches row with
    | some _ => []
    | none => List.replicate sampler.numReturnSequences (sampler.inferRequest row)

/-- The second loop of `generate`: the choices of the rows, from the responses. -/
def collect (caches : Caches κ) (respList : List (Option Text)) :
    List (SampleRow ρ) → (cur : ℕ) → List (SampleRow ρ × ChoiceList κ)
  | [], _ => []
  | row :: rows, cur =>
    match sampler.served caches row with
    | some _ => (row, .cached (sampler.getMessagesMd5 row)) :: collect caches respList rows cur
    | none =>
      let choices := (List.range sampler.numReturnSequences).filterMap fun j =>
        (respList[sampler.numReturnSequences * cur + j]?).join
      if choices = [] then collect caches respList rows (cur + 1)
      else (row, .own choices) :: collect caches respList rows (cur + 1)

def generate (caches : Caches κ) (call : ℕ) (rows : List (SampleRow ρ)) :
    List (SampleRow ρ × ChoiceList κ) :=
  let requests := sampler.inferRequests caches rows
  let respList := if requests = [] then [] else sampler.infer call requests
  sampler.collect caches respList rows 0

/-- The scores and the mask of a reward model, and `1.0` and `True` without one. -/
def scoresOf (model : Option RewardModel) (threshold : ℚ) (row : SampleRow ρ)
    (choices : List Text) : List ℚ × List Bool :=
  let inferRequests := (choices ++ [row.answer]).map fun decoded =>
    (row.answerWith decoded).messages
  match model with
  | some model =>
    getReward model inferRequests (List.replicate inferRequests.length row.answer) threshold
  | none =>
    (List.replicate inferRequests.length 1, List.replicate inferRequests.length true)

/-- `_mask`: the choices, and the answer of the dataset, that both models accept -/
def mask (row : SampleRow ρ) (choices : List Text) : List Bool :=
  List.zipWith and (scoresOf sampler.ormModel 0 row choices).2
    (scoresOf sampler.prmModel sampler.prmThreshold row choices).2

def accepts (row : SampleRow ρ) (choices : List Text) : Bool := (sampler.mask row choices).any id

def linesOf (row : SampleRow ρ) (choices : List Text) : List (SampledLine κ ρ) :=
  let uuid := sampler.getMessagesMd5 row
  if sampler.ormModel.isNone && sampler.prmModel.isNone then
    choices.map fun positive => ⟨uuid, row.answerWith positive, none⟩
  else
    let ormScore := (scoresOf sampler.ormModel 0 row choices).1
    let prmScore := (scoresOf sampler.prmModel sampler.prmThreshold row choices).1
    let score := List.zipWith (fun prm orm => prm + orm * 10) prmScore ormScore
    let sortedIndices := (sampler.argsort score).reverse
    let negIndex := sortedIndices.getLastD 0
    let posIndexes := (sortedIndices.take sampler.nBestToKeep).filter fun index =>
      (sampler.mask row choices).getD index false && index ≠ negIndex
    let easy := match sampler.easyQueryLimit with
      | some limit => decide (limit ≤ (ormScore.countP (0 < ·) : ℤ) - 1)
      | none => false
    if easy then []
    else
      let all := choices ++ [row.answer]
      posIndexes.map fun index =>
        ⟨uuid, row.answerWith (all.getD index []), some (all.getD negIndex [])⟩

section Writing

variable [DecidableEq κ]

/-- Write a row: the lines, and the caches after the answer is appended to its choices. -/
def writeRow (state : List (SampledLine κ ρ) × Caches κ) (resps : SampleRow ρ × ChoiceList κ) :
    List (SampledLine κ ρ) × Caches κ :=
  let choices := resps.2.read state.2
  if sampler.accepts resps.1 choices then
    (state.1 ++ sampler.linesOf resps.1 choices,
      match resps.2 with
      | .cached uuid => Function.update state.2 uuid (some (choices ++ [resps.1.answer]))
      | .own _ => state.2)
  else state

def doSample (caches : Caches κ) (call : ℕ) (rows : List (SampleRow ρ)) :
    List (SampledLine κ ρ) × Caches κ :=
  (sampler.generate caches call rows).foldl sampler.writeRow ([], caches)

/-- Sample batches, one after the other. -/
def run (caches : Caches κ) (call : ℕ) :
    List (List (SampleRow ρ)) → List (List (SampledLine κ ρ)) × Caches κ
  | [] => ([], caches)
  | batch :: batches =>
    let (generated, caches) := sampler.doSample caches call batch
    let (more, caches) := run caches (call + 1) batches
    (generated :: more, caches)

end Writing

/-! ## The results of each row -/

/-- The requests of a call, each with its response. -/
def answers (caches : Caches κ) (call : ℕ) (rows : List (SampleRow ρ)) :
    List (InferRequest ρ × Option Text) :=
  let requests := sampler.inferRequests caches rows
  requests.zip (sampler.infer call requests)

/-- Each row has its own results: the choices of the cache, or the responses to as many requests of
its own as are asked for, in order. A row without a response is left out. -/
inductive OwnResults (caches : Caches κ) : List (SampleRow ρ) →
    List (InferRequest ρ × Option Text) → List (SampleRow ρ × List Text) → Prop where
  | nil : OwnResults caches [] [] []
  | cached {row rows answers results choices} :
      sampler.served caches row = some choices → OwnResults caches rows answers results →
      OwnResults caches (row :: rows) answers ((row, choices) :: results)
  | answered {row rows answers results own} :
      sampler.served caches row = none → own.length = sampler.numReturnSequences →
      (∀ answer ∈ own, answer.1 = sampler.inferRequest row) →
      own.filterMap Prod.snd ≠ [] → OwnResults caches rows answers results →
      OwnResults caches (row :: rows) (own ++ answers) ((row, own.filterMap Prod.snd) :: results)
  | failed {row rows answers results own} :
      sampler.served caches row = none → own.length = sampler.numReturnSequences →
      (∀ answer ∈ own, answer.1 = sampler.inferRequest row) →
      own.filterMap Prod.snd = [] → OwnResults caches rows answers results →
      OwnResults caches (row :: rows) (own ++ answers) results

theorem read_served {caches : Caches κ} {row : SampleRow ρ} {choices : List Text}
    (isServed : sampler.served caches row = some choices) :
    caches (sampler.getMessagesMd5 row) = some choices :=
  (Option.filter_eq_some_iff.mp isServed).1

theorem filterMap_slots (responses : List (Option Text)) (start count : ℕ) :
    ((range count).filterMap fun j => (responses[start + j]?).join) =
      ((responses.drop start).take count).filterMap id := by
  induction count generalizing start with
  | zero => rfl
  | succ count ih =>
    have later : ((fun j => (responses[start + j]?).join) ∘ Nat.succ) =
        fun j => (responses[start + 1 + j]?).join := by
      funext j
      rw [Function.comp_apply, Nat.succ_eq_add_one, Nat.add_assoc, Nat.add_comm 1 j]
    rw [range_succ_eq_map, filterMap_cons, filterMap_map, later, ih]
    by_cases inside : start < responses.length
    · rw [drop_eq_getElem_cons inside, take_succ_cons, filterMap_cons,
        Nat.add_zero, getElem?_eq_getElem inside]
      rfl
    · have outside : responses.length ≤ start := Nat.le_of_not_lt inside
      rw [drop_eq_nil_of_le outside, drop_eq_nil_of_le (Nat.le_succ_of_le outside),
        Nat.add_zero, getElem?_eq_none outside]
      simp

variable (caches : Caches κ)

/-- The slots of a row have the responses to its requests. The induction is on the rows. The
responses before `cur` belong to earlier rows. -/
theorem ownResults_collect (respList : List (Option Text)) (rows : List (SampleRow ρ)) (cur : ℕ)
    (count : (respList.drop (sampler.numReturnSequences * cur)).length =
      (sampler.inferRequests caches rows).length) :
    sampler.OwnResults caches rows
      ((sampler.inferRequests caches rows).zip
        (respList.drop (sampler.numReturnSequences * cur)))
      ((sampler.collect caches respList rows cur).map fun resps =>
        (resps.1, resps.2.read caches)) := by
  induction rows generalizing cur with
  | nil => exact .nil
  | cons row rows ih =>
    cases isServed : sampler.served caches row with
    | some choices =>
      have requests : sampler.inferRequests caches (row :: rows) =
          sampler.inferRequests caches rows := by
        rw [inferRequests, flatMap_cons, isServed]
        rfl
      have choicesRead : ((caches (sampler.getMessagesMd5 row)).getD []) = choices := by
        rw [sampler.read_served isServed, Option.getD_some]
      have later := OwnResults.cached isServed (ih cur (requests ▸ count))
      simp only [requests, collect, isServed, map_cons, ChoiceList.read, choicesRead]
      exact later
    | none =>
      let size := sampler.numReturnSequences
      have requests : sampler.inferRequests caches (row :: rows) =
          replicate size (sampler.inferRequest row) ++
            sampler.inferRequests caches rows := by
        rw [inferRequests, flatMap_cons, isServed]
        rfl
      rw [requests, length_append, length_replicate] at count
      have next : respList.drop (size * (cur + 1)) =
          (respList.drop (size * cur)).drop size := by
        rw [drop_drop, Nat.mul_succ]
      have restCount : (respList.drop (size * (cur + 1))).length =
          (sampler.inferRequests caches rows).length := by
        rw [next, length_drop, count, Nat.add_sub_cancel_left]
      have ownCount : ((respList.drop (size * cur)).take size).length = size := by
        rw [length_take, count]
        exact Nat.min_eq_left (Nat.le_add_right _ _)
      let own := (replicate size (sampler.inferRequest row)).zip
        ((respList.drop (size * cur)).take size)
      have areOwn : ∀ answer ∈ own, answer.1 = sampler.inferRequest row :=
        fun answer isOwn => eq_of_mem_replicate (of_mem_zip isOwn).1
      have length : own.length = size := by
        rw [length_zip, length_replicate, ownCount, Nat.min_self]
      have split : (replicate size (sampler.inferRequest row) ++
          sampler.inferRequests caches rows).zip (respList.drop (size * cur)) =
          own ++ (sampler.inferRequests caches rows).zip
            (respList.drop (size * (cur + 1))) := by
        rw [next, ← zip_append (by rw [length_replicate, ownCount]), take_append_drop]
      have seconds : own.map Prod.snd = (respList.drop (size * cur)).take size :=
        map_snd_zip (by rw [ownCount, length_replicate])
      have responses : ((range size).filterMap fun j =>
          (respList[size * cur + j]?).join) = own.filterMap Prod.snd := by
        rw [filterMap_slots, ← seconds, filterMap_map]
        rfl
      rw [requests, split, collect, isServed]
      dsimp only
      rw [responses]
      split_ifs with isEmpty
      · exact .failed isServed length areOwn isEmpty (ih (cur + 1) restCount)
      · exact .answered isServed length areOwn isEmpty (ih (cur + 1) restCount)

/-- `generate` gives each row its own results. -/
theorem ownResults_generate (call : ℕ) (rows : List (SampleRow ρ)) :
    sampler.OwnResults caches rows (sampler.answers caches call rows)
      ((sampler.generate caches call rows).map fun resps => (resps.1, resps.2.read caches)) := by
  have responses : (if sampler.inferRequests caches rows = [] then [] else
      sampler.infer call (sampler.inferRequests caches rows)) =
        sampler.infer call (sampler.inferRequests caches rows) := by
    split
    · rename_i isEmpty
      rw [isEmpty]
      exact (length_eq_zero_iff.mp (sampler.length_infer call [])).symm
    · rfl
  have collected := sampler.ownResults_collect caches
    (sampler.infer call (sampler.inferRequests caches rows)) rows 0
    (by rw [Nat.mul_zero, drop_zero, sampler.length_infer])
  rw [Nat.mul_zero, drop_zero] at collected
  rw [generate]
  simp only [responses]
  exact collected

/-! ## What is written -/

def writes (row : SampleRow ρ) (choices : List Text) : List (SampledLine κ ρ) :=
  if sampler.accepts row choices then sampler.linesOf row choices else []

/-- Choices are only appended. -/
def Extends (caches later : Caches κ) : Prop :=
  ∀ uuid choices, caches uuid = some choices →
    ∃ more, later uuid = some (choices ++ more)

theorem Extends.refl : Extends caches caches :=
  fun _ choices isThere => ⟨[], by rw [append_nil, isThere]⟩

theorem Extends.trans {first second third : Caches κ} (longer : Extends first second)
    (more : Extends second third) : Extends first third := by
  intro uuid choices isThere
  obtain ⟨added, isSecond⟩ := longer uuid choices isThere
  obtain ⟨rest, isThird⟩ := more uuid _ isSecond
  exact ⟨added ++ rest, by rw [isThird, append_assoc]⟩

/-- A list that is the same again after something was appended never changed. -/
theorem Extends.eq_of_back {loaded later : Caches κ} (longer : Extends loaded later)
    (back : Extends later loaded) {uuid : κ} {choices : List Text}
    (isThere : loaded uuid = some choices) : later uuid = some choices := by
  obtain ⟨more, isLater⟩ := longer uuid choices isThere
  obtain ⟨rest, isLoaded⟩ := back uuid _ isLater
  rw [isThere, Option.some.injEq, append_assoc, self_eq_append_right, append_eq_nil_iff] at isLoaded
  rw [isLater, isLoaded.1, append_nil]

/-- The rows that get a list of the cache are those that the cache serves. -/
theorem mem_collect_cached {caches : Caches κ} {respList : List (Option Text)}
    {rows : List (SampleRow ρ)} {cur : ℕ} {row : SampleRow ρ} {uuid : κ} :
    (row, ChoiceList.cached uuid) ∈ sampler.collect caches respList rows cur ↔
      row ∈ rows ∧ uuid = sampler.getMessagesMd5 row ∧ (sampler.served caches row).isSome := by
  induction rows generalizing cur with
  | nil => simp [collect]
  | cons first rows ih =>
    rw [collect]
    cases isServed : sampler.served caches first with
    | some choices =>
      simp only [mem_cons, ih, Prod.mk.injEq, ChoiceList.cached.injEq]
      constructor
      · rintro (⟨rfl, rfl⟩ | ⟨later, others⟩)
        · exact ⟨Or.inl rfl, rfl, isServed ▸ rfl⟩
        · exact ⟨Or.inr later, others⟩
      · rintro ⟨rfl | later, isKey, others⟩
        · exact Or.inl ⟨rfl, isKey⟩
        · exact Or.inr ⟨later, isKey, others⟩
    | none =>
      have notFirst : row = first → ¬ (sampler.served caches row).isSome := by
        rintro rfl
        rw [isServed]
        exact Bool.noConfusion
      dsimp only
      split_ifs <;> simp only [mem_cons, ih, Prod.mk.injEq, reduceCtorEq, and_false,
        false_or] <;> constructor
      all_goals
        rintro ⟨isRow, isKey, others⟩
      · exact ⟨Or.inr isRow, isKey, others⟩
      · exact ⟨isRow.resolve_left fun same => notFirst same others, isKey, others⟩
      · exact ⟨Or.inr isRow, isKey, others⟩
      · exact ⟨isRow.resolve_left fun same => notFirst same others, isKey, others⟩

section Runs

variable [DecidableEq κ]

/-- One row. Choices are appended at most. -/
theorem extends_writeRow (state : List (SampledLine κ ρ) × Caches κ)
    (resps : SampleRow ρ × ChoiceList κ) : Extends state.2 (sampler.writeRow state resps).2 := by
  rw [writeRow]
  split
  · obtain ⟨row, list⟩ := resps
    cases list with
    | own choices => exact Extends.refl state.2
    | cached uuid =>
      intro other choices isThere
      by_cases same : other = uuid
      · subst same
        exact ⟨[row.answer], by simp [ChoiceList.read, isThere]⟩
      · exact ⟨[], by simp [same, isThere]⟩
  · exact Extends.refl state.2

theorem extends_foldl (state : List (SampledLine κ ρ) × Caches κ)
    (respAll : List (SampleRow ρ × ChoiceList κ)) :
    Extends state.2 (respAll.foldl sampler.writeRow state).2 := by
  induction respAll generalizing state with
  | nil => exact Extends.refl state.2
  | cons resps rest ih => exact (sampler.extends_writeRow state resps).trans (ih _)

theorem extends_run (caches : Caches κ) (call : ℕ) (batches : List (List (SampleRow ρ))) :
    Extends caches (sampler.run caches call batches).2 := by
  induction batches generalizing caches call with
  | nil => exact Extends.refl caches
  | cons batch batches ih =>
    exact (sampler.extends_foldl ([], caches) (sampler.generate caches call batch)).trans
      (ih (sampler.doSample caches call batch).2 (call + 1))

/-- Where no list of the cache is accepted, it stays as it is. -/
theorem foldl_writeRow (caches : Caches κ) (lines : List (SampledLine κ ρ))
    {respAll : List (SampleRow ρ × ChoiceList κ)}
    (refused : ∀ row uuid, (row, ChoiceList.cached uuid) ∈ respAll →
      sampler.accepts row ((caches uuid).getD []) = false) :
    respAll.foldl sampler.writeRow (lines, caches) =
      (lines ++ respAll.flatMap fun resps => sampler.writes resps.1 (resps.2.read caches),
        caches) := by
  induction respAll generalizing lines with
  | nil => rw [flatMap_nil, append_nil]; rfl
  | cons resps rest ih =>
    have step : sampler.writeRow (lines, caches) resps =
        (lines ++ sampler.writes resps.1 (resps.2.read caches), caches) := by
      rw [writeRow, writes]
      split
      · rename_i accepted
        obtain ⟨row, list⟩ := resps
        cases list with
        | own choices => rfl
        | cached uuid =>
          exact absurd accepted (by
            rw [Bool.not_eq_true]
            exact refused row uuid mem_cons_self)
      · rw [append_nil]
    rw [foldl_cons, step, ih _ fun row uuid isIn =>
      refused row uuid (mem_cons_of_mem _ isIn), flatMap_cons, append_assoc]

/-- No choice of the cache, nor the answer, is accepted for a row that the cache serves. -/
def RefusesCached (loaded : Caches κ) (batch : List (SampleRow ρ)) : Prop :=
  ∀ row ∈ batch, ∀ choices, sampler.served loaded row = some choices →
    sampler.accepts row choices = false

variable {loaded : Caches κ} {batch : List (SampleRow ρ)}

omit [DecidableEq κ] in
/-- The choices of a row of the cache are the ones that were loaded. -/
theorem refused_generate (refuses : sampler.RefusesCached loaded batch) {call : ℕ}
    {row : SampleRow ρ} {uuid : κ}
    (isCached : (row, ChoiceList.cached uuid) ∈ sampler.generate loaded call batch) :
    sampler.accepts row ((loaded uuid).getD []) = false := by
  obtain ⟨isRow, rfl, isSome⟩ := sampler.mem_collect_cached.mp isCached
  obtain ⟨choices, isServed⟩ := Option.isSome_iff_exists.mp isSome
  rw [sampler.read_served isServed, Option.getD_some]
  exact refuses row isRow choices isServed

/-- What a batch gives when the choices of the cache are those that were loaded. -/
def ownLines (loaded : Caches κ) (call : ℕ) (batch : List (SampleRow ρ)) :
    List (SampledLine κ ρ) :=
  (sampler.generate loaded call batch).flatMap fun resps =>
    sampler.writes resps.1 (resps.2.read loaded)

theorem doSample_of_refuses (refuses : sampler.RefusesCached loaded batch) (call : ℕ) :
    sampler.doSample loaded call batch = (sampler.ownLines loaded call batch, loaded) := by
  rw [doSample, sampler.foldl_writeRow loaded [] fun row uuid => sampler.refused_generate refuses,
    nil_append, ownLines]

/-- A run that refuses what the cache serves. The induction is on the batches. Each of them
starts from the cache that was loaded. -/
theorem run_of_refuses {batches : List (List (SampleRow ρ))}
    (refuses : ∀ batch ∈ batches, sampler.RefusesCached loaded batch) (call : ℕ) :
    sampler.run loaded call batches =
      ((batches.zipIdx call).map fun batch => sampler.ownLines loaded batch.2 batch.1, loaded) := by
  induction batches generalizing call with
  | nil => rfl
  | cons batch batches ih =>
    rw [run, sampler.doSample_of_refuses (refuses batch mem_cons_self)]
    dsimp only
    rw [ih fun other isOther => refuses other (mem_cons_of_mem _ isOther)]
    rfl

/-- A row of the cache that is accepted changes the cache for good. -/
theorem refuses_of_doSample {caches : Caches κ} (longer : Extends loaded caches) {call : ℕ}
    (back : Extends (sampler.doSample caches call batch).2 loaded) :
    sampler.RefusesCached loaded batch := by
  intro row isRow choices isServed
  by_contra accepted
  rw [Bool.not_eq_false] at accepted
  let uuid := sampler.getMessagesMd5 row
  have isLoaded : loaded uuid = some choices := sampler.read_served isServed
  have whole : Extends caches (sampler.doSample caches call batch).2 :=
    sampler.extends_foldl ([], caches) _
  have isCached : caches uuid = some choices := longer.eq_of_back (whole.trans back) isLoaded
  have stillServed : (sampler.served caches row).isSome := by
    rw [served, isLoaded] at isServed
    rw [served, isCached, isServed]
    rfl
  have isIn : (row, ChoiceList.cached uuid) ∈ sampler.generate caches call batch :=
    sampler.mem_collect_cached.mpr ⟨isRow, rfl, stillServed⟩
  obtain ⟨before, after, isSplit⟩ := append_of_mem isIn
  -- The caches before and after the row are between those at the start and at the end.
  let state := before.foldl sampler.writeRow ([], caches)
  let next := sampler.writeRow state (row, .cached uuid)
  have isEnd : (sampler.doSample caches call batch).2 = (after.foldl sampler.writeRow next).2 := by
    rw [doSample, isSplit, foldl_append, foldl_cons]
  have toState : Extends caches state.2 := sampler.extends_foldl ([], caches) before
  have toNext : Extends state.2 next.2 := sampler.extends_writeRow state _
  have fromNext : Extends next.2 loaded :=
    (isEnd ▸ sampler.extends_foldl next after).trans back
  have atState : state.2 uuid = some choices :=
    (longer.trans toState).eq_of_back (toNext.trans fromNext) isLoaded
  have atNext : next.2 uuid = some choices :=
    ((longer.trans toState).trans toNext).eq_of_back fromNext isLoaded
  have appended : next.2 uuid = some (choices ++ [row.answer]) := by
    simp only [next, writeRow, ChoiceList.read, atState, Option.getD_some, accepted, if_true,
      Function.update_self]
  rw [appended, Option.some.injEq, append_right_eq_self] at atNext
  exact cons_ne_nil _ _ atNext

theorem refuses_of_run {caches : Caches κ} (longer : Extends loaded caches) (call : ℕ)
    {batches : List (List (SampleRow ρ))}
    (back : Extends (sampler.run caches call batches).2 loaded) :
    ∀ batch ∈ batches, sampler.RefusesCached loaded batch := by
  induction batches generalizing caches call with
  | nil => exact fun _ isIn => absurd isIn not_mem_nil
  | cons batch batches ih =>
    have here : Extends caches (sampler.doSample caches call batch).2 :=
      sampler.extends_foldl ([], caches) _
    have rest : Extends (sampler.doSample caches call batch).2
        (sampler.run caches call (batch :: batches)).2 :=
      sampler.extends_run _ (call + 1) batches
    intro other isOther
    rcases mem_cons.mp isOther with rfl | later
    · exact sampler.refuses_of_doSample longer (rest.trans back)
    · exact ih (longer.trans here) (call + 1) back other later

/-- Each batch gives each row its own results, and writes them with the choices that were loaded.
The cache is as it was loaded at the end. -/
def GivesOwn (loaded : Caches κ) (batches : List (List (SampleRow ρ))) : Prop :=
  ∃ outputs, sampler.run loaded 0 batches = (outputs, loaded) ∧
    ∀ call batch, batches[call]? = some batch →
      ∃ results,
        (sampler.generate loaded call batch).map (fun resps => (resps.1, resps.2.read loaded)) =
          results ∧
        sampler.OwnResults loaded batch (sampler.answers loaded call batch) results ∧
        outputs[call]? = some (results.flatMap fun result => sampler.writes result.1 result.2)

/-- **The rows get their own results, and the cache stays as it was loaded, where nothing is
accepted of the rows that the cache serves.** -/
theorem givesOwn_iff (loaded : Caches κ) (batches : List (List (SampleRow ρ))) :
    sampler.GivesOwn loaded batches ↔
      ∀ batch ∈ batches, ∀ row ∈ batch, ∀ choices, sampler.served loaded row = some choices →
        sampler.accepts row choices = false := by
  constructor
  · rintro ⟨outputs, isRun, -⟩
    refine sampler.refuses_of_run (Extends.refl loaded) 0 ?_
    rw [isRun]
    exact Extends.refl loaded
  · intro refuses
    refine ⟨_, sampler.run_of_refuses refuses 0, fun call batch isBatch => ?_⟩
    refine ⟨_, rfl, sampler.ownResults_generate loaded call batch, ?_⟩
    rw [getElem?_map, getElem?_zipIdx, isBatch, flatMap_map]
    simp [ownLines]

end Runs

end VanillaSampler

/-! ### An answer among the choices -/

/-- One response for each row, without a reward model. -/
def plainSampler : VanillaSampler (SampleRow Unit) Unit where
  system := []
  numReturnSequences := 1
  nBestToKeep := 5
  prmThreshold := 0
  easyQueryLimit := none
  getMessagesMd5 row := row
  infer _ requests := requests.map fun _ => some ['b']
  length_infer _ requests := length_map _
  ormModel := none
  prmModel := none
  argsort scores := (List.range scores.length).mergeSort fun first second =>
    scores.getD first 0 ≤ scores.getD second 0
  perm_argsort scores := mergeSort_perm _ _
  pairwise_argsort scores := by
    refine (pairwise_mergeSort ?_ ?_ (List.range scores.length)).imp of_decide_eq_true
    · intro first second third firsts seconds
      rw [decide_eq_true_eq] at firsts seconds ⊢
      exact Rat.le_trans firsts seconds
    · intro first second
      simpa using Rat.le_total

def questionRow : SampleRow Unit := ⟨[⟨"user".toList, ['q']⟩], ['a'], ()⟩

def oneChoice : Caches (SampleRow Unit) := fun uuid =>
  if uuid = questionRow then some [['c']] else none

/-- The row of the cache is written twice: the answer is among the choices of the second copy. -/
theorem not_givesOwn_questionRow :
    ¬ plainSampler.GivesOwn oneChoice [[questionRow, questionRow]] := by
  rintro ⟨outputs, isRun, -⟩
  have refuses := plainSampler.refuses_of_run (VanillaSampler.Extends.refl oneChoice) 0
    (by rw [isRun]; exact VanillaSampler.Extends.refl oneChoice) _ mem_cons_self
  exact absurd (refuses questionRow mem_cons_self [['c']] (by decide)) (by decide)

end Geobench.Sampling
