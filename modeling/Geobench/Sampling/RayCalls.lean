import Geobench.Sampling.VanillaSampler
import Mathlib.Tactic.Linarith

/-!
# Calls of the sampler on several workers

`RayHelper.function` cuts the arguments of a call into slices, calls the method on a worker for each
and puts the results behind each other. The slices are those of the whole list. But `generate` is
sent the messages of the rows only, and the scores are normalized in each slice by itself.

**`rayCalls_iff`**: the results are those of one direct call, whatever is in the cache, where the
rows have no other columns; and those of the scores, for every reward of single items, where all
requests occur in every slice that has some. A worker without requests is only skipped when the
arguments are given by position.
-/

namespace Geobench.Sampling

open Library List

/-! ## Generation -/

namespace VanillaSampler

variable {κ V : Type} (sampler : VanillaSampler κ (List (Text × V)))

/-- What `generate` returns for the rows of the data. -/
def generated (caches : Caches κ) (call : ℕ) (rows : List (SampleRow (List (Text × V)))) :
    List (SampleRow (List (Text × V)) × List Text) :=
  (sampler.generate caches call rows).map fun resps => (resps.1, resps.2.read caches)

/-- A row of `{'messages': data['messages'][start:stop]}` -/
def messagesOnly (row : SampleRow (List (Text × V))) : SampleRow (List (Text × V)) :=
  { row with others := [] }

/-- The rows that `dispatch(n, i, data)` sends to a worker. -/
def dispatchGenerate (n i : ℕ) (rows : List (SampleRow (List (Text × V)))) :
    List (SampleRow (List (Text × V))) :=
  (slice rows (i * rows.length / n) ((i + 1) * rows.length / n)).map messagesOnly

/-- `generate` on a number of workers, with the results flattened. -/
def rayGenerate (n : ℕ) (caches : Caches κ) (call : ℕ)
    (rows : List (SampleRow (List (Text × V)))) : List (SampleRow (List (Text × V)) × List Text) :=
  ((List.range n).map fun i => sampler.generated caches call (dispatchGenerate n i rows)).flatten

variable {sampler} {reply : InferRequest (List (Text × V)) → Option Text}

/-- What becomes of a row by itself. -/
def rowResult (sampler : VanillaSampler κ (List (Text × V)))
    (reply : InferRequest (List (Text × V)) → Option Text) (caches : Caches κ)
    (row : SampleRow (List (Text × V))) : Option (SampleRow (List (Text × V)) × List Text) :=
  match sampler.served caches row with
  | some choices => some (row, choices)
  | none =>
    let choices := (List.replicate sampler.numReturnSequences
      (reply (sampler.inferRequest row))).filterMap id
    if choices = [] then none else some (row, choices)

/-- The induction is on the rows, which have their answers in order. -/
theorem OwnResults.eq_filterMap {caches : Caches κ} {rows : List (SampleRow (List (Text × V)))}
    {answers : List (InferRequest (List (Text × V)) × Option Text)}
    {results : List (SampleRow (List (Text × V)) × List Text)}
    (own : sampler.OwnResults caches rows answers results)
    (separate : ∀ answer ∈ answers, answer.2 = reply answer.1) :
    results = rows.filterMap (sampler.rowResult reply caches) := by
  have replies : ∀ {row} {own : List (InferRequest (List (Text × V)) × Option Text)},
      own.length = sampler.numReturnSequences →
      (∀ answer ∈ own, answer.1 = sampler.inferRequest row) →
      (∀ answer ∈ own, answer.2 = reply answer.1) →
      own.filterMap Prod.snd = (replicate sampler.numReturnSequences
        (reply (sampler.inferRequest row))).filterMap id := by
    intro row own length requests separate
    have same : own = replicate sampler.numReturnSequences
        (sampler.inferRequest row, reply (sampler.inferRequest row)) :=
      eq_replicate_iff.mpr ⟨length, fun answer isOwn =>
        Prod.ext (requests answer isOwn) (by rw [separate answer isOwn, requests answer isOwn])⟩
    rw [same, ← map_replicate (f := fun request => (request, reply request)),
      filterMap_map, ← map_replicate (f := reply), filterMap_map]
    rfl
  induction own with
  | nil => rfl
  | cached isServed _ ih =>
    rw [filterMap_cons_some (by rw [rowResult, isServed]), ih separate]
  | answered isServed length requests isSome _ ih =>
    obtain ⟨first, rest⟩ := forall_mem_append.mp separate
    have choices := replies length requests first
    rw [filterMap_cons_some, ih rest]
    rw [rowResult, isServed]
    dsimp only
    rw [← choices, if_neg isSome]
  | failed isServed length requests isNone _ ih =>
    obtain ⟨first, rest⟩ := forall_mem_append.mp separate
    have choices := replies length requests first
    rw [filterMap_cons_none, ih rest]
    rw [rowResult, isServed]
    dsimp only
    rw [← choices, if_pos isNone]

/-- The engine answers each request by itself. -/
def Separate (sampler : VanillaSampler κ (List (Text × V)))
    (reply : InferRequest (List (Text × V)) → Option Text) : Prop :=
  ∀ call requests, sampler.infer call requests = requests.map reply

theorem generated_eq (separate : sampler.Separate reply) (caches : Caches κ) (call : ℕ)
    (rows : List (SampleRow (List (Text × V)))) :
    sampler.generated caches call rows = rows.filterMap (sampler.rowResult reply caches) := by
  refine (sampler.ownResults_generate caches call rows).eq_filterMap fun answer isAnswer => ?_
  rw [answers, separate, ← map_prod_left_eq_zip] at isAnswer
  obtain ⟨request, _, rfl⟩ := mem_map.mp isAnswer
  rfl

/-- The workers get the rows in order, without their other columns. -/
theorem rayGenerate_eq (separate : sampler.Separate reply) {n : ℕ} (positive : 0 < n)
    (caches : Caches κ) (call : ℕ) (rows : List (SampleRow (List (Text × V)))) :
    sampler.rayGenerate n caches call rows =
      (rows.map messagesOnly).filterMap (sampler.rowResult reply caches) := by
  have whole : (cutAt (fun i => i * rows.length / n) n rows).flatten = rows := by
    refine flatten_cutAt (fun _ _ before => Nat.div_le_div_right (Nat.mul_le_mul_right _ before))
      (by simp) (Nat.le_of_eq (Nat.mul_div_cancel_left _ positive).symm)
  conv_rhs => rw [← whole, cutAt, map_flatten, filterMap_flatten, map_map, map_map]
  rw [rayGenerate]
  exact congrArg flatten (map_congr_left fun i _ => generated_eq separate caches call _)

theorem rayGenerate_iff (separate : sampler.Separate reply) {n : ℕ} (positive : 0 < n) (call : ℕ)
    (rows : List (SampleRow (List (Text × V)))) :
    (∀ caches, sampler.rayGenerate n caches call rows = sampler.generated caches call rows) ↔
      ∀ row ∈ rows, row.others = [] := by
  constructor
  · intro same
    -- A cache that serves every row.
    have all := same fun _ => some (replicate sampler.numReturnSequences [])
    have served : ∀ row, sampler.rowResult reply
        (fun _ => some (replicate sampler.numReturnSequences [])) row =
          some (row, replicate sampler.numReturnSequences []) := by
      intro row
      rw [rowResult, VanillaSampler.served, Option.filter_some, length_replicate,
        decide_eq_true rfl, if_pos rfl]
    have results : sampler.rowResult reply
        (fun _ => some (replicate sampler.numReturnSequences [])) =
          some ∘ (·, replicate sampler.numReturnSequences []) := funext served
    rw [rayGenerate_eq separate positive, generated_eq separate, results,
      filterMap_eq_map, map_map] at all
    intro row isRow
    have isSame := map_eq_map_iff.mp all row isRow
    exact (congrArg (SampleRow.others ∘ Prod.fst) isSame).symm
  · intro bare caches
    have unchanged : rows.map messagesOnly = rows :=
      (map_congr_left fun row isRow => by
        rw [messagesOnly, ← bare row isRow]; rfl).trans (map_id _)
    rw [rayGenerate_eq separate positive, generated_eq separate, unchanged]

end VanillaSampler

/-! ## Scores -/

section Scores

/-- `get_reward`, which raises without a request -/
def getScores (model : RewardModel) (threshold : ℚ) (inferRequests : List (List ChatMessage))
    (groundTruth : Text) : Option (List ℚ × List Bool) :=
  if inferRequests = [] then none
  else some (getReward model inferRequests (List.replicate inferRequests.length groundTruth)
    threshold)

def getOrmScore (ormModel : RewardModel) :
    List (List ChatMessage) → Text → Option (List ℚ × List Bool) :=
  getScores ormModel 0

def getPrmScore (prmModel : RewardModel) (prmThreshold : ℚ) :
    List (List ChatMessage) → Text → Option (List ℚ × List Bool) :=
  getScores prmModel prmThreshold

/-- `collect_func('flatten', result)` for pairs of arrays. `result[0]` raises without a result. -/
def collectFunc : List (List ℚ × List Bool) → Option (List ℚ × List Bool)
  | [] => none
  | result => some ((result.map Prod.fst).flatten, (result.map Prod.snd).flatten)

/-- The slices that a worker is called with. One without requests is skipped when no argument is
given by its name. -/
def calledSlices (keyword : Bool) (n : ℕ) (inferRequests : List (List ChatMessage)) :
    List (List (List ChatMessage)) :=
  let slices := evenShares n inferRequests
  if keyword then slices else slices.filter (· ≠ [])

/-- A method on a number of workers with `dispatch='slice'` and `collect='flatten'` -/
def rayScores (keyword : Bool) (n : ℕ)
    (method : List (List ChatMessage) → Text → Option (List ℚ × List Bool))
    (inferRequests : List (List ChatMessage)) (groundTruth : Text) :
    Option (List ℚ × List Bool) :=
  ((calledSlices keyword n inferRequests).mapM fun slice => method slice groundTruth).bind
    collectFunc

def eachReward (reward : List ChatMessage → Text → ℚ) : RewardModel := List.zipWith reward

/-- All requests occur in every slice that has some, and none is empty where it is not skipped. -/
def SlicesAgree (keyword : Bool) (n : ℕ) (inferRequests : List (List ChatMessage)) : Prop :=
  (keyword = true → inferRequests = [] ∨ n ≤ inferRequests.length) ∧
    ∀ slice ∈ evenShares n inferRequests, slice ≠ [] →
      ∀ request ∈ inferRequests, request ∈ slice

/-! ### Normalizing -/

theorem foldl_min_spec {α : Type} [LinearOrder α] (first : α) (rest : List α) :
    rest.foldl min first ∈ first :: rest ∧ ∀ item ∈ first :: rest, rest.foldl min first ≤ item := by
  induction rest generalizing first with
  | nil => simp
  | cons second rest ih =>
    obtain ⟨member, least⟩ := ih (min first second)
    rw [foldl_cons]
    refine ⟨?_, ?_⟩
    · rcases mem_cons.mp member with same | isRest
      · rw [same]
        rcases min_choice first second with isMin | isMin <;> simp [isMin]
      · exact mem_cons_of_mem _ (mem_cons_of_mem _ isRest)
    · have below := least _ mem_cons_self
      simp only [forall_mem_cons]
      exact ⟨below.trans (min_le_left _ _), below.trans (min_le_right _ _), fun item isItem =>
        least item (mem_cons_of_mem _ isItem)⟩

/-- The least and the greatest reward. -/
def IsRange (rewards : List ℚ) (low high : ℚ) : Prop :=
  IsLeast {reward | reward ∈ rewards} low ∧ IsGreatest {reward | reward ∈ rewards} high

theorem exists_isRange {rewards : List ℚ} (some : rewards ≠ []) :
    ∃ low high, IsRange rewards low high ∧
      low = rewards.foldl min (rewards.headD 0) ∧ high = rewards.foldl max (rewards.headD 0) := by
  obtain ⟨first, rest, rfl⟩ := exists_cons_of_ne_nil some
  refine ⟨rest.foldl min first, rest.foldl max first,
    ⟨foldl_min_spec first rest, @foldl_min_spec ℚᵒᵈ _ first rest⟩, ?_, ?_⟩
  · rw [headD_cons, foldl_cons, min_self]
  · rw [headD_cons, foldl_cons, max_self]

/-- A reward on the scale from the least to the greatest one. -/
def scale (low high reward : ℚ) : ℚ :=
  if low = high then if low = 0 then 0 else min 1 low
  else (reward - low) / (high - low + 1 / 100000)

theorem normalize_eq {rewards : List ℚ} {low high : ℚ} (range : IsRange rewards low high) :
    normalize rewards = rewards.map (scale low high) := by
  have some : rewards ≠ [] := ne_nil_of_mem range.1.1
  obtain ⟨low', high', range', isLow, isHigh⟩ := exists_isRange some
  obtain rfl := range.1.unique range'.1
  obtain rfl := range.2.unique range'.2
  rw [normalize, ← isLow, ← isHigh]
  split_ifs with same isZero <;> refine map_congr_left fun reward _ => ?_
  · rw [scale, if_pos same, if_pos isZero]
  · rw [scale, if_pos same, if_neg isZero]
  · rw [scale, if_neg same]

/-! ### Slices -/

variable {keyword : Bool} {n : ℕ} {inferRequests : List (List ChatMessage)} {groundTruth : Text}

theorem flatten_calledSlices (keyword : Bool) (positive : 0 < n)
    (inferRequests : List (List ChatMessage)) :
    (calledSlices keyword n inferRequests).flatten = inferRequests := by
  rw [calledSlices]
  split
  · exact flatten_evenShares positive inferRequests
  · rw [List.flatten_filter_ne_nil, flatten_evenShares positive]

theorem collectFunc_of_ne_nil {result : List (List ℚ × List Bool)} (some : result ≠ []) :
    collectFunc result = Option.some ((result.map Prod.fst).flatten,
      (result.map Prod.snd).flatten) := by
  cases result with
  | nil => exact absurd rfl some
  | cons first rest => rfl

theorem getScores_eachReward (reward : List ChatMessage → Text → ℚ) (threshold : ℚ)
    (some : inferRequests ≠ []) :
    getScores (eachReward reward) threshold inferRequests groundTruth =
      Option.some (normalize (inferRequests.map (reward · groundTruth)),
        inferRequests.map fun request => decide (threshold < reward request groundTruth)) := by
  have each : zipWith reward inferRequests
      (replicate inferRequests.length groundTruth) =
        inferRequests.map (reward · groundTruth) := by
    refine ext_getElem (by simp) fun index _ _ => ?_
    simp
  rw [getScores, if_neg some, getReward, eachReward, each, map_map]
  rfl

/-- The scores are those of one call where each slice is normalized like the whole list. -/
theorem rayScores_eq_iff (reward : List ChatMessage → Text → ℚ) (threshold : ℚ)
    (positive : 0 < n) (some : inferRequests ≠ [])
    (someEach : ∀ slice ∈ calledSlices keyword n inferRequests, slice ≠ []) {low high : ℚ}
    (range : IsRange (inferRequests.map (reward · groundTruth)) low high) :
    rayScores keyword n (getScores (eachReward reward) threshold) inferRequests groundTruth =
        getScores (eachReward reward) threshold inferRequests groundTruth ↔
      ∀ slice ∈ calledSlices keyword n inferRequests,
        normalize (slice.map (reward · groundTruth)) =
          slice.map fun request => scale low high (reward request groundTruth) := by
  have whole := flatten_calledSlices keyword positive inferRequests
  have called : (calledSlices keyword n inferRequests).mapM (fun slice =>
      getScores (eachReward reward) threshold slice groundTruth) =
        Option.some ((calledSlices keyword n inferRequests).map fun slice =>
          (normalize (slice.map (reward · groundTruth)),
            slice.map fun request => decide (threshold < reward request groundTruth))) :=
    mapM_eq_some fun slice isSlice => getScores_eachReward reward threshold (someEach slice isSlice)
  have someCall : calledSlices keyword n inferRequests ≠ [] := by
    intro none
    rw [none, flatten_nil] at whole
    exact some whole.symm
  have masks : ((calledSlices keyword n inferRequests).map fun slice =>
      slice.map fun request => decide (threshold < reward request groundTruth)).flatten =
        inferRequests.map fun request => decide (threshold < reward request groundTruth) := by
    rw [← map_flatten, whole]
  have scores : (inferRequests.map (reward · groundTruth)).map (scale low high) =
      ((calledSlices keyword n inferRequests).map fun slice =>
        slice.map fun request => scale low high (reward request groundTruth)).flatten := by
    rw [← map_flatten, whole, map_map]
    rfl
  rw [rayScores, called, Option.bind_some, collectFunc_of_ne_nil (by simpa using someCall),
    getScores_eachReward reward threshold some, normalize_eq range, scores, Option.some.injEq,
    Prod.mk.injEq, map_map, map_map]
  refine (and_iff_left masks).trans ⟨fun same => ?_, fun each =>
    congrArg flatten (map_congr_left each)⟩
  refine map_eq_map_iff.mp (eq_iff_flatten_eq.mpr ⟨same, ?_⟩)
  rw [map_map, map_map]
  refine map_congr_left fun slice isSlice => ?_
  obtain ⟨low', high', range', -, -⟩ := exists_isRange
    (fun none => someEach slice isSlice (map_eq_nil_iff.mp none) :
      slice.map (reward · groundTruth) ≠ [])
  simp [normalize_eq range']

/-! ### Slices with all requests -/

theorem isRange_congr {rewards others : List ℚ} {low high : ℚ} (range : IsRange rewards low high)
    (same : ∀ reward, reward ∈ others ↔ reward ∈ rewards) : IsRange others low high := by
  have sets : {reward | reward ∈ others} = {reward | reward ∈ rewards} := Set.ext same
  rw [IsRange, sets]
  exact range

theorem mem_calledSlices {slice : List (List ChatMessage)} (isSome : slice ≠ []) :
    slice ∈ calledSlices keyword n inferRequests ↔ slice ∈ evenShares n inferRequests := by
  rw [calledSlices]
  split
  · rfl
  · rw [mem_filter, decide_eq_true isSome, and_iff_left rfl]

theorem ne_nil_of_mem_evenShares {α : Type} {items slice : List α} (positive : 0 < n)
    (enough : n ≤ items.length) (isSlice : slice ∈ evenShares n items) : slice ≠ [] := by
  obtain ⟨index, inside, rfl⟩ := mem_iff_getElem.mp isSlice
  refine ne_nil_of_length_pos ?_
  rw [length_getElem_evenShares]
  exact Nat.lt_of_lt_of_le (Nat.div_pos enough positive) (Nat.le_add_right _ _)

/-- A reward of two for one request, and of three for all others. -/
def twoFor (chosen : List ChatMessage) (request : List ChatMessage) (_groundTruth : Text) : ℚ :=
  if request = chosen then 2 else 3

theorem isRange_twoFor {chosen other : List ChatMessage} (isIn : chosen ∈ inferRequests)
    (isOther : other ∈ inferRequests) (different : other ≠ chosen) :
    IsRange (inferRequests.map (twoFor chosen · groundTruth)) 2 3 := by
  have isTwo : ∀ request, 2 ≤ twoFor chosen request groundTruth ∧
      twoFor chosen request groundTruth ≤ 3 := by
    intro request
    rw [twoFor]
    split <;> norm_num
  refine ⟨⟨mem_map.mpr ⟨chosen, isIn, if_pos rfl⟩, ?_⟩,
    ⟨mem_map.mpr ⟨other, isOther, if_neg different⟩, ?_⟩⟩
  · exact forall_mem_map.mpr fun request _ => (isTwo request).1
  · exact forall_mem_map.mpr fun request _ => (isTwo request).2

/-- Without requests both ways raise. -/
theorem rayScores_nil (keyword : Bool) (positive : 0 < n) (model : RewardModel) (threshold : ℚ)
    (groundTruth : Text) : rayScores keyword n (getScores model threshold) [] groundTruth = none := by
  have whole := flatten_calledSlices keyword positive ([] : List (List ChatMessage))
  rw [rayScores]
  cases isCalled : calledSlices keyword n [] with
  | nil => rfl
  | cons first rest =>
    rw [isCalled, flatten_cons, append_eq_nil_iff] at whole
    rw [mapM_eq_none mem_cons_self (by rw [getScores, if_pos whole.1])]
    rfl

theorem rayScores_iff (keyword : Bool) (positive : 0 < n) (threshold : ℚ)
    (inferRequests : List (List ChatMessage)) (groundTruth : Text) :
    (∀ reward, rayScores keyword n (getScores (eachReward reward) threshold) inferRequests
        groundTruth = getScores (eachReward reward) threshold inferRequests groundTruth) ↔
      SlicesAgree keyword n inferRequests := by
  by_cases isEmpty : inferRequests = []
  · subst isEmpty
    refine iff_of_true (fun reward => ?_) ⟨fun _ => .inl rfl, fun _ _ _ request isRequest =>
      absurd isRequest not_mem_nil⟩
    rw [rayScores_nil keyword positive, getScores, if_pos rfl]
  have whole := flatten_calledSlices keyword positive inferRequests
  constructor
  · intro same
    have someEach : ∀ slice ∈ calledSlices keyword n inferRequests, slice ≠ [] := by
      rintro slice isSlice rfl
      have raised := same fun _ _ => 0
      rw [getScores_eachReward _ threshold isEmpty, rayScores,
        mapM_eq_none isSlice (by rw [getScores, if_pos rfl])] at raised
      cases raised
    refine ⟨fun isKeyword => .inr (le_of_not_gt fun few => ?_), ?_⟩
    · -- With fewer requests than workers, a worker has none.
      have inside : inferRequests.length < (evenShares n inferRequests).length := by
        rwa [length_evenShares]
      refine someEach (evenShares n inferRequests)[inferRequests.length] ?_
        (length_eq_zero_iff.mp ?_)
      · rw [calledSlices, if_pos isKeyword]
        exact getElem_mem inside
      · rw [length_getElem_evenShares, Nat.div_eq_of_lt few, Nat.mod_eq_of_lt few,
          if_neg (lt_irrefl _)]
    · intro slice isSlice isSome request isRequest
      by_contra missing
      have isCalled := (@mem_calledSlices keyword _ _ _ isSome).mpr isSlice
      obtain ⟨other, rest, rfl⟩ := exists_cons_of_ne_nil isSome
      have different : ∀ item ∈ other :: rest, item ≠ request := by
        rintro item isItem rfl
        exact missing isItem
      have isOther : other ∈ inferRequests :=
        whole ▸ mem_flatten_of_mem isCalled mem_cons_self
      have each := (rayScores_eq_iff (twoFor request) threshold positive isEmpty someEach
        (isRange_twoFor isRequest isOther (different other mem_cons_self))).mp
          (same (twoFor request)) _ isCalled
      have three : ∀ item ∈ other :: rest, twoFor request item groundTruth = 3 :=
        fun item isItem => if_neg (different item isItem)
      have range : IsRange ((other :: rest).map (twoFor request · groundTruth)) 3 3 := by
        have isThree : 3 ∈ (other :: rest).map (twoFor request · groundTruth) :=
          mem_map.mpr ⟨other, mem_cons_self, three other mem_cons_self⟩
        refine ⟨⟨isThree, ?_⟩, ⟨isThree, ?_⟩⟩
        · exact forall_mem_map.mpr fun item isItem => (three item isItem).ge
        · exact forall_mem_map.mpr fun item isItem => (three item isItem).le
      rw [normalize_eq range, map_map] at each
      have first := map_eq_map_iff.mp each other mem_cons_self
      rw [Function.comp_apply, three other mem_cons_self] at first
      norm_num [scale] at first
  · rintro ⟨enough, complete⟩ reward
    have someEach : ∀ slice ∈ calledSlices keyword n inferRequests, slice ≠ [] := by
      intro slice isSlice
      rw [calledSlices] at isSlice
      split at isSlice
      · rename_i isKeyword
        exact ne_nil_of_mem_evenShares positive ((enough isKeyword).resolve_left isEmpty) isSlice
      · exact of_decide_eq_true (mem_filter.mp isSlice).2
    obtain ⟨low, high, range, -, -⟩ := exists_isRange
      (fun none => isEmpty (map_eq_nil_iff.mp none) :
        inferRequests.map (reward · groundTruth) ≠ [])
    refine (rayScores_eq_iff reward threshold positive isEmpty someEach range).mpr
      fun slice isSlice => ?_
    have isSome := someEach slice isSlice
    have members : ∀ request, request ∈ slice ↔ request ∈ inferRequests := fun request =>
      ⟨fun isIn => whole ▸ mem_flatten_of_mem isSlice isIn, fun isIn =>
        complete slice ((mem_calledSlices isSome).mp isSlice) isSome request isIn⟩
    rw [normalize_eq (isRange_congr range fun score => by simp only [mem_map, members]), map_map]
    rfl

end Scores

/-- **On several workers the results are those of one direct call**, whatever the cache holds and
for every reward of single items, exactly where the rows have nothing but messages, and where all
requests occur in every slice that has some. -/
theorem rayCalls_iff {κ V : Type} (sampler : VanillaSampler κ (List (Text × V)))
    (reply : InferRequest (List (Text × V)) → Option Text) (separate : sampler.Separate reply)
    (n : ℕ) (positive : 0 < n) (call : ℕ) (rows : List (SampleRow (List (Text × V))))
    (keyword : Bool) (inferRequests : List (List ChatMessage)) (groundTruth : Text) :
    ((∀ caches, sampler.rayGenerate n caches call rows = sampler.generated caches call rows) ↔
      ∀ row ∈ rows, row.others = []) ∧
    ((∀ reward, rayScores keyword n (getOrmScore (eachReward reward)) inferRequests groundTruth =
        getOrmScore (eachReward reward) inferRequests groundTruth) ↔
      SlicesAgree keyword n inferRequests) ∧
    ((∀ reward, rayScores keyword n (getPrmScore (eachReward reward) sampler.prmThreshold)
        inferRequests groundTruth =
          getPrmScore (eachReward reward) sampler.prmThreshold inferRequests groundTruth) ↔
      SlicesAgree keyword n inferRequests) :=
  ⟨sampler.rayGenerate_iff separate positive call rows,
    rayScores_iff keyword positive 0 inferRequests groundTruth,
    rayScores_iff keyword positive sampler.prmThreshold inferRequests groundTruth⟩

/-- One response for each row, which may have images. -/
def imageSampler : VanillaSampler Text (List (Text × ℕ)) where
  system := []
  numReturnSequences := 1
  nBestToKeep := 5
  prmThreshold := 0
  easyQueryLimit := none
  getMessagesMd5 row := row.answer
  infer _ requests := requests.map fun _ => some ['b']
  length_infer _ _ := length_map _
  ormModel := none
  prmModel := none
  argsort := plainSampler.argsort
  perm_argsort := plainSampler.perm_argsort
  pairwise_argsort := plainSampler.pairwise_argsort

theorem separate_imageSampler : imageSampler.Separate fun _ => some ['b'] := fun _ _ => rfl

def imageRow : SampleRow (List (Text × ℕ)) := ⟨[⟨"user".toList, ['q']⟩], ['a'], [("images".toList, 0)]⟩

theorem rayCalls_iff_oneImage :
    (imageSampler.Separate fun _ => some ['b']) ∧ 0 < 1 ∧
      ((∀ caches, imageSampler.rayGenerate 1 caches 0 [imageRow] =
        imageSampler.generated caches 0 [imageRow]) ↔ ∀ row ∈ [imageRow], row.others = []) :=
  ⟨separate_imageSampler, Nat.one_pos, (rayCalls_iff imageSampler _ separate_imageSampler 1
    Nat.one_pos 0 [imageRow] false [] []).1⟩

def twoRequests : List (List ChatMessage) := [[⟨assistantRole, ['a']⟩], [⟨assistantRole, ['b']⟩]]

/-- The image is lost on the way to a worker, and two workers with one request each normalize
their rewards by themselves. -/
theorem image_and_scores_differ :
    (¬∀ caches, imageSampler.rayGenerate 1 caches 0 [imageRow] =
      imageSampler.generated caches 0 [imageRow]) ∧
    ¬∀ reward, rayScores false 2 (getOrmScore (eachReward reward))
        twoRequests [] =
      getOrmScore (eachReward reward) twoRequests [] := by
  refine ⟨fun same => ?_, fun same => ?_⟩
  · exact absurd ((imageSampler.rayGenerate_iff separate_imageSampler Nat.one_pos 0 _).mp same
      imageRow mem_cons_self) (cons_ne_nil _ _)
  · exact absurd (((rayScores_iff false Nat.two_pos 0 _ _).mp same).2 [[⟨assistantRole, ['a']⟩]]
      (by decide) (by decide)
      _ (mem_cons_of_mem _ mem_cons_self)) (by decide)

end Geobench.Sampling
