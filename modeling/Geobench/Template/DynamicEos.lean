import Geobench.Library.Runs
import Geobench.Template.EncodedSamples

/-!
# End-of-sequence tokens that are trained on

`_add_dynamic_eos` goes once over the labels, remembers where the last run of ignored labels began,
and writes the suffix into the labels when the run ends. A token here is an id with its label and
the scale of its loss, and the runs of tokens are those that are trained on and those that are not.

**`addDynamicEos_rule`**: each run that is not trained on, except one at the beginning, is trained on
as far as the suffix goes where its ids begin with the suffix, and nothing else changes. A second
time changes something exactly where the ids of such a run begin with the suffix twice.
-/

namespace Geobench.Template

open Library List

/-! ## The rule -/

/-- A token id with its label and the scale of its loss. -/
structure EosToken where
  id : ℤ
  label : ℤ
  scale : ℚ
  deriving DecidableEq, Repr

def EosToken.isTrained (token : EosToken) : Bool := 0 ≤ token.label

/-- A label is an id or is ignored. -/
def EosToken.IsLabelled (token : EosToken) : Prop := token.label = -100 ∨ 0 ≤ token.label

def labelledTokens (scaled : Bool) (tokens : List EosToken) : LabelledTokens where
  inputIds := tokens.map EosToken.id
  labels := tokens.map EosToken.label
  lossScale := if scaled = true then some (tokens.map EosToken.scale) else none

/-- A run whose first labels become the suffix, and whose scales there become one if all are
zero. -/
def trainRun (suffix : List ℤ) (run : List EosToken) : List EosToken :=
  let first := run.take suffix.length
  let isFree := first.all fun token => decide (token.scale = 0)
  List.zipWith (fun token label => ⟨token.id, label, if isFree = true then 1 else token.scale⟩)
    first suffix ++ run.drop suffix.length

/-- What becomes of a run that follows a token that is trained on, or is trained on itself. -/
def ruleRun (suffix : List ℤ) (run : List EosToken) : List EosToken :=
  if (run.head?.any EosToken.isTrained) = false ∧ suffix <+: run.map EosToken.id then
    trainRun suffix run
  else run

def ruleAfter (suffix : List ℤ) (tokens : List EosToken) : List EosToken :=
  (runs EosToken.isTrained tokens).flatMap (ruleRun suffix)

/-- The first run is left as it is. -/
def eosRule (suffix : List ℤ) (tokens : List EosToken) : List EosToken :=
  (runs EosToken.isTrained tokens).head?.getD [] ++
    (runs EosToken.isTrained tokens).tail.flatMap (ruleRun suffix)

/-! ## The loop -/

section Loop

variable (scaled : Bool) (suffix : List ℤ)

def eosState (start : ℕ) (tokens : List EosToken) : EosState :=
  ⟨start, (labelledTokens scaled tokens).labels, (labelledTokens scaled tokens).lossScale⟩

def eosLoop (ids : List ℤ) (place count : ℕ) (state : EosState) : EosState :=
  (List.range' place count).foldl (eosStep ids suffix) state

variable {scaled suffix}

theorem eosLoop_succ (ids : List ℤ) (place count : ℕ) (state : EosState) :
    eosLoop suffix ids place (count + 1) state =
      eosLoop suffix ids (place + 1) count (eosStep ids suffix state place) := by
  rw [eosLoop, range'_succ, foldl_cons, eosLoop]

theorem eosLoop_add (ids : List ℤ) (place first later : ℕ) (state : EosState) :
    eosLoop suffix ids place (first + later) state =
      eosLoop suffix ids (place + first) later (eosLoop suffix ids place first state) := by
  rw [eosLoop, ← range'_append_1, foldl_append, eosLoop, eosLoop]

theorem labels_here (start : ℕ) (done items : List EosToken) (token : EosToken) :
    (eosState scaled start (done ++ token :: items)).labels[done.length]? = some token.label := by
  simp [eosState, labelledTokens]

theorem labels_next (start : ℕ) (done items : List EosToken) (token : EosToken) :
    (eosState scaled start (done ++ token :: items)).labels[done.length + 1]? =
      items.head?.map EosToken.label := by
  simp [eosState, labelledTokens, head?_eq_getElem?, getElem?_append_right]

variable {token : EosToken}

theorem eosStep_start {next : EosToken} (isTrained : 0 ≤ token.label) (ignored : next.label = -100)
    (ids : List ℤ) (start : ℕ) (done items : List EosToken) :
    eosStep ids suffix (eosState scaled start (done ++ token :: next :: items)) done.length =
      eosState scaled (done.length + 1) (done ++ token :: next :: items) := by
  rw [eosStep]
  rw [labels_here, labels_next, if_pos]
  · rfl
  · simp [isTrained, ignored]

/-- Nothing happens behind a token that is trained on and before another one. -/
theorem eosStep_trained {items : List EosToken} (isTrained : 0 ≤ token.label)
    (next : ∀ next ∈ items.head?, 0 ≤ next.label) (ids : List ℤ) (start : ℕ)
    (done : List EosToken) :
    eosStep ids suffix (eosState scaled start (done ++ token :: items)) done.length =
      eosState scaled start (done ++ token :: items) := by
  have notIgnored : token.label ≠ -100 := by omega
  have notNext : items.head?.map EosToken.label ≠ some (-100) := by
    intro isIgnored
    obtain ⟨other, isNext, isIgnored⟩ := Option.map_eq_some_iff.mp isIgnored
    have trained := next other isNext
    omega
  rw [eosStep]
  rw [labels_here, labels_next, if_neg fun begins => notNext begins.2,
    if_neg fun ends => notIgnored (Option.some.inj ends.2.1)]

/-- Nothing happens inside a run. -/
theorem eosStep_ignored {next : EosToken} (ignored : token.label = -100)
    (nextIgnored : next.label = -100) (ids : List ℤ) (start : ℕ) (done items : List EosToken) :
    eosStep ids suffix (eosState scaled start (done ++ token :: next :: items)) done.length =
      eosState scaled start (done ++ token :: next :: items) := by
  rw [eosStep]
  rw [labels_here, labels_next, if_neg, if_neg]
  · simp [nextIgnored]
  · simp [ignored]

variable {α : Type}

theorem assignSlice_append {done run rest new : List α} (fits : new.length ≤ run.length) :
    assignSlice (done ++ (run ++ rest)) done.length new =
      done ++ ((new ++ run.drop new.length) ++ rest) := by
  rw [assignSlice, take_left, ← drop_drop, drop_left,
    drop_append_of_le_length fits, append_assoc, append_assoc]

theorem slice_append_run {done run rest : List α} {count : ℕ} (fits : count ≤ run.length) :
    slice (done ++ (run ++ rest)) done.length (done.length + count) = run.take count := by
  rw [slice, take_length_add_append, drop_left, take_append_of_le_length fits]

theorem zipWith_left {β γ : Type} (f : α → γ) {first : List α} {second : List β}
    (same : first.length = second.length) :
    zipWith (fun item _ => f item) first second = first.map f := by
  induction first generalizing second with
  | nil => rfl
  | cons item first ih =>
    cases second with
    | nil => cases same
    | cons other second => exact congrArg (f item :: ·) (ih (Nat.succ.inj same))

theorem zipWith_right {β : Type} {first : List α} {second : List β}
    (same : first.length = second.length) :
    zipWith (fun _ other => other) first second = second := by
  induction first generalizing second with
  | nil =>
    cases second with
    | nil => rfl
    | cons other second => cases same
  | cons item first ih =>
    cases second with
    | nil => cases same
    | cons other second => exact congrArg (other :: ·) (ih (Nat.succ.inj same))

section TrainRun

variable {run : List EosToken} (fits : suffix.length ≤ run.length)
include fits

theorem length_take_suffix : (run.take suffix.length).length = suffix.length := by
  rw [length_take, Nat.min_eq_left fits]

theorem ids_trainRun : (trainRun suffix run).map EosToken.id = run.map EosToken.id := by
  rw [trainRun, map_append, map_zipWith, zipWith_left EosToken.id (length_take_suffix fits),
    ← map_append, take_append_drop]

theorem labels_trainRun :
    (trainRun suffix run).map EosToken.label =
      suffix ++ (run.map EosToken.label).drop suffix.length := by
  rw [trainRun, map_append, map_zipWith, zipWith_right (length_take_suffix fits), map_drop]

theorem scales_trainRun :
    (trainRun suffix run).map EosToken.scale =
      (if (run.map EosToken.scale).take suffix.length = replicate suffix.length 0 then
        replicate suffix.length 1 else (run.map EosToken.scale).take suffix.length) ++
        (run.map EosToken.scale).drop suffix.length := by
  have length := length_take_suffix fits
  have isFree : ((run.take suffix.length).all fun token => decide (token.scale = 0)) = true ↔
      (run.map EosToken.scale).take suffix.length = replicate suffix.length 0 := by
    rw [← map_take, eq_replicate_iff, length_map, length, forall_mem_map, all_eq_true]
    simp
  have scales : (trainRun suffix run).map EosToken.scale =
      ((run.take suffix.length).map fun token =>
        if ((run.take suffix.length).all fun token => decide (token.scale = 0)) = true then 1
        else token.scale) ++ (run.map EosToken.scale).drop suffix.length := by
    rw [trainRun, map_append, map_zipWith, map_drop, ← zipWith_left _ length]
  rw [scales]
  by_cases free : (run.map EosToken.scale).take suffix.length = replicate suffix.length 0
  · simp only [if_pos free, if_pos (isFree.mpr free)]
    rw [map_const', length]
  · simp only [if_neg free, if_neg (mt isFree.mp free)]
    rw [map_take]

end TrainRun

variable {done : List EosToken}

theorem trainSuffix_eosState (isSome : done ≠ []) {run : List EosToken}
    (fits : suffix.length ≤ run.length) (rest : List EosToken) :
    (eosState scaled done.length (done ++ (run ++ rest))).trainSuffix suffix =
      eosState scaled done.length (done ++ (trainRun suffix run ++ rest)) := by
  have labels := @assignSlice_append ℤ (done.map EosToken.label) (run.map EosToken.label)
    (rest.map EosToken.label) suffix (by rw [length_map]; exact fits)
  have scales := @assignSlice_append ℚ (done.map EosToken.scale) (run.map EosToken.scale)
    (rest.map EosToken.scale) (replicate suffix.length 1)
    (by rw [length_map, length_replicate]; exact fits)
  have isSlice := @slice_append_run ℚ (done.map EosToken.scale) (run.map EosToken.scale)
    (rest.map EosToken.scale) suffix.length (by rw [length_map]; exact fits)
  rw [length_map] at labels scales isSlice
  rw [length_replicate] at scales
  have someScales : (done ++ (run ++ rest)).map EosToken.scale ≠ [] := by simp [isSome]
  rw [eosState, EosState.trainSuffix, eosState, labelledTokens, labelledTokens]
  refine congr (congrArg (EosState.mk done.length) ?_) ?_
  · show assignSlice ((done ++ (run ++ rest)).map EosToken.label) done.length suffix =
      (done ++ (trainRun suffix run ++ rest)).map EosToken.label
    rw [map_append, map_append, labels, map_append, map_append, labels_trainRun fits]
  · cases scaled with
    | false => rfl
    | true =>
      refine congrArg some ?_
      show (if (done ++ (run ++ rest)).map EosToken.scale ≠ [] ∧
          slice ((done ++ (run ++ rest)).map EosToken.scale) done.length
            (done.length + suffix.length) = replicate suffix.length 0 then
        assignSlice ((done ++ (run ++ rest)).map EosToken.scale) done.length
          (replicate suffix.length 1)
        else (done ++ (run ++ rest)).map EosToken.scale) =
          (done ++ (trainRun suffix run ++ rest)).map EosToken.scale
      simp only [ne_eq, someScales, not_false_eq_true, true_and]
      rw [map_append, map_append, isSlice, map_append, map_append, scales_trainRun fits]
      split
      · rw [scales]
      · rw [take_append_drop]

theorem not_isTrained_head {run : List EosToken} (ignored : ∀ token ∈ run, token.label = -100) :
    run.head?.any EosToken.isTrained = false := by
  cases isFirst : run.head? with
  | none => rfl
  | some token =>
    rw [Option.any_some, EosToken.isTrained, ignored token (mem_of_mem_head? isFirst)]
    rfl

variable {rest : List EosToken}

theorem begins_iff {run : List EosToken} :
    suffix.length ≤ run.length ∧
        slice ((done ++ (run ++ rest)).map EosToken.id) done.length
          (done.length + suffix.length) = suffix ↔
      suffix <+: run.map EosToken.id := by
  rw [map_append, map_append, ← length_map EosToken.id, ← length_map EosToken.id]
  constructor
  · rintro ⟨le, same⟩
    rw [slice_append_run le] at same
    exact prefix_iff_eq_take.mpr same.symm
  · intro isPrefix
    rw [slice_append_run isPrefix.length_le]
    exact ⟨isPrefix.length_le, (prefix_iff_eq_take.mp isPrefix).symm⟩

variable {ids : List ℤ}

theorem eosStep_end (isSome : done ≠ []) {before : List EosToken} {last : EosToken}
    (ignored : ∀ token ∈ before ++ [last], token.label = -100)
    (next : ∀ next ∈ rest.head?, 0 ≤ next.label)
    (isIds : ids = (done ++ ((before ++ [last]) ++ rest)).map EosToken.id) :
    eosStep ids suffix (eosState scaled done.length (done ++ ((before ++ [last]) ++ rest)))
        (done ++ before).length =
      eosState scaled done.length (done ++ (ruleRun suffix (before ++ [last]) ++ rest)) := by
  have here := @labels_here scaled done.length (done ++ before) rest last
  have after := @labels_next scaled done.length (done ++ before) rest last
  have isWhole : (done ++ before) ++ last :: rest = done ++ ((before ++ [last]) ++ rest) := by
    simp
  rw [isWhole] at here after
  have isIgnored : last.label = -100 := ignored last (by simp)
  have count : (done ++ before).length + 1 - done.length = (before ++ [last]).length := by
    simp only [length_append, length_singleton]
    omega
  have fits : suffix.length ≤ (done ++ before).length + 1 -
        (eosState scaled done.length (done ++ ((before ++ [last]) ++ rest))).start ∧
      slice ids (eosState scaled done.length (done ++ ((before ++ [last]) ++ rest))).start
        ((eosState scaled done.length (done ++ ((before ++ [last]) ++ rest))).start +
          suffix.length) = suffix ↔
        suffix <+: (before ++ [last]).map EosToken.id := by
    rw [isIds, eosState, count]
    exact begins_iff
  rw [eosStep, here, after, if_neg, if_pos]
  · by_cases begins : suffix <+: (before ++ [last]).map EosToken.id
    · have le := begins.length_le
      rw [length_map] at le
      rw [if_pos (fits.mpr begins), ruleRun, if_pos ⟨not_isTrained_head ignored, begins⟩]
      exact trainSuffix_eosState isSome le rest
    · rw [if_neg (mt fits.mp begins), ruleRun, if_neg fun both => begins both.2]
  · refine ⟨length_pos_of_ne_nil isSome, by rw [isIgnored], ?_⟩
    cases isNext : rest.head? with
    | none => rfl
    | some token => exact decide_eq_true (next token isNext)
  · rw [isIgnored]
    exact fun begins => absurd begins.1 (by decide)

theorem eosLoop_trained {run : List EosToken} (isSome : run ≠ [])
    (trained : ∀ token ∈ run, 0 ≤ token.label) (next : ∀ next ∈ rest.head?, next.label = -100)
    (ids : List ℤ) (start : ℕ) (done : List EosToken) :
    ∃ after, (rest ≠ [] → after = done.length + run.length) ∧
      eosLoop suffix ids done.length run.length (eosState scaled start (done ++ (run ++ rest))) =
        eosState scaled after (done ++ (run ++ rest)) := by
  induction run generalizing start done with
  | nil => exact absurd rfl isSome
  | cons token run ih =>
    obtain ⟨isTrained, trained⟩ := forall_mem_cons.mp trained
    rw [length_cons, eosLoop_succ]
    cases run with
    | nil =>
      cases rest with
      | nil =>
        refine ⟨start, fun noRest => absurd rfl noRest, ?_⟩
        exact eosStep_trained isTrained (fun _ isNext => by cases isNext) ids start done
      | cons following rest =>
        refine ⟨done.length + 1, fun _ => rfl, ?_⟩
        exact eosStep_start isTrained (next following rfl) ids start done rest
    | cons second run =>
      have second' : ∀ next ∈ (second :: run ++ rest).head?, 0 ≤ next.label := by
        intro next isNext
        rw [← Option.some.inj isNext]
        exact trained second mem_cons_self
      obtain ⟨after, isAfter, looped⟩ := ih (cons_ne_nil _ _) trained start (done ++ [token])
      rw [length_append, length_singleton] at isAfter looped
      rw [append_assoc, singleton_append] at looped
      refine ⟨after, fun some => ?_, ?_⟩
      · rw [isAfter some]
        omega
      · rw [cons_append, eosStep_trained isTrained second']
        exact looped

theorem eosLoop_inside {before : List EosToken} {last : EosToken}
    (ignored : ∀ token ∈ before ++ [last], token.label = -100) (rest : List EosToken)
    (ids : List ℤ) (start : ℕ) (done : List EosToken) :
    eosLoop suffix ids done.length before.length
        (eosState scaled start (done ++ ((before ++ [last]) ++ rest))) =
      eosState scaled start (done ++ ((before ++ [last]) ++ rest)) := by
  induction before generalizing done with
  | nil => rfl
  | cons token before ih =>
    rw [cons_append] at ignored
    obtain ⟨isIgnored, later⟩ := forall_mem_cons.mp ignored
    obtain ⟨next, others, isNext⟩ := exists_cons_of_ne_nil
      (show before ++ [last] ≠ [] by simp)
    have nextIgnored : next.label = -100 := later next (by simp [isNext])
    have looped := ih later (done ++ [token])
    rw [length_append, length_singleton, append_assoc, singleton_append]
      at looped
    rw [length_cons, eosLoop_succ, cons_append, cons_append]
    rw [isNext] at looped ⊢
    rw [cons_append, eosStep_ignored isIgnored nextIgnored]
    exact looped

theorem eosLoop_ignored (isSome : done ≠ []) {run : List EosToken} (someRun : run ≠ [])
    (ignored : ∀ token ∈ run, token.label = -100) (next : ∀ next ∈ rest.head?, 0 ≤ next.label)
    (isIds : ids = (done ++ (run ++ rest)).map EosToken.id) :
    eosLoop suffix ids done.length run.length
        (eosState scaled done.length (done ++ (run ++ rest))) =
      eosState scaled done.length (done ++ (ruleRun suffix run ++ rest)) := by
  obtain ⟨before, last, rfl⟩ := (eq_nil_or_concat run).resolve_left someRun
  rw [concat_eq_append] at ignored isIds ⊢
  rw [length_append, eosLoop_add, eosLoop_inside ignored, length_singleton,
    eosLoop_succ, ← length_append, eosStep_end isSome ignored next isIds]
  rfl

theorem eosLoop_first {run : List EosToken} (someRun : run ≠ [])
    (ignored : ∀ token ∈ run, token.label = -100) (rest : List EosToken) (ids : List ℤ) :
    eosLoop suffix ids 0 run.length (eosState scaled 0 (run ++ rest)) =
      eosState scaled 0 (run ++ rest) := by
  obtain ⟨before, last, rfl⟩ := (eq_nil_or_concat run).resolve_left someRun
  rw [concat_eq_append] at ignored ⊢
  have inside := @eosLoop_inside scaled suffix before last ignored rest ids 0 []
  rw [nil_append, length_nil] at inside
  have here := @labels_here scaled 0 before rest last
  have isWhole : before ++ last :: rest = (before ++ [last]) ++ rest := by simp
  rw [isWhole] at here
  rw [length_append, eosLoop_add, inside, length_singleton, eosLoop_succ]
  show eosStep ids suffix _ (0 + before.length) = _
  rw [Nat.zero_add, eosStep, here, ignored last (by simp), if_neg, if_neg]
  · exact fun ends => absurd ends.1 (Nat.lt_irrefl 0)
  · exact fun begins => absurd begins.1 (by decide)

theorem ids_ruleRun (run : List EosToken) :
    (ruleRun suffix run).map EosToken.id = run.map EosToken.id := by
  rw [ruleRun]
  split
  · rename_i begins
    have le := begins.2.length_le
    rw [length_map] at le
    exact ids_trainRun le
  · rfl

theorem ruleRun_of_trained {run : List EosToken} (isRun : IsRun EosToken.isTrained run true) :
    ruleRun suffix run = run := by
  obtain ⟨first, others, rfl⟩ := exists_cons_of_ne_nil isRun.some
  have isTrained : first.isTrained = true := isRun.keys first mem_cons_self
  rw [ruleRun, head?_cons, Option.any_some, isTrained, if_neg fun both => by cases both.1]

theorem ruleAfter_append {run : List EosToken} {value : Bool}
    (isRun : IsRun EosToken.isTrained run value)
    (elsewhere : BeginsElsewhere EosToken.isTrained value rest) :
    ruleAfter suffix (run ++ rest) = ruleRun suffix run ++ ruleAfter suffix rest := by
  rw [ruleAfter, runs_append isRun elsewhere, flatMap_cons, ruleAfter]

theorem label_of_not_isTrained (labelled : token.IsLabelled) (notTrained : token.isTrained ≠ true) :
    token.label = -100 :=
  labelled.resolve_right fun isTrained => notTrained (decide_eq_true isTrained)

/-- The loop follows the rule behind a token that is trained on. -/
theorem eosLoop_after (labelled : ∀ token ∈ rest, token.IsLabelled) (isSome : done ≠ []) {start : ℕ}
    (begins : ∀ first ∈ rest.head?, first.label = -100 → start = done.length)
    (isIds : ids = (done ++ rest).map EosToken.id) :
    ∃ after, eosLoop suffix ids done.length rest.length (eosState scaled start (done ++ rest)) =
      eosState scaled after (done ++ ruleAfter suffix rest) := by
  induction rest using runs_induction EosToken.isTrained generalizing done start with
  | nil => exact ⟨start, rfl⟩
  | append run rest value isRun elsewhere ih =>
    rw [forall_mem_append] at labelled
    rw [length_append, eosLoop_add, ruleAfter_append isRun elsewhere]
    cases value with
    | true =>
      have trained : ∀ token ∈ run, 0 ≤ token.label := fun token isIn =>
        of_decide_eq_true (isRun.keys token isIn)
      have next : ∀ next ∈ rest.head?, next.label = -100 := fun next isNext =>
        label_of_not_isTrained (labelled.2 next (mem_of_mem_head? isNext))
          (elsewhere next isNext)
      obtain ⟨after, isAfter, looped⟩ := @eosLoop_trained scaled suffix rest run isRun.some
        trained next ids start done
      rw [looped, ruleRun_of_trained isRun, ← length_append, ← append_assoc, ← append_assoc]
      refine ih labelled.2 (by simp [isSome]) (fun first isFirst _ => ?_) (by simpa using isIds)
      have someRest : rest ≠ [] := by
        rintro rfl
        cases isFirst
      rw [isAfter someRest, length_append]
    | false =>
      have ignored : ∀ token ∈ run, token.label = -100 := fun token isIn =>
        label_of_not_isTrained (labelled.1 token isIn) (by
          rw [isRun.keys token isIn]
          decide)
      have next : ∀ next ∈ rest.head?, 0 ≤ next.label := by
        intro next isNext
        have isTrained := elsewhere next isNext
        rw [ne_eq, Bool.not_eq_false] at isTrained
        exact of_decide_eq_true isTrained
      obtain ⟨first, others, isFirst⟩ := exists_cons_of_ne_nil isRun.some
      have isStart : start = done.length :=
        begins first (by simp [isFirst]) (ignored first (by simp [isFirst]))
      have length : (ruleRun suffix run).length = run.length := by
        rw [← length_map EosToken.id, ids_ruleRun, length_map]
      rw [isStart, eosLoop_ignored isSome isRun.some ignored next isIds, ← length,
        ← length_append, ← append_assoc, ← append_assoc]
      refine ih labelled.2 (by simp [isSome]) (fun token isNext isIgnored => ?_) ?_
      · have trained := next token isNext
        omega
      · rw [isIds]
        simp [ids_ruleRun]

theorem eosRule_append {run : List EosToken} {value : Bool}
    (isRun : IsRun EosToken.isTrained run value)
    (elsewhere : BeginsElsewhere EosToken.isTrained value rest) :
    eosRule suffix (run ++ rest) = run ++ ruleAfter suffix rest := by
  rw [eosRule, runs_append isRun elsewhere, head?_cons, Option.getD_some, tail_cons, ruleAfter]

theorem eosLoop_eq {tokens : List EosToken} (labelled : ∀ token ∈ tokens, token.IsLabelled) :
    ∃ after, eosLoop suffix (tokens.map EosToken.id) 0 tokens.length (eosState scaled 0 tokens) =
      eosState scaled after (eosRule suffix tokens) := by
  induction tokens using runs_induction EosToken.isTrained with
  | nil => exact ⟨0, rfl⟩
  | append run rest value isRun elsewhere _ =>
    rw [forall_mem_append] at labelled
    rw [length_append, eosLoop_add, eosRule_append isRun elsewhere, Nat.zero_add]
    cases value with
    | true =>
      have trained : ∀ token ∈ run, 0 ≤ token.label := fun token isIn =>
        of_decide_eq_true (isRun.keys token isIn)
      have next : ∀ next ∈ rest.head?, next.label = -100 := fun next isNext =>
        label_of_not_isTrained (labelled.2 next (mem_of_mem_head? isNext))
          (elsewhere next isNext)
      obtain ⟨after, isAfter, looped⟩ := @eosLoop_trained scaled suffix rest run isRun.some
        trained next ((run ++ rest).map EosToken.id) 0 []
      rw [nil_append, length_nil] at looped
      rw [looped]
      refine eosLoop_after labelled.2 isRun.some (fun first isFirst _ => ?_) rfl
      have someRest : rest ≠ [] := by
        rintro rfl
        cases isFirst
      rw [isAfter someRest, length_nil, Nat.zero_add]
    | false =>
      have ignored : ∀ token ∈ run, token.label = -100 := fun token isIn =>
        label_of_not_isTrained (labelled.1 token isIn) (by
          rw [isRun.keys token isIn]
          decide)
      rw [eosLoop_first isRun.some ignored]
      refine eosLoop_after labelled.2 isRun.some (fun first isFirst isIgnored => ?_) rfl
      have isTrained := elsewhere first isFirst
      rw [ne_eq, Bool.not_eq_false, EosToken.isTrained, isIgnored] at isTrained
      exact absurd isTrained (by decide)

theorem ids_ruleAfter (tokens : List EosToken) :
    (ruleAfter suffix tokens).map EosToken.id = tokens.map EosToken.id := by
  conv_rhs => rw [← flatten_runs EosToken.isTrained tokens]
  rw [ruleAfter]
  induction runs EosToken.isTrained tokens with
  | nil => rfl
  | cons run later ih =>
    rw [flatMap_cons, map_append, ids_ruleRun, ih, flatten_cons, map_append]

theorem ids_eosRule (tokens : List EosToken) :
    (eosRule suffix tokens).map EosToken.id = tokens.map EosToken.id := by
  induction tokens using runs_induction EosToken.isTrained with
  | nil => rfl
  | append run rest value isRun elsewhere _ =>
    rw [eosRule_append isRun elsewhere, map_append, ids_ruleAfter, map_append]

theorem addDynamicEos_labelledTokens (scaled : Bool) (suffix : List ℤ) {tokens : List EosToken}
    (labelled : ∀ token ∈ tokens, token.IsLabelled) :
    addDynamicEos suffix (labelledTokens scaled tokens) =
      labelledTokens scaled (eosRule suffix tokens) := by
  obtain ⟨after, looped⟩ := @eosLoop_eq scaled suffix tokens labelled
  have isLoop : (range (labelledTokens scaled tokens).labels.length).foldl
      (eosStep (labelledTokens scaled tokens).inputIds suffix)
      ⟨0, (labelledTokens scaled tokens).labels, (labelledTokens scaled tokens).lossScale⟩ =
        eosState scaled after (eosRule suffix tokens) := by
    have count : (labelledTokens scaled tokens).labels.length = tokens.length := length_map _
    rw [← looped, range_eq_range', count]
    rfl
  have sameIds : (eosRule suffix tokens).map EosToken.id = tokens.map EosToken.id :=
    ids_eosRule tokens
  rw [addDynamicEos, isLoop, labelledTokens, labelledTokens, sameIds]
  rfl

end Loop

/-! ## The second time -/

section Twice

variable {suffix : List ℤ}

/-- The runs that follow a token that is trained on, and are not trained on themselves. -/
def followingRuns (tokens : List EosToken) : List (List EosToken) :=
  (runs EosToken.isTrained tokens).tail.filter fun run => run.head?.any EosToken.isTrained = false

theorem beginsElsewhere_of_isRun {run : List EosToken} {value other : Bool}
    (isRun : IsRun EosToken.isTrained run value) (differ : value ≠ other) (rest : List EosToken) :
    BeginsElsewhere EosToken.isTrained other (run ++ rest) := by
  intro next isNext
  obtain ⟨token, others, isSome⟩ := exists_cons_of_ne_nil isRun.some
  rw [isSome] at isNext
  rw [← Option.some.inj isNext, isRun.keys token (by simp [isSome])]
  exact differ

variable {first : List EosToken}

theorem ruleAfter_trained (trained : ∀ token ∈ first, token.isTrained = true)
    (rest : List EosToken) :
    ruleAfter suffix (first ++ rest) = first ++ ruleAfter suffix rest := by
  by_cases none : first = []
  · rw [none, nil_append, nil_append]
  · induction rest using runs_induction EosToken.isTrained with
    | nil =>
      rw [ruleAfter_append ⟨none, trained⟩ (fun _ isFirst => by cases isFirst),
        ruleRun_of_trained ⟨none, trained⟩]
    | append run rest value isRun elsewhere _ =>
      cases value with
      | true =>
        have joined : IsRun EosToken.isTrained (first ++ run) true :=
          ⟨by simp [none], forall_mem_append.mpr ⟨trained, isRun.keys⟩⟩
        rw [← append_assoc, ruleAfter_append joined elsewhere, ruleAfter_append isRun elsewhere,
          ruleRun_of_trained joined, ruleRun_of_trained isRun, append_assoc]
      | false =>
        rw [ruleAfter_append ⟨none, trained⟩ (beginsElsewhere_of_isRun isRun (by decide) rest),
          ruleRun_of_trained ⟨none, trained⟩]

theorem ruleAfter_ignored (some : suffix ≠ []) (ignored : ∀ token ∈ first, token.isTrained = false)
    {rest : List EosToken} (elsewhere : BeginsElsewhere EosToken.isTrained false rest) :
    ruleAfter suffix (first ++ rest) = ruleRun suffix first ++ ruleAfter suffix rest := by
  by_cases none : first = []
  · rw [none, ruleRun, if_neg fun both => some (prefix_nil.mp both.2), nil_append, nil_append]
  · exact ruleAfter_append ⟨none, ignored⟩ elsewhere

theorem beginsElsewhere_ruleAfter {rest : List EosToken}
    (elsewhere : BeginsElsewhere EosToken.isTrained false rest) :
    BeginsElsewhere EosToken.isTrained false (ruleAfter suffix rest) := by
  cases rest with
  | nil => exact elsewhere
  | cons first rest =>
    have isTrained : first.isTrained = true := by
      have differ := elsewhere first rfl
      rwa [ne_eq, Bool.not_eq_false] at differ
    have passed := @ruleAfter_trained suffix [first] (by simpa using isTrained) rest
    rw [singleton_append, singleton_append] at passed
    rw [passed]
    exact elsewhere

/-- A run that is not trained on changes exactly where its ids begin with the suffix, and then its
labels do. -/
theorem labels_ruleRun_iff (some : suffix ≠ []) (isIds : ∀ id ∈ suffix, 0 ≤ id)
    {run : List EosToken} (ignored : ∀ token ∈ run, token.label = -100) :
    (ruleRun suffix run).map EosToken.label = run.map EosToken.label ↔
      ¬ suffix <+: run.map EosToken.id := by
  rw [ruleRun]
  constructor
  · intro same begins
    have le := begins.length_le
    rw [length_map] at le
    rw [if_pos ⟨not_isTrained_head ignored, begins⟩, labels_trainRun le] at same
    obtain ⟨id, ids, isSome⟩ := exists_cons_of_ne_nil some
    have isFirst : id ∈ run.map EosToken.label := by
      rw [← same, isSome]
      exact mem_append_left _ mem_cons_self
    obtain ⟨token, isIn, isLabel⟩ := mem_map.mp isFirst
    have isId := isIds id (by simp [isSome])
    rw [← isLabel, ignored token isIn] at isId
    exact absurd isId (by decide)
  · intro notBegins
    rw [if_neg fun both => notBegins both.2]

theorem ruleRun_eq_iff (some : suffix ≠ []) (isIds : ∀ id ∈ suffix, 0 ≤ id) {run : List EosToken}
    (ignored : ∀ token ∈ run, token.label = -100) :
    ruleRun suffix run = run ↔ ¬ suffix <+: run.map EosToken.id := by
  refine ⟨fun same => (labels_ruleRun_iff some isIds ignored).mp (by rw [same]), fun not => ?_⟩
  rw [ruleRun, if_neg fun both => not both.2]

theorem length_ruleRun (run : List EosToken) : (ruleRun suffix run).length = run.length := by
  rw [← length_map EosToken.id, ids_ruleRun, length_map]

theorem ignored_of_isRun {run : List EosToken} (isRun : IsRun EosToken.isTrained run false)
    (labelled : ∀ token ∈ run, token.IsLabelled) : ∀ token ∈ run, token.label = -100 := by
  intro token isIn
  refine label_of_not_isTrained (labelled token isIn) ?_
  rw [isRun.keys token isIn]
  decide

variable {tokens : List EosToken}

theorem ruleAfter_eq_of_labels (some : suffix ≠ []) (isIds : ∀ id ∈ suffix, 0 ≤ id)
    (labelled : ∀ token ∈ tokens, token.IsLabelled)
    (same : (ruleAfter suffix tokens).map EosToken.label = tokens.map EosToken.label) :
    ruleAfter suffix tokens = tokens := by
  induction tokens using runs_induction EosToken.isTrained with
  | nil => rfl
  | append run rest value isRun elsewhere ih =>
    rw [forall_mem_append] at labelled
    rw [ruleAfter_append isRun elsewhere, map_append, map_append] at same
    obtain ⟨sameRun, sameRest⟩ := append_inj same (by simp [length_ruleRun])
    rw [ruleAfter_append isRun elsewhere, ih labelled.2 sameRest]
    cases value with
    | true => rw [ruleRun_of_trained isRun]
    | false =>
      have ignored := ignored_of_isRun isRun labelled.1
      rw [(ruleRun_eq_iff some isIds ignored).mpr
        ((labels_ruleRun_iff some isIds ignored).mp sameRun)]

theorem eosRule_eq_of_labels (some : suffix ≠ []) (isIds : ∀ id ∈ suffix, 0 ≤ id)
    (labelled : ∀ token ∈ tokens, token.IsLabelled)
    (same : (eosRule suffix tokens).map EosToken.label = tokens.map EosToken.label) :
    eosRule suffix tokens = tokens := by
  induction tokens using runs_induction EosToken.isTrained with
  | nil => rfl
  | append run rest value isRun elsewhere _ =>
    rw [forall_mem_append] at labelled
    rw [eosRule_append isRun elsewhere, map_append, map_append, append_cancel_left_eq] at same
    rw [eosRule_append isRun elsewhere, ruleAfter_eq_of_labels some isIds labelled.2 same]

theorem trainRun_parts (isIds : ∀ id ∈ suffix, 0 ≤ id) {run : List EosToken}
    (begins : suffix <+: run.map EosToken.id) :
    ∃ first, trainRun suffix run = first ++ run.drop suffix.length ∧
      first.length = suffix.length ∧ ∀ token ∈ first, token.isTrained = true := by
  have le := begins.length_le
  rw [length_map] at le
  have length := congrArg length (ids_trainRun le)
  have labels := labels_trainRun le
  rw [trainRun] at length labels ⊢
  generalize zipWith _ (run.take suffix.length) suffix = first at length labels ⊢
  have count : first.length = suffix.length := by
    simp only [length_map, length_append, length_drop] at length
    omega
  rw [map_append, map_drop] at labels
  have isLabels : first.map EosToken.label = suffix :=
    (append_inj labels (by rw [length_map, count])).1
  refine ⟨first, rfl, count, fun token isIn => decide_eq_true (isIds token.label ?_)⟩
  rw [← isLabels]
  exact mem_map_of_mem isIn

theorem begins_twice_iff {run : List EosToken} (begins : suffix <+: run.map EosToken.id) :
    suffix ++ suffix <+: run.map EosToken.id ↔
      suffix <+: (run.drop suffix.length).map EosToken.id := by
  obtain ⟨rest, isRest⟩ := begins
  rw [map_drop, ← isRest, drop_left, prefix_append_right_inj]

/-- The rule changes something again exactly where the ids of a run begin with the suffix
twice. -/
theorem ruleAfter_ruleAfter_iff (some : suffix ≠ []) (isIds : ∀ id ∈ suffix, 0 ≤ id)
    (labelled : ∀ token ∈ tokens, token.IsLabelled) :
    ruleAfter suffix (ruleAfter suffix tokens) = ruleAfter suffix tokens ↔
      ∀ run ∈ runs EosToken.isTrained tokens, run.head?.any EosToken.isTrained = false →
        ¬ suffix ++ suffix <+: run.map EosToken.id := by
  induction tokens using runs_induction EosToken.isTrained with
  | nil => exact iff_of_true rfl fun run isIn => by cases isIn
  | append run rest value isRun elsewhere ih =>
    rw [forall_mem_append] at labelled
    have ih := ih labelled.2
    rw [runs_append isRun elsewhere, forall_mem_cons, ruleAfter_append isRun elsewhere, ← ih]
    cases value with
    | true =>
      obtain ⟨first, others, isSome⟩ := exists_cons_of_ne_nil isRun.some
      have isTrained : first.isTrained = true := isRun.keys first (by simp [isSome])
      rw [ruleRun_of_trained isRun, ruleAfter_trained isRun.keys, append_cancel_left_eq]
      refine ⟨fun same => ⟨fun notTrained => ?_, same⟩, fun both => both.2⟩
      rw [isSome, head?_cons, Option.any_some, isTrained] at notTrained
      cases notTrained
    | false =>
      have ignored := ignored_of_isRun isRun labelled.1
      have later := @beginsElsewhere_ruleAfter suffix rest elsewhere
      by_cases begins : suffix <+: run.map EosToken.id
      · obtain ⟨first, isTrained, count, trained⟩ := trainRun_parts isIds begins
        have dropped : ∀ token ∈ run.drop suffix.length, token.label = -100 := fun token isIn =>
          ignored token (mem_of_mem_drop isIn)
        have notTrained : ∀ token ∈ run.drop suffix.length, token.isTrained = false :=
          fun token isIn => isRun.keys token (mem_of_mem_drop isIn)
        rw [ruleRun, if_pos ⟨not_isTrained_head ignored, begins⟩, isTrained, append_assoc,
          ruleAfter_trained trained, append_cancel_left_eq, ruleAfter_ignored some notTrained later,
          begins_twice_iff begins, ← ruleRun_eq_iff some isIds dropped]
        constructor
        · intro same
          have both := append_inj same (length_ruleRun _)
          exact ⟨fun _ => both.1, both.2⟩
        · rintro ⟨sameRun, sameRest⟩
          rw [sameRun (not_isTrained_head ignored), sameRest]
      · have notTwice : ¬ suffix ++ suffix <+: run.map EosToken.id := fun twice =>
          begins ((prefix_append _ _).trans twice)
        have kept : ruleRun suffix run = run := (ruleRun_eq_iff some isIds ignored).mpr begins
        rw [kept, ruleAfter_ignored some isRun.keys later, kept, append_cancel_left_eq]
        exact ⟨fun same => ⟨fun _ => notTwice, same⟩, fun both => both.2⟩

theorem eosRule_trained (isSome : first ≠ []) (trained : ∀ token ∈ first, token.isTrained = true)
    (rest : List EosToken) : eosRule suffix (first ++ rest) = first ++ ruleAfter suffix rest := by
  induction rest using runs_induction EosToken.isTrained with
  | nil => exact eosRule_append ⟨isSome, trained⟩ fun _ isFirst => by cases isFirst
  | append run rest value isRun elsewhere _ =>
    cases value with
    | true =>
      have joined : IsRun EosToken.isTrained (first ++ run) true :=
        ⟨by simp [isSome], forall_mem_append.mpr ⟨trained, isRun.keys⟩⟩
      rw [← append_assoc, eosRule_append joined elsewhere, append_assoc,
        ruleAfter_trained isRun.keys]
    | false => exact eosRule_append ⟨isSome, trained⟩ (beginsElsewhere_of_isRun isRun (by decide) rest)

/-- The same for whole rows, in which the first run is left as it is. -/
theorem eosRule_eosRule_iff (some : suffix ≠ []) (isIds : ∀ id ∈ suffix, 0 ≤ id)
    (labelled : ∀ token ∈ tokens, token.IsLabelled) :
    eosRule suffix (eosRule suffix tokens) = eosRule suffix tokens ↔
      ∀ run ∈ followingRuns tokens, ¬ suffix ++ suffix <+: run.map EosToken.id := by
  induction tokens using runs_induction EosToken.isTrained with
  | nil => exact iff_of_true rfl fun run isIn => by cases isIn
  | append run rest value isRun elsewhere _ =>
    rw [forall_mem_append] at labelled
    have isFollowing : followingRuns (run ++ rest) = (runs EosToken.isTrained rest).filter
        fun run => run.head?.any EosToken.isTrained = false := by
      rw [followingRuns, runs_append isRun elsewhere, tail_cons]
    have twice : eosRule suffix (run ++ ruleAfter suffix rest) =
        run ++ ruleAfter suffix (ruleAfter suffix rest) := by
      cases value with
      | true => exact eosRule_trained isRun.some isRun.keys _
      | false => exact eosRule_append isRun (beginsElsewhere_ruleAfter elsewhere)
    rw [eosRule_append isRun elsewhere, twice, append_cancel_left_eq, isFollowing,
      ruleAfter_ruleAfter_iff some isIds labelled.2]
    simp only [mem_filter, decide_eq_true_eq, and_imp]

/-! ## The columns -/

def tokensOf (columns : LabelledTokens) : List EosToken :=
  List.zipWith (fun id token => ⟨id, token.1, token.2⟩) columns.inputIds
    (columns.labels.zip (columns.lossScale.getD (List.replicate columns.labels.length 0)))

theorem labelledTokens_tokensOf {scaled : Bool} {columns : LabelledTokens}
    (aligned : columns.Aligned scaled) : labelledTokens scaled (tokensOf columns) = columns := by
  obtain ⟨inputIds, labels, lossScale⟩ := columns
  have count : labels.length = inputIds.length := aligned.labels
  have scales : (lossScale.getD (replicate labels.length 0)).length = labels.length := by
    cases isScale : lossScale with
    | none => exact length_replicate
    | some scale => exact (aligned.lossScale scale isScale).trans count.symm
  have zipped : inputIds.length =
      (labels.zip (lossScale.getD (replicate labels.length 0))).length := by
    rw [length_zip, scales, Nat.min_self, count]
  have pairs := zipWith_right zipped
  rw [labelledTokens, tokensOf, map_zipWith, map_zipWith, map_zipWith]
  dsimp only
  have isLabels := congrArg (map Prod.fst) pairs
  have isScales := congrArg (map Prod.snd) pairs
  rw [map_zipWith, map_fst_zip (Nat.le_of_eq scales.symm)] at isLabels
  rw [map_zipWith, map_snd_zip (Nat.le_of_eq scales)] at isScales
  rw [zipWith_left (fun id => id) zipped, map_id', isLabels, isScales]
  have isSome : lossScale.isSome = scaled := aligned.isSome
  subst isSome
  cases lossScale with
  | none => rfl
  | some scale => rfl

/-- Labels are ids or are ignored. -/
def LabelledTokens.IsLabelled (columns : LabelledTokens) : Prop :=
  ∀ label ∈ columns.labels, label = -100 ∨ 0 ≤ label

theorem isLabelled_ruleRun (isIds : ∀ id ∈ suffix, 0 ≤ id) {run : List EosToken}
    (labelled : ∀ token ∈ run, token.IsLabelled) :
    ∀ token ∈ ruleRun suffix run, token.IsLabelled := by
  rw [ruleRun]
  split
  · rename_i begins
    obtain ⟨first, isTrained, -, trained⟩ := trainRun_parts isIds begins.2
    rw [isTrained, forall_mem_append]
    exact ⟨fun token isIn => .inr (of_decide_eq_true (trained token isIn)),
      fun token isIn => labelled token (mem_of_mem_drop isIn)⟩
  · exact labelled

theorem isLabelled_ruleAfter (isIds : ∀ id ∈ suffix, 0 ≤ id)
    (labelled : ∀ token ∈ tokens, token.IsLabelled) :
    ∀ token ∈ ruleAfter suffix tokens, token.IsLabelled := by
  induction tokens using runs_induction EosToken.isTrained with
  | nil => exact fun token isIn => by cases isIn
  | append run rest value isRun elsewhere ih =>
    rw [forall_mem_append] at labelled
    rw [ruleAfter_append isRun elsewhere, forall_mem_append]
    exact ⟨isLabelled_ruleRun isIds labelled.1, ih labelled.2⟩

theorem isLabelled_eosRule (isIds : ∀ id ∈ suffix, 0 ≤ id)
    (labelled : ∀ token ∈ tokens, token.IsLabelled) :
    ∀ token ∈ eosRule suffix tokens, token.IsLabelled := by
  induction tokens using runs_induction EosToken.isTrained with
  | nil => exact fun token isIn => by cases isIn
  | append run rest value isRun elsewhere _ =>
    rw [forall_mem_append] at labelled
    rw [eosRule_append isRun elsewhere, forall_mem_append]
    exact ⟨labelled.1, isLabelled_ruleAfter isIds labelled.2⟩

/-- Without a suffix nothing changes. -/
theorem eosRule_nil (tokens : List EosToken) : eosRule [] tokens = tokens := by
  have kept (run : List EosToken) : ruleRun [] run = run := by
    rw [ruleRun]
    split
    · rfl
    · rfl
  induction tokens using runs_induction EosToken.isTrained with
  | nil => rfl
  | append run rest value isRun elsewhere _ =>
    rw [eosRule_append isRun elsewhere, ruleAfter, flatMap_congr fun run _ => kept run,
      flatMap_id', flatten_runs]

/-- **`_add_dynamic_eos` is the rule**, and a second time changes something exactly where the ids of
a run begin with the suffix twice. -/
theorem addDynamicEos_rule (suffix : List ℤ) {scaled : Bool} {columns : LabelledTokens}
    (aligned : columns.Aligned scaled) (labelled : columns.IsLabelled) :
    addDynamicEos suffix columns = labelledTokens scaled (eosRule suffix (tokensOf columns)) ∧
      ((∀ id ∈ suffix, 0 ≤ id) →
        (addDynamicEos suffix (addDynamicEos suffix columns) = addDynamicEos suffix columns ↔
          suffix = [] ∨ ∀ run ∈ followingRuns (tokensOf columns),
            ¬ suffix ++ suffix <+: run.map EosToken.id)) := by
  have areLabelled : ∀ token ∈ tokensOf columns, token.IsLabelled := by
    intro token isIn
    refine labelled token.label ?_
    rw [← labelledTokens_tokensOf aligned]
    exact mem_map_of_mem isIn
  have once := addDynamicEos_labelledTokens scaled suffix areLabelled
  rw [labelledTokens_tokensOf aligned] at once
  refine ⟨once, fun isIds => ?_⟩
  have stillLabelled := isLabelled_eosRule isIds areLabelled
  rw [once, addDynamicEos_labelledTokens scaled suffix stillLabelled]
  by_cases none : suffix = []
  · rw [none, eosRule_nil, eosRule_nil]
    exact iff_of_true rfl (.inl rfl)
  · rw [← eosRule_eosRule_iff none isIds areLabelled]
    constructor
    · intro same
      exact .inr (eosRule_eq_of_labels none isIds stillLabelled
        (congrArg LabelledTokens.labels same))
    · rintro (isNil | same)
      · exact absurd isNil none
      · rw [same]

/-- An answer, two tokens of which the second could be a suffix once more, and an answer. -/
def suffixedTwice : LabelledTokens := ⟨[1, 2, 2, 3], [1, -100, -100, 3], some [1, 0, 0, 1]⟩

theorem aligned_suffixedTwice : suffixedTwice.Aligned true :=
  ⟨rfl, rfl, fun _ isScale => by cases isScale; rfl⟩

theorem isLabelled_suffixedTwice : suffixedTwice.IsLabelled := by
  show ∀ label ∈ ([1, -100, -100, 3] : List ℤ), label = -100 ∨ 0 ≤ label
  decide

theorem addDynamicEos_rule_suffixedTwice :
    addDynamicEos [2] suffixedTwice =
        labelledTokens true (eosRule [2] (tokensOf suffixedTwice)) ∧
      (addDynamicEos [2] (addDynamicEos [2] suffixedTwice) = addDynamicEos [2] suffixedTwice ↔
        ([2] : List ℤ) = [] ∨ ∀ run ∈ followingRuns (tokensOf suffixedTwice),
          ¬ [2] ++ [2] <+: run.map EosToken.id) :=
  ⟨(addDynamicEos_rule [2] aligned_suffixedTwice isLabelled_suffixedTwice).1,
    (addDynamicEos_rule [2] aligned_suffixedTwice isLabelled_suffixedTwice).2 (by decide)⟩

/-- The second time trains on the token after the suffix. -/
theorem not_idempotent_suffixedTwice :
    (addDynamicEos [2] suffixedTwice).labels = [1, 2, -100, 3] ∧
      (addDynamicEos [2] (addDynamicEos [2] suffixedTwice)).labels = [1, 2, 2, 3] := by
  decide

end Twice

end Geobench.Template
