import Geobench.Library.ListSlices
import Geobench.Library.Text

/-!
# Accuracies of packed and of padded samples

A token is predicted at the one before it. `computeAcc` compares the predictions with the labels
one place later, and has an entry for each supervised token or for each sample. A batch is either
one packed row with the places where its samples begin, or rows with padding.

The entries of the tokens are the same (`computeAcc_token`). The slice of a packed sample has the
tokens that are ignored, and the first token of the next sample, so that **`accuraciesAgree_iff`**:
the entries of the samples are the same where each sample but the last one has a wrong token, and
the last one has one or nothing to ignore.
-/

namespace Geobench.Metrics

open Library List

/-! ## The accuracies of two arrays -/

inductive AccStrategy where
  | token
  | seq
  deriving DecidableEq, Repr

def AccStrategy.key : AccStrategy → Text
  | .token => "token_acc".toList
  | .seq => "seq_acc".toList

/-- Whether a label takes part. -/
def masked (label : ℤ) : Bool := label ≠ -100

def allEqual (preds labels : List ℤ) : Bool :=
  (preds.zip labels).all fun pair => pair.1 = pair.2

/-- Predictions and labels where the labels take part. -/
def selectMasked (preds labels : List ℤ) : List (ℤ × ℤ) :=
  (preds.zip labels).filter fun pair => masked pair.2

/-- `compute_acc` for two arrays of rows. Nothing is returned where their shapes differ. -/
def computeAcc (strategy : AccStrategy) (isEncoderDecoder : Bool) (cuSeqlens : Option (List ℕ))
    (preds labels : List (List ℤ)) : Option (Text × List Bool) :=
  let labels := if isEncoderDecoder then labels else labels.map List.tail
  let preds := if isEncoderDecoder then preds else preds.map List.dropLast
  if preds.map List.length ≠ labels.map List.length then none
  else
    let accList := match strategy, cuSeqlens with
      | .token, _ =>
        (preds.zip labels).flatMap fun row =>
          (selectMasked row.1 row.2).map fun pair => decide (pair.1 = pair.2)
      | .seq, some cuSeqlens =>
        if labels.length = 1 then
          (List.range (cuSeqlens.length - 1)).map fun index =>
            let start := cuSeqlens.getD index 0
            let stop := cuSeqlens.getD (index + 1) 0
            allEqual (slice (preds.headD []) start stop) (slice (labels.headD []) start stop)
        else (preds.zip labels).map fun row =>
          (selectMasked row.1 row.2).all fun pair => pair.1 = pair.2
      | .seq, none =>
        (preds.zip labels).map fun row =>
          (selectMasked row.1 row.2).all fun pair => pair.1 = pair.2
    some (strategy.key, accList)

/-! ## Batches -/

/-- A token, its label, and what is predicted at it. -/
structure Token where
  pred : ℕ
  label : ℤ
  deriving DecidableEq, Repr

/-- A sample, whose first label is ignored. -/
structure Sample where
  first : ℕ
  rest : List Token
  deriving DecidableEq, Repr

def Sample.tokens (sample : Sample) : List Token := ⟨sample.first, -100⟩ :: sample.rest

/-- A token of the padding, at which something is predicted as well. -/
def padding (pred : ℕ) : Token := ⟨pred, -100⟩

/-- A row of a padded batch: a sample, and what is predicted before and behind it. -/
structure PaddedSample where
  before : List ℕ
  sample : Sample
  after : List ℕ

def PaddedSample.tokens (padded : PaddedSample) : List Token :=
  padded.before.map padding ++ (padded.sample.tokens ++ padded.after.map padding)

def predsOf (tokens : List Token) : List ℤ := tokens.map fun token => (token.pred : ℤ)

def labelsOf (tokens : List Token) : List ℤ := tokens.map Token.label

def packedAcc (strategy : AccStrategy) (samples : List Sample) : Option (Text × List Bool) :=
  let tokens := samples.flatMap Sample.tokens
  computeAcc strategy false (some (places (samples.map fun sample => sample.tokens.length)))
    [predsOf tokens] [labelsOf tokens]

/-- The accuracies of samples in rows of their own. -/
def paddedAcc (strategy : AccStrategy) (rows : List PaddedSample) : Option (Text × List Bool) :=
  computeAcc strategy false none (rows.map fun row => predsOf row.tokens)
    (rows.map fun row => labelsOf row.tokens)

/-! ## Steps -/

/-- What is predicted at each token, and the label of the token after it. -/
def steps : List Token → List (ℤ × ℤ)
  | [] => []
  | [_] => []
  | token :: next :: rest => ((token.pred : ℤ), next.label) :: steps (next :: rest)

theorem zip_dropLast_tail (tokens : List Token) :
    (predsOf tokens).dropLast.zip (labelsOf tokens).tail = steps tokens := by
  fun_induction steps tokens with
  | case1 => rfl
  | case2 token => rfl
  | case3 token next rest ih =>
    simp only [predsOf, labelsOf, map_cons, dropLast_cons_cons, tail_cons, zip_cons_cons] at ih ⊢
    rw [ih]

theorem length_steps (tokens : List Token) : (steps tokens).length = tokens.length - 1 := by
  rw [← zip_dropLast_tail, length_zip, length_dropLast, length_tail, predsOf,
    labelsOf, length_map, length_map, Nat.min_self]

/-- The steps that take part. -/
def supervised (tokens : List Token) : List (ℤ × ℤ) :=
  (steps tokens).filter fun pair => masked pair.2

theorem supervised_append {first second : List Token}
    (ignored : ∀ token ∈ second.head?, token.label = -100) :
    supervised (first ++ second) = supervised first ++ supervised second := by
  unfold supervised
  fun_induction steps first with
  | case1 => rfl
  | case2 token =>
    cases second with
    | nil => rfl
    | cons next rest =>
      have isIgnored := ignored next rfl
      simp [steps, masked, isIgnored]
  | case3 token next rest ih =>
    rw [cons_append, cons_append, steps, filter_cons, filter_cons, ← cons_append, ih]
    split <;> rfl

theorem supervised_padding (preds : List ℕ) : supervised (preds.map padding) = [] := by
  induction preds with
  | nil => rfl
  | cons pred preds ih =>
    have ignored : ∀ token ∈ (preds.map padding).head?, token.label = -100 := by
      intro token isHead
      obtain ⟨other, -, rfl⟩ := mem_map.mp (mem_of_mem_head? isHead)
      rfl
    have split : supervised ([padding pred] ++ preds.map padding) = _ := supervised_append ignored
    rw [ih] at split
    exact split

/-- The padding of a row does not take part. -/
theorem PaddedSample.supervised_tokens (padded : PaddedSample) :
    supervised padded.tokens = supervised padded.sample.tokens := by
  have behind : ∀ token ∈ (padded.after.map padding).head?, token.label = -100 := by
    intro token isHead
    obtain ⟨pred, -, rfl⟩ := mem_map.mp (mem_of_mem_head? isHead)
    rfl
  have inFront : ∀ token ∈ (padded.sample.tokens ++ padded.after.map padding).head?,
      token.label = -100 := by
    intro token isHead
    cases isHead
    rfl
  rw [PaddedSample.tokens, supervised_append inFront, supervised_append behind,
    supervised_padding, supervised_padding, nil_append, append_nil]

variable (samples : List Sample)

theorem supervised_flatMap :
    supervised (samples.flatMap Sample.tokens) =
      samples.flatMap fun sample => supervised sample.tokens := by
  induction samples with
  | nil => rfl
  | cons sample samples ih =>
    have ignored : ∀ token ∈ (samples.flatMap Sample.tokens).head?, token.label = -100 := by
      intro token isHead
      cases samples with
      | nil => cases isHead
      | cons next samples =>
        cases isHead
        rfl
    rw [flatMap_cons, flatMap_cons, supervised_append ignored, ih]

/-! ## The entries of the tokens -/

def entriesOf (pairs : List (ℤ × ℤ)) : List Bool := pairs.map fun pair => decide (pair.1 = pair.2)

theorem map_length_shifted {ι : Type} (tokensOf : ι → List Token) (rows : List ι) :
    ((rows.map fun row => predsOf (tokensOf row)).map List.dropLast).map length =
      ((rows.map fun row => labelsOf (tokensOf row)).map List.tail).map length := by
  simp only [map_map]
  refine map_congr_left fun row _ => ?_
  simp [predsOf, labelsOf]

theorem computeAcc_token_rows (cuSeqlens : Option (List ℕ)) (rows : List (List Token)) :
    computeAcc .token false cuSeqlens (rows.map predsOf) (rows.map labelsOf) =
      some (AccStrategy.token.key, rows.flatMap fun tokens => entriesOf (supervised tokens)) := by
  have shape : ((rows.map predsOf).map List.dropLast).map length =
      ((rows.map labelsOf).map List.tail).map length := map_length_shifted id rows
  rw [computeAcc]
  simp only [Bool.false_eq_true, if_false]
  rw [if_neg (not_not_intro shape), map_map, map_map, zip_map', flatMap_map]
  congr 2
  refine flatMap_congr fun tokens _ => ?_
  simp only [Function.comp_apply, selectMasked, zip_dropLast_tail]
  rfl

theorem computeAcc_token (rows : List PaddedSample) :
    packedAcc .token (rows.map PaddedSample.sample) = paddedAcc .token rows := by
  have packed := computeAcc_token_rows
    (some (places ((rows.map PaddedSample.sample).map fun sample => sample.tokens.length)))
    [(rows.map PaddedSample.sample).flatMap Sample.tokens]
  have padded := computeAcc_token_rows none (rows.map PaddedSample.tokens)
  rw [packedAcc, paddedAcc]
  rw [map_singleton, map_singleton, flatMap_singleton] at packed
  rw [map_map, map_map, flatMap_map] at padded
  refine packed.trans (Eq.trans ?_ padded.symm)
  rw [supervised_flatMap, flatMap_map, entriesOf, map_flatMap]
  congr 2
  refine flatMap_congr fun row _ => ?_
  rw [row.supervised_tokens]
  rfl

/-! ## The entries of the samples -/

def allPredicted (pairs : List (ℤ × ℤ)) : Bool := pairs.all fun pair => pair.1 = pair.2

theorem steps_append_cons {first : List Token} (some : first ≠ []) (next : Token)
    (rest : List Token) :
    ∃ pred : ℕ, steps (first ++ next :: rest) =
      steps first ++ ((pred : ℤ), next.label) :: steps (next :: rest) := by
  fun_induction steps first with
  | case1 => exact absurd rfl some
  | case2 token => exact ⟨token.pred, rfl⟩
  | case3 token other others ih =>
    obtain ⟨pred, isSteps⟩ := ih (cons_ne_nil _ _)
    refine ⟨pred, ?_⟩
    rw [cons_append, cons_append, steps, ← cons_append, isSteps]
    rfl

/-- The entries of packed samples: only the last sample may have no wrong step. -/
def packedEntries : List Sample → List Bool
  | [] => []
  | [last] => [allPredicted (steps last.tokens)]
  | _ :: next :: rest => false :: packedEntries (next :: rest)

theorem map_cutAt_steps :
    (cutAt (offset (samples.map fun sample => sample.tokens.length)) samples.length
      (steps (samples.flatMap Sample.tokens))).map allPredicted = packedEntries samples := by
  fun_induction packedEntries samples with
  | case1 => rfl
  | case2 last =>
    have all : (steps last.tokens).take last.tokens.length = steps last.tokens := by
      refine take_of_length_le ?_
      rw [length_steps]
      exact Nat.sub_le _ _
    have whole : [last].flatMap Sample.tokens = last.tokens := by simp
    rw [whole]
    change (cutAt (offset [last.tokens.length]) (([] : List ℕ).length + 1) _).map _ = _
    rw [cutAt_offset_cons, all]
    rfl
  | case3 sample next rest ih =>
    have split : (sample :: next :: rest).flatMap Sample.tokens = sample.tokens ++
        ⟨next.first, -100⟩ :: (next.rest ++ rest.flatMap Sample.tokens) := by
      simp [Sample.tokens]
    have later : (next :: rest).flatMap Sample.tokens =
        ⟨next.first, -100⟩ :: (next.rest ++ rest.flatMap Sample.tokens) := by
      simp [Sample.tokens]
    have some : sample.tokens ≠ [] := cons_ne_nil _ _
    obtain ⟨pred, isSteps⟩ := steps_append_cons some
      ⟨next.first, -100⟩ (next.rest ++ rest.flatMap Sample.tokens)
    have length : (steps sample.tokens ++ [((pred : ℤ), (-100 : ℤ))]).length =
        sample.tokens.length := by
      rw [length_append, length_steps]
      exact Nat.sub_add_cancel (length_pos_iff.mpr some)
    have blocks : steps ((sample :: next :: rest).flatMap Sample.tokens) =
        (steps sample.tokens ++ [((pred : ℤ), (-100 : ℤ))]) ++
          steps ((next :: rest).flatMap Sample.tokens) := by
      rw [split, later, isSteps, append_assoc]
      rfl
    have wrong : allPredicted (steps sample.tokens ++ [((pred : ℤ), (-100 : ℤ))]) = false := by
      have negative : (pred : ℤ) ≠ -100 := by omega
      simp [allPredicted, negative]
    rw [blocks]
    change (cutAt (offset (sample.tokens.length :: _)) ((next :: rest).length + 1) _).map _ = _
    have count : (next :: rest).length =
        ((next :: rest).map fun sample => sample.tokens.length).length := (length_map _).symm
    rw [count, cutAt_offset_cons, map_cons, ← length, take_left, drop_left, wrong, length_map, ih]

theorem packedAcc_seq :
    packedAcc .seq samples = some (AccStrategy.seq.key, packedEntries samples) := by
  have shape : ([predsOf (samples.flatMap Sample.tokens)].map List.dropLast).map length =
      ([labelsOf (samples.flatMap Sample.tokens)].map List.tail).map length :=
    map_length_shifted id [samples.flatMap Sample.tokens]
  rw [packedAcc, computeAcc]
  simp only [Bool.false_eq_true, if_false]
  rw [if_neg (not_not_intro shape), if_pos (by simp), ← map_cutAt_steps samples, cutAt, map_map]
  have count : (places (samples.map fun sample => sample.tokens.length)).length - 1 =
      samples.length := by
    simp [places]
  rw [count]
  congr 2
  refine map_congr_left fun index isIndex => ?_
  have inside := mem_range.mp isIndex
  have known : ∀ place ≤ samples.length,
      (places (samples.map fun sample => sample.tokens.length))[place]? =
        some (offset (samples.map fun sample => sample.tokens.length) place) :=
    fun place isPlace => getElem?_places (by rwa [length_map])
  have start := known index (by omega)
  have stop := known (index + 1) (by omega)
  rw [getD_eq_getElem?_getD, getD_eq_getElem?_getD, start, stop, Function.comp_apply,
    allEqual, allPredicted, zip, ← slice_zipWith]
  simp only [map_singleton, headD_cons, Option.getD_some]
  rw [← zip, zip_dropLast_tail]

theorem paddedAcc_seq (rows : List PaddedSample) :
    paddedAcc .seq rows = some (AccStrategy.seq.key,
      rows.map fun row => allPredicted (supervised row.sample.tokens)) := by
  have shape := map_length_shifted PaddedSample.tokens rows
  rw [paddedAcc, computeAcc]
  simp only [Bool.false_eq_true, if_false]
  rw [if_neg (not_not_intro shape), map_map, map_map, zip_map', map_map]
  congr 2
  refine map_congr_left fun row _ => ?_
  simp only [Function.comp_apply, selectMasked, zip_dropLast_tail]
  rw [← row.supervised_tokens]
  rfl

/-! ## When the accuracies agree -/

/-- A supervised token is predicted wrongly. -/
def Sample.Mispredicted (sample : Sample) : Prop :=
  ∃ pair ∈ supervised sample.tokens, pair.1 ≠ pair.2

/-- No token behind the first one is ignored. -/
def Sample.FullySupervised (sample : Sample) : Prop := ∀ token ∈ sample.rest, token.label ≠ -100

instance (sample : Sample) : Decidable sample.Mispredicted :=
  inferInstanceAs (Decidable (∃ pair ∈ supervised sample.tokens, pair.1 ≠ pair.2))

instance (sample : Sample) : Decidable sample.FullySupervised :=
  inferInstanceAs (Decidable (∀ token ∈ sample.rest, token.label ≠ -100))

theorem allPredicted_eq_false_iff (sample : Sample) :
    allPredicted (supervised sample.tokens) = false ↔ sample.Mispredicted := by
  simp [allPredicted, Sample.Mispredicted]

theorem map_snd_steps (tokens : List Token) :
    (steps tokens).map Prod.snd = (labelsOf tokens).tail := by
  rw [← zip_dropLast_tail, map_snd_zip]
  simp [predsOf, labelsOf]

theorem nonneg_of_mem_steps {tokens : List Token} {pair : ℤ × ℤ} (isPair : pair ∈ steps tokens) :
    0 ≤ pair.1 := by
  rw [← zip_dropLast_tail] at isPair
  have isPred := mem_of_mem_dropLast (of_mem_zip isPair).1
  obtain ⟨token, -, same⟩ := mem_map.mp isPred
  rw [← same]
  exact Int.natCast_nonneg token.pred

/-- Without another sample behind it, a sample is compared with what it ignores. -/
theorem allPredicted_steps_eq_iff (sample : Sample) :
    allPredicted (steps sample.tokens) = allPredicted (supervised sample.tokens) ↔
      sample.Mispredicted ∨ sample.FullySupervised := by
  have labels : (steps sample.tokens).map Prod.snd = sample.rest.map Token.label :=
    map_snd_steps sample.tokens
  constructor
  · intro same
    by_cases wrong : sample.Mispredicted
    · exact .inl wrong
    · right
      rw [← allPredicted_eq_false_iff, Bool.not_eq_false] at wrong
      rw [wrong, allPredicted, all_eq_true] at same
      intro token isToken ignored
      have isLabel : token.label ∈ (steps sample.tokens).map Prod.snd := by
        rw [labels]
        exact mem_map_of_mem isToken
      obtain ⟨pair, isPair, isLabel⟩ := mem_map.mp isLabel
      have predicted : pair.1 = pair.2 := by simpa using same pair isPair
      have nonneg := nonneg_of_mem_steps isPair
      omega
  · rintro (wrong | fully)
    · rw [(allPredicted_eq_false_iff sample).mpr wrong]
      obtain ⟨pair, isPair, isWrong⟩ := wrong
      have isStep : pair ∈ steps sample.tokens := mem_of_mem_filter isPair
      rw [allPredicted, all_eq_false]
      exact ⟨pair, isStep, by simpa using isWrong⟩
    · have all : supervised sample.tokens = steps sample.tokens := by
        refine filter_eq_self.mpr fun pair isPair => ?_
        have isLabel := mem_map_of_mem (f := Prod.snd) isPair
        rw [labels] at isLabel
        obtain ⟨token, isToken, same⟩ := mem_map.mp isLabel
        simp [masked, ← same, fully token isToken]
      rw [all]

/-- Each sample but the last one has a wrong token, and the last one has one or ignores nothing. -/
def ComparedAlike : List Sample → Prop
  | [] => True
  | [last] => last.Mispredicted ∨ last.FullySupervised
  | sample :: next :: rest => sample.Mispredicted ∧ ComparedAlike (next :: rest)

theorem packedEntries_eq_iff :
    packedEntries samples = (samples.map fun sample => allPredicted (supervised sample.tokens)) ↔
      ComparedAlike samples := by
  fun_induction packedEntries samples with
  | case1 => simp [ComparedAlike]
  | case2 last => simp [ComparedAlike, allPredicted_steps_eq_iff]
  | case3 sample next rest ih =>
    rw [map_cons, List.cons.injEq, ih, eq_comm, allPredicted_eq_false_iff, ComparedAlike]

/-- A packed batch has the accuracies of a padded one. -/
def AccuraciesAgree (rows : List PaddedSample) : Prop :=
  ∀ strategy, packedAcc strategy (rows.map PaddedSample.sample) = paddedAcc strategy rows

/-- **When the accuracies of packed and of padded samples agree.** -/
theorem accuraciesAgree_iff (rows : List PaddedSample) :
    AccuraciesAgree rows ↔ ComparedAlike (rows.map PaddedSample.sample) := by
  have seq : packedAcc .seq (rows.map PaddedSample.sample) = paddedAcc .seq rows ↔
      ComparedAlike (rows.map PaddedSample.sample) := by
    rw [packedAcc_seq, paddedAcc_seq, Option.some.injEq, Prod.mk.injEq,
      ← packedEntries_eq_iff, map_map]
    exact and_iff_right rfl
  constructor
  · intro agree
    exact seq.mp (agree .seq)
  · intro alike strategy
    cases strategy with
    | token => exact computeAcc_token rows
    | seq => exact seq.mpr alike

/-- A prompt of two tokens and a response of one, which is predicted. -/
def predictedSample : PaddedSample := ⟨[], ⟨5, [⟨7, -100⟩, ⟨0, 7⟩]⟩, []⟩

/-- The token of the prompt is compared with its ignored label. -/
theorem not_accuraciesAgree_predictedSample : ¬ AccuraciesAgree [predictedSample] := by
  intro agree
  exact absurd (agree .seq) (by decide)

end Geobench.Metrics
