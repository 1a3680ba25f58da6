import Geobench.Library.Records
import Geobench.Library.Sampling
import Geobench.Library.Text

/-!
# The training batch of a reranker

Each candidate of a reranker sample is encoded to a dictionary. `rerankerEncode` turns those of a
sample into columns, positives first. `rerankerDataCollator` draws a positive and some negatives for
each group, and takes their dictionaries back out of the columns, by the place of the candidate.

The groups of a batch are drawn in the same way whatever is taken at a place (`drawGroups`): at the
place itself, these are the groups that the random choices determine (`drawnPlaces`).
-/

namespace Geobench.Template

open Library

variable {α σ : Type}

/-! ## Samples -/

/-- An encoded candidate. Its labels have been taken out. -/
structure Encoded (α : Type) extends Record Text (Option α) where
  no_labels : ∀ field ∈ fields, field.1 ≠ "labels".toList

/-- The encoded candidates of a sample. -/
structure Candidates (α : Type) where
  positives : List (Encoded α)
  negatives : List (Encoded α)

namespace Candidates

def encoded (candidates : Candidates α) : List (Encoded α) :=
  candidates.positives ++ candidates.negatives

def records (candidates : Candidates α) : List (Record Text (Option α)) :=
  candidates.encoded.map Encoded.toRecord

end Candidates

/-- A value of an encoded sample. -/
inductive Column (α : Type) where
  | list (values : List (Option α))
  | other

/-- An encoded sample with its labels. -/
structure Sample (α : Type) where
  columns : List (Text × Column α)
  labels : List ℕ

/-- `_reranker_encode`, from the encodings of the candidates -/
def rerankerEncode (candidates : Candidates α) : Sample α where
  columns := (transpose candidates.records).map fun entry => (entry.1, .list entry.2)
  labels := candidates.positives.map (fun _ => 1) ++ candidates.negatives.map fun _ => 0

/-! ## The collator -/

/-- `MAX_POSITIVE_SAMPLES` and `MAX_NEGATIVE_SAMPLES` -/
structure SampleLimits where
  maxPositiveSamples : ℤ := 1
  maxNegativeSamples : ℤ := 7

inductive CollatorError where
  | valueError (message : String)
  | indexError (message : String)
  deriving DecidableEq

/-- `random.sample(range(population), count)` -/
def randomSample (sampler : Sampler σ) (population : ℕ) (count : ℤ) (state : σ) :
    Except CollatorError (List ℕ × σ) :=
  if 0 ≤ count ∧ count ≤ population then .ok (sampler.draw population count.toNat state)
  else .error (.valueError "Sample larger than population or is negative")

/-- The field of a column at a place. Columns that are not lists and empty values have none. -/
def Column.fieldAt (place : ℕ) (entry : Text × Column α) :
    Except CollatorError (Option (Text × α)) :=
  match entry.2 with
  | .other => .ok none
  | .list values =>
    match values[place]? with
    | none => .error (.indexError "list index out of range")
    | some value => .ok (value.map (entry.1, ·))

/-- The dictionary made of what the columns have at a place. -/
def Sample.featuresAt (sample : Sample α) (place : ℕ) :
    Except CollatorError (List (Text × α)) :=
  (sample.columns.mapM (Column.fieldAt place)).map List.reduceOption

/-- A positive and the negatives drawn for it. -/
structure Group (β : Type) where
  positive : β
  negatives : List β

namespace Group

def members {β : Type} (group : Group β) : List β := group.positive :: group.negatives

def labels {β : Type} (group : Group β) : List ℕ := 1 :: group.negatives.map fun _ => 0

end Group

section Drawing

variable {β : Type} (sampler : Sampler σ) (limits : SampleLimits)

/-- The body of the loop over the positives. -/
def drawGroup (positiveNum negativeNum : ℕ) (featuresAt : ℕ → Except CollatorError β)
    (place : ℕ) (state : σ) : Except CollatorError (Group β × σ) :=
  (featuresAt place).bind fun positive =>
    (randomSample sampler negativeNum (min negativeNum limits.maxNegativeSamples) state).bind
      fun drawn =>
        (drawn.1.mapM fun place => featuresAt (place + positiveNum)).bind fun negatives =>
          .ok (⟨positive, negatives⟩, drawn.2)

def drawGroups (positiveNum negativeNum : ℕ) (featuresAt : ℕ → Except CollatorError β)
    (state : σ) : Except CollatorError (List (Group β) × σ) :=
  (randomSample sampler positiveNum (min positiveNum limits.maxPositiveSamples) state).bind
    fun drawn =>
      mapAccumM (drawGroup sampler limits positiveNum negativeNum featuresAt) drawn.1 drawn.2

/-- The body of the loop over the batch. -/
def Sample.groups (sample : Sample α) (state : σ) :
    Except CollatorError (List (Group (List (Text × α))) × σ) :=
  let positiveNum := sample.labels.sum
  drawGroups sampler limits positiveNum (sample.labels.length - positiveNum) sample.featuresAt state

/-- What is passed on to the collator of the features. -/
structure Collated (α : Type) where
  newBatch : List (List (Text × α))
  labelsList : List ℕ
  deriving DecidableEq

/-- `_reranker_data_collator` in training, up to `_data_collator` -/
def rerankerDataCollator (batch : List (Sample α)) (state : σ) :
    Except CollatorError (Collated α × σ) :=
  (mapAccumM (Sample.groups sampler limits) batch state).map fun found =>
    (⟨found.1.flatten.flatMap Group.members, found.1.flatten.flatMap Group.labels⟩, found.2)

/-- The places that the random choices determine, for each sample of a batch. -/
def drawnPlaces (batch : List (Candidates α)) (state : σ) :
    Except CollatorError (List (Candidates α × List (Group ℕ)) × σ) :=
  mapAccumM (fun candidates state =>
    (drawGroups sampler limits candidates.positives.length candidates.negatives.length .ok
      state).map fun found => ((candidates, found.1), found.2)) batch state

end Drawing

end Geobench.Template
