import Geobench.Library.ListSlices

/-!
# The window of a batch that logits are kept for

An encoded sample is a list of tokens, each with a mark whether its label is supervised.
The collator pads the samples of a batch to the longest of them. From the first supervised
label of each row the trainer finds how many logits it keeps, the same number for every
row (`logitsToKeep`), and the forward pass gives the log probabilities of as many tokens
at the end of every row (`rowLogps`).
-/

namespace Geobench.Trainers

open Library List

/-! ## Rows -/

/-- A token, and whether its label is not `-100`. -/
structure LabelledToken where
  inputId : ℕ
  supervised : Bool
  deriving DecidableEq, Repr

abbrev EncodedRow := List LabelledToken

/-- The length of the longest row. -/
def longest (rows : List EncodedRow) : ℕ := (rows.map List.length).foldr max 0

/-- A row with tokens of padding behind it, which no label supervises. -/
def padRight (padTokenId length : ℕ) (row : EncodedRow) : EncodedRow :=
  row ++ List.replicate (length - row.length) { inputId := padTokenId, supervised := false }

/-- The rows of a batch, of one length. -/
def dataCollator (padTokenId : ℕ) (rows : List EncodedRow) : List EncodedRow :=
  rows.map (padRight padTokenId (longest rows))

/-- The place of the first supervised token, the start of a row that has none. -/
def firstSupervised (row : EncodedRow) : ℕ :=
  if row.any LabelledToken.supervised then row.findIdx LabelledToken.supervised else 0

/-- How many logits are kept at the end of every row. -/
def logitsToKeep (rows : List EncodedRow) : ℕ :=
  (rows.map fun row => row.length - firstSupervised row).foldr max 0

/-! ## Log probabilities -/

/-- The log probabilities of the last tokens of a row, each given the tokens before it. The
first token of a row has none. -/
def rowLogps {F : Type} {ε : Type} (failure : ε) (nextLogp : List ℕ → ℕ → F) (keep : ℕ)
    (row : EncodedRow) : Except ε (List F) :=
  let inputIds := row.map LabelledToken.inputId
  if row.length ≤ keep then .error failure
  else .ok ((List.range keep).map fun place =>
    let position := row.length - keep + place
    nextLogp (inputIds.take position) (inputIds.getD position 0))

/-! ## Lengths -/

variable {rows : List EncodedRow} {row : EncodedRow}

theorem length_le_longest (isRow : row ∈ rows) : row.length ≤ longest rows :=
  le_foldr_max (mem_map_of_mem isRow)

theorem longest_mono {others : List EncodedRow} (included : ∀ row ∈ rows, row ∈ others) :
    longest rows ≤ longest others := by
  apply foldr_max_le
  intro length isLength
  obtain ⟨row, isRow, rfl⟩ := mem_map.mp isLength
  exact length_le_longest (included row isRow)

theorem length_of_mem_dataCollator {padTokenId : ℕ} (isRow : row ∈ dataCollator padTokenId rows) :
    row.length = longest rows := by
  obtain ⟨original, isOriginal, rfl⟩ := mem_map.mp isRow
  rw [padRight, length_append, length_replicate, Nat.add_sub_cancel' (length_le_longest isOriginal)]

@[simp] theorem length_dataCollator (padTokenId : ℕ) (rows : List EncodedRow) :
    (dataCollator padTokenId rows).length = rows.length :=
  length_map _

theorem firstSupervised_lt (nonempty : row ≠ []) : firstSupervised row < row.length := by
  rw [firstSupervised]
  split
  next found =>
    obtain ⟨token, isToken, supervised⟩ := any_eq_true.mp found
    exact findIdx_lt_length_of_exists ⟨token, isToken, supervised⟩
  next => exact length_pos_iff.mpr nonempty

/-- Some logit is kept of a batch that has a token. -/
theorem logitsToKeep_pos (isRow : row ∈ rows) (nonempty : row ≠ []) : 0 < logitsToKeep rows := by
  have own : row.length - firstSupervised row ≤ logitsToKeep rows :=
    le_foldr_max (mem_map_of_mem (f := fun row => row.length - firstSupervised row) isRow)
  exact (Nat.sub_pos_of_lt (firstSupervised_lt nonempty)).trans_le own

end Geobench.Trainers
