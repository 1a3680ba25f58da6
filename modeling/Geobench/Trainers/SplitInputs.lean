import Geobench.Trainers.SplitGather
import Mathlib.Data.List.ModifyLast
import Mathlib.Data.List.ReduceOption
import Mathlib.Data.List.Rotate
import Mathlib.Data.Rat.Defs

/-!
# The inputs of a model, split among processes

Before a row of packed sequences enters a model, each of its tensors is padded, and every process
takes its part of each. Labels and loss scales are put one place to the left first, so that a
token has the label of the next one.

A part is described by slots: what a slot has is a token of the row or padding.
**`trainsOnFollowing`**: the label of a slot is the one of the token that follows in the same
sequence. **`sharesOut_iff`**: the extra tensors are padded along positions that are padded
already, so that they are cut like the others only where no sequence before the last one is padded
in a ring.
-/

namespace Geobench.Trainers

open Library List

/-! ## Inputs -/

/-- What the padding of each tensor is. -/
structure PadValues (ε : Type) where
  padTokenId : ℤ
  zeroEmbed : ε

/-- What is padded and split, for one row. Position ids may have several rows. -/
structure SplitInputs (ε ξ : Type) where
  inputIds : Option (List ℤ)
  inputEmbeds : Option (List ε)
  labels : Option (List ℤ)
  positionIds : List (List ℤ)
  lossScale : Option (List ℚ)
  realPositionIds : List ℤ
  extraSplitValues : List (List ξ × ξ)

structure SplitOutputs (ε ξ : Type) where
  inputIds : Option (List ℤ)
  inputEmbeds : Option (List ε)
  labels : Option (List ℤ)
  positionIds : List (List ℤ)
  lossScale : Option (List ℚ)
  extraValues : List (List ξ)

namespace World

variable {ε ξ : Type} (world : World)

/-- `pad_and_split_inputs` -/
def padAndSplitInputs (rpRank spRank : ℕ) (values : PadValues ε) (inputs : SplitInputs ε ξ) :
    Except TensorError (SplitOutputs ε ξ) := do
  let realPositionIds := inputs.realPositionIds
  let inputIds ← inputs.inputIds.mapM (world.pad values.padTokenId realPositionIds)
  let inputEmbeds ← inputs.inputEmbeds.mapM (world.pad values.zeroEmbed realPositionIds)
  let positionIds ← inputs.positionIds.mapM (world.pad (-1) realPositionIds)
  let labels ← inputs.labels.mapM (world.pad (-100) realPositionIds)
  let lossScale ← inputs.lossScale.mapM (world.pad 0 realPositionIds)
  -- The extra values are padded along the positions that are padded here.
  let realPositionIds ← world.pad (-1) realPositionIds realPositionIds
  let extraValues ← inputs.extraSplitValues.mapM fun extra =>
    world.pad extra.2 realPositionIds extra.1
  let inputIds ← inputIds.mapM (world.split rpRank spRank realPositionIds)
  let inputEmbeds ← inputEmbeds.mapM (world.split rpRank spRank realPositionIds)
  let labels ← labels.mapM fun labels =>
    world.split rpRank spRank realPositionIds (labels.rotate 1)
  let lossScale ← lossScale.mapM fun lossScale =>
    world.split rpRank spRank realPositionIds (lossScale.rotate 1)
  let positionIds ← positionIds.mapM (world.split rpRank spRank realPositionIds)
  let extraValues ← extraValues.mapM (world.split rpRank spRank realPositionIds)
  .ok ⟨inputIds, inputEmbeds, labels, positionIds, lossScale, extraValues⟩

/-- `prepare_inputs`, which splits the labels of a row. -/
def prepareInputs (rpRank spRank : ℕ) (padTokenId : ℤ) (positionIds : List ℤ)
    (labels : List ℤ) : Except TensorError (Option (List ℤ)) := do
  let values : PadValues Unit := ⟨padTokenId, ()⟩
  let inputs : SplitInputs Unit Unit := ⟨none, none, some labels, [], none, positionIds, []⟩
  let outputs ← world.padAndSplitInputs rpRank spRank values inputs
  .ok outputs.labels

end World

/-- `items[mask] = values` -/
def assignMasked {ε : Type} : List Bool → List ε → List ε → Except TensorError (List ε)
  | [], [], [] => .ok []
  | true :: mask, _ :: items, value :: values => do
      let items ← assignMasked mask items values
      .ok (value :: items)
  | false :: mask, item :: items, values => do
      let items ← assignMasked mask items values
      .ok (item :: items)
  | _, _, _ => .error .indexError

/-- `items[mask]` -/
def selectMasked {ε : Type} (mask : List Bool) (items : List ε) : Except TensorError (List ε) :=
  if mask.length = items.length then
    .ok ((mask.zip items).filterMap fun pair => if pair.1 then some pair.2 else none)
  else .error .indexError

/-- `pad_and_split_mm_tokens`. The embeddings between the visual tokens are whatever is in the
memory of an empty tensor. -/
def World.padAndSplitMmTokens {ε : Type} (world : World) (rpRank spRank : ℕ)
    (values : PadValues ε) (realPositionIds : List ℤ) (empty : List ε) (visualMask : List Bool)
    (mmEmbeds : List ε) : Except TensorError (List Bool × List ε) := do
  let embeds ← assignMasked visualMask empty mmEmbeds
  let inputs : SplitInputs ε Bool :=
    ⟨none, some embeds, none, [], none, realPositionIds, [(visualMask, false)]⟩
  let outputs ← world.padAndSplitInputs rpRank spRank values inputs
  let visualMask := outputs.extraValues.headD []
  let selected ← selectMasked visualMask (outputs.inputEmbeds.getD [])
  .ok (visualMask, selected)

/-! ## Rows of tokens -/

/-- A row of packed sequences, each of which has a token. -/
structure TokenRow (τ : Type) where
  sequences : List (List τ)
  some : sequences ≠ []
  each : ∀ tokens ∈ sequences, tokens ≠ []

/-- What each tensor has at a token. -/
structure Fields (τ ε ξ : Type) where
  inputId : Option (τ → ℤ)
  inputEmbed : Option (τ → ε)
  label : Option (τ → ℤ)
  positionIds : List (τ → ℤ)
  lossScale : Option (τ → ℚ)
  extraSplitValues : List ((τ → ξ) × ξ)

namespace TokenRow

variable {τ σ : Type}

def tokens (row : TokenRow τ) : List τ := row.sequences.flatten

def lengths (row : TokenRow τ) : List ℕ := row.sequences.map List.length

def positionIds (row : TokenRow τ) : List ℤ := packedPositionIds row.lengths

def map (f : τ → σ) (row : TokenRow τ) : TokenRow σ where
  sequences := row.sequences.map (List.map f)
  some := by simpa using row.some
  each := by simpa using row.each

end TokenRow

theorem eq_of_sequences_eq {τ : Type} {row other : TokenRow τ}
    (same : row.sequences = other.sequences) : row = other := by
  cases row
  cases other
  cases same
  rfl

def Fields.inputs {τ ε ξ : Type} (fields : Fields τ ε ξ) (row : TokenRow τ) : SplitInputs ε ξ where
  inputIds := fields.inputId.map row.tokens.map
  inputEmbeds := fields.inputEmbed.map row.tokens.map
  labels := fields.label.map row.tokens.map
  positionIds := fields.positionIds.map row.tokens.map
  lossScale := fields.lossScale.map row.tokens.map
  realPositionIds := row.positionIds
  extraSplitValues := fields.extraSplitValues.map fun extra => (row.tokens.map extra.1, extra.2)

def atSlot {τ α : Type} (padding : α) (field : τ → α) : Option τ → α
  | none => padding
  | some token => field token

/-! ## Padded sequences -/

section Blocks

variable {α β : Type} (world : World)

/-- The sequences of a row with their padding: each has its own in a ring, and else the last one
has it. -/
def World.blocks (padding : α) (sequences : List (List α)) : List (List α) :=
  if 1 < world.rpWorldSize then sequences.map (doPad (world.worldSize * 2) padding)
  else sequences.modifyLast fun last =>
    last ++ List.replicate (padCount world.worldSize sequences.flatten.length) padding

theorem map_doPad (f : α → β) (unit : ℕ) (padding : α) (items : List α) :
    (doPad unit padding items).map f = doPad unit (f padding) (items.map f) := by
  rw [doPad_eq, doPad_eq, map_append, map_replicate, length_map]

variable {sequences : List (List α)}

/-- Padding goes along with what is made of each item. -/
theorem World.blocks_map (f : α → β) (padding : α) (some : sequences ≠ []) :
    (world.blocks padding sequences).map (map f) =
      world.blocks (f padding) (sequences.map (map f)) := by
  unfold blocks
  split
  · rw [map_map, map_map]
    exact map_congr_left fun items _ => map_doPad f _ padding items
  · obtain ⟨init, last, rfl⟩ := (eq_nil_or_concat' sequences).resolve_left some
    have length : (init ++ [last]).flatten.length =
        ((init ++ [last]).map (map f)).flatten.length := by
      rw [← map_flatten, length_map]
    rw [map_append, map_singleton] at length ⊢
    rw [modifyLast_concat, modifyLast_concat, map_append, map_singleton,
      map_append, map_replicate, length]

theorem World.length_blocks_congr (padding : α) (other : β) {others : List (List β)}
    (some : sequences ≠ []) (same : sequences.map length = others.map length) :
    (world.blocks padding sequences).map length =
      (world.blocks other others).map length := by
  have someOthers : others ≠ [] := by
    rintro rfl
    exact some (map_eq_nil_iff.mp same)
  have units : ∀ {γ : Type} (lists : List (List γ)), lists.map (map fun _ => ()) =
      (lists.map length).map fun length => replicate length () := by
    intro γ lists
    rw [map_map]
    exact map_congr_left fun items _ => map_const'
  have lengths : ∀ {γ : Type} (lists : List (List γ)),
      lists.map length = (lists.map (map fun _ => ())).map length := by
    intro γ lists
    rw [map_map]
    exact map_congr_left fun items _ => (length_map _).symm
  rw [lengths, lengths (world.blocks other others), World.blocks_map world _ _ some,
    World.blocks_map world _ _ someOthers, units, units, same]

theorem World.flatten_blocks (noRing : ¬1 < world.rpWorldSize) (padding : α)
    (some : sequences ≠ []) :
    (world.blocks padding sequences).flatten = sequences.flatten ++
      replicate (padCount world.worldSize sequences.flatten.length) padding := by
  rw [World.blocks, if_neg noRing]
  obtain ⟨init, last, rfl⟩ := (eq_nil_or_concat' sequences).resolve_left some
  rw [modifyLast_concat, flatten_append, flatten_append, flatten_singleton,
    flatten_singleton, append_assoc]

end Blocks

/-! ## Padded rows of tokens -/

section Row

variable {τ : Type} (world : World) (row : TokenRow τ)

def TokenRow.positionRows : List (List ℤ) := row.lengths.map positionsOf

def TokenRow.paddedPositionIds : List ℤ := (world.blocks (-1) row.positionRows).flatten

def TokenRow.slotRow : List (Option τ) :=
  (world.blocks none (row.sequences.map (List.map Option.some))).flatten

theorem positionIds_eq_flatten : row.positionIds = row.positionRows.flatten :=
  flatMap_def

theorem positionRows_ne_nil : row.positionRows ≠ [] := by
  simpa [TokenRow.positionRows, TokenRow.lengths] using row.some

theorem isSequence_positionRows : ∀ positions ∈ row.positionRows, IsSequence positions := by
  intro positions isPositions
  obtain ⟨length, isLength, rfl⟩ := mem_map.mp isPositions
  obtain ⟨tokens, isTokens, rfl⟩ := mem_map.mp isLength
  exact isSequence_positionsOf (length_pos_iff.mpr (row.each tokens isTokens))

theorem map_length_positionRows : row.positionRows.map length = row.lengths :=
  map_length_positionsOf row.lengths

theorem World.pad_tokens (padding : τ) :
    world.pad padding row.positionIds row.tokens =
      .ok (world.blocks padding row.sequences).flatten := by
  unfold World.pad
  split
  next several =>
    by_cases ring : 1 < world.rpWorldSize
    · have isRing : 1 < (world.group several).rpWorldSize := ring
      have found : ¬(1 < world.rpWorldSize ∧ sequenceLengths row.positionIds = []) := by
        rw [positionIds_eq_flatten, sequenceLengths_flatten (isSequence_positionRows row),
          map_eq_nil_iff]
        exact fun none => positionRows_ne_nil row none.2
      have same : row.sequences.map length = row.positionRows.map length :=
        (map_length_positionRows row).symm
      have unit : (world.group several).padUnit = world.worldSize * 2 := if_pos isRing
      rw [if_neg found, World.blocks, if_pos ring, TokenRow.tokens, positionIds_eq_flatten,
        pad_ring isRing padding (isSequence_positionRows row) same, unit]
    · have notRing : ¬1 < (world.group several).rpWorldSize := ring
      rw [if_neg (fun both => ring both.1), world.flatten_blocks ring padding row.some,
        pad_row notRing]
      rfl
  next single =>
    have noRing : ¬1 < world.rpWorldSize := by
      intro ring
      have positive := world.sp_pos
      exact single (lt_of_lt_of_le ring (Nat.le_mul_of_pos_left _ positive))
    rw [world.flatten_blocks noRing padding row.some, doPad_eq]
    rfl

theorem isPadded_paddedPositionIds (several : 1 < world.worldSize) :
    IsPadded (world.group several) (row.paddedPositionIds world)
      (world.blocks (-1) row.positionRows) := by
  by_cases ring : 1 < world.rpWorldSize
  · have isRing : 1 < (world.group several).rpWorldSize := ring
    have unit : (world.group several).padUnit = world.worldSize * 2 := if_pos isRing
    have isPadded := isPadded_ring isRing (isSequence_positionRows row)
    have padded := pad_ring isRing (-1) (isSequence_positionRows row)
      (rfl : row.positionRows.map length = _)
    rw [padded, unit] at isPadded
    rw [TokenRow.paddedPositionIds, World.blocks, if_pos ring]
    exact isPadded
  · have notRing : ¬1 < (world.group several).rpWorldSize := ring
    obtain ⟨init, last, isSplit⟩ :=
      (eq_nil_or_concat' row.positionRows).resolve_left (positionRows_ne_nil row)
    have each := isSequence_positionRows row
    rw [isSplit] at each
    have isPadded := isPadded_row notRing each
    have padded := pad_row notRing (-1) (init ++ [last]).flatten (init ++ [last]).flatten
    rw [padded] at isPadded
    rw [TokenRow.paddedPositionIds, World.blocks, if_neg ring, isSplit, modifyLast_concat]
    have flat : (init ++ [last ++ replicate
        (padCount world.worldSize (init ++ [last]).flatten.length) (-1)]).flatten =
        (init ++ [last]).flatten ++ replicate
          (padCount (world.group several).worldSize (init ++ [last]).flatten.length) (-1) := by
      simp only [flatten_append, flatten_singleton, append_assoc]
      rfl
    rw [flat]
    exact isPadded

theorem length_slotRow : (row.slotRow world).length = (row.paddedPositionIds world).length := by
  have same : (row.sequences.map (map Option.some)).map length =
      row.positionRows.map length := by
    rw [map_length_positionRows, TokenRow.lengths, map_map]
    exact map_congr_left fun tokens _ => length_map _
  have blocks := world.length_blocks_congr (none : Option τ) (-1 : ℤ)
    (by simpa using row.some) same
  rw [TokenRow.slotRow, TokenRow.paddedPositionIds, length_flatten, length_flatten, blocks]

theorem lengths_map {σ : Type} (f : τ → σ) : (row.map f).lengths = row.lengths := by
  rw [TokenRow.lengths, TokenRow.lengths, TokenRow.map, map_map]
  exact map_congr_left fun tokens _ => length_map _

/-- A tensor of a row is padded to what it has at each slot. -/
theorem World.pad_field {α : Type} (padding : α) (field : τ → α) :
    world.pad padding row.positionIds (row.tokens.map field) =
      .ok ((row.slotRow world).map (atSlot padding field)) := by
  have same : (row.map field).positionIds = row.positionIds := by
    rw [TokenRow.positionIds, lengths_map, TokenRow.positionIds]
  have tokens : (row.map field).tokens = row.tokens.map field := map_flatten.symm
  have padded := world.pad_tokens (row.map field) padding
  rw [same, tokens] at padded
  rw [padded, TokenRow.slotRow, map_flatten, world.blocks_map _ _ (by simpa using row.some),
    map_map]
  have each : map (atSlot padding field) ∘ map Option.some = map field := by
    funext items
    rw [Function.comp_apply, map_map]
    rfl
  rw [each]
  rfl

theorem World.pad_positions :
    world.pad (-1) row.positionIds row.positionIds = .ok (row.paddedPositionIds world) := by
  have isRow : ∀ tokens ∈ row.positionRows, tokens ≠ [] := by
    intro positions isPositions none
    obtain ⟨rest, isRest, -⟩ := isSequence_positionRows row positions isPositions
    rw [none] at isRest
    cases isRest
  have padded := world.pad_tokens ⟨row.positionRows, positionRows_ne_nil row, isRow⟩ (-1)
  have same : (⟨row.positionRows, positionRows_ne_nil row, isRow⟩ : TokenRow ℤ).positionIds =
      row.positionIds := by
    rw [TokenRow.positionIds, TokenRow.lengths, map_length_positionRows]
    rfl
  rw [same] at padded
  conv_lhs => rw [positionIds_eq_flatten]
  rw [← positionIds_eq_flatten]
  conv_lhs at padded => rw [TokenRow.tokens]
  rwa [← positionIds_eq_flatten] at padded

/-! ## Slots -/

/-- The part of a padded row that a process has. -/
def World.localPart {α : Type} (positionIds : List ℤ) (input : List α) (rpRank spRank : ℕ) :
    List α :=
  if several : 1 < world.worldSize then
    Trainers.localPart (world.group several) positionIds input rpRank spRank
  else input

def TokenRow.slots (rpRank spRank : ℕ) : List (Option τ) :=
  world.localPart (row.paddedPositionIds world) (row.slotRow world) rpRank spRank

theorem World.map_localPart {α β : Type} (f : α → β) (positionIds : List ℤ) (input : List α)
    (rpRank spRank : ℕ) :
    (world.localPart positionIds input rpRank spRank).map f =
      world.localPart positionIds (input.map f) rpRank spRank := by
  unfold World.localPart
  split
  · exact Trainers.map_localPart f _ _ _ _ _
  · rfl

/-- Other tokens at the same positions are at the same slots. -/
theorem map_slots {σ : Type} (f : τ → σ) (rpRank spRank : ℕ) :
    (row.slots world rpRank spRank).map (Option.map f) = (row.map f).slots world rpRank spRank := by
  have slotRow : (row.slotRow world).map (Option.map f) = (row.map f).slotRow world := by
    rw [TokenRow.slotRow, map_flatten, world.blocks_map _ _ (by simpa using row.some),
      map_map, TokenRow.slotRow, TokenRow.map, map_map]
    congr 2
    refine map_congr_left fun tokens _ => ?_
    simp only [Function.comp_apply, map_map]
    rfl
  rw [TokenRow.slots, world.map_localPart, slotRow, TokenRow.slots, TokenRow.paddedPositionIds,
    TokenRow.positionRows, ← lengths_map row f]
  rfl

theorem tokens_ne_nil : row.tokens ≠ [] := by
  obtain ⟨first, rest, isFirst⟩ := exists_cons_of_ne_nil row.some
  intro none
  rw [TokenRow.tokens, flatten_eq_nil_iff] at none
  have member : first ∈ row.sequences := by simp [isFirst]
  exact row.each first member (none first member)

/-- In a ring a tensor is split along the positions, however long it is. -/
theorem World.split_ring {α : Type} (ring : 1 < world.rpWorldSize) {input : List α}
    (some : input ≠ []) (rpRank spRank : ℕ) :
    world.split rpRank spRank (row.paddedPositionIds world) input =
      .ok (world.localPart (row.paddedPositionIds world) input rpRank spRank) := by
  have several : 1 < world.worldSize :=
    lt_of_lt_of_le ring (Nat.le_mul_of_pos_left _ world.sp_pos)
  have isRing : 1 < (world.group several).rpWorldSize := ring
  have isPadded := isPadded_paddedPositionIds world row several
  have positions := split_eq_ok isPadded rfl rpRank spRank
  rw [Trainers.split, if_pos isRing] at positions
  rw [World.split, dif_pos several, if_neg some, World.localPart, dif_pos several,
    Trainers.split, if_pos isRing, Trainers.localPart, if_pos isRing]
  dsimp only at positions ⊢
  split at positions
  · rename_i aligned
    rw [if_pos aligned]
    rfl
  · cases positions

theorem reduceOption_eq_filterMap {β : Type} (items : List (Option β)) :
    items.reduceOption = items.filterMap id := rfl

theorem reduceOption_slotRow : (row.slotRow world).reduceOption = row.tokens := by
  have real : ∀ items : List τ, (items.map Option.some).reduceOption = items := by
    intro items
    rw [reduceOption_eq_filterMap, filterMap_map]
    exact filterMap_some
  have someSequences : row.sequences.map (map Option.some) ≠ [] := by simpa using row.some
  by_cases ring : 1 < world.rpWorldSize
  · rw [TokenRow.slotRow, World.blocks, if_pos ring, reduceOption_eq_filterMap,
      filterMap_flatten, map_map, map_map, TokenRow.tokens]
    congr 1
    conv_rhs => rw [← map_id row.sequences]
    refine map_congr_left fun items _ => ?_
    rw [Function.comp_apply, Function.comp_apply, doPad_eq, ← reduceOption_eq_filterMap,
      reduceOption_append, reduceOption_replicate_none, append_nil, real, id]
  · rw [TokenRow.slotRow, world.flatten_blocks ring none someSequences, reduceOption_append,
      reduceOption_replicate_none, append_nil, ← map_flatten, real]
    rfl

theorem slotRow_ne_nil : row.slotRow world ≠ [] := by
  intro none
  have tokens := reduceOption_slotRow world row
  rw [none] at tokens
  exact tokens_ne_nil row tokens.symm

theorem World.split_eq_ok {α : Type} {input : List α}
    (same : input.length = (row.paddedPositionIds world).length) (rpRank spRank : ℕ) :
    world.split rpRank spRank (row.paddedPositionIds world) input =
      .ok (world.localPart (row.paddedPositionIds world) input rpRank spRank) := by
  by_cases several : 1 < world.worldSize
  · have isPadded := isPadded_paddedPositionIds world row several
    have someInput : input ≠ [] := by
      rw [← length_slotRow] at same
      rw [← length_pos_iff, same, length_pos_iff]
      exact slotRow_ne_nil world row
    rw [World.split, dif_pos several, if_neg someInput, Trainers.split_eq_ok isPadded same,
      World.localPart, dif_pos several]
    rfl
  · rw [World.split, dif_neg several, World.localPart, dif_neg several]

theorem World.split_slotRow {α : Type} (field : Option τ → α) (rpRank spRank : ℕ) :
    world.split rpRank spRank (row.paddedPositionIds world) ((row.slotRow world).map field) =
      .ok ((row.slots world rpRank spRank).map field) := by
  rw [World.split_eq_ok, TokenRow.slots, World.map_localPart]
  rw [length_map, length_slotRow]

/-- What all processes have of a row. -/
def World.allParts {α : Type} (part : ℕ → ℕ → List α) : List α :=
  (List.range world.rpWorldSize).flatMap fun rpRank =>
    (List.range world.spWorldSize).flatMap (part rpRank)

/-- Every item of a row is in the part of one process. -/
theorem World.perm_localPart {α : Type} {input : List α}
    (covers : input.length ≤ (row.paddedPositionIds world).length)
    (divides : world.spWorldSize ∣ input.length) :
    (world.allParts (world.localPart (row.paddedPositionIds world) input)).Perm input := by
  have rpPositive := world.rp_pos
  have spPositive := world.sp_pos
  by_cases several : 1 < world.worldSize
  · have part : world.localPart (row.paddedPositionIds world) input =
        Trainers.localPart (world.group several) (row.paddedPositionIds world) input := by
      funext rpRank spRank
      rw [World.localPart, dif_pos several]
    have isPadded := isPadded_paddedPositionIds world row several
    rw [part, World.allParts]
    by_cases ring : 1 < world.rpWorldSize
    · have isRing : 1 < (world.group several).rpWorldSize := ring
      have chunks : ∀ rpRank, (range world.spWorldSize).flatMap
          (Trainers.localPart (world.group several) (row.paddedPositionIds world) input rpRank) =
          zigzag world.rpWorldSize rpRank (sequencesOf (row.paddedPositionIds world) input) := by
        intro rpRank
        have parts := map_range_getD (chunk world.spWorldSize
          (zigzag world.rpWorldSize rpRank (sequencesOf (row.paddedPositionIds world) input)))
        rw [chunk, length_cutAt, ← chunk] at parts
        have eachPart : Trainers.localPart (world.group several) (row.paddedPositionIds world)
            input rpRank = fun index => (chunk world.spWorldSize (zigzag world.rpWorldSize rpRank
              (sequencesOf (row.paddedPositionIds world) input))).getD index [] := by
          funext spRank
          rw [Trainers.localPart, if_pos isRing]
          rfl
        rw [eachPart, flatMap_def, parts, flatten_chunk spPositive]
      have whole : (sequencesOf (row.paddedPositionIds world) input).flatten = input := by
        refine flatten_cutAt (offset_monotone _) rfl ?_
        rwa [offset_length, isPadded.flatten, sequenceLengths_flatten isPadded.each,
          ← length_flatten, ← isPadded.flatten]
      have zigzags := perm_zigzag rpPositive (sequencesOf (row.paddedPositionIds world) input)
      simp only [chunks]
      rwa [whole] at zigzags
    · have notRing : ¬1 < (world.group several).rpWorldSize := ring
      have one : world.rpWorldSize = 1 := by omega
      have whole : (cutAt (· * (input.length / world.spWorldSize)) world.spWorldSize
          input).flatten = input := by
        refine flatten_cutAt_mul ?_
        rw [Nat.mul_div_cancel' divides]
      rw [one, range_one, flatMap_singleton, flatMap_def]
      have parts : (range world.spWorldSize).map (Trainers.localPart (world.group several)
          (row.paddedPositionIds world) input 0) =
          cutAt (· * (input.length / world.spWorldSize)) world.spWorldSize input := by
        refine map_congr_left fun spRank _ => ?_
        rw [Trainers.localPart, if_neg notRing]
        rfl
      rw [parts, whole]
  · have one : world.spWorldSize * world.rpWorldSize = 1 := by
      have positive := Nat.mul_pos spPositive rpPositive
      rw [World.worldSize] at several
      omega
    have part : world.localPart (row.paddedPositionIds world) input = fun _ _ => input := by
      funext rpRank spRank
      rw [World.localPart, dif_neg several]
    rw [part, World.allParts, Nat.eq_one_of_mul_eq_one_left one, Nat.eq_one_of_mul_eq_one_right one]
    simp

theorem perm_slots : (world.allParts (row.slots world)).Perm (row.slotRow world) := by
  refine world.perm_localPart row (length_slotRow world row).le ?_
  by_cases several : 1 < world.worldSize
  · have isPadded := (isPadded_paddedPositionIds world row several).row
    rw [← length_slotRow] at isPadded
    refine Dvd.dvd.trans ?_ isPadded
    rw [Parallel.padUnit]
    split
    · exact ⟨world.rpWorldSize * 2, Nat.mul_assoc _ _ _⟩
    · exact ⟨world.rpWorldSize, rfl⟩
  · have one : world.spWorldSize * world.rpWorldSize = 1 := by
      have positive := Nat.mul_pos world.sp_pos world.rp_pos
      rw [World.worldSize] at several
      omega
    rw [Nat.eq_one_of_mul_eq_one_right one]
    exact one_dvd _

end Row

/-! ## Labels of the next tokens -/

/-- The tokens of a sequence, each with the one that follows it. -/
def withNext {τ : Type} : List τ → List (τ × Option τ)
  | [] => []
  | [token] => [(token, none)]
  | token :: next :: rest => (token, some next) :: withNext (next :: rest)

section Next

variable {τ : Type}

theorem map_fst_withNext (tokens : List τ) : (withNext tokens).map Prod.fst = tokens := by
  fun_induction withNext tokens with
  | case1 => rfl
  | case2 token => rfl
  | case3 token next rest ih => simp only [map_cons, ih]

theorem length_withNext (tokens : List τ) : (withNext tokens).length = tokens.length := by
  rw [← length_map Prod.fst, map_fst_withNext]

def TokenRow.followed (row : TokenRow τ) : TokenRow (τ × Option τ) where
  sequences := row.sequences.map withNext
  some := by simpa using row.some
  each := by
    intro tokens isTokens
    obtain ⟨original, isOriginal, rfl⟩ := mem_map.mp isTokens
    rw [← length_pos_iff, length_withNext, length_pos_iff]
    exact row.each original isOriginal

/-- The label of the token that follows, and what is ignored where none does. -/
def followingLabel (label : τ → ℤ) : Option (τ × Option τ) → ℤ
  | some (_, some next) => label next
  | _ => -100

/-- The first token of each sequence is ignored. -/
def FirstIgnored (row : TokenRow τ) (label : τ → ℤ) : Prop :=
  ∀ tokens ∈ row.sequences, ∀ token ∈ tokens.head?, label token = -100

instance (row : TokenRow τ) (label : τ → ℤ) : Decidable (FirstIgnored row label) :=
  inferInstanceAs (Decidable (∀ tokens ∈ row.sequences, ∀ token ∈ tokens.head?, label token = -100))

/-- What a row has one place to the right: the token that follows in the same sequence, or else
padding or the first token of a sequence. -/
structure IsNext (sequences : List (List τ)) (slot : Option (τ × Option τ)) (next : Option τ) :
    Prop where
  follows : ∀ token following, slot = some (token, some following) → next = some following
  ends : (∀ token following, slot ≠ some (token, some following)) →
    ∀ token ∈ next, ∃ tokens ∈ sequences, token ∈ tokens.head?

/-- The rest of a row begins with padding or with the first token of a sequence. -/
def Begins (sequences : List (List τ)) (rest : List (Option τ)) : Prop :=
  ∃ first more, rest = first :: more ∧ ∀ token ∈ first, ∃ tokens ∈ sequences, token ∈ tokens.head?

variable {sequences : List (List τ)} {rest : List (Option τ)}

theorem forall₂_cons_of_begins {slot : Option (τ × Option τ)} {slots : List (Option (τ × Option τ))}
    (last : ∀ token following, slot ≠ some (token, some following)) (begins : Begins sequences rest)
    (later : List.Forall₂ (IsNext sequences) slots rest.tail) :
    List.Forall₂ (IsNext sequences) (slot :: slots) rest := by
  obtain ⟨first, more, rfl, isFirst⟩ := begins
  exact .cons ⟨fun token following same => absurd same (last token following),
    fun _ => isFirst⟩ later

/-- Padding in front of a row. -/
theorem forall₂_padding {slots : List (Option (τ × Option τ))} (begins : Begins sequences rest)
    (later : List.Forall₂ (IsNext sequences) slots rest.tail) (count : ℕ) :
    Begins sequences (replicate count none ++ rest) ∧
      List.Forall₂ (IsNext sequences) (replicate count none ++ slots)
        (replicate count none ++ rest).tail := by
  induction count with
  | zero => exact ⟨begins, later⟩
  | succ count ih =>
    refine ⟨⟨none, replicate count none ++ rest, rfl, nofun⟩, ?_⟩
    exact forall₂_cons_of_begins nofun ih.1 ih.2

/-- A sequence in front of a row. -/
theorem forall₂_withNext {slots : List (Option (τ × Option τ))} (begins : Begins sequences rest)
    (later : List.Forall₂ (IsNext sequences) slots rest.tail) {tokens : List τ}
    (isSome : tokens ≠ []) :
    List.Forall₂ (IsNext sequences) ((withNext tokens).map some ++ slots)
      (tokens.map some ++ rest).tail := by
  fun_induction withNext tokens with
  | case1 => exact absurd rfl isSome
  | case2 token => exact forall₂_cons_of_begins nofun begins later
  | case3 token next others ih =>
    refine .cons ⟨?_, ?_⟩ (ih (cons_ne_nil _ _))
    · intro _ following same
      cases same
      rfl
    · exact fun none => absurd rfl (none token next)

theorem forall₂_blocks {blocks : List (List τ × ℕ)}
    (each : ∀ block ∈ blocks, block.1 ∈ sequences ∧ block.1 ≠ []) {last : Option τ}
    (isLast : Begins sequences [last]) :
    Begins sequences ((blocks.flatMap fun block : List τ × ℕ =>
        block.1.map some ++ replicate block.2 none) ++ [last]) ∧
      List.Forall₂ (IsNext sequences)
        (blocks.flatMap fun block : List τ × ℕ =>
          (withNext block.1).map some ++ replicate block.2 none)
        ((blocks.flatMap fun block : List τ × ℕ =>
          block.1.map some ++ replicate block.2 none) ++ [last]).tail := by
  induction blocks with
  | nil => exact ⟨isLast, .nil⟩
  | cons block blocks ih =>
    rw [forall_mem_cons] at each
    obtain ⟨begins, later⟩ := ih each.2
    have padded := forall₂_padding begins later block.2
    have whole := forall₂_withNext padded.1 padded.2 each.1.2
    simp only [flatMap_cons, append_assoc]
    refine ⟨?_, whole⟩
    obtain ⟨token, others, isToken⟩ := exists_cons_of_ne_nil each.1.2
    refine ⟨some token, _, by rw [isToken]; rfl, ?_⟩
    intro other isOther
    cases isOther
    exact ⟨block.1, each.1.1, by rw [isToken]; rfl⟩

end Next

/-! ## The next slots -/

section Rotation

variable {τ : Type} (world : World) (row : TokenRow τ)

/-- How much padding each sequence of a row has. -/
def World.padCounts (lengths : List ℕ) : List ℕ :=
  if 1 < world.rpWorldSize then lengths.map (padCount (world.worldSize * 2))
  else List.replicate (lengths.length - 1) 0 ++ [padCount world.worldSize lengths.sum]

theorem World.blocks_eq {α : Type} (padding : α) {sequences : List (List α)}
    (some : sequences ≠ []) :
    world.blocks padding sequences =
      (sequences.zip (world.padCounts (sequences.map length))).map fun block =>
        block.1 ++ replicate block.2 padding := by
  unfold World.blocks World.padCounts
  split
  · rw [map_map, zip, zipWith_map_right, map_zipWith, zipWith_self]
    exact map_congr_left fun items _ => doPad_eq _ padding items
  · obtain ⟨init, last, rfl⟩ := (eq_nil_or_concat' sequences).resolve_left some
    have unpadded : ∀ init : List (List α), (init.zip (replicate init.length 0)).map
        (fun block => block.1 ++ replicate block.2 padding) = init := by
      intro init
      induction init with
      | nil => rfl
      | cons items init ih => simpa [replicate_succ] using ih
    have count : ((init ++ [last]).map length).length - 1 = init.length := by simp
    rw [modifyLast_concat, count, zip_append (by simp), map_append, unpadded, length_flatten]
    rfl

theorem slotRow_eq {α : Type} (row : TokenRow α) :
    row.slotRow world = (row.sequences.zip (world.padCounts row.lengths)).flatMap fun block =>
      block.1.map Option.some ++ replicate block.2 none := by
  have lengths : (row.sequences.map (map Option.some)).map length = row.lengths := by
    rw [map_map]
    exact map_congr_left fun tokens _ => length_map _
  rw [TokenRow.slotRow, world.blocks_eq none (by simpa using row.some), lengths, zip_map_left,
    map_map, ← flatMap_def]
  rfl

theorem lengths_followed : row.followed.lengths = row.lengths := by
  rw [TokenRow.lengths, TokenRow.lengths, TokenRow.followed, map_map]
  exact map_congr_left fun tokens _ => length_withNext tokens

/-- One place to the right of each slot is the token that follows, or padding or the first
token of a sequence. -/
theorem forall₂_isNext : List.Forall₂ (IsNext row.sequences) (row.followed.slotRow world)
    ((row.slotRow world).rotate 1) := by
  obtain ⟨first, rest, isFirst⟩ := exists_cons_of_ne_nil row.some
  obtain ⟨token, tokens, isToken⟩ := exists_cons_of_ne_nil (row.each first (by simp [isFirst]))
  have each : ∀ block ∈ row.sequences.zip (world.padCounts row.lengths),
      block.1 ∈ row.sequences ∧ block.1 ≠ [] := by
    intro block isBlock
    have member := (of_mem_zip isBlock).1
    exact ⟨member, row.each _ member⟩
  have isLast : Begins row.sequences [some token] := by
    refine ⟨some token, [], rfl, fun other isOther => ⟨first, by simp [isFirst], ?_⟩⟩
    cases isOther
    rw [isToken]
    rfl
  have whole := (forall₂_blocks each isLast).2
  rw [← slotRow_eq world row] at whole
  have followed : row.followed.slotRow world =
      (row.sequences.zip (world.padCounts row.lengths)).flatMap fun block =>
        (withNext block.1).map some ++ replicate block.2 none := by
    rw [slotRow_eq, lengths_followed, TokenRow.followed, zip_map_left, flatMap_map]
    rfl
  have head : ∃ others, row.slotRow world = some token :: others := by
    have someSlots := slotRow_ne_nil world row
    rw [slotRow_eq, isFirst] at someSlots ⊢
    cases counts : world.padCounts row.lengths with
    | nil =>
      rw [counts] at someSlots
      exact absurd rfl someSlots
    | cons count counts =>
      rw [zip_cons_cons, flatMap_cons, isToken]
      exact ⟨_, rfl⟩
  obtain ⟨others, isOthers⟩ := head
  rw [followed, isOthers, rotate_cons_succ, rotate_zero]
  rw [isOthers] at whole
  exact whole

/-- What a process has of the places to the right of its slots. -/
def TokenRow.nextSlots (rpRank spRank : ℕ) : List (Option τ) :=
  world.localPart (row.paddedPositionIds world) ((row.slotRow world).rotate 1) rpRank spRank

theorem paddedPositionIds_followed :
    row.followed.paddedPositionIds world = row.paddedPositionIds world := by
  rw [TokenRow.paddedPositionIds, TokenRow.positionRows, lengths_followed]
  rfl

theorem mem_of_mem_localPart {α : Type} {positionIds : List ℤ} {input : List α}
    {rpRank spRank : ℕ} {item : α}
    (isItem : item ∈ world.localPart positionIds input rpRank spRank) : item ∈ input := by
  rw [← attach_map_subtype_val input, ← world.map_localPart] at isItem
  obtain ⟨⟨item, isIn⟩, -, rfl⟩ := mem_map.mp isItem
  exact isIn

theorem forall₂_nextSlots (rpRank spRank : ℕ) :
    List.Forall₂ (IsNext row.sequences) (row.followed.slots world rpRank spRank)
      (row.nextSlots world rpRank spRank) := by
  have related := forall₂_isNext world row
  have length := related.length_eq
  let pairs := (row.followed.slotRow world).zip ((row.slotRow world).rotate 1)
  have isNext : ∀ pair ∈ pairs, IsNext row.sequences pair.1 pair.2 :=
    fun pair isPair => (forall₂_iff_zip.mp related).2 isPair
  have first : row.followed.slots world rpRank spRank =
      (world.localPart (row.paddedPositionIds world) pairs rpRank spRank).map Prod.fst := by
    rw [world.map_localPart, map_fst_zip length.le, TokenRow.slots, paddedPositionIds_followed]
  have second : row.nextSlots world rpRank spRank =
      (world.localPart (row.paddedPositionIds world) pairs rpRank spRank).map Prod.snd := by
    rw [world.map_localPart, map_snd_zip length.ge, TokenRow.nextSlots]
  rw [first, second, forall₂_map_left_iff, forall₂_map_right_iff, forall₂_same]
  exact fun pair isPair => isNext pair (mem_of_mem_localPart world isPair)

theorem World.split_rotate {α : Type} (field : Option τ → α) (rpRank spRank : ℕ) :
    world.split rpRank spRank (row.paddedPositionIds world)
        (((row.slotRow world).map field).rotate 1) =
      .ok ((row.nextSlots world rpRank spRank).map field) := by
  rw [← map_rotate, World.split_eq_ok, TokenRow.nextSlots, World.map_localPart]
  rw [length_map, length_rotate, length_slotRow]

/-! ## What the processes have -/

variable {ε ξ : Type}

theorem optionMapM_eq_ok {α β δ : Type} {f : α → Except TensorError β} {field : δ → α}
    {result : δ → β} (each : ∀ item, f (field item) = .ok (result item)) (optional : Option δ) :
    (optional.map field).mapM f = .ok (optional.map result) := by
  cases optional with
  | none => rfl
  | some item =>
    change (some <$> f (field item)) = _
    rw [each]
    rfl

theorem listMapM_eq_ok {α β δ : Type} {f : α → Except TensorError β} (field : δ → α)
    {result : δ → β} (each : ∀ item, f (field item) = .ok (result item)) (items : List δ) :
    (items.map field).mapM f = .ok (items.map result) := by
  induction items with
  | nil => rfl
  | cons item items ih =>
    rw [map_cons, mapM_cons, each, ih]
    rfl

/-- The padded tensor of extra values, one of which is not at a token. -/
def TokenRow.extraRow (extra : (τ → ξ) × ξ) : Except TensorError (List ξ) :=
  world.pad extra.2 (row.paddedPositionIds world) (row.tokens.map extra.1)

end Rotation

/-! ## Extra values -/

section Extra

variable {α : Type} {unit : ℕ} {padding : α}

theorem padCount_zero (unit : ℕ) : padCount unit 0 = 0 := by
  simp [padCount]

theorem padCount_sub {length part : ℕ} (divides : unit ∣ part) (inside : part ≤ length) :
    padCount unit (length - part) = padCount unit length := by
  obtain ⟨count, rfl⟩ := divides
  rw [padCount, padCount, Nat.sub_mul_mod inside]

theorem flatten_doPad_nil (lengths : List ℕ) :
    ((cutAt (offset lengths) lengths.length []).map (doPad unit padding)).flatten = [] := by
  rw [flatten_eq_nil_iff]
  intro items isItems
  obtain ⟨part, isPart, rfl⟩ := mem_map.mp isItems
  obtain ⟨index, -, rfl⟩ := mem_map.mp isPart
  have none : slice ([] : List α) (offset lengths index) (offset lengths (index + 1)) = [] := by
    simp [slice]
  rw [none, doPad_eq, length_nil, padCount_zero]
  rfl

/-- What is padded along positions that are padded already is padded at its end. -/
theorem flatten_doPad_cutAt {lengths : List ℕ} (divides : ∀ length ∈ lengths, unit ∣ length)
    {items : List α} (covers : items.length ≤ lengths.sum) :
    ((cutAt (offset lengths) lengths.length items).map (doPad unit padding)).flatten =
      items ++ replicate (padCount unit items.length) padding := by
  induction lengths generalizing items with
  | nil =>
    have none : items = [] := length_eq_zero_iff.mp (Nat.le_zero.mp covers)
    subst none
    simp [cutAt, padCount_zero]
  | cons length lengths ih =>
    rw [forall_mem_cons] at divides
    rw [sum_cons] at covers
    rw [length_cons, cutAt_offset_cons, map_cons, flatten_cons]
    by_cases short : items.length ≤ length
    · rw [take_of_length_le short, drop_eq_nil_of_le short, flatten_doPad_nil, append_nil, doPad_eq]
    · have taken : (items.take length).length = length := by
        rw [length_take]
        omega
      have rest : (items.drop length).length ≤ lengths.sum := by
        rw [length_drop]
        omega
      have whole : doPad unit padding (items.take length) = items.take length :=
        doPad_of_dvd (by rw [taken]; exact divides.1)
      rw [whole, ih divides.2 rest, length_drop, padCount_sub divides.1 (by omega),
        ← append_assoc, take_append_drop]

end Extra

section ExtraRow

variable {τ ε ξ : Type} (world : World) (row : TokenRow τ)

/-- What a tensor is padded to a multiple of. -/
def World.padUnit : ℕ := if 1 < world.rpWorldSize then world.worldSize * 2 else world.worldSize

def TokenRow.endPadded : List (Option τ) :=
  row.tokens.map Option.some ++ List.replicate (padCount world.padUnit row.tokens.length) none

theorem length_tokens_le : row.tokens.length ≤ (row.paddedPositionIds world).length := by
  rw [← length_slotRow, ← reduceOption_slotRow world row]
  exact reduceOption_length_le _

theorem endPadded_of_no_ring (noRing : ¬1 < world.rpWorldSize) :
    row.endPadded world = row.slotRow world := by
  have someSequences : row.sequences.map (map Option.some) ≠ [] := by simpa using row.some
  rw [TokenRow.slotRow, world.flatten_blocks noRing none someSequences, TokenRow.endPadded,
    World.padUnit, if_neg noRing, ← map_flatten, length_map]
  rfl

/-- Extra values are padded at their end. -/
theorem extraRow_eq (extra : (τ → ξ) × ξ) :
    row.extraRow world extra = .ok ((row.endPadded world).map (atSlot extra.2 extra.1)) := by
  have atEnd : (row.endPadded world).map (atSlot extra.2 extra.1) = row.tokens.map extra.1 ++
      replicate (padCount world.padUnit row.tokens.length) extra.2 := by
    rw [TokenRow.endPadded, map_append, map_map, map_replicate]
    rfl
  rw [TokenRow.extraRow, atEnd, World.pad]
  split
  next several =>
    have isPadded := isPadded_paddedPositionIds world row several
    by_cases ring : 1 < world.rpWorldSize
    · have isRing : 1 < (world.group several).rpWorldSize := ring
      have unit : (world.group several).padUnit = world.padUnit := by
        rw [Parallel.padUnit, if_pos isRing, World.padUnit, if_pos ring]
        rfl
      have lengths := sequenceLengths_flatten isPadded.each
      rw [← isPadded.flatten] at lengths
      have divides : ∀ length ∈ sequenceLengths (row.paddedPositionIds world),
          world.padUnit ∣ length := by
        intro length isLength
        rw [lengths] at isLength
        obtain ⟨positions, isPositions, rfl⟩ := mem_map.mp isLength
        rw [← unit]
        exact isPadded.ring isRing positions isPositions
      have covers : (row.tokens.map extra.1).length ≤
          (sequenceLengths (row.paddedPositionIds world)).sum := by
        rw [length_map, lengths, ← length_flatten, ← isPadded.flatten]
        exact length_tokens_le world row
      have found : ¬(1 < world.rpWorldSize ∧
          sequenceLengths (row.paddedPositionIds world) = []) := by
        rintro ⟨-, none⟩
        rw [none, sum_nil, Nat.le_zero, length_map, length_eq_zero_iff] at covers
        exact tokens_ne_nil row covers
      rw [if_neg found, Trainers.pad, if_pos isRing, unit, sequencesOf,
        flatten_doPad_cutAt divides covers, length_map, doPad_of_dvd]
      have positive : 0 < world.padUnit := unit ▸ (world.group several).padUnit_pos
      have whole : world.padUnit ∣ (doPad world.padUnit extra.2
          (row.tokens.map extra.1)).length := dvd_length_doPad positive _
      rwa [doPad_eq, length_map] at whole
    · have notRing : ¬1 < (world.group several).rpWorldSize := ring
      rw [if_neg (fun both => ring both.1), pad_row notRing, World.padUnit, if_neg ring, length_map]
      rfl
  next single =>
    have noRing : ¬1 < world.rpWorldSize := by
      intro ring
      exact single (lt_of_lt_of_le ring (Nat.le_mul_of_pos_left _ world.sp_pos))
    rw [doPad_eq, World.padUnit, if_neg noRing, length_map]

theorem split_endPadded {β : Type} (field : Option τ → β) (rpRank spRank : ℕ) :
    world.split rpRank spRank (row.paddedPositionIds world) ((row.endPadded world).map field) =
      .ok ((world.localPart (row.paddedPositionIds world) (row.endPadded world) rpRank spRank).map
        field) := by
  by_cases ring : 1 < world.rpWorldSize
  · have someSlots : (row.endPadded world).map field ≠ [] := by
      simp [TokenRow.endPadded, tokens_ne_nil row]
    rw [world.split_ring row ring someSlots, world.map_localPart]
  · rw [endPadded_of_no_ring world row ring, world.split_slotRow]
    rfl

/-- What a process has of the tensors of a row. The extra values are cut along the padded
positions, too. -/
theorem padAndSplitInputs_eq (fields : Fields τ ε ξ) (values : PadValues ε)
    (rpRank spRank : ℕ) :
    world.padAndSplitInputs rpRank spRank values (fields.inputs row) = .ok
      { inputIds := fields.inputId.map fun field =>
          (row.slots world rpRank spRank).map (atSlot values.padTokenId field)
        inputEmbeds := fields.inputEmbed.map fun field =>
          (row.slots world rpRank spRank).map (atSlot values.zeroEmbed field)
        labels := fields.label.map fun field =>
          (row.nextSlots world rpRank spRank).map (atSlot (-100) field)
        positionIds := fields.positionIds.map fun field =>
          (row.slots world rpRank spRank).map (atSlot (-1) field)
        lossScale := fields.lossScale.map fun field =>
          (row.nextSlots world rpRank spRank).map (atSlot 0 field)
        extraValues := fields.extraSplitValues.map fun extra =>
          (world.localPart (row.paddedPositionIds world) (row.endPadded world) rpRank spRank).map
            (atSlot extra.2 extra.1) } := by
  have padIds := optionMapM_eq_ok (world.pad_field row values.padTokenId) fields.inputId
  have padEmbeds := optionMapM_eq_ok (world.pad_field row values.zeroEmbed) fields.inputEmbed
  have padPositions := listMapM_eq_ok row.tokens.map (world.pad_field row (-1 : ℤ)) fields.positionIds
  have padLabels := optionMapM_eq_ok (world.pad_field row (-100 : ℤ)) fields.label
  have padScales := optionMapM_eq_ok (world.pad_field row (0 : ℚ)) fields.lossScale
  have padExtras : (fields.extraSplitValues.map fun extra =>
      (row.tokens.map extra.1, extra.2)).mapM (fun extra =>
        world.pad extra.2 (row.paddedPositionIds world) extra.1) =
      .ok (fields.extraSplitValues.map fun extra =>
        (row.endPadded world).map (atSlot extra.2 extra.1)) :=
    listMapM_eq_ok (fun extra : (τ → ξ) × ξ => (row.tokens.map extra.1, extra.2))
      (extraRow_eq world row) fields.extraSplitValues
  have splitIds := optionMapM_eq_ok (fun field =>
    world.split_slotRow row (atSlot values.padTokenId field) rpRank spRank) fields.inputId
  have splitEmbeds := optionMapM_eq_ok (fun field =>
    world.split_slotRow row (atSlot values.zeroEmbed field) rpRank spRank) fields.inputEmbed
  have splitPositions := listMapM_eq_ok _ (fun field =>
    world.split_slotRow row (atSlot (-1 : ℤ) field) rpRank spRank) fields.positionIds
  have rotated : ∀ {α : Type} (padding : α) (optional : Option (τ → α)),
      (optional.map fun field => (row.slotRow world).map (atSlot padding field)).mapM (fun tensor =>
        world.split rpRank spRank (row.paddedPositionIds world) (tensor.rotate 1)) =
      .ok (optional.map fun field =>
        (row.nextSlots world rpRank spRank).map (atSlot padding field)) :=
    fun padding => optionMapM_eq_ok fun field =>
      world.split_rotate row (atSlot padding field) rpRank spRank
  have splitExtras := listMapM_eq_ok _ (fun extra : (τ → ξ) × ξ =>
    split_endPadded world row (atSlot extra.2 extra.1) rpRank spRank) fields.extraSplitValues
  simp only [World.padAndSplitInputs, Fields.inputs, padIds, padEmbeds, padPositions, padLabels,
    padScales, world.pad_positions row, padExtras, splitIds, splitEmbeds, splitPositions,
    rotated, splitExtras, bind, Except.bind]

end ExtraRow

end Geobench.Trainers
