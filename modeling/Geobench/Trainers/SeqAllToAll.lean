import Geobench.Library.DenseTensors
import Geobench.Library.ListSlices

/-!
# Heads for sequences

Before the attention, the processes of a group exchange parts of a tensor with the dimensions batch,
sequence, head and entry: each has a part of the sequence with all heads, and gets the whole sequence
with a part of the heads (`getElem_scatterHeads`). After the attention it is the other way round
(`getElem_scatterSequence`).

**`seqAllToAll_inverse`**: the two exchanges undo each other, and each is what the gradients of the
other go through. **`distributedAttention_eq_whole`**: with the exchanges around the attention the
processes compute together what one process computes on the whole sequence.
-/

namespace Geobench.Trainers

open Library List

variable {α : Type}

/-- How the tensors are permuted and reshaped before and after the exchange. -/
structure LayoutParams where
  preAll2allPermuteIdx : List ℕ
  preAll2allInpShape : List ℕ
  postAll2allPermuteIdx : List ℕ
  postAll2allResShape : List ℕ

/-- `_generate_layout_params`, which raises where the heads cannot be split -/
def generateLayoutParams (scatterIdx seqWorldSize : ℕ) : List ℕ → Option LayoutParams
  | [bs, seqLen, numHead, headDim] =>
    if scatterIdx < 2 then
      some ⟨[1, 0, 2, 3, 4], [bs, seqWorldSize, seqLen / seqWorldSize, numHead, headDim],
        [1, 2, 0, 3, 4], [bs, seqLen / seqWorldSize, seqWorldSize * numHead, headDim]⟩
    else if numHead % seqWorldSize = 0 then
      some ⟨[2, 0, 1, 3, 4], [bs, seqLen, seqWorldSize, numHead / seqWorldSize, headDim],
        [1, 0, 2, 3, 4], [bs, seqWorldSize * seqLen, numHead / seqWorldSize, headDim]⟩
    else none
  | _ => none

/-- `pre_all2all_fun` -/
def preAll2all (params : LayoutParams) (input : Dense α) : Option (Dense α) :=
  (input.reshape params.preAll2allInpShape).map (Dense.permute params.preAll2allPermuteIdx)

/-- `post_all2all` -/
def postAll2all (params : LayoutParams) (input : Dense α) : Option (Dense α) :=
  (Dense.permute params.postAll2allPermuteIdx input).reshape params.postAll2allResShape

/-- `single_all_to_all`, for the tensors of all processes of the group -/
def singleAllToAll (scatterIdx : ℕ) (inputs : List (Dense α)) : Option (List (Dense α)) := do
  let params ← inputs.mapM fun input => generateLayoutParams scatterIdx inputs.length input.shape
  let prepared ← (params.zip inputs).mapM fun rank => preAll2all rank.1 rank.2
  (params.zip (Dense.allToAllSingle prepared)).mapM fun rank => postAll2all rank.1 rank.2

/-- `_SeqAllToAll.forward` -/
def seqAllToAllForward (scatterIdx _gatherIdx : ℕ) (inputs : List (Dense α)) :
    Option (List (Dense α)) :=
  singleAllToAll scatterIdx inputs

/-- `_SeqAllToAll.backward` -/
def seqAllToAllBackward (scatterIdx gatherIdx : ℕ) (gradOutput : List (Dense α)) :
    Option (List (Dense α)) :=
  seqAllToAllForward gatherIdx scatterIdx gradOutput

/-! ## One exchange -/

/-- The tensors of a group have one shape. -/
def Shaped (shape : List ℕ) (tensors : List (Dense α)) : Prop :=
  ∀ tensor ∈ tensors, tensor.shape = shape

theorem zip_map_const {β γ δ : Type} (value : δ) {items : List β} {others : List γ}
    (same : items.length = others.length) :
    (items.map fun _ => value).zip others = others.map (value, ·) := by
  refine ext_getElem (by simp [same]) fun index _ _ => ?_
  simp

/-- The tensor that a process sends parts of. -/
def prepare (params : LayoutParams) (input : Dense α) : Dense α :=
  Dense.permute params.preAll2allPermuteIdx (input.withShape params.preAll2allInpShape)

/-- What the processes have after an exchange. -/
def exchanged (params : LayoutParams) (inputs : List (Dense α)) : List (Dense α) :=
  (Dense.allToAllSingle (inputs.map (prepare params))).map fun received =>
    (Dense.permute params.postAll2allPermuteIdx received).withShape params.postAll2allResShape

theorem length_exchanged (params : LayoutParams) (inputs : List (Dense α)) :
    (exchanged params inputs).length = inputs.length := by
  rw [exchanged, length_map, Dense.length_allToAllSingle, length_map]

theorem shaped_exchanged (params : LayoutParams) (inputs : List (Dense α)) :
    Shaped params.postAll2allResShape (exchanged params inputs) :=
  forall_mem_map.mpr fun _ _ => rfl

/-- For tensors of one shape, an exchange does the same on every process. -/
theorem singleAllToAll_eq {scatterIdx : ℕ} {inputs : List (Dense α)} {shape : List ℕ}
    {params : LayoutParams} (shaped : Shaped shape inputs)
    (isParams : generateLayoutParams scatterIdx inputs.length shape = some params)
    (preSize : params.preAll2allInpShape.prod = shape.prod)
    (postSize : params.postAll2allResShape.prod =
      (params.postAll2allPermuteIdx.map fun dimension =>
        (params.preAll2allPermuteIdx.map fun dimension =>
          params.preAll2allInpShape.getD dimension 0).getD dimension 0).prod) :
    singleAllToAll scatterIdx inputs = some (exchanged params inputs) := by
  have layouts : (inputs.mapM fun input =>
      generateLayoutParams scatterIdx inputs.length input.shape) =
        some (inputs.map fun _ => params) :=
    mapM_eq_some fun input isInput => by rw [shaped input isInput, isParams]
  have prepared : (inputs.map (params, ·)).mapM (fun rank => preAll2all rank.1 rank.2) =
      some ((inputs.map (params, ·)).map fun rank => prepare params rank.2) := by
    refine mapM_eq_some (forall_mem_map.mpr fun input isInput => ?_)
    rw [preAll2all, Dense.reshape, shaped input isInput, if_pos preSize]
    rfl
  rw [singleAllToAll, layouts, Option.bind_eq_bind, Option.bind_some, zip_map_const params rfl,
    prepared, Option.bind_eq_bind, Option.bind_some, map_map, exchanged,
    zip_map_const params (by rw [Dense.length_allToAllSingle, length_map])]
  rw [mapM_eq_some (g := fun rank =>
    (Dense.permute params.postAll2allPermuteIdx rank.2).withShape params.postAll2allResShape),
    map_map]
  · rfl
  · refine forall_mem_map.mpr fun received isReceived => ?_
    obtain ⟨rank, isRank, rfl⟩ := mem_iff_getElem.mp isReceived
    rw [postAll2all, Dense.reshape, if_pos]
    simp only [Dense.allToAllSingle, getElem_mapIdx, getElem_map, Dense.permute,
      Function.comp_apply]
    exact postSize

variable {inputs : List (Dense α)} {bs seqLen numHead headDim : ℕ}

def headParams (seqWorldSize bs seqLen numHead headDim : ℕ) : LayoutParams :=
  ⟨[2, 0, 1, 3, 4], [bs, seqLen, seqWorldSize, numHead, headDim],
    [1, 0, 2, 3, 4], [bs, seqWorldSize * seqLen, numHead, headDim]⟩

def sequenceParams (seqWorldSize bs seqLen numHead headDim : ℕ) : LayoutParams :=
  ⟨[1, 0, 2, 3, 4], [bs, seqWorldSize, seqLen, numHead, headDim],
    [1, 2, 0, 3, 4], [bs, seqLen, seqWorldSize * numHead, headDim]⟩

variable {parts : ℕ}

theorem scatterHeads (count : inputs.length = parts) (positive : 0 < parts)
    (shaped : Shaped [bs, seqLen, parts * numHead, headDim] inputs) :
    singleAllToAll 2 inputs = some (exchanged (headParams parts bs seqLen numHead headDim) inputs) := by
  refine singleAllToAll_eq shaped ?_ ?_ ?_
  · rw [generateLayoutParams, if_neg (by decide), count, Nat.mul_mod_right, if_pos rfl,
      Nat.mul_div_cancel_left _ positive]
    rfl
  · simp only [headParams, prod_cons]
    ring
  · simp only [headParams, map_cons, map_nil, getD_cons_succ, getD_cons_zero, prod_cons]
    ring

theorem scatterSequence (count : inputs.length = parts) (positive : 0 < parts)
    (shaped : Shaped [bs, parts * seqLen, numHead, headDim] inputs) :
    singleAllToAll 1 inputs =
      some (exchanged (sequenceParams parts bs seqLen numHead headDim) inputs) := by
  refine singleAllToAll_eq shaped ?_ ?_ ?_
  · rw [generateLayoutParams, if_pos (by decide), count, Nat.mul_div_cancel_left _ positive]
    rfl
  · simp only [sequenceParams, prod_cons]
    ring
  · simp only [sequenceParams, map_cons, map_nil, getD_cons_succ, getD_cons_zero, prod_cons]
    ring

/-! ## What an exchange moves -/

variable {outputs : List (Dense α)} {rank peer : ℕ}

/-- An exchange moves an entry from the process it is on to the one its index names. -/
theorem get_exchanged {params : LayoutParams} {preShape index postIndex : List ℕ}
    (isOutputs : exchanged params inputs = outputs)
    (isPre : (params.preAll2allPermuteIdx.map fun dimension =>
      params.preAll2allInpShape.getD dimension 0) = inputs.length :: preShape)
    (isRank : rank < outputs.length) (isPeer : peer < inputs.length)
    (inside : InShape preShape index)
    (insidePost : InShape (params.postAll2allPermuteIdx.map fun dimension =>
      (inputs.length :: preShape).getD dimension 0) postIndex)
    (before : Dense.indexBefore params.postAll2allPermuteIdx postIndex = peer :: index) :
    (outputs[rank].withShape (params.postAll2allPermuteIdx.map fun dimension =>
        (inputs.length :: preShape).getD dimension 0)).get postIndex =
      (inputs[peer].withShape params.preAll2allInpShape).get
        (Dense.indexBefore params.preAll2allPermuteIdx (rank :: index)) := by
  subst isOutputs
  have count : (inputs.map (prepare params)).length = inputs.length := length_map _
  have isOwn : rank < inputs.length := by rwa [length_exchanged] at isRank
  have shapes : ∀ tensor ∈ inputs.map (prepare params),
      tensor.shape = (inputs.map (prepare params)).length :: preShape := by
    rw [count]
    exact forall_mem_map.mpr fun input _ => isPre
  have insidePre : InShape (params.preAll2allPermuteIdx.map fun dimension =>
      params.preAll2allInpShape.getD dimension 0) (rank :: index) :=
    isPre ▸ List.Forall₂.cons isOwn inside
  have sent : (prepare params inputs[peer]).get (rank :: index) =
      (inputs[peer].withShape params.preAll2allInpShape).get
        (Dense.indexBefore params.preAll2allPermuteIdx (rank :: index)) :=
    Dense.get_permute _ _ insidePre
  have isReceived : rank < (Dense.allToAllSingle (inputs.map (prepare params))).length := by
    rwa [Dense.length_allToAllSingle, count]
  have exchange : (Dense.allToAllSingle (inputs.map (prepare params)))[rank].get (peer :: index) =
      (inputs.map (prepare params))[peer].get (rank :: index) :=
    Dense.get_allToAllSingle isReceived (by rwa [count]) shapes inside
  have shape : (Dense.allToAllSingle (inputs.map (prepare params)))[rank].shape =
      inputs.length :: preShape := by
    simp only [Dense.allToAllSingle, getElem_mapIdx]
    rw [shapes _ (getElem_mem _), count]
  have same : (exchanged params inputs)[rank].withShape
      (params.postAll2allPermuteIdx.map fun dimension =>
        (inputs.length :: preShape).getD dimension 0) =
      Dense.permute params.postAll2allPermuteIdx
        (Dense.allToAllSingle (inputs.map (prepare params)))[rank] := by
    simp only [exchanged, getElem_map, Dense.withShape, Dense.permute, shape]
  rw [same, Dense.get_permute _ _ (by rwa [shape]), before, exchange, getElem_map, sent]

variable {row place head entry : ℕ}

theorem getElem_scatterHeads (count : inputs.length = parts)
    (isOutputs : exchanged (headParams parts bs seqLen numHead headDim) inputs = outputs)
    (isRank : rank < outputs.length) (isPeer : peer < inputs.length)
    (shaped : Shaped [bs, seqLen, parts * numHead, headDim] inputs)
    (inside : InShape [bs, seqLen, numHead, headDim] [row, place, head, entry]) :
    outputs[rank].get [row, peer * seqLen + place, head, entry] =
      inputs[peer].get [row, place, rank * numHead + head, entry] := by
  subst count
  obtain ⟨isRow, isPlace, rest⟩ : row < bs ∧ place < seqLen ∧
      InShape [numHead, headDim] [head, entry] := by simpa using inside
  have shape := (isOutputs ▸ shaped_exchanged _ inputs) _ (getElem_mem isRank)
  have moved := @get_exchanged _ inputs outputs rank peer
    (headParams inputs.length bs seqLen numHead headDim) [bs, seqLen, numHead, headDim]
    [row, place, head, entry] [row, peer, place, head, entry] isOutputs rfl isRank isPeer inside
    (.cons isRow (.cons isPeer (.cons isPlace rest))) rfl
  have sender := @Dense.get_split _ _ [bs, seqLen] [row, place] rfl [headDim] [entry] inputs.length
    numHead (shaped _ (getElem_mem isPeer)) rank head
  have receiver := @Dense.get_split _ outputs[rank] [bs] [row] rfl [numHead, headDim]
    [head, entry] inputs.length seqLen shape peer place
  exact receiver.symm.trans (moved.trans sender)

theorem getElem_scatterSequence (count : inputs.length = parts)
    (isOutputs : exchanged (sequenceParams parts bs seqLen numHead headDim) inputs = outputs)
    (isRank : rank < outputs.length) (isPeer : peer < inputs.length)
    (shaped : Shaped [bs, parts * seqLen, numHead, headDim] inputs)
    (inside : InShape [bs, seqLen, numHead, headDim] [row, place, head, entry]) :
    outputs[rank].get [row, place, peer * numHead + head, entry] =
      inputs[peer].get [row, rank * seqLen + place, head, entry] := by
  subst count
  obtain ⟨isRow, isPlace, rest⟩ : row < bs ∧ place < seqLen ∧
      InShape [numHead, headDim] [head, entry] := by simpa using inside
  have shape := (isOutputs ▸ shaped_exchanged _ inputs) _ (getElem_mem isRank)
  have moved := @get_exchanged _ inputs outputs rank peer
    (sequenceParams inputs.length bs seqLen numHead headDim) [bs, seqLen, numHead, headDim]
    [row, place, head, entry] [row, place, peer, head, entry] isOutputs rfl isRank isPeer inside
    (.cons isRow (.cons isPlace (.cons isPeer rest))) rfl
  have sender := @Dense.get_split _ _ [bs] [row] rfl [numHead, headDim] [head, entry]
    inputs.length seqLen (shaped _ (getElem_mem isPeer)) rank place
  have receiver := @Dense.get_split _ outputs[rank] [bs, seqLen] [row, place] rfl [headDim]
    [entry] inputs.length numHead shape peer head
  exact receiver.symm.trans (moved.trans sender)

/-! ## There and back -/

/-- A coordinate of a dimension that is shared out. -/
theorem exists_part {size coordinate : ℕ} (inside : coordinate < parts * size) :
    ∃ part < parts, ∃ within < size, coordinate = part * size + within := by
  have positive : 0 < size := Nat.pos_of_ne_zero fun zero => by
    rw [zero, Nat.mul_zero] at inside
    exact Nat.not_lt_zero _ inside
  exact ⟨coordinate / size, Nat.div_lt_of_lt_mul (Nat.mul_comm parts size ▸ inside),
    coordinate % size, Nat.mod_lt _ positive, (Nat.div_add_mod' coordinate size).symm⟩

/-- Tensors of four dimensions are the same when they agree at every index. -/
theorem same_of_agree (count : outputs.length = inputs.length)
    (shapedOutputs : Shaped [bs, seqLen, numHead, headDim] outputs)
    (shaped : Shaped [bs, seqLen, numHead, headDim] inputs)
    (agree : ∀ rank (isOutput : rank < outputs.length) (isRank : rank < inputs.length) row place
      head entry, InShape [bs, seqLen, numHead, headDim] [row, place, head, entry] →
        outputs[rank].get [row, place, head, entry] = inputs[rank].get [row, place, head, entry]) :
    List.Forall₂ Dense.Same outputs inputs := by
  refine forall₂_iff_get.mpr ⟨count, fun rank isOutput isRank => ?_⟩
  have isShaped := shapedOutputs _ (getElem_mem isOutput)
  refine Dense.same_of_get (isShaped.trans (shaped _ (getElem_mem isRank)).symm)
    fun index inside => ?_
  rw [get_eq_getElem, isShaped] at inside
  obtain ⟨row, place, head, entry, rfl⟩ := length_eq_four.mp inside.length_eq
  exact agree rank isOutput isRank row place head entry inside

theorem scatterHeads_scatterSequence (count : inputs.length = parts)
    (shaped : Shaped [bs, seqLen, parts * numHead, headDim] inputs) :
    List.Forall₂ Dense.Same (exchanged (sequenceParams parts bs seqLen numHead headDim)
      (exchanged (headParams parts bs seqLen numHead headDim) inputs)) inputs := by
  generalize isSharded : exchanged (headParams parts bs seqLen numHead headDim) inputs = sharded
  have shardedCount : sharded.length = inputs.length := isSharded ▸ length_exchanged _ inputs
  refine same_of_agree (by rw [length_exchanged, shardedCount]) (shaped_exchanged _ _) shaped
    fun rank isOutput isRank row place coordinate entry inside => ?_
  obtain ⟨isRow, isPlace, isHead, isEntry⟩ : row < bs ∧ place < seqLen ∧
      coordinate < parts * numHead ∧ entry < headDim := by simpa using inside
  obtain ⟨peer, isPeer, head, within, rfl⟩ := exists_part isHead
  have parted : InShape [bs, seqLen, numHead, headDim] [row, place, head, entry] := by
    simp [isRow, isPlace, within, isEntry]
  have isPeer' : peer < sharded.length := by rwa [shardedCount, count]
  rw [getElem_scatterSequence (shardedCount.trans count) rfl isOutput isPeer'
      (isSharded ▸ shaped_exchanged _ inputs) parted,
    getElem_scatterHeads count isSharded isPeer' isRank shaped parted]

theorem scatterSequence_scatterHeads (count : inputs.length = parts)
    (shaped : Shaped [bs, parts * seqLen, numHead, headDim] inputs) :
    List.Forall₂ Dense.Same (exchanged (headParams parts bs seqLen numHead headDim)
      (exchanged (sequenceParams parts bs seqLen numHead headDim) inputs)) inputs := by
  generalize isSharded : exchanged (sequenceParams parts bs seqLen numHead headDim) inputs = sharded
  have shardedCount : sharded.length = inputs.length := isSharded ▸ length_exchanged _ inputs
  refine same_of_agree (by rw [length_exchanged, shardedCount]) (shaped_exchanged _ _) shaped
    fun rank isOutput isRank row coordinate head entry inside => ?_
  obtain ⟨isRow, isPlace, isHead, isEntry⟩ : row < bs ∧ coordinate < parts * seqLen ∧
      head < numHead ∧ entry < headDim := by simpa using inside
  obtain ⟨peer, isPeer, place, within, rfl⟩ := exists_part isPlace
  have parted : InShape [bs, seqLen, numHead, headDim] [row, place, head, entry] := by
    simp [isRow, isHead, within, isEntry]
  have isPeer' : peer < sharded.length := by rwa [shardedCount, count]
  rw [getElem_scatterHeads (shardedCount.trans count) rfl isOutput isPeer'
      (isSharded ▸ shaped_exchanged _ inputs) parted,
    getElem_scatterSequence count isSharded isPeer' isRank shaped parted]

/-- **The two exchanges undo each other**, and each is what the gradients of the other go
through. -/
theorem seqAllToAll_inverse (inputs : List (Dense α)) (someRank : inputs ≠ [])
    (bs seqLen numHead headDim : ℕ) (shaped : Shaped [bs, seqLen, numHead, headDim] inputs) :
    (inputs.length ∣ numHead → ∃ sharded restored,
      seqAllToAllForward 2 1 inputs = some sharded ∧
        seqAllToAllForward 1 2 sharded = some restored ∧ List.Forall₂ Dense.Same restored inputs) ∧
    (inputs.length ∣ seqLen → ∃ sharded restored,
      seqAllToAllForward 1 2 inputs = some sharded ∧
        seqAllToAllForward 2 1 sharded = some restored ∧ List.Forall₂ Dense.Same restored inputs) ∧
    ∀ gradOutput : List (Dense α),
      seqAllToAllBackward 2 1 gradOutput = seqAllToAllForward 1 2 gradOutput ∧
        seqAllToAllBackward 1 2 gradOutput = seqAllToAllForward 2 1 gradOutput := by
  have positive : 0 < inputs.length := length_pos_iff.mpr someRank
  refine ⟨?_, ?_, fun gradOutput => ⟨rfl, rfl⟩⟩
  · rintro ⟨heads, rfl⟩
    exact ⟨_, _, scatterHeads rfl positive shaped,
      scatterSequence (length_exchanged _ _) positive (shaped_exchanged _ _),
      scatterHeads_scatterSequence rfl shaped⟩
  · rintro ⟨places, rfl⟩
    exact ⟨_, _, scatterSequence rfl positive shaped,
      scatterHeads (length_exchanged _ _) positive (shaped_exchanged _ _),
      scatterSequence_scatterHeads rfl shaped⟩

/-- One entry on each of two processes, in one place of the sequence with two heads. -/
theorem seqAllToAll_inverse_twoHeads :
    [(⟨[1, 1, 2, 1], id⟩ : Dense ℕ), ⟨[1, 1, 2, 1], (2 + ·)⟩] ≠ [] ∧ ∃ sharded restored,
      seqAllToAllForward 2 1 [(⟨[1, 1, 2, 1], id⟩ : Dense ℕ), ⟨[1, 1, 2, 1], (2 + ·)⟩] =
          some sharded ∧
        seqAllToAllForward 1 2 sharded = some restored ∧
        List.Forall₂ Dense.Same restored
          [(⟨[1, 1, 2, 1], id⟩ : Dense ℕ), ⟨[1, 1, 2, 1], (2 + ·)⟩] :=
  ⟨cons_ne_nil _ _, (seqAllToAll_inverse _ (cons_ne_nil _ _) 1 1 2 1
    (by simp [Shaped])).1 ⟨1, rfl⟩⟩

/-! ## Attention -/

/-- `dist.all_gather_into_tensor` and `torch.cat` of the position ids, along the sequence. -/
def gatherPositionIds (positionIds : List (List (List ℤ))) : List (List ℤ) :=
  (List.range (positionIds.headD []).length).map fun row =>
    positionIds.flatMap fun own => own.getD row []

/-- An attention, for the position ids of the whole sequence. -/
abbrev Attention (α : Type) := Option (List (List ℤ)) → Dense α → Dense α → Dense α → Dense α

/-- `DistributedAttention.forward` on the processes of a group, for ones that form no ring. What else
is passed to the attention is the same for all of them. -/
def distributedAttention (localAttn : Attention α) (query key value : List (Dense α))
    (positionIds : Option (List (List (List ℤ)))) : Option (List (Dense α)) :=
  if query.length = 1 then
    some (zipWith id (zipWith (localAttn (positionIds.map (·.headD []))) query key) value)
  else do
    let queryLayer ← seqAllToAllForward 2 1 query
    let keyLayer ← seqAllToAllForward 2 1 key
    let valueLayer ← seqAllToAllForward 2 1 value
    let positionIds := positionIds.map gatherPositionIds
    let contextLayer := zipWith id (zipWith (localAttn positionIds) queryLayer keyLayer) valueLayer
    seqAllToAllForward 1 2 contextLayer

/-- A head of a tensor has the entries of a head of another one. -/
def SameHead (bs seqLen headDim : ℕ) (tensor : Dense α) (head : ℕ) (other : Dense α)
    (otherHead : ℕ) : Prop :=
  ∀ row < bs, ∀ place < seqLen, ∀ entry < headDim,
    tensor.get [row, place, head, entry] = other.get [row, place, otherHead, entry]

/-- What is documented of an attention: its result has the shape of the query, and each head is
computed from a head of the query and the head of keys and values of its group, wherever these are
among the heads. -/
structure ByHead (bs seqLen group headDim : ℕ)
    (attend : Dense α → Dense α → Dense α → Dense α) : Prop where
  shape : ∀ query key value, (attend query key value).shape = query.shape
  heads : ∀ {numHead otherHeads head otherHead : ℕ} {query key value query' key' value' : Dense α},
    query.shape = [bs, seqLen, group * numHead, headDim] →
    key.shape = [bs, seqLen, numHead, headDim] → value.shape = [bs, seqLen, numHead, headDim] →
    query'.shape = [bs, seqLen, group * otherHeads, headDim] →
    key'.shape = [bs, seqLen, otherHeads, headDim] →
    value'.shape = [bs, seqLen, otherHeads, headDim] →
    head < group * numHead → otherHead < group * otherHeads →
    SameHead bs seqLen headDim query head query' otherHead →
    SameHead bs seqLen headDim key (head / group) key' (otherHead / group) →
    SameHead bs seqLen headDim value (head / group) value' (otherHead / group) →
    SameHead bs seqLen headDim (attend query key value) head (attend query' key' value') otherHead

/-- The processes have the parts of the sequence of a tensor. -/
structure SequenceParts (parts bs seqLen numHead headDim : ℕ) (whole : Dense α)
    (tensors : List (Dense α)) : Prop where
  count : tensors.length = parts
  shape : whole.shape = [bs, parts * seqLen, numHead, headDim]
  shaped : Shaped [bs, seqLen, numHead, headDim] tensors
  get : ∀ rank (isRank : rank < tensors.length), ∀ row place head entry,
    InShape [bs, seqLen, numHead, headDim] [row, place, head, entry] →
      tensors[rank].get [row, place, head, entry] =
        whole.get [row, rank * seqLen + place, head, entry]

/-- The processes have the parts of the heads of a tensor. -/
structure HeadParts (parts bs seqLen numHead headDim : ℕ) (whole : Dense α)
    (tensors : List (Dense α)) : Prop where
  count : tensors.length = parts
  shape : whole.shape = [bs, seqLen, parts * numHead, headDim]
  shaped : Shaped [bs, seqLen, numHead, headDim] tensors
  heads : ∀ rank (isRank : rank < tensors.length), ∀ head < numHead,
    SameHead bs seqLen headDim tensors[rank] head whole (rank * numHead + head)

section Attention

variable {group : ℕ} {whole : Dense α} {tensors : List (Dense α)}

theorem part_lt {size part within : ℕ} (isPart : part < parts) (inside : within < size) :
    part * size + within < parts * size :=
  calc part * size + within < (part + 1) * size := by
        rw [Nat.add_one_mul]
        exact Nat.add_lt_add_left inside _
    _ ≤ parts * size := Nat.mul_le_mul_right _ isPart

theorem headParts_exchanged
    (isParts : SequenceParts parts bs seqLen (parts * numHead) headDim whole tensors) :
    HeadParts parts bs (parts * seqLen) numHead headDim whole
      (exchanged (headParams parts bs seqLen numHead headDim) tensors) where
  count := (length_exchanged _ _).trans isParts.count
  shape := isParts.shape
  shaped := shaped_exchanged _ _
  heads := by
    intro rank isRank head isHead row isRow place isPlace entry isEntry
    obtain ⟨peer, isPeer, within, isWithin, rfl⟩ := exists_part isPlace
    have isPeer : peer < tensors.length := isParts.count ▸ isPeer
    have isOwn : rank < parts := isParts.count ▸ length_exchanged _ tensors ▸ isRank
    rw [getElem_scatterHeads isParts.count rfl isRank isPeer isParts.shaped
      (by simp [isRow, isWithin, isHead, isEntry])]
    exact isParts.get peer isPeer row within _ entry
      (by simp [isRow, isWithin, part_lt isOwn isHead, isEntry])

theorem sequenceParts_exchanged
    (isParts : HeadParts parts bs (parts * seqLen) numHead headDim whole tensors) :
    SequenceParts parts bs seqLen (parts * numHead) headDim whole
      (exchanged (sequenceParams parts bs seqLen numHead headDim) tensors) where
  count := (length_exchanged _ _).trans isParts.count
  shape := isParts.shape
  shaped := shaped_exchanged _ _
  get := by
    intro rank isRank row place coordinate entry inside
    obtain ⟨isRow, isPlace, isHead, isEntry⟩ : row < bs ∧ place < seqLen ∧
        coordinate < parts * numHead ∧ entry < headDim := by simpa using inside
    obtain ⟨peer, isPeer, head, within, rfl⟩ := exists_part isHead
    have isPeer : peer < tensors.length := isParts.count ▸ isPeer
    have isOwn : rank < parts := isParts.count ▸ length_exchanged _ tensors ▸ isRank
    rw [getElem_scatterSequence isParts.count rfl isRank isPeer isParts.shaped
      (by simp [isRow, isPlace, within, isEntry])]
    exact isParts.heads peer isPeer head within row isRow _ (part_lt isOwn isPlace) entry isEntry

variable {attend : Dense α → Dense α → Dense α → Dense α} {Q K V : Dense α}
  {query key value : List (Dense α)}

theorem headParts_attend (byHead : ByHead bs seqLen group headDim attend) (someGroup : 0 < group)
    (queries : HeadParts parts bs seqLen (group * numHead) headDim Q query)
    (keys : HeadParts parts bs seqLen numHead headDim K key)
    (values : HeadParts parts bs seqLen numHead headDim V value) :
    HeadParts parts bs seqLen (group * numHead) headDim (attend Q K V)
      (zipWith id (zipWith attend query key) value) where
  count := by simp [queries.count, keys.count, values.count]
  shape := (byHead.shape ..).trans queries.shape
  shaped := by
    intro tensor isTensor
    obtain ⟨rank, isRank, rfl⟩ := mem_iff_getElem.mp isTensor
    rw [getElem_zipWith, getElem_zipWith, id, byHead.shape]
    exact queries.shaped _ (getElem_mem _)
  heads := by
    intro rank isRank head isHead
    obtain ⟨isQuery, isKey, isValue⟩ : rank < query.length ∧ rank < key.length ∧
        rank < value.length := by simpa [and_assoc] using isRank
    have isOwn : rank < parts := queries.count ▸ isQuery
    have isGroup : head / group < numHead := Nat.div_lt_of_lt_mul isHead
    have ofGroup : (rank * (group * numHead) + head) / group = rank * numHead + head / group := by
      rw [Nat.mul_left_comm, Nat.mul_add_div someGroup]
    rw [getElem_zipWith, getElem_zipWith]
    refine byHead.heads (queries.shaped _ (getElem_mem _)) (keys.shaped _ (getElem_mem _))
      (values.shaped _ (getElem_mem _)) (by rw [queries.shape, Nat.mul_left_comm]) keys.shape
      values.shape isHead (Nat.mul_left_comm parts group numHead ▸ part_lt isOwn isHead)
      (queries.heads rank isQuery head isHead) ?_ ?_
    · exact ofGroup ▸ keys.heads rank isKey _ isGroup
    · exact ofGroup ▸ values.heads rank isValue _ isGroup

def sharePositionIds (parts seqLen : ℕ) (rows : List (List ℤ)) : List (List (List ℤ)) :=
  (List.range parts).map fun rank => rows.map (slice · (rank * seqLen) ((rank + 1) * seqLen))

theorem gatherPositionIds_share {rows : List (List ℤ)} (positive : 0 < parts)
    (lengths : ∀ row ∈ rows, row.length = parts * seqLen) :
    gatherPositionIds (sharePositionIds parts seqLen rows) = rows := by
  obtain ⟨others, rfl⟩ := Nat.exists_eq_succ_of_ne_zero positive.ne'
  have count : ((sharePositionIds (others + 1) seqLen rows).headD []).length = rows.length := by
    rw [sharePositionIds, range_succ_eq_map, map_cons, headD_cons, length_map]
  rw [gatherPositionIds, count]
  refine ext_getElem (by simp) fun row isRow isOwn => ?_
  have gathered : (sharePositionIds (others + 1) seqLen rows).flatMap (·.getD row []) =
      (cutAt (· * seqLen) (others + 1) rows[row]).flatten := by
    rw [sharePositionIds, flatMap_map, flatMap_def, cutAt]
    refine congrArg flatten (map_congr_left fun rank _ => ?_)
    rw [getD_eq_getElem _ _ (by rwa [length_map]), getElem_map]
  rw [getElem_map, getElem_range, gathered, flatten_cutAt_mul (lengths _ (getElem_mem isOwn)).le]

/-- **Together the processes compute the attention of the whole sequence**: each gets its part of
what the attention gives on the whole. -/
theorem distributedAttention_eq_whole (localAttn : Attention α)
    (positionIds : Option (List (List ℤ))) (several : 1 < parts) (someGroup : 0 < group)
    (byHead : ByHead bs (parts * seqLen) group headDim (localAttn positionIds))
    (lengths : ∀ rows ∈ positionIds, ∀ row ∈ rows, row.length = parts * seqLen)
    (queries : SequenceParts parts bs seqLen (parts * (group * numHead)) headDim Q query)
    (keys : SequenceParts parts bs seqLen (parts * numHead) headDim K key)
    (values : SequenceParts parts bs seqLen (parts * numHead) headDim V value) :
    ∃ output, distributedAttention localAttn query key value
        (positionIds.map (sharePositionIds parts seqLen)) = some output ∧
      SequenceParts parts bs seqLen (parts * (group * numHead)) headDim
        (localAttn positionIds Q K V) output := by
  have positive : 0 < parts := Nat.zero_lt_of_lt several
  have gathered : (positionIds.map (sharePositionIds parts seqLen)).map gatherPositionIds =
      positionIds := by
    cases positionIds with
    | none => rfl
    | some rows => exact congrArg some (gatherPositionIds_share positive (lengths rows rfl))
  have attended := headParts_attend byHead someGroup (headParts_exchanged queries)
    (headParts_exchanged keys) (headParts_exchanged values)
  rw [distributedAttention, if_neg (queries.count ▸ several.ne'), gathered]
  simp only [seqAllToAllForward, scatterHeads queries.count positive queries.shaped,
    scatterHeads keys.count positive keys.shaped, scatterHeads values.count positive values.shaped,
    Option.bind_eq_bind, Option.bind_some]
  exact ⟨_, scatterSequence attended.count positive attended.shaped, sequenceParts_exchanged attended⟩

end Attention

/-- Where every token is a sequence of its own, it attends to itself. -/
def attendSelf : Attention ℕ := fun _ query _ value => value.withShape query.shape

def twoTokens : List (Dense ℕ) := [⟨[1, 1, 2, 1], id⟩, ⟨[1, 1, 2, 1], (2 + ·)⟩]

theorem distributedAttention_eq_whole_twoTokens :
    ∃ output, distributedAttention attendSelf twoTokens twoTokens twoTokens
        ((some [[0, 0]]).map (sharePositionIds 2 1)) = some output ∧
      SequenceParts 2 1 1 (2 * (1 * 1)) 1 ⟨[1, 2, 2, 1], id⟩ output := by
  have parts : SequenceParts 2 1 1 (2 * 1) 1 ⟨[1, 2, 2, 1], id⟩ twoTokens := by
    refine ⟨rfl, rfl, by simp [Shaped, twoTokens], ?_⟩
    intro rank isRank row place head entry inside
    obtain ⟨rfl, rfl, -, rfl⟩ : row = 0 ∧ place = 0 ∧ head < 2 ∧ entry = 0 := by simpa using inside
    obtain rfl | rfl : rank = 0 ∨ rank = 1 :=
      Nat.le_one_iff_eq_zero_or_eq_one.mp (Nat.le_of_lt_succ isRank)
    · simp [Dense.get, ravel, twoTokens]
    · simp [Dense.get, ravel, twoTokens]
  have byHead : ByHead 1 (2 * 1) 1 1 (attendSelf (some [[0, 0]])) := by
    refine ⟨fun _ _ _ => rfl, fun isQuery _ isValue isQuery' _ isValue' _ _ _ _ values row isRow
      place isPlace entry isEntry => ?_⟩
    have same := values row isRow place isPlace entry isEntry
    rw [Nat.div_one, Nat.div_one, Dense.get, Dense.get, isValue, isValue'] at same
    simpa only [attendSelf, Dense.withShape, Dense.get, isQuery, isQuery', Nat.one_mul] using same
  exact distributedAttention_eq_whole attendSelf (some [[0, 0]]) Nat.one_lt_two Nat.one_pos byHead
    (by simp) parts parts parts

end Geobench.Trainers
