import Geobench.Trainers.SplitInputs

/-!
# Tensors that are cut at the same positions

The tensors of a row are cut at the same positions if each process has them at the same slots, and
each token is at one process. The ids, the embeddings and the positions are. Extra values, the masks
of visual tokens among them, are padded along positions that have padding already, so that all their
padding is at the end of the row.

**`sharesOut_iff`**: in a ring this is the same only where no sequence before the last one is
padded. Everywhere else, each process also selects the embeddings of its own visual tokens.
-/

namespace Geobench.Trainers

open Library List

variable {τ : Type}

/-! ## Slots of all tensors -/

/-- Each process has every tensor at its slots, and the embeddings of its visual tokens; no token
is lost or at two processes. -/
structure SharesOut (world : World) (row : TokenRow τ) (slots : ℕ → ℕ → List (Option τ)) :
    Prop where
  each : ∀ {ε ξ : Type} (fields : Fields τ ε ξ) (values : PadValues ε),
    ∀ rpRank < world.rpWorldSize, ∀ spRank < world.spWorldSize, ∃ outputs,
      world.padAndSplitInputs rpRank spRank values (fields.inputs row) = .ok outputs ∧
      outputs.inputIds = fields.inputId.map (fun field =>
        (slots rpRank spRank).map (atSlot values.padTokenId field)) ∧
      outputs.inputEmbeds = fields.inputEmbed.map (fun field =>
        (slots rpRank spRank).map (atSlot values.zeroEmbed field)) ∧
      outputs.positionIds = fields.positionIds.map (fun field =>
        (slots rpRank spRank).map (atSlot (-1) field)) ∧
      outputs.extraValues = fields.extraSplitValues.map (fun extra =>
        (slots rpRank spRank).map (atSlot extra.2 extra.1))
  tokens : (world.allParts slots).reduceOption.Perm row.tokens
  visual : ∀ {ε : Type} (mask : τ → Bool) (embed : τ → ε) (values : PadValues ε) (empty : List ε),
    empty.length = row.tokens.length →
    ∀ rpRank < world.rpWorldSize, ∀ spRank < world.spWorldSize,
      world.padAndSplitMmTokens rpRank spRank values row.positionIds empty (row.tokens.map mask)
          ((row.tokens.filter mask).map embed) =
        .ok ((slots rpRank spRank).map (atSlot false mask),
          ((slots rpRank spRank).reduceOption.filter mask).map embed)

/-- No sequence before the last one is padded in a ring. -/
def PaddedAtEnd (world : World) (row : TokenRow τ) : Prop :=
  1 < world.rpWorldSize → ∀ tokens ∈ row.sequences.dropLast, world.worldSize * 2 ∣ tokens.length

instance (world : World) (row : TokenRow τ) : Decidable (PaddedAtEnd world row) :=
  inferInstanceAs (Decidable (1 < world.rpWorldSize →
    ∀ tokens ∈ row.sequences.dropLast, world.worldSize * 2 ∣ tokens.length))

/-! ## Where the padding is -/

theorem padCount_add {unit length more : ℕ} (divides : unit ∣ length) :
    padCount unit (length + more) = padCount unit more := by
  rw [← padCount_sub divides (Nat.le_add_right length more), Nat.add_sub_cancel_left]

/-- All padding is behind the tokens exactly if no sequence before the last one has any. -/
theorem flatten_doPad_eq_iff {unit : ℕ} (positive : 0 < unit) {sequences : List (List τ)}
    (some : sequences ≠ []) (each : ∀ tokens ∈ sequences, tokens ≠ []) :
    (sequences.map fun tokens => doPad unit none (tokens.map Option.some)).flatten =
        sequences.flatten.map Option.some ++
          replicate (padCount unit sequences.flatten.length) none ↔
      ∀ tokens ∈ sequences.dropLast, unit ∣ tokens.length := by
  induction sequences with
  | nil => exact absurd rfl some
  | cons tokens sequences ih =>
    rw [forall_mem_cons] at each
    cases sequences with
    | nil => simp [doPad_eq]
    | cons next sequences =>
      have ih := ih (cons_ne_nil _ _) each.2
      rw [dropLast_cons_cons, forall_mem_cons, ← ih, map_cons, flatten_cons, doPad_eq, length_map,
        flatten_cons, map_append, append_assoc, append_assoc, append_cancel_left_eq, length_append]
      constructor
      · intro same
        have none : padCount unit tokens.length = 0 := by
          obtain ⟨first, rest, isFirst⟩ := exists_cons_of_ne_nil (each.2 next mem_cons_self)
          rw [flatten_cons, isFirst] at same
          cases count : padCount unit tokens.length with
          | zero => rfl
          | succ count =>
            rw [count] at same
            simp [replicate_succ] at same
        have divides := (padCount_eq_zero_iff positive).mp none
        rw [none, replicate_zero, nil_append, padCount_add divides] at same
        exact ⟨divides, same⟩
      · rintro ⟨divides, same⟩
        rw [(padCount_eq_zero_iff positive).mpr divides, replicate_zero, nil_append,
          padCount_add divides]
        exact same

section Row

variable (world : World) (row : TokenRow τ)

theorem worldSize_pos : 0 < world.worldSize := Nat.mul_pos world.sp_pos world.rp_pos

theorem endPadded_eq_iff : row.endPadded world = row.slotRow world ↔ PaddedAtEnd world row := by
  by_cases ring : 1 < world.rpWorldSize
  · have positive : 0 < world.worldSize * 2 := Nat.mul_pos (worldSize_pos world) (by decide)
    have iff := flatten_doPad_eq_iff positive row.some row.each
    rw [TokenRow.slotRow, World.blocks, if_pos ring, map_map, TokenRow.endPadded,
      World.padUnit, if_pos ring, eq_comm]
    exact iff.trans ⟨fun divides _ => divides, fun divides => divides ring⟩
  · exact ⟨fun _ isRing => absurd isRing ring, fun _ => endPadded_of_no_ring world row ring⟩

theorem World.padUnit_pos : 0 < world.padUnit := by
  have some := worldSize_pos world
  unfold World.padUnit
  split <;> omega

theorem dvd_length_endPadded : world.padUnit ∣ (row.endPadded world).length := by
  have divides : world.padUnit ∣ (doPad world.padUnit none (row.tokens.map Option.some)).length :=
    dvd_length_doPad world.padUnit_pos _
  rwa [doPad_eq, length_map] at divides

theorem dvd_length_paddedPositionIds : world.padUnit ∣ (row.paddedPositionIds world).length := by
  by_cases several : 1 < world.worldSize
  · exact (isPadded_paddedPositionIds world row several).row
  · have noRing : ¬1 < world.rpWorldSize := fun ring =>
      several (lt_of_lt_of_le ring (Nat.le_mul_of_pos_left _ world.sp_pos))
    have one : world.worldSize = 1 := by
      have positive := worldSize_pos world
      omega
    rw [World.padUnit, if_neg noRing, one]
    exact one_dvd _

theorem length_endPadded_le :
    (row.endPadded world).length ≤ (row.paddedPositionIds world).length := by
  obtain ⟨count, isCount⟩ := dvd_length_endPadded world row
  obtain ⟨others, isOthers⟩ := dvd_length_paddedPositionIds world row
  have covers := length_tokens_le world row
  have small := Nat.mod_lt row.tokens.length world.padUnit_pos
  have few : padCount world.padUnit row.tokens.length < world.padUnit := by
    unfold padCount
    split <;> omega
  have length : (row.endPadded world).length =
      row.tokens.length + padCount world.padUnit row.tokens.length := by
    simp [TokenRow.endPadded]
  by_contra more
  have fewer : others < count := by
    by_contra
    have := Nat.mul_le_mul_left world.padUnit (show count ≤ others by omega)
    omega
  have step := Nat.mul_le_mul_left world.padUnit (show others + 1 ≤ count by omega)
  rw [Nat.mul_succ] at step
  omega

/-- Where the extra values are cut like the other tensors everywhere, all padding is at the end. -/
theorem endPadded_eq_of_localPart
    (same : ∀ rpRank < world.rpWorldSize, ∀ spRank < world.spWorldSize,
      world.localPart (row.paddedPositionIds world) (row.endPadded world) rpRank spRank =
        row.slots world rpRank spRank) :
    row.endPadded world = row.slotRow world := by
  by_cases ring : 1 < world.rpWorldSize
  · have several : 1 < world.worldSize :=
      lt_of_lt_of_le ring (Nat.le_mul_of_pos_left _ world.sp_pos)
    have isPadded := isPadded_paddedPositionIds world row several
    have divides : world.spWorldSize ∣ (row.endPadded world).length := by
      refine Dvd.dvd.trans ?_ (dvd_length_endPadded world row)
      rw [World.padUnit, if_pos ring, World.worldSize, Nat.mul_assoc]
      exact Nat.dvd_mul_right _ _
    have all : world.allParts (world.localPart (row.paddedPositionIds world)
        (row.endPadded world)) = world.allParts (row.slots world) := by
      refine flatMap_congr fun rpRank isRp => flatMap_congr fun spRank isSp => ?_
      exact same rpRank (mem_range.mp isRp) spRank (mem_range.mp isSp)
    have length : (row.endPadded world).length = (row.paddedPositionIds world).length := by
      have extra := (world.perm_localPart row (length_endPadded_le world row) divides).length_eq
      have slots := (perm_slots world row).length_eq
      rw [← extra, all, slots, length_slotRow]
    have parts : localParts (world.group several) (row.paddedPositionIds world)
        (row.endPadded world) =
        localParts (world.group several) (row.paddedPositionIds world) (row.slotRow world) := by
      refine map_congr_left fun rpRank isRp => map_congr_left fun spRank isSp => ?_
      have part := same rpRank (mem_range.mp isRp) spRank (mem_range.mp isSp)
      rwa [TokenRow.slots, World.localPart, World.localPart, dif_pos several,
        dif_pos several] at part
    rw [← gather_localParts none isPadded length, parts,
      gather_localParts none isPadded (length_slotRow world row)]
  · exact endPadded_of_no_ring world row ring

/-! ## Visual tokens -/

variable {ε : Type}

/-- Embeddings are assigned to the visual tokens, and whatever is between them stays. -/
theorem assignMasked_eq_ok (mask : τ → Bool) (embed : τ → ε) {tokens : List τ} {empty : List ε}
    (same : empty.length = tokens.length) :
    ∃ embeds, assignMasked (tokens.map mask) empty ((tokens.filter mask).map embed) = .ok embeds ∧
      embeds.length = tokens.length ∧
      ∀ pair ∈ tokens.zip embeds, mask pair.1 = true → pair.2 = embed pair.1 := by
  induction tokens generalizing empty with
  | nil =>
    rw [length_nil, length_eq_zero_iff] at same
    subst same
    exact ⟨[], rfl, rfl, nofun⟩
  | cons token tokens ih =>
    cases empty with
    | nil => cases same
    | cons item empty =>
      obtain ⟨embeds, assigned, length, each⟩ := ih (Nat.succ.inj same)
      cases isVisual : mask token with
      | true =>
        refine ⟨embed token :: embeds, ?_, congrArg Nat.succ length, ?_⟩
        · rw [map_cons, isVisual, filter_cons_of_pos isVisual, map_cons, assignMasked, assigned]
          rfl
        · exact forall_mem_cons.mpr ⟨fun _ => rfl, each⟩
      | false =>
        refine ⟨item :: embeds, ?_, congrArg Nat.succ length, ?_⟩
        · rw [map_cons, isVisual, filter_cons_of_neg (by simp [isVisual]), assignMasked, assigned]
          rfl
        · exact forall_mem_cons.mpr ⟨fun masked => absurd (isVisual ▸ masked) nofun, each⟩

/-- The sequences of a row with something at each token. -/
theorem exists_zipped (sequences : List (List τ)) {items : List ε}
    (same : items.length = sequences.flatten.length) :
    ∃ zipped : List (List (τ × ε)), zipped.map (map Prod.fst) = sequences ∧
      zipped.flatten = sequences.flatten.zip items := by
  induction sequences generalizing items with
  | nil => exact ⟨[], rfl, rfl⟩
  | cons tokens sequences ih =>
    rw [flatten_cons, length_append] at same
    have rest : (items.drop tokens.length).length = sequences.flatten.length := by
      rw [length_drop]
      omega
    obtain ⟨zipped, isSequences, isFlat⟩ := ih rest
    have length : (items.take tokens.length).length = tokens.length := by
      rw [length_take]
      omega
    refine ⟨tokens.zip (items.take tokens.length) :: zipped, ?_, ?_⟩
    · rw [map_cons, map_fst_zip length.ge, isSequences]
    · conv_rhs => rw [← take_append_drop tokens.length items]
      rw [flatten_cons, isFlat, flatten_cons, zip_append length.symm]

theorem selectMasked_slots {α : Type} (mask : α → Bool) (padding : ε) (embed : α → ε)
    (slots : List (Option α)) :
    selectMasked (slots.map (atSlot false mask)) (slots.map (atSlot padding embed)) =
      .ok ((slots.reduceOption.filter mask).map embed) := by
  have selected : ((slots.map (atSlot false mask)).zip (slots.map (atSlot padding embed))).filterMap
      (fun pair => if pair.1 then some pair.2 else none) =
      (slots.reduceOption.filter mask).map embed := by
    induction slots with
    | nil => rfl
    | cons slot slots ih =>
      cases slot with
      | none => simpa [atSlot] using ih
      | some token =>
        cases isVisual : mask token <;>
          simpa [atSlot, isVisual, reduceOption_cons_of_some] using ih
  rw [selectMasked, if_pos (by simp), selected]

theorem paddedAtEnd_map {σ : Type} (f : τ → σ) :
    PaddedAtEnd world (row.map f) ↔ PaddedAtEnd world row := by
  have lengths : ∀ sequences : List (List τ),
      (∀ tokens ∈ (sequences.map (map f)).dropLast, world.worldSize * 2 ∣ tokens.length) ↔
        ∀ tokens ∈ sequences.dropLast, world.worldSize * 2 ∣ tokens.length := by
    intro sequences
    rw [← map_dropLast, forall_mem_map]
    simp only [length_map]
  exact imp_congr_right fun _ => lengths row.sequences

/-- Each process selects the embeddings of its own visual tokens where the mask is cut like
the embeddings. -/
theorem padAndSplitMmTokens_eq (atEnd : PaddedAtEnd world row) (mask : τ → Bool) (embed : τ → ε)
    (values : PadValues ε) {empty : List ε} (same : empty.length = row.tokens.length)
    (rpRank spRank : ℕ) :
    world.padAndSplitMmTokens rpRank spRank values row.positionIds empty (row.tokens.map mask)
        ((row.tokens.filter mask).map embed) =
      .ok ((row.slots world rpRank spRank).map (atSlot false mask),
        ((row.slots world rpRank spRank).reduceOption.filter mask).map embed) := by
  obtain ⟨embeds, assigned, length, visual⟩ := assignMasked_eq_ok mask embed same
  obtain ⟨zipped, isSequences, isFlat⟩ := exists_zipped row.sequences length
  -- The row of the tokens with the embeddings that they are assigned.
  have someZipped : zipped ≠ [] := by
    rintro rfl
    exact row.some isSequences.symm
  have eachZipped : ∀ pairs ∈ zipped, pairs ≠ [] := by
    rintro pairs isPairs rfl
    have isIn := mem_map_of_mem (f := map Prod.fst) isPairs
    rw [isSequences] at isIn
    exact row.each _ isIn rfl
  let pairs : TokenRow (τ × ε) := ⟨zipped, someZipped, eachZipped⟩
  have isRow : pairs.map Prod.fst = row := eq_of_sequences_eq isSequences
  have positions : pairs.positionIds = row.positionIds := by
    rw [← isRow, TokenRow.positionIds, TokenRow.positionIds, lengths_map]
  have slots : (pairs.slots world rpRank spRank).map (Option.map Prod.fst) =
      row.slots world rpRank spRank := by
    rw [map_slots, isRow]
  have tokens : pairs.tokens.map Prod.fst = row.tokens := by
    change zipped.flatten.map Prod.fst = row.tokens
    rw [isFlat]
    exact map_fst_zip length.ge
  have items : pairs.tokens.map Prod.snd = embeds := by
    change zipped.flatten.map Prod.snd = embeds
    rw [isFlat]
    exact map_snd_zip length.le
  let fields : Fields (τ × ε) ε Bool :=
    ⟨none, some Prod.snd, none, [], none, [(fun pair => mask pair.1, false)]⟩
  have inputs : (⟨none, some embeds, none, [], none, row.positionIds,
      [(row.tokens.map mask, false)]⟩ : SplitInputs ε Bool) = fields.inputs pairs := by
    rw [← items, ← tokens, ← positions, map_map]
    rfl
  have cutAlike : world.localPart (pairs.paddedPositionIds world) (pairs.endPadded world)
      rpRank spRank = pairs.slots world rpRank spRank := by
    have pairsAtEnd : PaddedAtEnd world pairs := by
      rw [← paddedAtEnd_map world pairs Prod.fst, isRow]
      exact atEnd
    rw [(endPadded_eq_iff world pairs).mpr pairsAtEnd, TokenRow.slots]
  have ofPairs : ((pairs.slots world rpRank spRank).reduceOption.filter fun pair =>
      mask pair.1).map Prod.snd =
      ((row.slots world rpRank spRank).reduceOption.filter mask).map embed := by
    rw [← slots, reduceOption_map, filter_map, map_map]
    refine map_congr_left fun pair isPair => ?_
    obtain ⟨isPair, masked⟩ := mem_filter.mp isPair
    have isToken : pair ∈ pairs.tokens := by
      rw [← reduceOption_slotRow world pairs]
      rw [reduceOption_mem_iff] at isPair ⊢
      exact mem_of_mem_localPart world isPair
    exact visual pair (isFlat ▸ isToken : pair ∈ row.sequences.flatten.zip embeds) masked
  have masks : (row.slots world rpRank spRank).map (atSlot false mask) =
      (pairs.slots world rpRank spRank).map (atSlot false fun pair => mask pair.1) := by
    rw [← slots, map_map]
    refine map_congr_left fun slot _ => ?_
    cases slot <;> rfl
  rw [World.padAndSplitMmTokens, assigned]
  change (do
    let outputs ← world.padAndSplitInputs rpRank spRank values
      ⟨none, some embeds, none, [], none, row.positionIds, [(row.tokens.map mask, false)]⟩
    let visualMask := outputs.extraValues.headD []
    let selected ← selectMasked visualMask (outputs.inputEmbeds.getD [])
    .ok (visualMask, selected)) = _
  rw [inputs, padAndSplitInputs_eq, masks, ← ofPairs, ← cutAlike]
  have selected := selectMasked_slots (fun pair : τ × ε => mask pair.1) values.zeroEmbed Prod.snd
    (pairs.slots world rpRank spRank)
  simp only [fields, Option.map_some, map_singleton, Option.getD_some, headD_cons, bind,
    Except.bind, cutAlike, selected]

/-- Where the tensors of a row are cut at the same positions, all padding is at its end. -/
theorem SharesOut.paddedAtEnd {slots : ℕ → ℕ → List (Option τ)}
    (shares : SharesOut world row slots) : PaddedAtEnd world row := by
  rw [← endPadded_eq_iff]
  refine endPadded_eq_of_localPart world row fun rpRank isRp spRank isSp => ?_
  -- Embeddings and extra values that show the slot they are at.
  let fields : Fields τ (Option τ) (Option τ) :=
    ⟨none, some some, none, [], none, [(some, none)]⟩
  have itself : ∀ items : List (Option τ), items.map (atSlot none some) = items := by
    intro items
    conv_rhs => rw [← map_id items]
    refine map_congr_left fun slot _ => ?_
    cases slot <;> rfl
  obtain ⟨outputs, isOutputs, -, isEmbeds, -, isExtra⟩ :=
    shares.each fields ⟨0, none⟩ rpRank isRp spRank isSp
  rw [padAndSplitInputs_eq] at isOutputs
  cases isOutputs
  have embeds : (row.slots world rpRank spRank).map (atSlot none some) =
      (slots rpRank spRank).map (atSlot none some) := Option.some.inj isEmbeds
  have extra : (world.localPart (row.paddedPositionIds world) (row.endPadded world) rpRank
      spRank).map (atSlot none some) = (slots rpRank spRank).map (atSlot none some) :=
    singleton_inj.mp isExtra
  rw [itself, itself] at embeds extra
  rw [extra, embeds]

/-- **When the tensors of a row are cut at the same positions.** -/
theorem sharesOut_iff : (∃ slots, SharesOut world row slots) ↔ PaddedAtEnd world row := by
  constructor
  · rintro ⟨slots, shares⟩
    exact shares.paddedAtEnd world row
  · intro atEnd
    have whole := (endPadded_eq_iff world row).mpr atEnd
    refine ⟨row.slots world, ?_, ?_, ?_⟩
    · intro ε ξ fields values rpRank _ spRank _
      refine ⟨_, padAndSplitInputs_eq world row fields values rpRank spRank, rfl, rfl, rfl, ?_⟩
      rw [whole]
      rfl
    · rw [← reduceOption_slotRow world row]
      exact (perm_slots world row).filterMap id
    · intro ε mask embed values empty same rpRank _ spRank _
      exact padAndSplitMmTokens_eq world row atEnd mask embed values same rpRank spRank

end Row

/-- A ring of two processes pads the first of these sequences. -/
def paddedFirst : TokenRow ℕ where
  sequences := [[0], [1, 2, 3, 4]]
  some := by decide
  each := by decide

/-- The second token of the row is where the padding of the first sequence belongs. -/
theorem not_sharesOut_paddedFirst : ¬ ∃ slots, SharesOut ringOfTwo paddedFirst slots := by
  rintro ⟨slots, shares⟩
  have atEnd := shares.paddedAtEnd ringOfTwo paddedFirst
  exact absurd atEnd (by decide)

end Geobench.Trainers
