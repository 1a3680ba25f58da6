import Geobench.Trainers.SplitInputs

/-!
# Labels of the tokens that follow

The labels and the loss scales of a row are put one place to the left before the row is split, over
the ends of its sequences. Where the first token of each sequence is ignored, this makes no
difference: **`trainsOnFollowing`** says that each process has the labels of the tokens that follow
its own in their sequences, and that no supervised token is lost or trained on twice.
-/

namespace Geobench.Trainers

open Library List

variable {τ : Type}

/-! ## Training -/

/-- The tensors that a row is trained with. -/
def trainingFields (inputId label : τ → ℤ) (lossScale : τ → ℚ) : Fields τ Unit Unit where
  inputId := some inputId
  inputEmbed := none
  label := some label
  positionIds := []
  lossScale := some lossScale
  extraSplitValues := []

/-- A loss scale is the one of the token that follows in the same sequence. -/
def ScalesFollowing (lossScale : τ → ℚ) (slot : Option (τ × Option τ)) (scale : ℚ) : Prop :=
  ∀ token following, slot = some (token, some following) → scale = lossScale following

/-- What a process has of a row are slots: their tokens, the labels that follow them, and the loss
scales that do. -/
structure TrainsOn (world : World) (row : TokenRow τ) (inputId label : τ → ℤ) (lossScale : τ → ℚ)
    (padTokenId : ℤ) (rpRank spRank : ℕ) (slots : List (Option (τ × Option τ))) : Prop where
  outputs : ∃ scales, List.Forall₂ (ScalesFollowing lossScale) slots scales ∧
    world.padAndSplitInputs rpRank spRank ⟨padTokenId, ()⟩
      ((trainingFields inputId label lossScale).inputs row) = .ok
        { inputIds := some (slots.map (atSlot padTokenId fun pair => inputId pair.1))
          inputEmbeds := none
          labels := some (slots.map (followingLabel label))
          positionIds := []
          lossScale := some scales
          extraValues := [] }
  prepared : world.prepareInputs rpRank spRank padTokenId row.positionIds
    (row.tokens.map label) = .ok (some (slots.map (followingLabel label)))

/-- The processes share the slots of a row: each has its own to train on, no token is lost or at
two processes, and each supervised token is one whose label some process has. -/
structure TrainsFollowing (world : World) (row : TokenRow τ) (inputId label : τ → ℤ)
    (lossScale : τ → ℚ) (padTokenId : ℤ) (slots : ℕ → ℕ → List (Option (τ × Option τ))) :
    Prop where
  each : ∀ rpRank < world.rpWorldSize, ∀ spRank < world.spWorldSize,
    TrainsOn world row inputId label lossScale padTokenId rpRank spRank (slots rpRank spRank)
  tokens : (world.allParts slots).reduceOption.Perm (row.sequences.flatMap withNext)
  supervised : (((world.allParts slots).filterMap fun slot => slot.bind Prod.snd).filter
    fun token => label token ≠ -100).Perm (row.tokens.filter fun token => label token ≠ -100)

/-! ## Slots and the tokens that follow them -/

theorem IsNext.followingLabel_eq {row : TokenRow τ} {label : τ → ℤ}
    (ignored : FirstIgnored row label) {slot : Option (τ × Option τ)} {next : Option τ}
    (isNext : IsNext row.sequences slot next) :
    followingLabel label slot = atSlot (-100) label next := by
  have last : (∀ token following, slot ≠ some (token, some following)) →
      atSlot (-100) label next = -100 := by
    intro isLast
    cases next with
    | none => rfl
    | some token =>
      obtain ⟨tokens, isTokens, isHead⟩ := isNext.ends isLast token rfl
      exact ignored tokens isTokens token isHead
  match slot with
  | none => exact (last nofun).symm
  | some (token, none) => exact (last nofun).symm
  | some (token, some following) => rw [isNext.follows token following rfl]; rfl

section Row

variable (world : World) (row : TokenRow τ)

theorem map_followingLabel {label : τ → ℤ} (ignored : FirstIgnored row label)
    (rpRank spRank : ℕ) :
    (row.followed.slots world rpRank spRank).map (followingLabel label) =
      (row.nextSlots world rpRank spRank).map (atSlot (-100) label) := by
  have related := forall₂_nextSlots world row rpRank spRank
  rw [← forall₂_eq_eq_eq, forall₂_map_left_iff, forall₂_map_right_iff]
  exact related.imp fun _ _ isNext => isNext.followingLabel_eq ignored

theorem map_fst_slots (rpRank spRank : ℕ) :
    (row.followed.slots world rpRank spRank).map (Option.map Prod.fst) =
      row.slots world rpRank spRank := by
  have sequences : row.followed.sequences.map (map Prod.fst) = row.sequences := by
    rw [TokenRow.followed, map_map]
    conv_rhs => rw [← map_id row.sequences]
    exact map_congr_left fun tokens _ => map_fst_withNext tokens
  have isRow : row.followed.map Prod.fst = row := eq_of_sequences_eq sequences
  rw [map_slots, isRow]

/-- The tokens that follow another one are all but the first of each sequence. -/
theorem filterMap_snd_followed :
    row.followed.tokens.filterMap Prod.snd = row.sequences.flatMap List.tail := by
  have each : ∀ tokens : List τ, (withNext tokens).filterMap Prod.snd = tokens.tail := by
    intro tokens
    fun_induction withNext tokens with
    | case1 => rfl
    | case2 token => rfl
    | case3 token next rest ih => simpa using ih
  rw [TokenRow.tokens, TokenRow.followed, filterMap_flatten, map_map, flatMap_def]
  congr 1
  exact map_congr_left fun tokens _ => each tokens

theorem filter_tail {label : τ → ℤ} (ignored : FirstIgnored row label) :
    (row.sequences.flatMap List.tail).filter (fun token => label token ≠ -100) =
      row.tokens.filter fun token => label token ≠ -100 := by
  rw [TokenRow.tokens, List.filter_flatMap, filter_flatten, flatMap_def]
  congr 1
  refine map_congr_left fun tokens isTokens => ?_
  cases tokens with
  | nil => rfl
  | cons token rest =>
    have isIgnored := ignored _ isTokens token rfl
    rw [filter_cons_of_neg (by simp [isIgnored])]
    rfl

/-- **Each process is trained on the labels of the tokens that follow its own**, and each
supervised token is trained on once. -/
theorem trainsOnFollowing (inputId : τ → ℤ) {label : τ → ℤ} (lossScale : τ → ℚ) (padTokenId : ℤ)
    (ignored : FirstIgnored row label) :
    ∃ slots, TrainsFollowing world row inputId label lossScale padTokenId slots := by
  have shared : (world.allParts (row.followed.slots world)).reduceOption.Perm
      row.followed.tokens := by
    rw [← reduceOption_slotRow world]
    exact (perm_slots world row.followed).filterMap id
  refine ⟨row.followed.slots world, fun rpRank _ spRank _ => ⟨?_, ?_⟩, ?_, ?_⟩
  · refine ⟨(row.nextSlots world rpRank spRank).map (atSlot 0 lossScale), ?_, ?_⟩
    · rw [forall₂_map_right_iff]
      refine (forall₂_nextSlots world row rpRank spRank).imp fun slot next isNext => ?_
      intro token following isSlot
      rw [isNext.follows token following isSlot]
      rfl
    · have inputIds : (row.followed.slots world rpRank spRank).map
          (atSlot padTokenId fun pair => inputId pair.1) =
          (row.slots world rpRank spRank).map (atSlot padTokenId inputId) := by
        rw [← map_fst_slots world row, map_map]
        refine map_congr_left fun slot _ => ?_
        cases slot <;> rfl
      rw [padAndSplitInputs_eq, inputIds, map_followingLabel world row ignored]
      rfl
  · have inputs : (⟨none, none, some (row.tokens.map label), [], none, row.positionIds, []⟩ :
        SplitInputs Unit Unit) =
        (⟨none, none, some label, [], none, []⟩ : Fields τ Unit Unit).inputs row := rfl
    rw [World.prepareInputs, inputs, padAndSplitInputs_eq, map_followingLabel world row ignored]
    rfl
  · rw [flatMap_def]
    exact shared
  · have followers := (shared.filterMap Prod.snd).filter fun token => label token ≠ -100
    rw [filterMap_snd_followed, filter_tail row ignored, reduceOption_eq_filterMap,
      filterMap_filterMap] at followers
    exact followers

end Row

def twoSequences : TokenRow ℤ where
  sequences := [[-100, 7], [-100, 8, 9]]
  some := by decide
  each := by decide

theorem trainsOnFollowing_twoSequences :
    ∃ slots, TrainsFollowing ringOfTwo twoSequences id id (fun _ => 1) 0 slots :=
  trainsOnFollowing ringOfTwo twoSequences id (fun _ => 1) 0 (by decide)

end Geobench.Trainers
