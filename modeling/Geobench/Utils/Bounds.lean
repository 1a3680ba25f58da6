import Mathlib

/-!
# Searching a threshold by bisection

`lowerBound` searches the first number of an interval from which a condition holds, and
`upperBound` the last one up to which it does. The two loops round the middle in opposite
directions, so that each is the other on the negated interval (`upperBound_eq`).

A search gives the arguments of its calls of the condition beside the result. Its recursion is
on the length of the interval, also when the bounds are negative.

**`bounds_spec`**: the results are the least and the greatest number asked for, no call leaves
the interval, and there are at most as many calls as there are numbers in it.
-/

namespace Geobench.Utils

open List

/-- `>> 1` rounds down, also for negative numbers. -/
theorem shiftRight_one (sum : ℤ) : sum >>> (1 : ℕ) = sum / 2 := Int.shiftRight_eq_div_pow sum 1

/-- The lower bound satisfying the condition, and the calls of the condition. -/
def lowerBound (lo hi : ℤ) (cond : ℤ → Bool) : ℤ × List ℤ :=
  if lo < hi then
    let mid := (lo + hi) >>> (1 : ℕ)
    let found := if cond mid then lowerBound lo mid cond else lowerBound (mid + 1) hi cond
    (found.1, mid :: found.2)
  else (lo, [])
termination_by (hi - lo).toNat
decreasing_by all_goals rw [shiftRight_one]; omega

/-- The upper bound satisfying the condition, and the calls of the condition. -/
def upperBound (lo hi : ℤ) (cond : ℤ → Bool) : ℤ × List ℤ :=
  if lo < hi then
    let mid := (lo + hi + 1) >>> (1 : ℕ)
    let found := if cond mid then upperBound mid hi cond else upperBound lo (mid - 1) cond
    (found.1, mid :: found.2)
  else (lo, [])
termination_by (hi - lo).toNat
decreasing_by all_goals rw [shiftRight_one]; omega

/-! ## What is searched -/

/-- The number is the least one of the interval that satisfies the condition, or its end. -/
def IsLowerBound (lo hi : ℤ) (cond : ℤ → Bool) (found : ℤ) : Prop :=
  IsLeast (insert hi {i | lo ≤ i ∧ i < hi ∧ cond i = true}) found

/-- The number is the greatest one of the interval that satisfies the condition, or its start. -/
def IsUpperBound (lo hi : ℤ) (cond : ℤ → Bool) (found : ℤ) : Prop :=
  IsGreatest (insert lo {i | lo < i ∧ i ≤ hi ∧ cond i = true}) found

/-! ## The lower bound -/

variable {lo hi : ℤ} {cond : ℤ → Bool}

theorem lowerBound_of_lt (nonempty : lo < hi) :
    lowerBound lo hi cond =
      let found := if cond ((lo + hi) / 2) then lowerBound lo ((lo + hi) / 2) cond
        else lowerBound ((lo + hi) / 2 + 1) hi cond
      (found.1, (lo + hi) / 2 :: found.2) := by
  rw [lowerBound, if_pos nonempty]
  simp only [shiftRight_one]

/-- The induction is on the length of the interval. -/
theorem lowerBound_isLowerBound (ordered : lo ≤ hi) (monotone : MonotoneOn cond (Set.Icc lo hi)) :
    IsLowerBound lo hi cond (lowerBound lo hi cond).1 := by
  induction length : (hi - lo).toNat using Nat.strong_induction_on generalizing lo hi with
  | _ length ih =>
    rcases ordered.lt_or_eq with nonempty | rfl
    · have before : (lo + hi) / 2 < hi := by omega
      have after : lo ≤ (lo + hi) / 2 := by omega
      rw [lowerBound_of_lt nonempty]
      by_cases holds : cond ((lo + hi) / 2) = true
      · obtain ⟨found, least⟩ := ih _ (by omega) after
          (monotone.mono (Set.Icc_subset_Icc_right before.le)) rfl
        simp only [holds, if_true]
        refine ⟨?_, ?_⟩
        · rcases found with isMiddle | ⟨from_lo, to_middle, isFound⟩
          · rw [isMiddle]
            exact .inr ⟨after, before, holds⟩
          · exact .inr ⟨from_lo, to_middle.trans before, isFound⟩
        · rintro other (rfl | ⟨from_lo, -, isOther⟩)
          · exact (least (.inl rfl)).trans before.le
          · rcases Int.lt_or_le other ((lo + hi) / 2) with inFirst | inSecond
            · exact least (.inr ⟨from_lo, inFirst, isOther⟩)
            · exact (least (.inl rfl)).trans inSecond
      · obtain ⟨found, least⟩ := ih _ (by omega) (by omega : (lo + hi) / 2 + 1 ≤ hi)
          (monotone.mono (Set.Icc_subset_Icc_left (by omega))) rfl
        simp only [holds, Bool.false_eq_true, if_false]
        refine ⟨?_, ?_⟩
        · rcases found with isEnd | ⟨from_middle, to_hi, isFound⟩
          · exact .inl isEnd
          · exact .inr ⟨by omega, to_hi, isFound⟩
        · rintro other (rfl | ⟨from_lo, to_hi, isOther⟩)
          · exact least (.inl rfl)
          · -- A number that satisfies the condition is not below the middle, which does not.
            refine least (.inr ⟨Int.add_one_le_of_lt (lt_of_not_ge fun below => holds ?_), to_hi,
              isOther⟩)
            exact monotone ⟨from_lo, to_hi.le⟩ ⟨after, before.le⟩ below isOther
    · rw [lowerBound, if_neg (lt_irrefl _)]
      refine ⟨.inl rfl, ?_⟩
      rintro other (rfl | ⟨from_lo, -, -⟩)
      · exact le_rfl
      · exact from_lo

theorem lowerBound_calls (ordered : lo ≤ hi) :
    ((lowerBound lo hi cond).2.length : ℤ) ≤ hi - lo ∧
      ∀ call ∈ (lowerBound lo hi cond).2, lo ≤ call ∧ call < hi := by
  induction length : (hi - lo).toNat using Nat.strong_induction_on generalizing lo hi with
  | _ length ih =>
    rcases ordered.lt_or_eq with nonempty | rfl
    · rw [lowerBound_of_lt nonempty]
      simp only [length_cons, forall_mem_cons]
      split
      · obtain ⟨few, inside⟩ := ih _ (by omega) (by omega : lo ≤ (lo + hi) / 2) rfl
        refine ⟨by push_cast; omega, by omega, fun call isCall => ?_⟩
        have := inside call isCall
        omega
      · obtain ⟨few, inside⟩ := ih _ (by omega) (by omega : (lo + hi) / 2 + 1 ≤ hi) rfl
        refine ⟨by push_cast; omega, by omega, fun call isCall => ?_⟩
        have := inside call isCall
        omega
    · rw [lowerBound, if_neg (lt_irrefl _)]
      exact ⟨by simp, fun call isCall => absurd isCall not_mem_nil⟩

/-! ## The upper bound -/

theorem upperBound_of_lt (nonempty : lo < hi) :
    upperBound lo hi cond =
      let found := if cond ((lo + hi + 1) / 2) then upperBound ((lo + hi + 1) / 2) hi cond
        else upperBound lo ((lo + hi + 1) / 2 - 1) cond
      (found.1, (lo + hi + 1) / 2 :: found.2) := by
  rw [upperBound, if_pos nonempty]
  simp only [shiftRight_one]

/-- The upper bound is the lower bound on the negated interval. -/
theorem upperBound_eq (lo hi : ℤ) (cond : ℤ → Bool) :
    upperBound lo hi cond =
      let found := lowerBound (-hi) (-lo) fun i => cond (-i)
      (if lo ≤ hi then -found.1 else lo, found.2.map (- ·)) := by
  induction length : (hi - lo).toNat using Nat.strong_induction_on generalizing lo hi with
  | _ length ih =>
    by_cases nonempty : lo < hi
    · have middle : (-hi + -lo) / 2 = -((lo + hi + 1) / 2) := by omega
      rw [upperBound_of_lt nonempty, lowerBound_of_lt (Int.neg_lt_neg nonempty), middle, neg_neg]
      dsimp only
      split
      · rw [ih _ (by omega) ((lo + hi + 1) / 2) hi rfl, if_pos nonempty.le]
        dsimp only
        rw [if_pos (by omega), map_cons, neg_neg]
      · have next : -((lo + hi + 1) / 2) + 1 = -((lo + hi + 1) / 2 - 1) := by omega
        rw [ih _ (by omega) lo ((lo + hi + 1) / 2 - 1) rfl, if_pos nonempty.le, next]
        dsimp only
        rw [if_pos (by omega), map_cons, neg_neg]
    · rw [upperBound, if_neg nonempty, lowerBound, if_neg (by omega)]
      simp only [neg_neg, map_nil, Prod.mk.injEq, and_true]
      split <;> omega

theorem isUpperBound_of_neg {found : ℤ}
    (isLower : IsLowerBound (-hi) (-lo) (fun i => cond (-i)) found) :
    IsUpperBound lo hi cond (-found) := by
  obtain ⟨isFound, least⟩ := isLower
  refine ⟨?_, ?_⟩
  · rcases isFound with rfl | ⟨from_hi, to_lo, holds⟩
    · exact .inl (neg_neg lo)
    · exact .inr ⟨by omega, by omega, holds⟩
  · rintro other (rfl | ⟨from_lo, to_hi, holds⟩)
    · exact le_neg_of_le_neg (least (.inl rfl))
    · refine le_neg_of_le_neg (least (.inr ⟨Int.neg_le_neg to_hi, Int.neg_lt_neg from_lo, ?_⟩))
      change cond (- -other) = true
      rwa [neg_neg]

/-- **Both searches find what they are asked for, with calls only inside the interval.** -/
theorem bounds_spec (lo hi : ℤ) (ordered : lo ≤ hi) (cond : ℤ → Bool) :
    (MonotoneOn cond (Set.Icc lo hi) →
      IsLowerBound lo hi cond (lowerBound lo hi cond).1 ∧
        ((lowerBound lo hi cond).2.length : ℤ) ≤ hi - lo ∧
        ∀ call ∈ (lowerBound lo hi cond).2, call ∈ Set.Ico lo hi) ∧
    (AntitoneOn cond (Set.Icc lo hi) →
      IsUpperBound lo hi cond (upperBound lo hi cond).1 ∧
        ((upperBound lo hi cond).2.length : ℤ) ≤ hi - lo ∧
        ∀ call ∈ (upperBound lo hi cond).2, call ∈ Set.Ioc lo hi) := by
  refine ⟨fun monotone => ⟨lowerBound_isLowerBound ordered monotone, lowerBound_calls ordered⟩,
    fun antitone => ?_⟩
  have negated : MonotoneOn (fun i => cond (-i)) (Set.Icc (-hi) (-lo)) :=
    fun first isFirst second isSecond le =>
      antitone ⟨by have := isSecond.2; omega, by have := isSecond.1; omega⟩
        ⟨by have := isFirst.2; omega, by have := isFirst.1; omega⟩ (Int.neg_le_neg le)
  obtain ⟨few, inside⟩ := @lowerBound_calls _ _ (fun i => cond (-i)) (Int.neg_le_neg ordered)
  rw [upperBound_eq]
  dsimp only
  refine ⟨?_, ?_, ?_⟩
  · rw [if_pos ordered]
    exact isUpperBound_of_neg (lowerBound_isLowerBound (Int.neg_le_neg ordered) negated)
  · rw [length_map]
    omega
  · rintro call isCall
    obtain ⟨other, isOther, rfl⟩ := mem_map.mp isCall
    obtain ⟨from_hi, to_lo⟩ := inside other isOther
    exact ⟨by omega, by omega⟩

/-- A condition that holds from minus two on. -/
theorem bounds_spec_negative :
    (-5 : ℤ) ≤ 3 ∧
      IsLowerBound (-5) 3 (fun i => decide (-2 ≤ i))
        (lowerBound (-5) 3 fun i => decide (-2 ≤ i)).1 :=
  ⟨by decide, ((bounds_spec (-5) 3 (by decide) fun i => decide (-2 ≤ i)).1
    fun _ _ _ _ le holds => decide_eq_true ((of_decide_eq_true holds).trans le)).1⟩

end Geobench.Utils
