import Mathlib.Analysis.Real.Sqrt

/-!
# The deviation of a list of numbers

The sample variance of a list of numbers, and the standard deviation, its square root.
The standard deviation is positive exactly when the variance is (`sampleStd_pos_iff`), and
this is so exactly when two of the numbers differ (`sampleVariance_pos_iff`).
-/

namespace Geobench.Library

open List

/-! ## Numerals -/

instance atLeastTwo_four : Nat.AtLeastTwo 4 := ⟨by decide⟩

instance atLeastTwo_ten : Nat.AtLeastTwo 10 := ⟨by decide⟩

/-! ## Mean and variance -/

universe u

variable {K : Type u} [Field K]

def mean (values : List K) : K := values.sum / values.length

def squaredDistances (values : List K) : List K :=
  values.map fun value => (value - mean values) * (value - mean values)

def sampleVariance (values : List K) : K :=
  (squaredDistances values).sum / (values.length - 1)

variable {values : List K}

theorem mean_of_all_eq [CharZero K] {value : K} (member : value ∈ values)
    (same : ∀ other ∈ values, other = value) : mean values = value := by
  have copies : values = replicate values.length value :=
    eq_replicate_iff.mpr ⟨rfl, same⟩
  have some : (values.length : K) ≠ 0 :=
    Nat.cast_ne_zero.mpr (length_pos_of_mem member).ne'
  rw [mean, copies, sum_replicate, length_replicate, nsmul_eq_mul, mul_div_cancel_left₀ _ some]

variable {others : List K}

theorem mean_perm (rearranged : values.Perm others) : mean values = mean others := by
  rw [mean, mean, rearranged.sum_eq, rearranged.length_eq]

theorem squaredDistances_perm (rearranged : values.Perm others) :
    (squaredDistances values).Perm (squaredDistances others) := by
  rw [squaredDistances, squaredDistances, mean_perm rearranged]
  exact rearranged.map _

/-- The variance does not depend on the order of the numbers. -/
theorem sampleVariance_perm (rearranged : values.Perm others) :
    sampleVariance values = sampleVariance others := by
  rw [sampleVariance, sampleVariance, (squaredDistances_perm rearranged).sum_eq,
    rearranged.length_eq]

variable [LinearOrder K] [IsStrictOrderedRing K]

theorem squaredDistances_nonneg (values : List K) :
    ∀ square ∈ squaredDistances values, 0 ≤ square := by
  intro square isSquare
  obtain ⟨value, -, rfl⟩ := mem_map.mp isSquare
  exact mul_self_nonneg _

omit [Field K] [LinearOrder K] [IsStrictOrderedRing K] in
theorem one_lt_length_of_ne {first second : K} (isFirst : first ∈ values)
    (isSecond : second ∈ values) (different : first ≠ second) : 1 < values.length := by
  by_contra few
  obtain ⟨only, rfl⟩ := length_eq_one_iff.mp
    (Nat.le_antisymm (Nat.le_of_not_lt few) (length_pos_of_mem isFirst))
  exact different ((mem_singleton.mp isFirst).trans (mem_singleton.mp isSecond).symm)

/-- The sample variance is positive exactly when two numbers differ. -/
theorem sampleVariance_pos_iff (values : List K) :
    0 < sampleVariance values ↔ ∃ first ∈ values, ∃ second ∈ values, first ≠ second := by
  constructor
  · intro positive
    by_contra same
    push Not at same
    have zero : sampleVariance values = 0 := by
      have squares : ∀ square ∈ squaredDistances values, square = 0 := by
        intro square isSquare
        obtain ⟨value, member, rfl⟩ := mem_map.mp isSquare
        rw [mean_of_all_eq member fun other isOther => same other isOther value member,
          sub_self, mul_zero]
      rw [sampleVariance, sum_eq_zero squares, zero_div]
    exact (lt_irrefl _ (zero ▸ positive)).elim
  · rintro ⟨first, isFirst, second, isSecond, different⟩
    have divisor : (0 : K) < values.length - 1 := by
      rw [sub_pos]
      exact_mod_cast one_lt_length_of_ne isFirst isSecond different
    refine div_pos ?_ divisor
    obtain ⟨value, member, distant⟩ : ∃ value ∈ values, value ≠ mean values := by
      by_contra near
      push Not at near
      exact different ((near first isFirst).trans (near second isSecond).symm)
    have square : (value - mean values) * (value - mean values) ∈ squaredDistances values :=
      mem_map_of_mem member
    calc 0 < (value - mean values) * (value - mean values) :=
          mul_self_pos.mpr (sub_ne_zero.mpr distant)
      _ ≤ (squaredDistances values).sum :=
          single_le_sum (squaredDistances_nonneg values) _ square

/-- The sample standard deviation. -/
noncomputable def sampleStd (values : List ℚ) : ℝ := Real.sqrt (sampleVariance values : ℚ)

theorem sampleStd_pos_iff (values : List ℚ) : 0 < sampleStd values ↔ 0 < sampleVariance values := by
  rw [sampleStd, Real.sqrt_pos, Rat.cast_pos]

end Geobench.Library
