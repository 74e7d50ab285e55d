import Mathlib.Algebra.Ring.Nat
import Sandbox.Number.Binary64

/-!
Rounding.

A rounded quotient is at most half of the divisor away from the dividend
(`roundHalfEven_error`), keeps the order (`roundHalfEven_mono`), and is the quotient itself
where nothing is left over (`roundHalfEven_mul`). A natural that is rounded to a significand
below `2 ^ 53` has all this from the power of two that it is rounded to a multiple of, and
keeps its order also where that power changes: a power of two lies between two naturals that
are rounded to multiples of different ones (`nearestSignificand_mono`).
-/

namespace Sandbox

variable {num num' den n m k : Nat}

/-! ### Quotients -/

/-- A quotient is rounded down or up. -/
theorem roundHalfEven_cases (num den : Nat) :
    (roundHalfEven num den = num / den ∧ 2 * (num % den) ≤ den) ∨
      (roundHalfEven num den = num / den + 1 ∧ den ≤ 2 * (num % den)) := by
  unfold roundHalfEven
  dsimp only
  split
  case isTrue down => exact .inl ⟨rfl, by omega⟩
  case isFalse up => exact .inr ⟨rfl, by omega⟩

/-- What is lost by rounding is at most half of the divisor. -/
theorem roundHalfEven_error (num : Nat) (pos : 0 < den) :
    2 * num ≤ 2 * (roundHalfEven num den * den) + den ∧ 2 * (roundHalfEven num den * den) ≤ 2 * num + den := by
  have whole := Nat.div_add_mod' num den
  have rest := Nat.mod_lt num pos
  rcases roundHalfEven_cases num den with ⟨down, little⟩ | ⟨up, much⟩
  · rw [down]
    omega
  · have next : (num / den + 1) * den = num / den * den + den := Nat.add_one_mul _ _
    rw [up]
    omega

theorem roundHalfEven_mul (k : Nat) (pos : 0 < den) : roundHalfEven (k * den) den = k := by
  rw [roundHalfEven, Nat.mul_div_cancel k pos, Nat.mul_mod_left]
  exact if_pos (.inl pos)

/-- A larger dividend is not rounded to less. -/
theorem roundHalfEven_mono (den : Nat) (le : num ≤ num') : roundHalfEven num den ≤ roundHalfEven num' den := by
  have whole := Nat.div_add_mod' num den
  have whole' := Nat.div_add_mod' num' den
  rcases Nat.lt_or_eq_of_le (Nat.div_le_div_right (c := den) le) with less | same
  · have up : roundHalfEven num den ≤ num / den + 1 := by
      rcases roundHalfEven_cases num den with ⟨eq, -⟩ | ⟨eq, -⟩ <;> omega
    have down : num' / den ≤ roundHalfEven num' den := by
      rcases roundHalfEven_cases num' den with ⟨eq, -⟩ | ⟨eq, -⟩ <;> omega
    omega
  · -- With one quotient, it is the remainder that decides.
    have rest : num % den ≤ num' % den := by
      rw [same] at whole
      omega
    unfold roundHalfEven
    dsimp only
    rw [same]
    split <;> split <;> omega

/-- What is at most a multiple is rounded to at most that multiple. -/
theorem roundHalfEven_le (pos : 0 < den) (le : num ≤ k * den) : roundHalfEven num den ≤ k := by
  have mono := roundHalfEven_mono den le
  rwa [roundHalfEven_mul k pos] at mono

/-- What is at least a multiple is rounded to at least that multiple. -/
theorem le_roundHalfEven (pos : 0 < den) (le : k * den ≤ num) : k ≤ roundHalfEven num den := by
  have mono := roundHalfEven_mono den le
  rwa [roundHalfEven_mul k pos] at mono

/-! ### Naturals -/

/-- A natural is rounded to a multiple of a power of two, which is one below `2 ^ 53`. -/
theorem nearestSignificand_eq (n : Nat) :
    nearestSignificand n = roundHalfEven n (2 ^ (n.log2 - 52)) * 2 ^ (n.log2 - 52) :=
  rfl

theorem log2_le_of_lt (lt : n < 2 ^ (k + 1)) : n.log2 ≤ k := by
  by_cases zero : n = 0
  · rw [zero]
    exact Nat.zero_le k
  · exact Nat.le_of_lt_succ ((Nat.log2_lt zero).mpr lt)

theorem nearestSignificand_of_lt (small : n < 2 ^ 53) : nearestSignificand n = n := by
  have one : n.log2 - 52 = 0 := Nat.sub_eq_zero_of_le (log2_le_of_lt small)
  have whole := roundHalfEven_mul n Nat.one_pos
  rw [Nat.mul_one] at whole
  rw [nearestSignificand_eq, one, Nat.pow_zero, whole, Nat.mul_one]

/-- A natural of 64 bits has at most eleven bits too many, and is rounded by at most half
of what these can hold. -/
theorem nearestSignificand_error (fits : n < 2 ^ 64) :
    n ≤ nearestSignificand n + 1024 ∧ nearestSignificand n ≤ n + 1024 := by
  have surplus : n.log2 - 52 ≤ 11 := by
    have := log2_le_of_lt fits
    omega
  have unit : 2 ^ (n.log2 - 52) ≤ 2 ^ 11 := Nat.pow_le_pow_right (by decide) surplus
  have error := roundHalfEven_error n (Nat.two_pow_pos (n.log2 - 52))
  rw [← nearestSignificand_eq] at error
  omega

/-- No natural is rounded past a power of two. -/
theorem nearestSignificand_le_two_pow (le : n ≤ 2 ^ k) : nearestSignificand n ≤ 2 ^ k := by
  have below : n.log2 - 52 ≤ k := by
    have : n.log2 ≤ k := log2_le_of_lt (Nat.lt_of_le_of_lt le (Nat.pow_lt_pow_succ (by decide)))
    omega
  have multiple : 2 ^ (k - (n.log2 - 52)) * 2 ^ (n.log2 - 52) = 2 ^ k := by
    rw [← Nat.pow_add, Nat.sub_add_cancel below]
  rw [← multiple] at le ⊢
  exact Nat.mul_le_mul_right _ (roundHalfEven_le (Nat.two_pow_pos _) le)

@[inherit_doc nearestSignificand_le_two_pow]
theorem two_pow_le_nearestSignificand (le : 2 ^ k ≤ n) : 2 ^ k ≤ nearestSignificand n := by
  have nonzero : n ≠ 0 := Nat.ne_of_gt (Nat.lt_of_lt_of_le (Nat.two_pow_pos k) le)
  have multiple : 2 ^ (n.log2 - (n.log2 - 52)) * 2 ^ (n.log2 - 52) = 2 ^ n.log2 := by
    rw [← Nat.pow_add, Nat.sub_add_cancel (Nat.sub_le _ _)]
  have greatest : 2 ^ k ≤ 2 ^ n.log2 := Nat.pow_le_pow_right (by decide) ((Nat.le_log2 nonzero).mpr le)
  have reached := Nat.log2_self_le nonzero
  refine Nat.le_trans greatest ?_
  rw [← multiple] at reached ⊢
  exact Nat.mul_le_mul_right _ (le_roundHalfEven (Nat.two_pow_pos _) reached)

/-- A larger natural is not rounded to less. -/
theorem nearestSignificand_mono (le : n ≤ m) : nearestSignificand n ≤ nearestSignificand m := by
  by_cases zero : m = 0
  · subst zero
    obtain rfl := Nat.le_zero.mp le
    exact Nat.le_refl _
  by_cases less : n < 2 ^ m.log2
  · -- A power of two lies between the two.
    exact Nat.le_trans (nearestSignificand_le_two_pow (Nat.le_of_lt less))
      (two_pow_le_nearestSignificand (Nat.log2_self_le zero))
  · have nonzero : n ≠ 0 := by
      rintro rfl
      exact less (Nat.two_pow_pos _)
    have same : n.log2 = m.log2 := by
      apply Nat.le_antisymm
      · exact log2_le_of_lt (Nat.lt_of_le_of_lt le Nat.lt_log2_self)
      · exact (Nat.le_log2 nonzero).mpr (Nat.not_lt.mp less)
    rw [nearestSignificand_eq, nearestSignificand_eq, same]
    exact Nat.mul_le_mul_right _ (roundHalfEven_mono _ le)

end Sandbox
