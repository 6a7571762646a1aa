import Mathlib.Algebra.Order.Ring.Int
import Mathlib.Data.Int.ModEq
import Mathlib.Tactic.Ring

/-!
# Arithmetic progressions modulo a number

Two progressions with one stride meet where their starts differ by a multiple of
the factor that the stride shares with the modulus, and then at places a fixed
lag apart, modulo the rest of it.
-/

namespace Mqss.Progressions

variable {factor stride inverse period : ℤ}

/-- A congruence is solved by the inverse of its coefficient. -/
theorem solve_iff (unit : stride * inverse ≡ 1 [ZMOD period]) {x q : ℤ} :
    stride * x ≡ q [ZMOD period] ↔ x ≡ q * inverse [ZMOD period] := by
  constructor
  · intro solves
    calc x = 1 * x := (one_mul x).symm
      _ ≡ stride * inverse * x [ZMOD period] := unit.symm.mul_right x
      _ = stride * x * inverse := by ring
      _ ≡ q * inverse [ZMOD period] := solves.mul_right inverse
  · intro solution
    calc stride * x ≡ stride * (q * inverse) [ZMOD period] := solution.mul_left stride
      _ = q * (stride * inverse) := by ring
      _ ≡ q * 1 [ZMOD period] := unit.mul_left q
      _ = q := mul_one q

/-- Where two progressions meet. -/
theorem meet_iff (nonzero : factor ≠ 0) (unit : stride * inverse ≡ 1 [ZMOD period]) {a b i j : ℤ} :
    factor * stride * i + a ≡ factor * stride * j + b [ZMOD factor * period] ↔
      factor ∣ b - a ∧ i - j ≡ (b - a) / factor * inverse [ZMOD period] := by
  rw [← solve_iff unit]
  have gap : factor * stride * j + b - (factor * stride * i + a) = b - a - factor * (stride * (i - j)) := by ring
  rw [Int.modEq_iff_dvd, gap]
  constructor
  · intro meets
    have shared : factor ∣ b - a := by
      have both := Int.dvd_add ((dvd_mul_right factor period).trans meets) (dvd_mul_right factor (stride * (i - j)))
      rwa [sub_add_cancel] at both
    obtain ⟨q, start⟩ := shared
    refine ⟨⟨q, start⟩, ?_⟩
    rw [start, ← mul_sub] at meets
    rw [start, Int.mul_ediv_cancel_left q nonzero]
    exact Int.modEq_iff_dvd.mpr ((mul_dvd_mul_iff_left nonzero).mp meets)
  · rintro ⟨⟨q, start⟩, lag⟩
    rw [start, Int.mul_ediv_cancel_left q nonzero] at lag
    rw [start, ← mul_sub]
    exact mul_dvd_mul_left factor (Int.modEq_iff_dvd.mp lag)

/-- One progression comes back to a place after the period. -/
theorem again_iff (nonzero : factor ≠ 0) (unit : stride * inverse ≡ 1 [ZMOD period]) {a i j : ℤ} :
    factor * stride * i + a ≡ factor * stride * j + a [ZMOD factor * period] ↔ i ≡ j [ZMOD period] := by
  rw [meet_iff nonzero unit, sub_self, Int.zero_ediv, zero_mul, Int.modEq_iff_dvd, Int.modEq_iff_dvd]
  constructor
  · rintro ⟨_, apart⟩
    simpa using apart
  · intro apart
    exact ⟨dvd_zero factor, by simpa using apart⟩

/-- Within `n` and `m` places, some two are a lag apart, forwards or all the way round. -/
theorem meet_within_iff {n m : ℕ} {lag : ℤ} (start : 0 ≤ lag) (below : lag < period) :
    (∃ i < n, ∃ j < m, (i - j : ℤ) ≡ lag [ZMOD period]) ↔ 0 < n ∧ 0 < m ∧ (lag < n ∨ period < lag + m) := by
  constructor
  · rintro ⟨i, first, j, second, apart⟩
    refine ⟨by omega, by omega, ?_⟩
    obtain ⟨rounds, gap⟩ := (Int.modEq_iff_dvd.mp apart)
    rcases lt_or_ge 0 rounds with around | ahead
    · right
      have once : period ≤ period * rounds := le_mul_of_one_le_right (by omega) (by omega)
      omega
    · left
      have none : period * rounds ≤ 0 := mul_nonpos_of_nonneg_of_nonpos (by omega) ahead
      omega
  · rintro ⟨some, more, ahead | around⟩
    · refine ⟨lag.toNat, by omega, 0, more, ?_⟩
      have same : (lag.toNat - (0 : ℕ) : ℤ) = lag := by omega
      rw [same]
    · refine ⟨0, some, (period - lag).toNat, by omega, ?_⟩
      have same : ((0 : ℕ) - (period - lag).toNat : ℤ) = lag + period * (-1) := by omega
      rw [same]
      exact Int.modEq_add_fac_self

end Mqss.Progressions
