import Mqss.Progressions

/-!
The three widths of a task id: a 64-bit word as the service counts and stores it,
a signed 32-bit field in messages, and that field sign-extended to 64 bits again.
-/

namespace Mqss.Words
open Mqss.Progressions

/-- The conversion of a 64-bit word to a signed 32-bit field. -/
def narrow (id : UInt64) : Int32 := id.toInt64.toInt32

/-- The conversion of a signed 32-bit field to a 64-bit word. -/
def widen (field : Int32) : UInt64 := field.toInt64.toUInt64

/-- The word survives the passage through a 32-bit field. -/
def Fits (id : UInt64) : Prop := widen (narrow id) = id

instance (id : UInt64) : Decidable (Fits id) := inferInstanceAs (Decidable (_ = _))

@[simp] theorem narrow_widen (field : Int32) : narrow (widen field) = field := by
  simp [narrow, widen]

/-- Among the words with one 32-bit field, only the sign extension of the field fits. -/
theorem Fits.eq_widen {id : UInt64} (fits : Fits id) {field : Int32} (same : narrow id = field) : id = widen field := by
  rw [← same, fits]

theorem toInt_toInt64 (id : UInt64) : id.toInt64.toInt = (id.toNat : Int).bmod (2 ^ 64) :=
  BitVec.toInt_eq_toNat_bmod id.toBitVec

theorem bmod_inj {x y : Int} {n : Nat} : x.bmod n = y.bmod n ↔ x % n = y % n := by
  constructor
  · intro same
    rw [← Int.bmod_emod, same, Int.bmod_emod]
  · intro same
    rw [← Int.emod_bmod, same, Int.emod_bmod]

theorem toInt_narrow (id : UInt64) : (narrow id).toInt = (id.toNat : Int).bmod (2 ^ 32) := by
  rw [narrow, Int64.toInt_toInt32, toInt_toInt64, Int.bmod_bmod_of_dvd (by decide)]

/-- Two words have one field when they agree in their lower half. -/
theorem narrow_inj {id other : UInt64} : narrow id = narrow other ↔ (id.toNat : ℤ) ≡ other.toNat [ZMOD 2 ^ 32] := by
  rw [← Int32.toInt_inj, toInt_narrow, toInt_narrow]
  exact bmod_inj

/-- A word below 2^31 is the value of its field. -/
theorem toInt_narrow_small {id : UInt64} (small : id.toNat < 2 ^ 31) : (narrow id).toInt = id.toNat := by
  rw [toInt_narrow]
  exact Int.bmod_eq_of_le (by omega) (by omega)

theorem fits_iff_bmod (id : UInt64) :
    Fits id ↔ ((id.toNat : Int).bmod (2 ^ 64)).bmod (2 ^ 32) = (id.toNat : Int).bmod (2 ^ 64) := by
  have same : Fits id ↔ (narrow id).toInt64 = id.toInt64 := by
    constructor
    · intro fits
      have back := congrArg UInt64.toInt64 fits
      simpa [widen] using back
    · intro back
      simp [Fits, widen, back]
  rw [same, ← Int64.toInt_inj, Int32.toInt_toInt64, toInt_toInt64, narrow, Int64.toInt_toInt32, toInt_toInt64]

/-- The words that survive are those below 2^31 and the last 2^31 ones. -/
theorem fits_iff (id : UInt64) : Fits id ↔ id.toNat < 2 ^ 31 ∨ 2 ^ 64 - 2 ^ 31 ≤ id.toNat := by
  have bound : id.toNat < 2 ^ 64 := id.toNat_lt
  rw [fits_iff_bmod, Int.bmod_def, Int.bmod_def]
  constructor
  · intro same
    split at same <;> split at same <;> omega
  · intro range
    split <;> split <;> omega

/-- The number in the field of a word that survives. -/
theorem Fits.toInt_narrow {id : UInt64} (fits : Fits id) :
    (narrow id).toInt = if id.toNat < 2 ^ 31 then (id.toNat : Int) else id.toNat - 2 ^ 64 := by
  have bound : id.toNat < 2 ^ 64 := id.toNat_lt
  have range := (fits_iff id).mp fits
  rw [narrow, Int64.toInt_toInt32, toInt_toInt64, (fits_iff_bmod id).mp fits, Int.bmod_def]
  split <;> split <;> omega

/-- The words `10000 * n + offset`, as unsigned 64-bit arithmetic computes them. -/
def stride (offset : UInt64) (n : Nat) : UInt64 := UInt64.ofNat n * 10000 + offset

theorem toNat_stride (offset : UInt64) (n : Nat) : (stride offset n).toNat = (10000 * n + offset.toNat) % 2 ^ 64 := by
  simp [stride, UInt64.toNat_add, UInt64.toNat_mul, UInt64.toNat_ofNat', Nat.mul_comm]

/-- Places of two strides hold one word when the places are congruent. -/
theorem stride_inj {offset other : UInt64} {i j : Nat} : stride offset i = stride other j ↔
    (16 * 625 * i + offset.toNat : ℤ) ≡ 16 * 625 * j + other.toNat [ZMOD 16 * 2 ^ 60] := by
  rw [← UInt64.toNat_inj, toNat_stride, toNat_stride, Int.ModEq]
  omega

/-- The inverse of the odd part of the stride, modulo the number of words it visits. -/
theorem odd_unit : 625 * 182622766329724561 ≡ 1 [ZMOD 2 ^ 60] := by decide

/-- The stride holds one word at places that are a period apart. -/
theorem stride_again {offset : UInt64} {i j : Nat} : stride offset i = stride offset j ↔ (i : ℤ) ≡ j [ZMOD 2 ^ 60] := by
  rw [stride_inj, again_iff (by decide) odd_unit]

/-- Two words with a common stride and offset come from indices that are a period apart. -/
theorem stride_word_inj {a b offset : UInt64} :
    a * 10000 + offset = b * 10000 + offset ↔ a.toNat % 2 ^ 60 = b.toNat % 2 ^ 60 := by
  have places := @stride_again offset a.toNat b.toNat
  simp only [stride, UInt64.ofNat_toNat] at places
  rw [places, Int.ModEq]
  omega

/-- The stride visits 2^60 words before it comes back to one. -/
theorem stride_apart {offset : UInt64} {n m : Nat} (later : n < m) (near : m < n + 2 ^ 60) :
    stride offset n ≠ stride offset m := by
  rw [Ne, stride_again, Int.ModEq]
  omega

end Mqss.Words
