import Mathlib.Data.List.Basic

/-!
Unsigned numbers in decimal: what the conversion to text writes, the conversion
from text reads back when the number is in range.
-/

namespace Mqss.Decimal

/-- The digits of a number, without leading zeros. -/
def toChars (n : Nat) : List Char := Nat.toDigits 10 n

/-- Read a whole text as a number below a bound: digits only, leading zeros allowed. -/
def fromChars (bound : Nat) (text : List Char) : Option Nat :=
  if text = [] then none
  else if text.all Char.isDigit then
    let value := Nat.ofDigitChars 10 text 0
    if value < bound then some value else none
  else none

theorem toChars_ne_nil (n : Nat) : toChars n ≠ [] := Nat.toDigits_ne_nil

theorem isDigit_of_mem_toChars {n : Nat} {c : Char} (member : c ∈ toChars n) : c.isDigit = true :=
  Nat.isDigit_of_mem_toDigits (by omega) (by omega) member

/-- Reading back what was written. -/
theorem fromChars_toChars {bound n : Nat} (range : n < bound) : fromChars bound (toChars n) = some n := by
  have digits : (toChars n).all Char.isDigit = true :=
    List.all_eq_true.mpr fun c member => isDigit_of_mem_toChars member
  have value : Nat.ofDigitChars 10 (toChars n) 0 = n := Nat.ofDigitChars_ten_toDigits
  simp [fromChars, toChars_ne_nil, digits, value, range]

/-- What is read is the value of a text of digits that is below the bound. -/
theorem fromChars_eq_some {bound n : Nat} {text : List Char} :
    fromChars bound text = some n ↔
      text ≠ [] ∧ (∀ c ∈ text, c.isDigit = true) ∧ Nat.ofDigitChars 10 text 0 = n ∧ n < bound := by
  unfold fromChars
  split_ifs with empty digits
  · simp [empty]
  · rw [List.all_eq_true] at digits
    constructor
    · intro value
      dsimp only at value
      split_ifs at value with range
      obtain rfl := Option.some.inj value
      exact ⟨empty, digits, rfl, range⟩
    · rintro ⟨_, _, rfl, range⟩
      exact if_pos range
  · rw [List.all_eq_true] at digits
    simp [digits]

/-- The text of a number. -/
theorem toList_toString (n : Nat) : (toString n).toList = toChars n := by
  simp [toChars]

/-- The text of a negative number. -/
theorem toList_toString_neg {i : Int} (negative : i < 0) : (toString i).toList = '-' :: (toString i.natAbs).toList := by
  cases i with
  | ofNat n => exact absurd negative (by simp)
  | negSucc n => simp [toString, Int.repr]

end Mqss.Decimal
