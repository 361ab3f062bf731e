import Cinegraph.Library.Json
import Mathlib.Algebra.Order.Field.Rat
import Mathlib.Data.Rat.Floor

/-!
Arithmetic of binary floats of 64 bits: every operation rounds its exact result
to the nearest float, ties to the even one. Both zeros are one value here.
-/

namespace Cinegraph.Library

/-- The number a finite float stands for. -/
def FloatValue.toRat : FloatValue → ℚ
  | .finite q => q
  | _ => 0

namespace Binary64

/-- The nearest whole number, ties to the even one. -/
def roundHalfEven (q : ℚ) : Int :=
  let below := q.floor
  let rest := q - below
  if rest < 1 / 2 ∨ (rest = 1 / 2 ∧ below % 2 = 0) then below else below + 1

/-- The place of the leading binary digit of a positive number. -/
def exponent (q : ℚ) : Int :=
  let guess : Int := Nat.log2 q.num.natAbs - Nat.log2 q.den
  if q < 2 ^ guess then guess - 1 else guess

/-- The nearest float, were the exponents without end. -/
def nearest (q : ℚ) : ℚ :=
  if q = 0 then 0
  else
    let unit : ℚ := 2 ^ max (exponent |q| - 52) (-1074)
    roundHalfEven (q / unit) * unit

/-- `2 ** 1024`, the first whole number out of range. -/
def limit : ℚ := 2 ^ 1024

def round (q : ℚ) : FloatValue :=
  if |nearest q| < limit then .finite (nearest q) else .infinity (decide (q < 0))

/-- `a / b` of whole numbers. -/
def divide (a b : Nat) : FloatValue := round (a / b)

theorem roundHalfEven_nonneg {q : ℚ} (nonneg : 0 ≤ q) : 0 ≤ roundHalfEven q := by
  have below : 0 ≤ ⌊q⌋ := Int.floor_nonneg.mpr nonneg
  unfold roundHalfEven
  dsimp only
  split
  · exact below
  · exact Int.le_add_one below

theorem roundHalfEven_nonpos {q : ℚ} (nonpos : q ≤ 0) : roundHalfEven q ≤ 0 := by
  have below : ⌊q⌋ ≤ 0 := Int.floor_nonpos nonpos
  unfold roundHalfEven
  dsimp only
  split
  · exact below
  · rename_i up
    -- zero itself is not rounded up
    refine Int.add_one_le_iff.mpr (lt_of_le_of_ne below fun zero => up (Or.inl ?_))
    have same : q.floor = 0 := zero
    rw [same]
    have half : (0 : ℚ) < 1 / 2 := by norm_num
    exact lt_of_le_of_lt (by simpa using nonpos) half

theorem unit_pos (place : Int) : (0 : ℚ) < 2 ^ place := zpow_pos (by norm_num) place

theorem nearest_nonneg {q : ℚ} (nonneg : 0 ≤ q) : 0 ≤ nearest q := by
  unfold nearest
  split
  · exact le_rfl
  · have unit := unit_pos (max (exponent |q| - 52) (-1074))
    exact mul_nonneg (mod_cast roundHalfEven_nonneg (div_nonneg nonneg unit.le)) unit.le

theorem nearest_nonpos {q : ℚ} (nonpos : q ≤ 0) : nearest q ≤ 0 := by
  unfold nearest
  split
  · exact le_rfl
  · have unit := unit_pos (max (exponent |q| - 52) (-1074))
    exact mul_nonpos_of_nonpos_of_nonneg
      (mod_cast roundHalfEven_nonpos (div_nonpos_of_nonpos_of_nonneg nonpos unit.le)) unit.le

/-- Rounding keeps the sign. -/
theorem round_sign {q r : ℚ} (rounded : round q = .finite r) :
    (0 ≤ q → 0 ≤ r) ∧ (q ≤ 0 → r ≤ 0) := by
  unfold round at rounded
  split at rounded
  · cases rounded
    exact ⟨nearest_nonneg, nearest_nonpos⟩
  · cases rounded

example : round (1 / 10) = .finite (3602879701896397 / 36028797018963968) := by decide +kernel

end Binary64

end Cinegraph.Library
