import Cinegraph.Library.JsonText

/-! The whole numbers up to 2^53 as the floats of a small host language. -/

namespace Cinegraph.Library

open Json

def isWhole (q : ℚ) : Prop := q.den = 1 ∧ q.num.natAbs ≤ 2 ^ 53

def readDigits (text : List Char) : Option Int :=
  match text with
  | '-' :: digits => if digits.all isDigit then some (-(ofDecimal digits : Int)) else none
  | digits => if digits.all isDigit then some (ofDecimal digits) else none

theorem readDigits_dumpInt (n : Int) : readDigits (dumpInt n) = some n := by
  cases n with
  | ofNat n =>
      obtain ⟨all, -⟩ := wholeDigits_decimal n
      have read : readDigits (decimal n) = if (decimal n).all isDigit then
          some (ofDecimal (decimal n) : Int) else none := by
        rw [readDigits.eq_def]
        split
        · rename_i digits same
          rw [same] at all
          exact absurd all (by simp [show isDigit '-' = false by decide])
        · rfl
      rw [dumpInt, read, all, if_pos rfl, ofDecimal_decimal]
      rfl
  | negSucc n =>
      rw [dumpInt, readDigits, (wholeDigits_decimal (n + 1)).1, if_pos rfl, ofDecimal_decimal]
      rfl

def readWhole (text : List Char) : Option FloatValue :=
  match text.reverse with
  | '0' :: '.' :: digits => (readDigits digits.reverse).map fun n => .finite n
  | _ => none

def wholeLiteral (n : Int) : FloatLiteral where
  negative := n < 0
  whole := decimal n.natAbs
  fraction := ['.', '0']
  exponent := []
  whole_digits := (wholeDigits_decimal n.natAbs).1
  whole_leading := (wholeDigits_decimal n.natAbs).2
  fraction_digits := Or.inr ⟨'0', [], rfl, by decide⟩
  exponent_digits := Or.inl rfl
  float := Or.inl (by decide)

theorem wholeLiteral_text (n : Int) : (wholeLiteral n).text = dumpInt n ++ ['.', '0'] := by
  cases n with
  | ofNat n => simp [FloatLiteral.text, wholeLiteral, dumpInt]
  | negSucc n => simp [FloatLiteral.text, wholeLiteral, dumpInt, Int.negSucc_lt_zero]

@[reducible] def wholeFloats : Floats where
  isFloat := isWhole
  decFloat q := inferInstanceAs (Decidable (q.den = 1 ∧ q.num.natAbs ≤ 2 ^ 53))
  repr q := dumpInt q.num ++ ['.', '0']
  read := readWhole
  read_repr q whole := by
    have value : ((q.num : ℚ)) = q := Rat.coe_int_num_of_den_eq_one whole.1
    simp [readWhole, readDigits_dumpInt, value]
  literal q _ := ⟨wholeLiteral q.num, (wholeLiteral_text q.num).symm⟩

end Cinegraph.Library
