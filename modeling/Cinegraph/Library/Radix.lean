import Mathlib.Data.Nat.ModEq
import Mathlib.Tactic.Ring

/-! Fixed-width big-endian digit sequences. -/

namespace Cinegraph.Library

def ofDigits (base : Nat) (digits : List Nat) : Nat :=
  digits.foldl (fun n d => base * n + d) 0

/-- The lowest `count` digits of a number, most significant first. -/
def toDigits (base : Nat) : (count n : Nat) → List Nat
  | 0, _ => []
  | count + 1, n => n / base ^ count % base :: toDigits base count n

@[simp] theorem length_toDigits (base count n : Nat) : (toDigits base count n).length = count := by
  induction count with
  | zero => rfl
  | succ count ih => simp [toDigits, ih]

theorem lt_of_mem_toDigits {base count n d : Nat} (hbase : 0 < base)
    (member : d ∈ toDigits base count n) : d < base := by
  induction count with
  | zero => cases member
  | succ count ih =>
      rcases List.mem_cons.mp member with rfl | tail
      · exact Nat.mod_lt _ hbase
      · exact ih tail

private theorem foldl_toDigits (base count n start : Nat) :
    (toDigits base count n).foldl (fun m d => base * m + d) start =
      base ^ count * start + n % base ^ count := by
  induction count generalizing start with
  | zero => simp [toDigits, Nat.mod_one]
  | succ count ih =>
      have split : n % base ^ (count + 1) =
          n % base ^ count + base ^ count * (n / base ^ count % base) := by
        rw [pow_succ, Nat.mod_mul]
      rw [toDigits, List.foldl_cons, ih, split, pow_succ]
      ring

theorem ofDigits_toDigits (base count n : Nat) :
    ofDigits base (toDigits base count n) = n % base ^ count := by
  rw [ofDigits, foldl_toDigits]
  simp

end Cinegraph.Library
