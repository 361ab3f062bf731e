import Cinegraph.Library.StrictJson

/-! How many bytes the packed text of a value takes. -/

namespace Cinegraph.Library

open Json

/-- The bytes of a text in UTF-8. -/
def width (chars : List Char) : Nat := (chars.map Char.utf8Size).sum

@[simp] theorem width_nil : width [] = 0 := rfl

@[simp] theorem width_cons (c : Char) (chars : List Char) : width (c :: chars) = c.utf8Size + width chars :=
  List.sum_cons

@[simp] theorem width_append (a b : List Char) : width (a ++ b) = width a + width b := by
  rw [width, List.map_append, List.sum_append, width, width]

theorem utf8ByteSize_ofList (chars : List Char) : (String.ofList chars).utf8ByteSize = width chars := by
  induction chars with
  | nil => rfl
  | cons c chars ih =>
      rw [← List.singleton_append, String.ofList_append, String.utf8ByteSize_append, ih]
      simp

theorem utf8Size_ascii {c : Char} (ascii : c.toNat < 128) : c.utf8Size = 1 := by
  unfold Char.utf8Size
  rw [if_pos]
  have : c.val.toNat ≤ 127 := by
    change c.toNat ≤ 127
    omega
  exact UInt32.le_iff_toNat_le.mpr this

theorem width_ascii {chars : List Char} (ascii : ∀ c ∈ chars, c.toNat < 128) :
    width chars = chars.length := by
  induction chars with
  | nil => rfl
  | cons c chars ih =>
      rw [List.forall_mem_cons] at ascii
      rw [width_cons, utf8Size_ascii ascii.1, ih ascii.2, List.length_cons, Nat.add_comm]

namespace Json

theorem width_decimal (n : Nat) : width (decimal n) = (decimal n).length := by
  apply width_ascii
  intro c member
  have digit := List.all_eq_true.mp (wholeDigits_decimal n).1 c member
  simp only [isDigit, Bool.and_eq_true, decide_eq_true_eq] at digit
  omega

theorem length_decimal {n k : Nat} (small : n < 10 ^ (k + 1)) : (decimal n).length ≤ k + 1 := by
  unfold decimal
  split
  · simp
  · rw [List.length_map, List.length_reverse]
    exact (Nat.digits_length_le_iff (by decide) n).mpr small

/-- A text without a character that has to be escaped. -/
theorem width_quoted {text : String} (plain : ∀ c ∈ text.toList, escape c = [c]) :
    width (quoted escape text) = text.utf8ByteSize + 2 := by
  rw [quoted, List.flatMap_congr plain]
  rw [List.flatMap_singleton', width_cons, width_append, width_cons, width_nil, ← utf8ByteSize_ofList,
    String.ofList_toList]
  have quote : '"'.utf8Size = 1 := rfl
  omega

variable [Floats]

def itemWidth (item : String × Json) : Nat := width (quoted escape item.1) + width (write .packed item.2) + 2

theorem width_writeFields {items : List (String × Json)} (nonempty : items ≠ []) :
    width (writeFields .packed items) = (items.map itemWidth).sum := by
  induction items with
  | nil => exact absurd rfl nonempty
  | cons item items ih =>
      obtain ⟨k, a⟩ := item
      cases items with
      | nil =>
          have signs : ':'.utf8Size = 1 ∧ '}'.utf8Size = 1 := ⟨rfl, rfl⟩
          simp only [writeFields, itemWidth, Layout.gap_packed, Layout.escape_packed, width_append, width_cons, width_nil, List.map_cons,
            List.map_nil, List.sum_cons, List.sum_nil]
          omega
      | cons b as =>
          rw [writeFields, List.map_cons, List.sum_cons, ← ih (List.cons_ne_nil _ _)]
          have signs : ':'.utf8Size = 1 ∧ ','.utf8Size = 1 := ⟨rfl, rfl⟩
          simp only [itemWidth, Layout.gap_packed, Layout.escape_packed, width_append, width_cons,
            width_nil]
          omega

theorem width_writeAll {items : List Json} (nonempty : items ≠ []) :
    width (writeAll .packed items) = (items.map fun a => width (write .packed a) + 1).sum := by
  induction items with
  | nil => exact absurd rfl nonempty
  | cons a items ih =>
      cases items with
      | nil =>
          have sign : ']'.utf8Size = 1 := rfl
          simp only [writeAll, width_append, width_cons, width_nil, List.map_cons, List.map_nil,
            List.sum_cons, List.sum_nil]
          omega
      | cons b as =>
          rw [writeAll, List.map_cons, List.sum_cons, ← ih (List.cons_ne_nil _ _)]
          have sign : ','.utf8Size = 1 := rfl
          simp only [Layout.gap_packed, width_append, width_cons, width_nil]
          omega

/-- The order of the keys does not change the length of an object. -/
theorem width_packed_obj {items : List (String × Json)} (nonempty : items ≠ []) :
    width (write .packed (Json.obj items).sortKeys) = ((sortFields items).map itemWidth).sum + 1 := by
  have brace : '{'.utf8Size = 1 := rfl
  have perm := (sortItems_perm (sortFields items)).map itemWidth
  have some_item : sortItems (sortFields items) ≠ [] := by
    intro none
    have empty := (sortItems_perm (sortFields items)).length_eq
    rw [none, sortFields_eq_map, List.length_map] at empty
    exact nonempty (List.length_eq_zero_iff.mp empty.symm)
  rw [sortKeys, write, width_cons, width_writeFields some_item, perm.sum_eq, brace, Nat.add_comm]

theorem width_packed_arr {items : List Json} (nonempty : items ≠ []) :
    width (write .packed (.arr items)) = (items.map fun a => width (write .packed a) + 1).sum + 1 := by
  have bracket : '['.utf8Size = 1 := rfl
  rw [write, width_cons, width_writeAll nonempty, bracket, Nat.add_comm]

end Json

end Cinegraph.Library
