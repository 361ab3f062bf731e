import Mathlib.Data.List.Infix
import Mathlib.Data.List.Range

/-!
Logs whose entries are numbered from 1: what stands after a number is what is left when as many
entries are dropped.
-/

namespace Cinegraph.Library

variable {α : Type*} {number : α → Nat} {items part : List α}

def Numbered (number : α → Nat) (items : List α) : Prop :=
  items.map number = List.range' 1 items.length

namespace Numbered

theorem getElem? (numbered : Numbered number items) {k : Nat} {item : α}
    (found : items[k]? = some item) : number item = k + 1 := by
  have bound : k < items.length := (List.getElem?_eq_some_iff.mp found).1
  have same := congrArg (·[k]?) numbered
  simp only [List.getElem?_map, found, Option.map_some, List.getElem?_range' bound] at same
  have value := Option.some.inj same
  omega

theorem of_prefix (numbered : Numbered number items) (start : part <+: items) :
    Numbered number part := by
  obtain ⟨rest, rfl⟩ := start
  unfold Numbered at numbered ⊢
  rw [List.map_append, List.length_append, ← List.range'_append_1] at numbered
  exact List.append_inj_left numbered (by rw [List.length_map, List.length_range'])

/-- The entries numbered above `k` are those after the first `k`. -/
theorem filter_lt (numbered : Numbered number items) (k : Nat) :
    items.filter (fun item => k < number item) = items.drop k := by
  have early : (items.take k).filter (fun item => k < number item) = [] := by
    rw [List.filter_eq_nil_iff]
    intro item member
    obtain ⟨i, found⟩ := List.mem_iff_getElem?.mp member
    have below : i < k := by
      have bound := (List.getElem?_eq_some_iff.mp found).1
      rw [List.length_take] at bound
      omega
    rw [List.getElem?_take_of_lt below] at found
    have value := numbered.getElem? found
    rw [decide_eq_true_iff]
    omega
  have late : (items.drop k).filter (fun item => k < number item) = items.drop k := by
    rw [List.filter_eq_self]
    intro item member
    obtain ⟨i, found⟩ := List.mem_iff_getElem?.mp member
    rw [List.getElem?_drop] at found
    have value := numbered.getElem? found
    rw [decide_eq_true_iff]
    omega
  conv_lhs => rw [← List.take_append_drop k items]
  rw [List.filter_append, early, late, List.nil_append]

end Numbered

end Cinegraph.Library
