import Mathlib.Data.List.Nodup
import Mathlib.Data.List.Pairwise
import Mathlib.Data.List.Perm.Basic
import Mathlib.Order.Lattice

/-!
Tables with a primary key. The rows stand in the order of their keys, so two
tables with the same rows are equal, whatever the order they were written in.
-/

namespace Cinegraph.Library

structure Table {κ ν : Type} [LinearOrder κ] (key : ν → κ) where
  rows : List ν
  sorted : rows.Pairwise fun a b => key a < key b

namespace Table

variable {κ ν : Type} [LinearOrder κ] {key : ν → κ}

def empty : Table key := ⟨[], List.Pairwise.nil⟩

def get? (t : Table key) (k : κ) : Option ν := t.rows.find? fun row => key row = k

/-- The table with a row in the place of its key. -/
def insert (t : Table key) (row : ν) : Table key where
  rows := t.rows.filter (fun old => key old < key row) ++
    row :: t.rows.filter (fun old => key row < key old)
  sorted := by
    rw [List.pairwise_append, List.pairwise_cons]
    refine ⟨t.sorted.filter _, ⟨?_, t.sorted.filter _⟩, ?_⟩
    · intro above member
      exact of_decide_eq_true (List.mem_filter.mp member).2
    · intro below low above high
      have before : key below < key row := of_decide_eq_true (List.mem_filter.mp low).2
      rcases List.mem_cons.mp high with rfl | higher
      · exact before
      · have behind : key row < key above := of_decide_eq_true (List.mem_filter.mp higher).2
        exact lt_trans before behind

/-- `DELETE`, keeping the rows of which the test holds. -/
def filter (t : Table key) (keep : ν → Bool) : Table key := ⟨t.rows.filter keep, t.sorted.filter _⟩

theorem nodup_keys (t : Table key) : (t.rows.map key).Nodup :=
  List.pairwise_map.mpr (t.sorted.imp ne_of_lt)

theorem nodup_rows (t : Table key) : t.rows.Nodup := t.nodup_keys.of_map key

theorem eq_of_key {t : Table key} {a b : ν} (ha : a ∈ t.rows) (hb : b ∈ t.rows)
    (same : key a = key b) : a = b := List.inj_on_of_nodup_map t.nodup_keys ha hb same

theorem ext_mem {t u : Table key} (same : ∀ row, row ∈ t.rows ↔ row ∈ u.rows) : t = u := by
  have perm : t.rows.Perm u.rows := (List.perm_ext_iff_of_nodup t.nodup_rows u.nodup_rows).mpr same
  have rows : t.rows = u.rows :=
    perm.eq_of_pairwise (fun _ _ _ _ below above => absurd below (lt_asymm above)) t.sorted u.sorted
  cases t
  cases u
  cases rows
  rfl

@[simp] theorem rows_empty : (empty : Table key).rows = [] := rfl

theorem get?_eq_some {t : Table key} {k : κ} {row : ν} :
    t.get? k = some row ↔ row ∈ t.rows ∧ key row = k := by
  constructor
  · intro found
    have same := List.find?_some found
    exact ⟨List.mem_of_find?_eq_some found, of_decide_eq_true same⟩
  · rintro ⟨member, rfl⟩
    unfold get?
    cases found : t.rows.find? fun other => key other = key row with
    | none => exact absurd (decide_eq_true rfl) (List.find?_eq_none.mp found row member)
    | some other =>
        have same := List.find?_some found
        rw [eq_of_key (List.mem_of_find?_eq_some found) member (of_decide_eq_true same)]

theorem get?_eq_none {t : Table key} {k : κ} : t.get? k = none ↔ ∀ row ∈ t.rows, key row ≠ k := by
  simp [get?, List.find?_eq_none]

@[simp] theorem mem_filter {t : Table key} {keep : ν → Bool} {row : ν} :
    row ∈ (t.filter keep).rows ↔ row ∈ t.rows ∧ keep row = true := List.mem_filter

theorem mem_insert {t : Table key} {row other : ν} :
    other ∈ (t.insert row).rows ↔ other = row ∨ (other ∈ t.rows ∧ key other ≠ key row) := by
  simp only [insert, List.mem_append, List.mem_cons, List.mem_filter, decide_eq_true_eq]
  constructor
  · rintro (⟨member, below⟩ | rfl | ⟨member, above⟩)
    · exact .inr ⟨member, ne_of_lt below⟩
    · exact .inl rfl
    · exact .inr ⟨member, ne_of_gt above⟩
  · rintro (rfl | ⟨member, other_key⟩)
    · exact .inr (.inl rfl)
    · rcases lt_or_gt_of_ne other_key with below | above
      · exact .inl ⟨member, below⟩
      · exact .inr (.inr ⟨member, above⟩)

/-- Add a row unless it is there; a different row under its key is a conflict. -/
def put [DecidableEq ν] (t : Table key) (row : ν) : Option (Table key) :=
  match t.get? (key row) with
  | none => some (t.insert row)
  | some old => if old = row then some t else none

/-- Add rows one after the other. -/
def merge [DecidableEq ν] (t : Table key) (rows : List ν) : Option (Table key) := rows.foldlM put t

/-- No two of the rows share a key. -/
def Agree (key : ν → κ) (a b : ν) : Prop := key a = key b → a = b

section Merge

variable [DecidableEq ν] {t u : Table key}

@[simp] theorem merge_nil : t.merge [] = some t := rfl

theorem merge_cons (row : ν) (rows : List ν) :
    t.merge (row :: rows) = (t.put row).bind fun next => next.merge rows := rfl

theorem merge_append (rows more : List ν) :
    t.merge (rows ++ more) = (t.merge rows).bind fun next => next.merge more :=
  List.foldlM_append

theorem put_eq_some {row : ν} :
    t.put row = some u ↔ (∀ old ∈ t.rows, Agree key old row) ∧
      ∀ other, other ∈ u.rows ↔ other = row ∨ other ∈ t.rows := by
  unfold put
  split
  · rename_i absent
    have free := get?_eq_none.mp absent
    rw [Option.some_inj]
    constructor
    · rintro rfl
      refine ⟨fun old member same => absurd same (free old member), fun other => ?_⟩
      rw [mem_insert]
      exact or_congr_right (and_iff_left_of_imp fun member => free other member)
    · rintro ⟨-, rows⟩
      apply ext_mem
      intro other
      rw [rows, mem_insert]
      exact or_congr_right (and_iff_left_of_imp fun member => free other member)
  · rename_i old found
    obtain ⟨member, same⟩ := get?_eq_some.mp found
    split
    · rename_i equal
      cases equal
      rw [Option.some_inj]
      constructor
      · rintro rfl
        refine ⟨fun other inside same => eq_of_key inside member same, fun other => ?_⟩
        exact ⟨Or.inr, fun h => h.elim (fun new => new ▸ member) id⟩
      · rintro ⟨-, rows⟩
        apply ext_mem
        intro other
        rw [rows]
        exact ⟨Or.inr, fun h => h.elim (fun new => new ▸ member) id⟩
    · rename_i different
      exact iff_of_false (fun h => by cases h) fun h => different (h.1 old member same)

theorem exists_put {row : ν} (free : ∀ old ∈ t.rows, Agree key old row) :
    ∃ next, t.put row = some next := by
  unfold put
  split
  · exact ⟨_, rfl⟩
  · rename_i old found
    obtain ⟨member, same⟩ := get?_eq_some.mp found
    rw [if_pos (free old member same)]
    exact ⟨_, rfl⟩

/-- Rows can be added when no two of them, and none of them and a stored one, share a key. -/
theorem merge_eq_some {rows : List ν} :
    t.merge rows = some u ↔
      (∀ row ∈ rows, ∀ other, other ∈ rows ∨ other ∈ t.rows → Agree key other row) ∧
      ∀ other, other ∈ u.rows ↔ other ∈ rows ∨ other ∈ t.rows := by
  induction rows generalizing t with
  | nil =>
      rw [merge_nil, Option.some_inj]
      constructor
      · rintro rfl
        exact ⟨fun _ member => absurd member List.not_mem_nil, fun other => by simp⟩
      · rintro ⟨-, rows⟩
        exact ext_mem fun other => by rw [rows]; simp
  | cons row rows ih =>
      rw [merge_cons, Option.bind_eq_some_iff]
      constructor
      · rintro ⟨next, one, more⟩
        obtain ⟨free, stored⟩ := put_eq_some.mp one
        obtain ⟨apart, result⟩ := ih.mp more
        refine ⟨?_, ?_⟩
        · intro a ha b hb
          have place : b = row ∨ b ∈ rows ∨ b ∈ t.rows := by
            rw [List.mem_cons] at hb
            tauto
          rcases List.mem_cons.mp ha with first | later
          · subst first
            rcases place with rfl | inside | old
            · exact fun _ => rfl
            · exact fun same =>
                (apart b inside a (.inr ((stored a).mpr (.inl rfl))) same.symm).symm
            · exact free b old
          · apply apart a later b
            rw [stored]
            tauto
        · intro other
          rw [result, stored, List.mem_cons]
          tauto
      · rintro ⟨apart, result⟩
        obtain ⟨next, one⟩ := exists_put fun old member =>
          apart row List.mem_cons_self old (.inr member)
        obtain ⟨-, stored⟩ := put_eq_some.mp one
        refine ⟨next, one, ih.mpr ⟨?_, ?_⟩⟩
        · intro a ha b hb
          rw [stored] at hb
          apply apart a (List.mem_cons_of_mem _ ha) b
          rw [List.mem_cons]
          tauto
        · intro other
          rw [result, stored, List.mem_cons]
          tauto

theorem exists_merge {rows : List ν} (apart : ∀ row ∈ rows, ∀ other,
    other ∈ rows ∨ other ∈ t.rows → Agree key other row) : ∃ u, t.merge rows = some u := by
  induction rows generalizing t with
  | nil => exact ⟨t, rfl⟩
  | cons row rows ih =>
      obtain ⟨next, one⟩ := exists_put fun old member =>
        apart row List.mem_cons_self old (.inr member)
      obtain ⟨-, stored⟩ := put_eq_some.mp one
      rw [merge_cons, one]
      apply ih
      intro a ha b hb
      rw [stored] at hb
      apply apart a (List.mem_cons_of_mem _ ha) b
      rw [List.mem_cons]
      tauto

/-- Rows that went in go in again, into what is left of them. -/
theorem exists_merge_again {rows : List ν} {left : Table key} (merged : t.merge rows = some u)
    (kept : ∀ row ∈ left.rows, row ∈ u.rows) : ∃ v, left.merge rows = some v := by
  obtain ⟨apart, stored⟩ := merge_eq_some.mp merged
  apply exists_merge
  rintro row member other (own | old)
  · exact apart row member other (.inl own)
  · exact apart row member other ((stored other).mp (kept other old))

end Merge

end Table

end Cinegraph.Library
