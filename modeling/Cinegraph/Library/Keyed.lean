import Mathlib.Data.List.Nodup

/-!
Lists of rows with a key, in the order in which the rows came: a row is written over the one of
its key, in its place or at the end.
-/

namespace Cinegraph.Library.Keyed

variable {κ ν : Type} [DecidableEq κ] (key : ν → κ)

def find (rows : List ν) (k : κ) : Option ν := rows.find? fun row => key row = k

/-- Write a row in the place of the one with its key. -/
def replace (rows : List ν) (row : ν) : List ν :=
  rows.map fun old => if key old = key row then row else old

/-- Write a row in the place of the one with its key, or behind all rows. -/
def upsert (rows : List ν) (row : ν) : List ν :=
  match find key rows (key row) with
  | none => rows ++ [row]
  | some _ => replace key rows row

/-- Write a row behind all rows, and remove the one with its key. -/
def moveLast (rows : List ν) (row : ν) : List ν :=
  (rows.filter fun old => key old ≠ key row) ++ [row]

variable {key} {rows : List ν} {row : ν} {k : κ}

theorem find_eq_none : find key rows k = none ↔ ∀ row ∈ rows, key row ≠ k := by
  simp [find, List.find?_eq_none]

theorem mem_of_find (found : find key rows k = some row) : row ∈ rows ∧ key row = k := by
  have same := List.find?_some found
  exact ⟨List.mem_of_find?_eq_some found, of_decide_eq_true same⟩

theorem find_of_mem (unique : (rows.map key).Nodup) (member : row ∈ rows) :
    find key rows (key row) = some row := by
  cases found : find key rows (key row) with
  | none => exact absurd rfl (find_eq_none.mp found row member)
  | some other =>
      obtain ⟨inside, same⟩ := mem_of_find found
      rw [List.inj_on_of_nodup_map unique inside member same]

theorem find_append (more : List ν) :
    find key (rows ++ more) k = (find key rows k).or (find key more k) :=
  List.find?_append

theorem find_singleton : find key [row] k = if key row = k then some row else none := by
  unfold find
  split <;> simp [*]

/-! ### Rows written in their place -/

@[simp] theorem map_key_replace : (replace key rows row).map key = rows.map key := by
  rw [replace, List.map_map]
  apply List.map_congr_left
  intro old _
  rw [Function.comp_apply]
  split
  · exact (‹key old = key row›).symm
  · rfl

theorem find_replace : find key (replace key rows row) k =
    if k = key row then (find key rows k).map fun _ => row else find key rows k := by
  induction rows with
  | nil => simp [find, replace]
  | cons old rest ih =>
      simp only [find, replace, List.map_cons, List.find?_cons] at ih ⊢
      rcases eq_or_ne (key old) (key row) with same | other
      · rcases eq_or_ne k (key row) with rfl | different
        · simp [same]
        · rw [if_neg different] at ih
          simp [same, different, different.symm, ih]
      · simp only [if_neg other]
        rcases eq_or_ne (key old) k with rfl | different
        · simp [other]
        · simp [different, ih]

theorem find_upsert : find key (upsert key rows row) k =
    if k = key row then some row else find key rows k := by
  unfold upsert
  split
  · rename_i absent
    rw [find_append, find_singleton]
    rcases eq_or_ne k (key row) with rfl | different
    · simp [absent]
    · simp [different, different.symm]
  · rename_i old found
    rw [find_replace]
    split
    · rename_i here
      subst here
      rw [found, Option.map_some]
    · rfl

theorem nodup_upsert (unique : (rows.map key).Nodup) : ((upsert key rows row).map key).Nodup := by
  unfold upsert
  split
  · rename_i absent
    rw [List.map_append, List.map_singleton]
    refine unique.append (List.nodup_singleton _) ?_
    rw [List.disjoint_singleton]
    intro member
    obtain ⟨old, inside, same⟩ := List.mem_map.mp member
    exact find_eq_none.mp absent old inside same
  · rw [map_key_replace]
    exact unique

theorem replace_replace {next : ν} (same : key row = key next) :
    replace key (replace key rows row) next = replace key rows next := by
  rw [replace, replace, replace, List.map_map]
  apply List.map_congr_left
  intro old _
  rw [Function.comp_apply]
  rcases eq_or_ne (key old) (key row) with here | other
  · rw [if_pos here, if_pos same, if_pos (here.trans same)]
  · rw [if_neg other]

/-- Of two rows written under one key, the second counts. -/
theorem upsert_upsert {next : ν} (same : key row = key next) :
    upsert key (upsert key rows row) next = upsert key rows next := by
  have found : find key (upsert key rows row) (key next) = some row := by
    rw [find_upsert, if_pos same.symm]
  rw [upsert, found]
  dsimp only
  unfold upsert
  rw [same]
  split
  · rename_i absent
    have outside : replace key rows next = rows := by
      rw [replace]
      refine (List.map_congr_left fun old member => ?_).trans rows.map_id
      exact if_neg (find_eq_none.mp absent old member)
    rw [replace, List.map_append, List.map_singleton, if_pos same]
    exact congrArg (· ++ [next]) outside
  · exact replace_replace same

/-- Writing a row that is there changes nothing. -/
theorem upsert_of_find (unique : (rows.map key).Nodup) (found : find key rows (key row) = some row) :
    upsert key rows row = rows := by
  rw [upsert, found]
  dsimp only
  refine (List.map_congr_left fun old member => ?_).trans rows.map_id
  split
  · rename_i same
    exact List.inj_on_of_nodup_map unique (mem_of_find found).1 member same.symm
  · rfl

theorem filter_upsert_other :
    (upsert key rows row).filter (fun old => key old ≠ key row) =
      rows.filter fun old => key old ≠ key row := by
  unfold upsert
  split
  · simp
  · clear * -
    induction rows with
    | nil => rfl
    | cons old rest ih =>
        rw [replace, List.map_cons, List.filter_cons, List.filter_cons]
        rcases eq_or_ne (key old) (key row) with same | other
        · simpa [same, replace] using ih
        · simpa [other, replace] using ih

/-! ### Rows written behind all others -/

theorem find_moveLast : find key (moveLast key rows row) k =
    if k = key row then some row else find key rows k := by
  rw [moveLast, find_append, find_singleton]
  rcases eq_or_ne k (key row) with rfl | different
  · have absent : find key (rows.filter fun old => key old ≠ key row) (key row) = none := by
      rw [find_eq_none]
      exact fun old member => of_decide_eq_true (List.mem_filter.mp member).2
    rw [absent, if_pos rfl, if_pos rfl, Option.none_or]
  · rw [if_neg different, if_neg different.symm, Option.or_none, find, find, List.find?_filter]
    congr 1
    funext old
    rcases eq_or_ne (key old) k with rfl | other
    · simp [different]
    · simp [other]

theorem nodup_moveLast (unique : (rows.map key).Nodup) :
    ((moveLast key rows row).map key).Nodup := by
  rw [moveLast, List.map_append, List.map_singleton]
  refine (unique.sublist (List.filter_sublist.map key)).append (List.nodup_singleton _) ?_
  rw [List.disjoint_singleton]
  intro member
  obtain ⟨old, inside, same⟩ := List.mem_map.mp member
  exact of_decide_eq_true (List.mem_filter.mp inside).2 same

/-- Rows that a test leaves out as it leaves out the row written are as before. -/
theorem filter_moveLast {keep : ν → Bool} (outside : ∀ old, key old = key row → keep old = false) :
    (moveLast key rows row).filter keep = rows.filter keep := by
  rw [moveLast, List.filter_append, List.filter_filter, List.filter_singleton, outside row rfl,
    cond_false, List.append_nil]
  apply List.filter_congr
  intro old _
  rcases eq_or_ne (key old) (key row) with same | other
  · simp [outside old same]
  · simp [other]

end Cinegraph.Library.Keyed
