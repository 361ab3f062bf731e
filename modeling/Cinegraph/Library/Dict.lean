import Mathlib.Data.List.Nodup
import Mathlib.Tactic

/-!
Insertion-ordered dictionaries. Assigning to a present key keeps its place,
assigning to an absent key appends, so iteration order is the order in which
the keys were first assigned.
-/

namespace Cinegraph.Library

section Association

variable {κ ν : Type*} [DecidableEq κ]

def assoc : List (κ × ν) → κ → Option ν
  | [], _ => none
  | (q, w) :: rest, k => if k = q then some w else assoc rest k

def assign : List (κ × ν) → κ → ν → List (κ × ν)
  | [], k, v => [(k, v)]
  | (q, w) :: rest, k, v => if k = q then (q, v) :: rest else (q, w) :: assign rest k v

def without : List (κ × ν) → κ → List (κ × ν)
  | [], _ => []
  | (q, w) :: rest, k => if k = q then without rest k else (q, w) :: without rest k

private theorem assoc_assign (entries : List (κ × ν)) (k q : κ) (v : ν) :
    assoc (assign entries k v) q = if q = k then some v else assoc entries q := by
  induction entries with
  | nil => simp [assign, assoc]
  | cons head rest ih =>
      obtain ⟨p, w⟩ := head
      by_cases hk : k = p
      · subst hk
        by_cases hq : q = k <;> simp [assign, assoc, hq]
      · by_cases hq : q = k
        · subst hq
          simp [assign, assoc, hk, ih]
        · simp [assign, assoc, hk, ih, hq]

private theorem keys_assign (entries : List (κ × ν)) (k : κ) (v : ν) :
    (assign entries k v).map Prod.fst =
      if k ∈ entries.map Prod.fst then entries.map Prod.fst
      else entries.map Prod.fst ++ [k] := by
  induction entries with
  | nil => simp [assign]
  | cons head rest ih =>
      obtain ⟨p, w⟩ := head
      by_cases hk : k = p
      · simp [assign, hk]
      · simp only [assign, hk, if_false, List.map_cons, ih, List.mem_cons, false_or]
        split <;> rfl

private theorem without_sublist (entries : List (κ × ν)) (k : κ) :
    (without entries k).Sublist entries := by
  induction entries with
  | nil => exact List.Sublist.refl _
  | cons head rest ih =>
      obtain ⟨p, w⟩ := head
      unfold without
      split
      · exact ih.cons _
      · exact ih.cons_cons _

private theorem assoc_without (entries : List (κ × ν)) (k q : κ) :
    assoc (without entries k) q = if q = k then none else assoc entries q := by
  induction entries with
  | nil => simp [without, assoc]
  | cons head rest ih =>
      obtain ⟨p, w⟩ := head
      by_cases hk : k = p
      · subst hk
        rw [without, if_pos rfl, ih]
        by_cases hq : q = k <;> simp [assoc, hq]
      · by_cases hq : q = p
        · have hne : p ≠ k := fun h => hk h.symm
          simp [without, assoc, hk, hq, hne]
        · simp [without, assoc, hk, hq, ih]

private theorem assoc_eq_none_iff (entries : List (κ × ν)) (k : κ) :
    assoc entries k = none ↔ k ∉ entries.map Prod.fst := by
  induction entries with
  | nil => simp [assoc]
  | cons head rest ih =>
      obtain ⟨p, w⟩ := head
      by_cases hk : k = p
      · simp [assoc, hk]
      · simp only [assoc, hk, if_false, ih, List.map_cons, List.mem_cons, false_or]

private theorem mem_of_assoc {entries : List (κ × ν)} {k : κ} {v : ν}
    (h : assoc entries k = some v) : (k, v) ∈ entries := by
  induction entries with
  | nil => simp [assoc] at h
  | cons head rest ih =>
      obtain ⟨p, w⟩ := head
      by_cases hk : k = p
      · subst hk
        have hw : w = v := by simpa [assoc] using h
        simp [hw]
      · exact List.mem_cons_of_mem _ (ih (by simpa [assoc, hk] using h))

private theorem assoc_of_mem {entries : List (κ × ν)} {k : κ} {v : ν}
    (distinct : (entries.map Prod.fst).Nodup) (member : (k, v) ∈ entries) :
    assoc entries k = some v := by
  induction entries with
  | nil => cases member
  | cons head rest ih =>
      obtain ⟨p, w⟩ := head
      obtain ⟨absent, tail⟩ := List.nodup_cons.mp distinct
      rcases List.mem_cons.mp member with same | tailMember
      · cases same
        simp [assoc]
      · have hmem : k ∈ rest.map Prod.fst := List.mem_map.mpr ⟨(k, v), tailMember, rfl⟩
        have hne : k ≠ p := fun hk => absent (hk ▸ hmem)
        simpa [assoc, hne] using ih tail tailMember

private theorem assign_of_assoc {entries : List (κ × ν)} {k : κ} {v : ν}
    (h : assoc entries k = some v) : assign entries k v = entries := by
  induction entries with
  | nil => simp [assoc] at h
  | cons head rest ih =>
      obtain ⟨p, w⟩ := head
      by_cases hk : k = p
      · subst hk
        have hw : w = v := by simpa [assoc] using h
        simp [assign, hw]
      · simp [assign, hk, ih (by simpa [assoc, hk] using h)]

private theorem assign_assign (entries : List (κ × ν)) (k : κ) (v w : ν) :
    assign (assign entries k v) k w = assign entries k w := by
  induction entries with
  | nil => simp [assign]
  | cons head rest ih =>
      obtain ⟨p, u⟩ := head
      by_cases hk : k = p <;> simp [assign, hk, ih]

private theorem assign_of_assoc_none {entries : List (κ × ν)} {k : κ} (v : ν)
    (h : assoc entries k = none) : assign entries k v = entries ++ [(k, v)] := by
  induction entries with
  | nil => rfl
  | cons head rest ih =>
      obtain ⟨p, w⟩ := head
      by_cases hk : k = p
      · simp [assoc, hk] at h
      · simp [assign, hk, ih (by simpa [assoc, hk] using h)]

private theorem without_of_assoc_none {entries : List (κ × ν)} {k : κ}
    (h : assoc entries k = none) : without entries k = entries := by
  induction entries with
  | nil => rfl
  | cons head rest ih =>
      obtain ⟨p, w⟩ := head
      by_cases hk : k = p
      · simp [assoc, hk] at h
      · simp [without, hk, ih (by simpa [assoc, hk] using h)]

private theorem without_append_singleton (entries : List (κ × ν)) (k : κ) (v : ν) :
    without (entries ++ [(k, v)]) k = without entries k := by
  induction entries with
  | nil => simp [without]
  | cons head rest ih =>
      obtain ⟨p, w⟩ := head
      by_cases hk : k = p <;> simp [without, hk, ih]
      subst hk
      exact ih

private theorem entries_ext {left right : List (κ × ν)}
    (keys : left.map Prod.fst = right.map Prod.fst) (distinct : (left.map Prod.fst).Nodup)
    (same : ∀ k, assoc left k = assoc right k) : left = right := by
  induction left generalizing right with
  | nil =>
      cases right with
      | nil => rfl
      | cons _ _ => cases keys
  | cons head rest ih =>
      obtain ⟨k, v⟩ := head
      cases right with
      | nil => cases keys
      | cons head' rest' =>
          obtain ⟨q, w⟩ := head'
          obtain ⟨rfl, tails⟩ := List.cons.inj keys
          obtain ⟨absent, tail⟩ := List.nodup_cons.mp distinct
          have hv : v = w := by simpa [assoc] using same k
          have hrest : rest = rest' := by
            refine ih tails tail fun p => ?_
            by_cases hp : p = k
            · subst hp
              rw [(assoc_eq_none_iff rest p).mpr absent,
                (assoc_eq_none_iff rest' p).mpr (tails ▸ absent)]
            · simpa [assoc, hp] using same p
          rw [hv, hrest]

end Association

/-- Association lists with distinct keys, in insertion order. -/
@[ext]
structure Dict (κ ν : Type*) where
  entries : List (κ × ν)
  nodup : (entries.map Prod.fst).Nodup
  deriving DecidableEq

namespace Dict

variable {κ ν : Type*}

def empty : Dict κ ν := ⟨[], List.nodup_nil⟩

def keys (d : Dict κ ν) : List κ := d.entries.map Prod.fst

def values (d : Dict κ ν) : List ν := d.entries.map Prod.snd

theorem nodup_keys (d : Dict κ ν) : d.keys.Nodup := d.nodup

@[simp] theorem keys_empty : (empty : Dict κ ν).keys = [] := rfl

variable [DecidableEq κ]

def get? (d : Dict κ ν) (k : κ) : Option ν := assoc d.entries k

/-- `d[k] = v`. -/
def set (d : Dict κ ν) (k : κ) (v : ν) : Dict κ ν :=
  ⟨assign d.entries k v, by
    rw [keys_assign]
    split
    · exact d.nodup
    · rw [← List.concat_eq_append]
      exact d.nodup.concat ‹_›⟩

/-- `del d[k]`. -/
def erase (d : Dict κ ν) (k : κ) : Dict κ ν :=
  ⟨without d.entries k, d.nodup.sublist ((without_sublist d.entries k).map Prod.fst)⟩

/-- `{key: value for key, value in items}`: the last value of a key wins. -/
def ofList (items : List (κ × ν)) : Dict κ ν :=
  items.foldl (fun d item => d.set item.1 item.2) empty

/-- `{key: f(value) for key, value in d.items()}` -/
def mapValues {μ : Type*} (f : ν → μ) (d : Dict κ ν) : Dict κ μ :=
  ⟨d.entries.map fun item => (item.1, f item.2), by
    rw [List.map_map]
    exact d.nodup⟩

theorem get?_mapValues {μ : Type*} (f : ν → μ) (d : Dict κ ν) (k : κ) :
    (d.mapValues f).get? k = (d.get? k).map f := by
  have each (entries : List (κ × ν)) :
      assoc (entries.map fun item => (item.1, f item.2)) k = (assoc entries k).map f := by
    induction entries with
    | nil => rfl
    | cons item entries ih =>
        obtain ⟨q, w⟩ := item
        rw [List.map_cons, assoc, assoc, ih]
        split <;> rfl
  exact each d.entries

@[simp] theorem get?_empty (k : κ) : (empty : Dict κ ν).get? k = none := rfl

theorem get?_set (d : Dict κ ν) (k q : κ) (v : ν) :
    (d.set k v).get? q = if q = k then some v else d.get? q :=
  assoc_assign d.entries k q v

@[simp] theorem get?_set_self (d : Dict κ ν) (k : κ) (v : ν) :
    (d.set k v).get? k = some v := by
  rw [get?_set, if_pos rfl]

theorem get?_set_eq_update (d : Dict κ ν) (k : κ) (v : ν) :
    (d.set k v).get? = Function.update d.get? k (some v) := by
  funext q
  rw [get?_set, Function.update_apply]

/-- `setdefault`, where what is there already is the value that is offered. -/
theorem get?_set_eq_some_of_kept {d : Dict κ ν} {k : κ} {v : ν} (kept : (d.get? k).getD v = v)
    (q : κ) (w : ν) : (d.set k v).get? q = some w ↔ (q, w) = (k, v) ∨ d.get? q = some w := by
  rw [get?_set]
  by_cases same : q = k
  · subst same
    rw [if_pos rfl]
    constructor
    · intro here
      cases here
      exact Or.inl rfl
    · rintro (here | found)
      · cases here
        rfl
      · rw [found] at kept
        exact congrArg some kept.symm
  · rw [if_neg same]
    exact (or_iff_right fun here => same (congrArg Prod.fst here)).symm

theorem get?_set_of_ne (d : Dict κ ν) {k q : κ} (v : ν) (h : q ≠ k) :
    (d.set k v).get? q = d.get? q := by
  rw [get?_set, if_neg h]

/-- A dictionary can be filled for keys that differ. -/
theorem exists_get? {α : Type*} (value : α → ν) {key : α → κ} {items : List α}
    (distinct : (items.map key).Nodup) :
    ∃ d : Dict κ ν, ∀ a ∈ items, d.get? (key a) = some (value a) := by
  induction items with
  | nil => exact ⟨.empty, fun _ member => absurd member List.not_mem_nil⟩
  | cons a items ih =>
      rw [List.map_cons, List.nodup_cons, List.mem_map] at distinct
      obtain ⟨d, each⟩ := ih distinct.2
      refine ⟨d.set (key a) (value a), fun b member => ?_⟩
      rcases List.mem_cons.mp member with rfl | member
      · exact get?_set_self d (key b) (value b)
      · rw [get?_set_of_ne d _ fun same => distinct.1 ⟨b, member, same⟩]
        exact each b member

theorem get?_erase (d : Dict κ ν) (k q : κ) :
    (d.erase k).get? q = if q = k then none else d.get? q :=
  assoc_without d.entries k q

/-- `len(d)` -/
def size (d : Dict κ ν) : Nat := d.entries.length

omit [DecidableEq κ] in
@[simp] theorem size_empty : (empty : Dict κ ν).size = 0 := rfl

theorem size_erase_le (d : Dict κ ν) (k : κ) : (d.erase k).size ≤ d.size :=
  (without_sublist d.entries k).length_le

/-- Deleting a present key makes the dictionary smaller. -/
theorem size_erase_lt {d : Dict κ ν} {k : κ} {v : ν} (present : d.get? k = some v) :
    (d.erase k).size < d.size := by
  apply lt_of_le_of_ne (d.size_erase_le k)
  intro same
  have whole : without d.entries k = d.entries :=
    (without_sublist d.entries k).eq_of_length same
  have gone : (d.erase k).get? k = none := by rw [get?_erase, if_pos rfl]
  change assoc (without d.entries k) k = none at gone
  rw [whole] at gone
  exact Option.some_ne_none v (present.symm.trans gone)

theorem get?_eq_none_iff (d : Dict κ ν) (k : κ) : d.get? k = none ↔ k ∉ d.keys :=
  assoc_eq_none_iff d.entries k

theorem mem_entries_iff (d : Dict κ ν) (k : κ) (v : ν) :
    (k, v) ∈ d.entries ↔ d.get? k = some v :=
  ⟨assoc_of_mem d.nodup, mem_of_assoc⟩

theorem mem_keys_of_get? {d : Dict κ ν} {k : κ} {v : ν} (h : d.get? k = some v) :
    k ∈ d.keys :=
  List.mem_map_of_mem (f := Prod.fst) (mem_of_assoc h)

theorem get?_of_mem_keys {d : Dict κ ν} {k : κ} (h : k ∈ d.keys) : ∃ v, d.get? k = some v := by
  by_contra absent
  have : d.get? k = none := by
    cases hv : d.get? k with
    | none => rfl
    | some v => exact absurd ⟨v, hv⟩ absent
  exact (d.get?_eq_none_iff k).mp this h

theorem mem_values_iff (d : Dict κ ν) (v : ν) : v ∈ d.values ↔ ∃ k, d.get? k = some v := by
  constructor
  · intro member
    obtain ⟨⟨k, w⟩, hentry, rfl⟩ := List.mem_map.mp member
    exact ⟨k, assoc_of_mem d.nodup hentry⟩
  · rintro ⟨k, h⟩
    exact List.mem_map_of_mem (f := Prod.snd) (mem_of_assoc h)

/-- Values that know their keys stand in the order of the keys. -/
theorem map_values_eq_keys {d : Dict κ ν} {key : ν → κ}
    (own : ∀ {k v}, d.get? k = some v → key v = k) : d.values.map key = d.keys := by
  rw [values, keys, List.map_map]
  refine List.map_congr_left fun entry member => ?_
  exact own ((d.mem_entries_iff entry.1 entry.2).mp member)

theorem keys_set_of_get? {d : Dict κ ν} {k : κ} {w : ν} (v : ν) (h : d.get? k = some w) :
    (d.set k v).keys = d.keys := by
  have member : k ∈ d.entries.map Prod.fst := mem_keys_of_get? h
  change (assign d.entries k v).map Prod.fst = _
  rw [keys_assign, if_pos member]
  rfl

/-- Dictionaries with the same keys in the same order and the same values are equal. -/
theorem ext_get? {d e : Dict κ ν} (keys : d.keys = e.keys) (same : ∀ k, d.get? k = e.get? k) :
    d = e :=
  Dict.ext (entries_ext keys d.nodup same)

/-- Writing back the value a key already has changes nothing. -/
theorem set_of_get? {d : Dict κ ν} {k : κ} {v : ν} (h : d.get? k = some v) :
    d.set k v = d :=
  Dict.ext (assign_of_assoc h)

/-- A second assignment to a key hides the first. -/
@[simp] theorem set_set (d : Dict κ ν) (k : κ) (v w : ν) :
    (d.set k v).set k w = d.set k w :=
  Dict.ext (assign_assign d.entries k v w)

/-- Deleting a key that was just added restores the dictionary. -/
theorem erase_set_of_get?_none {d : Dict κ ν} {k : κ} (v : ν) (h : d.get? k = none) :
    (d.set k v).erase k = d := by
  apply Dict.ext
  change without (assign d.entries k v) k = d.entries
  rw [assign_of_assoc_none v h, without_append_singleton, without_of_assoc_none h]

theorem entries_set_of_get?_none {d : Dict κ ν} {k : κ} (v : ν) (h : d.get? k = none) :
    (d.set k v).entries = d.entries ++ [(k, v)] :=
  assign_of_assoc_none v h

theorem entries_erase_of_cons {d : Dict κ ν} {k : κ} {v : ν} {rest : List (κ × ν)}
    (first : d.entries = (k, v) :: rest) : (d.erase k).entries = rest := by
  have nodup := d.nodup
  rw [first, List.map_cons, List.nodup_cons] at nodup
  change without d.entries k = rest
  rw [first, without, if_pos rfl]
  exact without_of_assoc_none ((assoc_eq_none_iff rest k).mpr nodup.1)

theorem size_set_of_get? {d : Dict κ ν} {k : κ} {w : ν} (v : ν) (h : d.get? k = some w) :
    (d.set k v).size = d.size := by
  have keys := congrArg List.length (keys_set_of_get? v h)
  rwa [Dict.keys, Dict.keys, List.length_map, List.length_map] at keys

theorem size_set_of_get?_none {d : Dict κ ν} {k : κ} (v : ν) (h : d.get? k = none) :
    (d.set k v).size = d.size + 1 := by
  rw [size, entries_set_of_get?_none v h, List.length_append, List.length_singleton]
  rfl

private theorem mem_of_get?_foldl {items : List (κ × ν)} {d : Dict κ ν} {k : κ} {v : ν}
    (found : (items.foldl (fun d item => d.set item.1 item.2) d).get? k = some v) :
    (k, v) ∈ items ∨ d.get? k = some v := by
  induction items generalizing d with
  | nil => exact .inr found
  | cons item items ih =>
      rcases ih found with later | here
      · exact .inl (List.mem_cons_of_mem _ later)
      · rw [get?_set] at here
        split at here
        · rename_i same
          cases here
          exact .inl (same ▸ List.mem_cons_self)
        · exact .inr here

/-- What a dictionary built from items holds is one of them. -/
theorem mem_of_get?_ofList {items : List (κ × ν)} {k : κ} {v : ν}
    (found : (ofList items).get? k = some v) : (k, v) ∈ items := by
  rcases mem_of_get?_foldl found with member | none_left
  · exact member
  · cases none_left

theorem ofList_append_singleton (items : List (κ × ν)) (item : κ × ν) :
    ofList (items ++ [item]) = (ofList items).set item.1 item.2 := by
  rw [ofList, List.foldl_append]
  rfl

theorem mem_keys_ofList {items : List (κ × ν)} {k : κ} (member : k ∈ items.map Prod.fst) :
    k ∈ (ofList items).keys := by
  induction items using List.reverseRecOn with
  | nil => cases member
  | append_singleton items item ih =>
      rw [ofList_append_singleton]
      by_cases same : k = item.1
      · rw [same]
        exact mem_keys_of_get? (get?_set_self _ item.1 item.2)
      · rw [List.map_append, List.mem_append] at member
        have before := member.resolve_right fun here => same (List.mem_singleton.mp here)
        obtain ⟨v, found⟩ := get?_of_mem_keys (ih before)
        exact mem_keys_of_get? ((get?_set_of_ne _ _ same).trans found)

/-- Items without a repeated key are entered as they come. -/
theorem entries_ofList {items : List (κ × ν)} (nodup : (items.map Prod.fst).Nodup) :
    (ofList items).entries = items := by
  induction items using List.reverseRecOn with
  | nil => rfl
  | append_singleton items item ih =>
      rw [List.map_append, List.nodup_append] at nodup
      have before := ih nodup.1
      have fresh : (ofList items).get? item.1 = none := by
        rw [get?_eq_none_iff, keys, before]
        exact fun member => nodup.2.2 _ member _ (by simp) rfl
      rw [ofList_append_singleton, entries_set_of_get?_none item.2 fresh, before]

end Dict

end Cinegraph.Library
