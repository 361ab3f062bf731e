import Mathlib.Data.List.Nodup
import Mathlib.Data.Prod.Lex
import Mathlib.Data.Set.Function
import Mathlib.Order.Bounds.Basic

/-!
Merging that does not look at the order of what comes in: the best of what is offered under each
key, the first of each class in a sorted list, and lists that are sorted by a key of their own.
-/

namespace Cinegraph.Library

section Gathered

variable {ι ο : Type*}

/-- What the items of a list offer together. -/
def gathered (offers : ι → Set ο) (items : List ι) : Set ο := {o | ∃ item ∈ items, o ∈ offers item}

@[simp] theorem gathered_nil (offers : ι → Set ο) : gathered offers [] = ∅ := by
  ext o
  exact iff_of_false (fun ⟨_, member, _⟩ => List.not_mem_nil member) (Set.notMem_empty o)

theorem gathered_concat (offers : ι → Set ο) (items : List ι) (item : ι) :
    gathered offers (items ++ [item]) = offers item ∪ gathered offers items := by
  ext o
  constructor
  · rintro ⟨other, member, offered⟩
    rcases List.mem_append.mp member with before | last
    · exact Or.inr ⟨other, before, offered⟩
    · exact Or.inl (List.mem_singleton.mp last ▸ offered)
  · rintro (offered | ⟨other, before, offered⟩)
    · exact ⟨item, List.mem_append_right _ List.mem_cons_self, offered⟩
    · exact ⟨other, List.mem_append_left _ before, offered⟩

theorem gathered_congr (offers : ι → Set ο) {items others : List ι}
    (same : ∀ item, item ∈ items ↔ item ∈ others) : gathered offers items = gathered offers others := by
  ext o
  exact exists_congr fun item => and_congr_left fun _ => same item

end Gathered

section Best

variable {κ ν α : Type*} [LinearOrder α]

/-- Under each key a value stands that ranks as the best of the offers there. -/
structure Best (rank : ν → α) (offers : Set (κ × ν)) (kept : κ → Option ν) : Prop where
  greatest : ∀ {k v}, kept k = some v → IsGreatest {a | ∃ w, (k, w) ∈ offers ∧ rank w = a} (rank v)
  present : ∀ {k v}, (k, v) ∈ offers → (kept k).isSome

variable {rank : ν → α} {offers : Set (κ × ν)} {kept : κ → Option ν}

theorem Best.empty : Best rank (∅ : Set (κ × ν)) fun _ => none where
  greatest := by rintro k v ⟨⟩
  present := by rintro k v ⟨⟩

/-- The offers settle what is kept, up to its rank. -/
theorem Best.rank_eq {other : κ → Option ν} (best : Best rank offers kept)
    (best_other : Best rank offers other) (k : κ) : (kept k).map rank = (other k).map rank := by
  have present {one another : κ → Option ν} {v : ν} (best_one : Best rank offers one)
      (best_another : Best rank offers another) (found : one k = some v) : (another k).isSome := by
    obtain ⟨w, offered, -⟩ := (best_one.greatest found).1
    exact best_another.present offered
  cases found : kept k with
  | none =>
      cases found_other : other k with
      | none => rfl
      | some w =>
          have some_kept := present best_other best found_other
          rw [found] at some_kept
          cases some_kept
  | some v =>
      have some_other := present best best_other found
      obtain ⟨w, found_other⟩ := Option.isSome_iff_exists.mp some_other
      rw [found_other, Option.map_some, Option.map_some,
        (best.greatest found).unique (best_other.greatest found_other)]

variable [DecidableEq κ]

/-- An offer under a key that has none, or better than what is kept. -/
theorem Best.take {k : κ} {v new : ν} (best : Best rank offers kept)
    (better : ∀ old, kept k = some old → rank old ≤ rank v) (ranks : rank new = rank v) :
    Best rank (insert (k, v) offers) (Function.update kept k (some new)) where
  greatest {q} w found := by
    by_cases same : q = k
    · subst same
      rw [Function.update_self] at found
      cases found
      refine ⟨⟨v, Set.mem_insert _ _, ranks.symm⟩, ?_⟩
      rintro a ⟨x, offered, rfl⟩
      rcases Set.mem_insert_iff.mp offered with here | before
      · rw [(Prod.mk.inj here).2]
        exact ranks.ge
      · obtain ⟨old, found⟩ := Option.isSome_iff_exists.mp (best.present before)
        calc rank x ≤ rank old := (best.greatest found).2 ⟨x, before, rfl⟩
          _ ≤ rank v := better old found
          _ = rank new := ranks.symm
    · rw [Function.update_of_ne same] at found
      obtain ⟨⟨x, offered, ranked⟩, upper⟩ := best.greatest found
      refine ⟨⟨x, Set.mem_insert_of_mem _ offered, ranked⟩, ?_⟩
      rintro a ⟨x, offered, rfl⟩
      rcases Set.mem_insert_iff.mp offered with here | before
      · exact absurd (congrArg Prod.fst here) same
      · exact upper ⟨x, before, rfl⟩
  present {q} w offered := by
    by_cases same : q = k
    · rw [same, Function.update_self]
      rfl
    · rw [Function.update_of_ne same]
      rcases Set.mem_insert_iff.mp offered with here | before
      · exact absurd (congrArg Prod.fst here) same
      · exact best.present before

omit [DecidableEq κ] in
/-- An offer that is not better than what is kept. -/
theorem Best.leave {k : κ} {v old : ν} (best : Best rank offers kept) (found : kept k = some old)
    (worse : rank v ≤ rank old) : Best rank (insert (k, v) offers) kept where
  greatest {q} w found_q := by
    obtain ⟨⟨x, offered, ranked⟩, upper⟩ := best.greatest found_q
    refine ⟨⟨x, Set.mem_insert_of_mem _ offered, ranked⟩, ?_⟩
    rintro a ⟨x, offered, rfl⟩
    rcases Set.mem_insert_iff.mp offered with here | before
    · cases here
      rw [found] at found_q
      cases found_q
      exact worse
    · exact upper ⟨x, before, rfl⟩
  present {q} w offered := by
    rcases Set.mem_insert_iff.mp offered with here | before
    · cases here
      rw [found]
      rfl
    · exact best.present before

end Best

section Sorted

variable {ι β γ : Type*} [LinearOrder β]

/-- `sorted(items, key=…)` -/
def sortedBy (key : ι → β) (items : List ι) : List ι :=
  items.mergeSort fun a b => decide (key a ≤ key b)

theorem mem_sortedBy {key : ι → β} {items : List ι} {item : ι} :
    item ∈ sortedBy key items ↔ item ∈ items := List.mem_mergeSort

theorem sortedBy_perm (key : ι → β) (items : List ι) : (sortedBy key items).Perm items :=
  List.mergeSort_perm _ _

theorem sortedBy_pairwise (key : ι → β) (items : List ι) :
    (sortedBy key items).Pairwise fun a b => key a ≤ key b := by
  have sorted := @List.pairwise_mergeSort _ (fun a b => decide (key a ≤ key b))
    (fun a b c ab bc => decide_eq_true ((of_decide_eq_true ab).trans (of_decide_eq_true bc)))
    (fun a b => by simpa using le_total (key a) (key b)) items
  exact sorted.imp fun le => of_decide_eq_true le

theorem sortedBy_eq_self {key : ι → β} {items : List ι}
    (sorted : items.Pairwise fun a b => key a ≤ key b) : sortedBy key items = items :=
  List.mergeSort_of_pairwise (sorted.imp fun le => decide_eq_true le)

theorem length_sortedBy (key : ι → β) (items : List ι) : (sortedBy key items).length = items.length :=
  (sortedBy_perm key items).length_eq

/-- The least item of a list comes first when the list is sorted. -/
theorem head?_sortedBy {key : ι → β} {items : List ι} (apart : Set.InjOn key {i | i ∈ items})
    {first : ι} (member : first ∈ items) (least : ∀ item ∈ items, key first ≤ key item) :
    (sortedBy key items).head? = some first := by
  have inside : first ∈ sortedBy key items := mem_sortedBy.mpr member
  have sorted := sortedBy_pairwise key items
  have members : ∀ item ∈ sortedBy key items, item ∈ items := fun item => mem_sortedBy.mp
  cases shape : sortedBy key items with
  | nil => simp [shape] at inside
  | cons head rest =>
      rw [shape] at inside sorted members
      have head_member := members head List.mem_cons_self
      have below : key head ≤ key first := by
        rcases List.mem_cons.mp inside with rfl | later
        · exact le_rfl
        · exact (List.pairwise_cons.mp sorted).1 first later
      rw [List.head?_cons, apart head_member member (le_antisymm below (least head head_member))]

/-- Lists sorted by a key that tells their members apart are equal when their members are. -/
theorem eq_of_sorted {key : ι → β} {left right : List ι}
    (sorted_left : left.Pairwise fun a b => key a ≤ key b)
    (sorted_right : right.Pairwise fun a b => key a ≤ key b) (once_left : left.Nodup)
    (once_right : right.Nodup) (same : ∀ item, item ∈ left ↔ item ∈ right)
    (apart : Set.InjOn key {item | item ∈ left}) : left = right := by
  have perm : left.Perm right := (List.perm_ext_iff_of_nodup once_left once_right).mpr same
  refine perm.eq_of_pairwise ?_ sorted_left sorted_right
  intro a b member member_right ab ba
  exact apart member ((same b).mpr member_right) (le_antisymm ab ba)

omit [LinearOrder β] in
/-- Where one key is a function of another, what is distinct by the first is so by the second. -/
theorem nodup_map_of_determined {f : ι → β} {g : ι → γ} {items : List ι}
    (once : (items.map f).Nodup)
    (determined : ∀ a ∈ items, ∀ b ∈ items, g a = g b → f a = f b) : (items.map g).Nodup :=
  once.of_map.map_on fun a member b member_b same =>
    List.inj_on_of_nodup_map once member member_b (determined a member b member_b same)

theorem sortedBy_eq {key : ι → β} {left right : List ι} (once_left : (left.map key).Nodup)
    (once_right : (right.map key).Nodup) (same : ∀ item, item ∈ left ↔ item ∈ right) :
    sortedBy key left = sortedBy key right := by
  refine eq_of_sorted (sortedBy_pairwise key left) (sortedBy_pairwise key right)
    ((sortedBy_perm key left).nodup_iff.mpr once_left.of_map)
    ((sortedBy_perm key right).nodup_iff.mpr once_right.of_map) ?_ ?_
  · intro item
    rw [mem_sortedBy, mem_sortedBy]
    exact same item
  · intro a member b member_b equal
    exact List.inj_on_of_nodup_map once_left (mem_sortedBy.mp member) (mem_sortedBy.mp member_b) equal

variable [DecidableEq γ]

/-- The items whose class was not seen before. -/
def firstOfEach (cls : ι → γ) : List γ → List ι → List ι
  | _, [] => []
  | seen, item :: rest =>
      if cls item ∈ seen then firstOfEach cls seen rest
      else item :: firstOfEach cls (cls item :: seen) rest

omit [LinearOrder β] in
theorem firstOfEach_sublist (cls : ι → γ) (seen : List γ) (items : List ι) :
    (firstOfEach cls seen items).Sublist items := by
  induction items generalizing seen with
  | nil => exact List.Sublist.refl _
  | cons item rest ih =>
      unfold firstOfEach
      split
      · exact (ih seen).cons item
      · exact (ih _).cons_cons item

theorem cls_of_mem_firstOfEach {cls : ι → γ} {seen : List γ} {items : List ι} {item : ι}
    (member : item ∈ firstOfEach cls seen items) : cls item ∉ seen := by
  induction items generalizing seen with
  | nil => cases member
  | cons head rest ih =>
      unfold firstOfEach at member
      split at member
      · exact ih member
      · rename_i fresh
        rcases List.mem_cons.mp member with rfl | later
        · exact fresh
        · exact fun old => ih later (List.mem_cons_of_mem _ old)

theorem nodup_firstOfEach (cls : ι → γ) (seen : List γ) (items : List ι) :
    ((firstOfEach cls seen items).map cls).Nodup := by
  induction items generalizing seen with
  | nil => exact List.nodup_nil
  | cons head rest ih =>
      unfold firstOfEach
      split
      · exact ih seen
      · rw [List.map_cons, List.nodup_cons]
        refine ⟨fun again => ?_, ih _⟩
        obtain ⟨item, member, same⟩ := List.mem_map.mp again
        exact cls_of_mem_firstOfEach member (same ▸ List.mem_cons_self)

omit [LinearOrder β] in
/-- Where all items are of one class, the first of them is left. -/
theorem firstOfEach_of_one {cls : ι → γ} {items : List ι} {c : γ} (one : ∀ item ∈ items, cls item = c) :
    firstOfEach cls [] items = items.head?.toList := by
  have seen {rest : List ι} (one : ∀ item ∈ rest, cls item = c) : firstOfEach cls [c] rest = [] := by
    refine List.eq_nil_iff_forall_not_mem.mpr fun item member => ?_
    apply cls_of_mem_firstOfEach member
    rw [one item ((firstOfEach_sublist cls [c] rest).subset member)]
    exact List.mem_singleton_self c
  cases items with
  | nil => rfl
  | cons head rest =>
      rw [List.forall_mem_cons] at one
      rw [firstOfEach, if_neg List.not_mem_nil, one.1, seen one.2]
      rfl

/-- In a sorted list the first of a class has the least key of it. -/
theorem mem_firstOfEach {key : ι → β} {cls : ι → γ} (seen : List γ) {items : List ι}
    (sorted : items.Pairwise fun a b => key a ≤ key b) (apart : Set.InjOn key {i | i ∈ items})
    (item : ι) :
    item ∈ firstOfEach cls seen items ↔ item ∈ items ∧ cls item ∉ seen ∧
      ∀ other ∈ items, cls other = cls item → key item ≤ key other := by
  induction items generalizing seen with
  | nil => exact iff_of_false List.not_mem_nil fun h => List.not_mem_nil h.1
  | cons head rest ih =>
      obtain ⟨least, sorted⟩ := List.pairwise_cons.mp sorted
      have apart_rest : Set.InjOn key {i | i ∈ rest} := apart.mono fun _ => List.mem_cons_of_mem _
      unfold firstOfEach
      split
      · rename_i old
        rw [ih seen sorted apart_rest]
        constructor
        · rintro ⟨member, fresh, first⟩
          refine ⟨List.mem_cons_of_mem _ member, fresh, fun other there same => ?_⟩
          rcases List.mem_cons.mp there with rfl | later
          · exact absurd (same ▸ old) fresh
          · exact first other later same
        · rintro ⟨member, fresh, first⟩
          refine ⟨?_, fresh, fun other later => first other (List.mem_cons_of_mem _ later)⟩
          rcases List.mem_cons.mp member with rfl | later
          · exact absurd old fresh
          · exact later
      · rename_i new
        rw [List.mem_cons, ih _ sorted apart_rest]
        constructor
        · rintro (rfl | ⟨member, fresh, first⟩)
          · refine ⟨List.mem_cons_self, new, fun other there _ => ?_⟩
            rcases List.mem_cons.mp there with rfl | later
            · exact le_rfl
            · exact least other later
          · rw [List.mem_cons, not_or] at fresh
            refine ⟨List.mem_cons_of_mem _ member, fresh.2, fun other there same => ?_⟩
            rcases List.mem_cons.mp there with rfl | later
            · exact absurd same.symm fresh.1
            · exact first other later same
        · rintro ⟨member, fresh, first⟩
          by_cases same : cls item = cls head
          · left
            refine apart member List.mem_cons_self (le_antisymm ?_ ?_)
            · exact first head List.mem_cons_self same.symm
            · rcases List.mem_cons.mp member with rfl | later
              · exact le_rfl
              · exact least item later
          · right
            rcases List.mem_cons.mp member with rfl | later
            · exact absurd rfl same
            · refine ⟨later, ?_, fun other there => first other (List.mem_cons_of_mem _ there)⟩
              rw [List.mem_cons, not_or]
              exact ⟨same, fresh⟩

/-- What is left of a list that is sorted and thinned depends on its members only. -/
theorem firstOfEach_sortedBy_eq {key : ι → β} {cls : ι → γ} {left right : List ι}
    (same : ∀ item, item ∈ left ↔ item ∈ right) (apart : Set.InjOn key {i | i ∈ left}) :
    firstOfEach cls [] (sortedBy key left) = firstOfEach cls [] (sortedBy key right) := by
  have apart_left : Set.InjOn key {i | i ∈ sortedBy key left} :=
    apart.mono fun _ => mem_sortedBy.mp
  have apart_right : Set.InjOn key {i | i ∈ sortedBy key right} :=
    apart.mono fun item member => (same item).mpr (mem_sortedBy.mp member)
  refine @eq_of_sorted _ _ _ key _ _
    ((sortedBy_pairwise key left).sublist (firstOfEach_sublist cls [] _))
    ((sortedBy_pairwise key right).sublist (firstOfEach_sublist cls [] _))
    (nodup_firstOfEach cls [] _).of_map (nodup_firstOfEach cls [] _).of_map ?_ ?_
  · intro item
    rw [mem_firstOfEach [] (sortedBy_pairwise key left) apart_left,
      mem_firstOfEach [] (sortedBy_pairwise key right) apart_right]
    simp only [mem_sortedBy, same]
  · exact apart_left.mono fun item member => (firstOfEach_sublist cls [] _).subset member

end Sorted

end Cinegraph.Library
