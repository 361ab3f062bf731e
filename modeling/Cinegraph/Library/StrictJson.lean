import Cinegraph.Library.JsonReader

/-!
`json.loads` on a text that may not repeat a key or name a constant, and the packed text of a value.
A packed text is read back as the value that it came from.
-/

namespace Cinegraph.Library

namespace Json

section Order

theorem sortFields_eq_map (items : List (String × Json)) :
    sortFields items = items.map fun item => (item.1, item.2.sortKeys) := by
  induction items with
  | nil => rfl
  | cons item items ih => rw [sortFields, ih, List.map_cons]

/-- An object without a repeated key has one sorted form, whatever the order of its items. -/
theorem sortItems_of_perm {items others : List (String × Json)} (perm : items.Perm others)
    (nodup : (items.map Prod.fst).Nodup) : sortItems items = sortItems others := by
  have same : (sortItems items).Perm (sortItems others) :=
    (sortItems_perm items).trans (perm.trans (sortItems_perm others).symm)
  refine same.eq_of_pairwise (fun a b here there below above => ?_)
    (List.pairwise_insertionSort _ items) (List.pairwise_insertionSort _ others)
  have left := (sortItems_perm items).mem_iff.mp here
  have right := perm.mem_iff.mpr ((sortItems_perm others).mem_iff.mp there)
  exact List.inj_on_of_nodup_map nodup left right (String.le_antisymm below above)

theorem sortKeys_of_perm {items others : List (String × Json)} (perm : items.Perm others)
    (nodup : (items.map Prod.fst).Nodup) : (Json.obj items).sortKeys = (Json.obj others).sortKeys := by
  rw [sortKeys, sortKeys, sortFields_eq_map, sortFields_eq_map, sortItems_of_perm (perm.map _)]
  rwa [List.map_map]

theorem sortFields_sortItems (items : List (String × Json)) :
    sortFields (sortItems items) = sortItems (sortFields items) := by
  rw [sortFields_eq_map, sortFields_eq_map]
  exact List.map_insertionSort _ _ _ _ fun _ _ _ _ => Iff.rfl

mutual

/-- Sorting the keys again changes nothing. -/
theorem sortKeys_sortKeys : ∀ a : Json, a.sortKeys.sortKeys = a.sortKeys
  | .null | .bool _ | .int _ | .float _ | .str _ => by simp [sortKeys]
  | .arr items => by rw [sortKeys, sortKeys, sortAll_sortAll items]
  | .obj items => by
      rw [sortKeys, sortKeys, sortFields_sortItems, sortFields_sortFields items, sortItems, sortItems,
        (List.pairwise_insertionSort _ _).insertionSort_eq]

theorem sortAll_sortAll : ∀ as : List Json, sortAll (sortAll as) = sortAll as
  | [] => rfl
  | a :: as => by rw [sortAll, sortAll, sortKeys_sortKeys a, sortAll_sortAll as]

theorem sortFields_sortFields : ∀ as : List (String × Json), sortFields (sortFields as) = sortFields as
  | [] => rfl
  | (k, a) :: as => by rw [sortFields, sortFields, sortKeys_sortKeys a, sortFields_sortFields as]

end

mutual

/-- A value without floats and without a repeated key, with so many containers around one another. -/
def Fits : (depth : Nat) → Json → Prop
  | _, .null | _, .bool _ | _, .int _ | _, .str _ => True
  | _, .float _ => False
  | 0, .arr _ => False
  | depth + 1, .arr items => FitsAll depth items
  | 0, .obj _ => False
  | depth + 1, .obj items => (items.map Prod.fst).Nodup ∧ FitsFields depth items

def FitsAll : (depth : Nat) → List Json → Prop
  | _, [] => True
  | depth, a :: as => Fits depth a ∧ FitsAll depth as

def FitsFields : (depth : Nat) → List (String × Json) → Prop
  | _, [] => True
  | depth, (_, a) :: as => Fits depth a ∧ FitsFields depth as

end

theorem fitsFields_iff {depth : Nat} (items : List (String × Json)) :
    FitsFields depth items ↔ ∀ item ∈ items, Fits depth item.2 := by
  induction items with
  | nil => simp [FitsFields]
  | cons item items ih =>
      obtain ⟨k, a⟩ := item
      simp [FitsFields, ih]

mutual

theorem fits_sortKeys : ∀ (depth : Nat) (a : Json), Fits depth a → Fits depth a.sortKeys
  | _, .null, fits | _, .bool _, fits | _, .int _, fits | _, .str _, fits => by rwa [sortKeys]
  | depth, .float _, fits => by cases depth <;> exact absurd fits (by simp [Fits])
  | 0, .arr _, fits => by exact absurd fits (by simp [Fits])
  | 0, .obj _, fits => by exact absurd fits (by simp [Fits])
  | depth + 1, .arr items, fits => by
      rw [Fits] at fits
      rw [sortKeys, Fits]
      exact fits_sortAll depth items fits
  | depth + 1, .obj items, fits => by
      rw [Fits] at fits
      rw [sortKeys, Fits]
      constructor
      · rw [((sortItems_perm _).map Prod.fst).nodup_iff, sortFields_keys]
        exact fits.1
      · have sorted := fits_sortFields depth items fits.2
        rw [fitsFields_iff] at sorted ⊢
        exact fun item member => sorted item ((sortItems_perm _).mem_iff.mp member)

theorem fits_sortAll : ∀ (depth : Nat) (as : List Json), FitsAll depth as → FitsAll depth (sortAll as)
  | _, [], fits => by rwa [sortAll]
  | depth, a :: as, fits => by
      rw [FitsAll] at fits
      rw [sortAll, FitsAll]
      exact ⟨fits_sortKeys depth a fits.1, fits_sortAll depth as fits.2⟩

theorem fits_sortFields : ∀ (depth : Nat) (as : List (String × Json)), FitsFields depth as →
    FitsFields depth (sortFields as)
  | _, [], fits => by rwa [sortFields]
  | depth, (k, a) :: as, fits => by
      rw [FitsFields] at fits
      rw [sortFields, FitsFields]
      exact ⟨fits_sortKeys depth a fits.1, fits_sortFields depth as fits.2⟩

end

end Order

/-- `json.dumps(value, ensure_ascii=False, sort_keys=True, separators=(",", ":"))` -/
def packedDumps [Floats] (value : Json) : List Char := write .packed value.sortKeys

end Json

namespace Loaded

open Json

/-- `object_pairs_hook=reject_duplicates` and a `parse_constant` that raises. -/
def Hooks.strict : Hooks :=
  ⟨false, fun items => if (items.map Prod.fst).Nodup then some items else none⟩

variable [Floats]

/-- `json.loads` with these hooks, where the stack takes so many containers around one another. -/
def loadsStrict (stack : Nat) (text : List Char) : Except LoadsError Loaded :=
  loads .strict (some stack) text

mutual

theorem reads_of_fits : ∀ (a : Json) (depth : Nat), Fits depth a → Reads .strict (some depth) a
  | .null, _, _ | .bool _, _, _ | .int _, _, _ | .str _, _, _ => by simp [Reads]
  | .float _, depth, fits => by cases depth <;> exact absurd fits (by simp [Fits])
  | .arr _, 0, fits | .obj _, 0, fits => absurd fits (by simp [Fits])
  | .arr items, depth + 1, fits => by
      rw [Fits] at fits
      exact ⟨some depth, rfl, readsAll_of_fits items depth fits⟩
  | .obj items, depth + 1, fits => by
      rw [Fits] at fits
      exact ⟨some depth, rfl, if_pos (nodup_keys_ofFields fits.1),
        readsFields_of_fits items depth fits.2⟩

theorem readsAll_of_fits : ∀ (as : List Json) (depth : Nat), FitsAll depth as →
    ReadsAll .strict (some depth) as
  | [], _, _ => by simp [ReadsAll]
  | a :: as, depth, fits => by
      rw [FitsAll] at fits
      exact ⟨reads_of_fits a depth fits.1, readsAll_of_fits as depth fits.2⟩

theorem readsFields_of_fits : ∀ (as : List (String × Json)) (depth : Nat), FitsFields depth as →
    ReadsFields .strict (some depth) as
  | [], _, _ => by simp [ReadsFields]
  | (k, a) :: as, depth, fits => by
      rw [FitsFields] at fits
      exact ⟨reads_of_fits a depth fits.1, readsFields_of_fits as depth fits.2⟩

end

/-- A packed line is read as the value that it came from. -/
theorem loadsStrict_packed {a : Json} {stack : Nat} (fits : Fits stack a) :
    loadsStrict stack (write .packed a ++ ['\n']) = .ok (ofJson a) :=
  loads_write readable_packed (reads_of_fits a stack fits) (by simp [isJsonSpace])

end Loaded

end Cinegraph.Library
