import Cinegraph.AgentJobs.Result
import Cinegraph.Library.Splitting

/-!
Normal forms of the names and predicates of the claim graph: a normal form is not blank, and the
normal form of a predicate is its own.
-/

namespace Cinegraph

open Library

variable [Normalization]

/-- Compatibility normalization leaves ASCII texts alone. -/
def KeepsAscii : Prop :=
  ∀ text : String, (∀ c ∈ text.toList, c.toNat < 128) → Normalization.nfkc text = text

/-- The normal form of a name has a character that is no space. -/
theorem exists_filled_of_identity {value normalized : String}
    (spells : normalizeGraphIdentity value = some normalized) :
    ∃ c ∈ normalized.toList, Text.isSpace c = false := by
  unfold normalizeGraphIdentity normalizeGraphDisplay at spells
  dsimp only at spells
  split at spells
  · cases spells
  · rename_i some_word
    obtain ⟨word, rest, words⟩ := List.exists_cons_of_ne_nil some_word
    rw [Option.map_some, Option.some.injEq] at spells
    have member : word ∈ ((Normalization.nfkc value).toList.splitOnP Text.isSpace).filter
        (· ≠ []) := by
      rw [words]
      exact List.mem_cons_self
    obtain ⟨piece, filled⟩ := List.mem_filter.mp member
    obtain ⟨c, tail, rfl⟩ := List.exists_cons_of_ne_nil (of_decide_eq_true filled)
    have solid : Text.isSpace c = false := not_of_mem_splitOnP piece List.mem_cons_self
    have inside : c ∈ [' '].intercalate ((c :: tail) :: rest) := by
      cases rest <;> simp [List.intercalate, List.intersperse]
    obtain ⟨folded, others, folds⟩ := List.exists_cons_of_length_pos
      (l := Text.foldChar c) (by
        rw [Text.foldChar, List.length_map]
        exact (Text.length_foldNat c.toNat).1)
    refine ⟨folded, ?_, ?_⟩
    · rw [← spells, words, Text.casefold, String.toList_ofList, String.toList_ofList, List.mem_flatMap]
      exact ⟨c, inside, folds ▸ List.mem_cons_self⟩
    · by_contra space
      rw [Bool.not_eq_false] at space
      have blank := Text.isSpace_of_foldChar (folds ▸ List.mem_cons_self) space
      rw [solid] at blank
      cases blank

theorem strip_of_identity {value normalized : String}
    (spells : normalizeGraphIdentity value = some normalized) : Text.strip normalized ≠ "" := by
  obtain ⟨c, member, filled⟩ := exists_filled_of_identity spells
  exact Text.strip_ne_empty member filled

/-- A word that normalization leaves alone is displayed as it is. -/
theorem normalizeGraphDisplay_solid {text : String} (kept : Normalization.nfkc text = text)
    (filled : text.toList ≠ []) (solid : ∀ c ∈ text.toList, Text.isSpace c = false) :
    normalizeGraphDisplay text = some text := by
  unfold normalizeGraphDisplay
  have whole : text.toList.splitOnP Text.isSpace = [text.toList] := List.splitOnP_eq_singleton solid
  have kept_word : [text.toList].filter (fun word => decide (word ≠ [])) = [text.toList] :=
    List.filter_cons_of_pos (decide_eq_true filled)
  dsimp only
  rw [kept, whole, kept_word, if_neg (List.cons_ne_nil _ _), List.intercalate_singleton,
    String.ofList_toList]

/-- A word of ASCII characters is displayed as it is. -/
theorem normalizeGraphDisplay_word (ascii : KeepsAscii) {text : String} (filled : text.toList ≠ [])
    (plain : ∀ c ∈ text.toList, c.toNat < 128 ∧ Text.isSpace c = false) :
    normalizeGraphDisplay text = some text :=
  normalizeGraphDisplay_solid (ascii text fun c member => (plain c member).1) filled
    fun c member => (plain c member).2

/-- The characters of a predicate. -/
def isPredicateChar (c : Char) : Bool := isLower c || isDigit c || c = '_'

omit [Normalization] in
theorem isPredicateChar_plain {c : Char} (plain : isPredicateChar c = true) :
    c.toNat < 128 ∧ Text.isSpace c = false ∧ Text.foldChar c = [c] ∧ c ≠ ' ' := by
  have each : ∀ n < 128, isPredicateChar (Char.ofNat n) = true →
      Text.isSpace (Char.ofNat n) = false ∧ Text.foldChar (Char.ofNat n) = [Char.ofNat n] ∧
        Char.ofNat n ≠ ' ' := by decide
  have small : c.toNat < 128 := by
    unfold isPredicateChar isLower isDigit at plain
    simp only [Bool.or_eq_true, Bool.and_eq_true, decide_eq_true_eq] at plain
    have low : '_'.toNat = 95 ∧ 'z'.toNat = 122 ∧ '9'.toNat = 57 := by decide
    rcases plain with (⟨-, upper⟩ | ⟨-, upper⟩) | rfl
    · have bound : c.toNat ≤ 'z'.toNat := UInt32.le_iff_toNat_le.mp (Char.le_def.mp upper)
      omega
    · have bound : c.toNat ≤ '9'.toNat := UInt32.le_iff_toNat_le.mp (Char.le_def.mp upper)
      omega
    · decide
  have here := each c.toNat small
  rw [Char.ofNat_toNat] at here
  exact ⟨small, here plain⟩

omit [Normalization] in
theorem isSnakeCase_chars {text : String} (snake : isSnakeCase text = true) :
    text.toList ≠ [] ∧ ∀ c ∈ text.toList, isPredicateChar c = true := by
  unfold isSnakeCase at snake
  split at snake
  · rename_i first rest groups pieces
    rw [Bool.and_eq_true, Bool.and_eq_true, List.all_eq_true, List.all_eq_true] at snake
    obtain ⟨⟨lower, letters⟩, each⟩ := snake
    refine ⟨fun empty => ?_, fun c member => ?_⟩
    · rw [empty] at pieces
      cases pieces
    · rcases mem_splitOnP (p := (· == '_')) member with separates | ⟨piece, among, inside⟩
      · rw [isPredicateChar, decide_eq_true (beq_iff_eq.mp separates), Bool.or_true]
      · have known : piece ∈ (first :: rest) :: groups := pieces ▸ among
        have letter : c = first ∨ (isLower c || isDigit c) = true := by
          rcases List.mem_cons.mp known with rfl | later
          · exact (List.mem_cons.mp inside).imp_right (letters c)
          · have filled := each piece later
            rw [Bool.and_eq_true, List.all_eq_true] at filled
            exact Or.inr (filled.2 c inside)
        unfold isPredicateChar
        rcases letter with rfl | letter
        · rw [lower]
          rfl
        · rw [letter]
          rfl
  · cases snake

theorem normalizeGraphPredicate_idem (ascii : KeepsAscii) {value normalized : String}
    (spells : normalizeGraphPredicate value = some normalized) :
    normalizeGraphPredicate normalized = some normalized := by
  have snake : isSnakeCase normalized = true := by
    unfold normalizeGraphPredicate at spells
    obtain ⟨identity, -, spells⟩ := Option.bind_eq_some_iff.mp spells
    dsimp only at spells
    split at spells
    · cases spells
      assumption
    · cases spells
  obtain ⟨filled, chars⟩ := isSnakeCase_chars snake
  have display := normalizeGraphDisplay_word ascii filled fun c member =>
    ⟨(isPredicateChar_plain (chars c member)).1, (isPredicateChar_plain (chars c member)).2.1⟩
  have folded : Text.casefold normalized = normalized :=
    Text.casefold_eq_self fun c member => (isPredicateChar_plain (chars c member)).2.2.1
  have joined : normalized.toList.map (fun c => if c = ' ' then '_' else c) = normalized.toList := by
    refine (List.map_congr_left fun c member => ?_).trans (List.map_id _)
    exact if_neg (isPredicateChar_plain (chars c member)).2.2.2
  unfold normalizeGraphPredicate normalizeGraphIdentity
  rw [display, Option.map_some, folded]
  change (if isSnakeCase (String.ofList (normalized.toList.map fun c => if c = ' ' then '_' else c)) =
    true then some (String.ofList _) else none) = some normalized
  rw [joined, String.ofList_toList, if_pos snake]

end Cinegraph
