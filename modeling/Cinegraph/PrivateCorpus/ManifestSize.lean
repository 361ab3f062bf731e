import Cinegraph.Library.JsonWidth
import Cinegraph.Library.Splitting
import Cinegraph.PrivateCorpus.Schema
import Mathlib.Algebra.Order.BigOperators.Group.List

/-!
A valid manifest is short enough to be decoded. The layout bounds even its season number, which
names a directory of some file.
-/

namespace Cinegraph.PrivateCorpus

open Library Json

/-! ### Characters of a path -/

section Paths

variable [Composition]

theorem validateName_plain {name : String} (valid : validateName name = .ok ()) :
    ∀ c ∈ name.toList, 32 ≤ c.toNat ∧ c ≠ '"' := by
  simp only [validateName, unit_bind_eq_ok, reject_eq_ok, not_or] at valid
  obtain ⟨⟨_, _, _, _, _, controls, forbidden, _⟩, _⟩ := valid
  intro c member
  constructor
  · by_contra control
    apply controls
    rw [List.any_eq_true]
    refine ⟨c, member, ?_⟩
    simp only [Bool.or_eq_true, decide_eq_true_eq]
    omega
  · rintro rfl
    apply forbidden
    rw [List.any_eq_true]
    exact ⟨'"', member, by decide⟩

/-- The characters of a path stand for themselves in its JSON text. -/
theorem IsRelativePath.escape {path : String} (valid : IsRelativePath path) :
    ∀ c ∈ path.toList, Json.escape c = [c] := by
  intro c member
  have plain : 32 ≤ c.toNat ∧ c ≠ '"' := by
    rcases mem_splitOnP (p := (· == '/')) member with slash | ⟨piece, among, inside⟩
    · rw [beq_iff_eq.mp slash]
      decide
    · have part : String.ofList piece ∈ pathParts path := List.mem_map_of_mem among
      exact validateName_plain (valid.names _ part) c (by rwa [String.toList_ofList])
  have backslash : c ≠ '\\' := by
    rintro rfl
    exact valid.slashes member
  have controls : c ≠ '\n' ∧ c ≠ '\r' ∧ c ≠ '\t' := by
    refine ⟨?_, ?_, ?_⟩ <;> (rintro rfl; exact absurd plain.1 (by decide))
  unfold Json.escape
  rw [if_neg plain.2, if_neg backslash, if_neg controls.1, if_neg controls.2.1, if_neg controls.2.2,
    if_neg (by omega), if_neg (by omega), if_neg (by omega)]

end Paths

theorem length_le_utf8ByteSize (text : String) : text.toList.length ≤ text.utf8ByteSize := by
  rw [← String.ofList_toList (s := text), utf8ByteSize_ofList, String.toList_ofList]
  induction text.toList with
  | nil => simp
  | cons c rest ih =>
      have positive := c.utf8Size_pos
      rw [List.length_cons, width_cons]
      omega

theorem length_of_mem_posixPath {path part : String} (member : part ∈ posixPath path) :
    part.toList.length ≤ path.toList.length := by
  obtain ⟨piece, among, rfl⟩ := List.mem_map.mp (List.mem_filter.mp member).1
  rw [String.toList_ofList]
  exact length_of_mem_splitOnP among

theorem digest_escape {digest : String} (valid : isDigest digest = true) :
    (∀ c ∈ digest.toList, Json.escape c = [c]) ∧ digest.utf8ByteSize = 64 := by
  rw [isDigest, decide_eq_true_eq, List.all_eq_true] at valid
  have hex : UUID.hexChars.all (fun c => Json.escape c = [c] ∧ c.toNat < 128) = true := by
    decide
  simp only [List.all_eq_true, decide_eq_true_eq] at hex
  have each : ∀ c ∈ digest.toList, Json.escape c = [c] ∧ c.toNat < 128 := fun c member =>
    hex c (List.contains_iff_mem.mp (valid.2 c member))
  refine ⟨fun c member => (each c member).1, ?_⟩
  rw [← String.ofList_toList (s := digest), utf8ByteSize_ofList,
    width_ascii fun c member => (each c member).2, valid.1]

/-! ### The season -/

theorem nameOf_length {path : String} {directory : List String}
    (inside : ∀ part ∈ directory, part ∈ posixPath path) :
    (nameOf directory).toList.length ≤ path.toList.length := by
  unfold nameOf
  cases last : directory.getLast? with
  | none =>
      rw [List.getLastD_eq_getLast?, last]
      exact Nat.zero_le _
  | some part =>
      rw [List.getLastD_eq_getLast?, last]
      exact length_of_mem_posixPath (inside part (List.mem_of_getLast? last))

theorem inSeason_of_shape {files : List BundleFile} {purpose : String} {season : Int}
    (shaped : validatePurposeShape files purpose season = .ok ()) :
    ∃ file ∈ files, inSeason (parentOf (posixPath file.path)) season = true := by
  simp only [validatePurposeShape, unit_bind_eq_ok] at shaped
  obtain ⟨_, shaped⟩ := shaped
  have found : ∃ path ∈ files.map fun file => posixPath file.path,
      inSeason (parentOf path) season = true := by
    split at shaped
    · rw [reject_eq_ok, Bool.not_eq_false, reviewedLayout] at shaped
      split at shaped
      · rename_i ledger ledgers
        simp only [Bool.and_eq_true] at shaped
        have member : ledger ∈ [ledger] := List.mem_cons_self
        rw [← ledgers] at member
        exact ⟨ledger, (List.mem_filter.mp member).1, shaped.1.2⟩
      · cases shaped
    · rw [reject_eq_ok, Bool.not_eq_false, speakerLayout] at shaped
      split at shaped
      · rename_i script subtitle others _ subtitles
        simp only [Bool.and_eq_true] at shaped
        have member : subtitle ∈ subtitle :: others := List.mem_cons_self
        rw [← subtitles] at member
        exact ⟨subtitle, (List.mem_filter.mp member).1, shaped.1.1.1.2⟩
      · cases shaped
  obtain ⟨_, among, season⟩ := found
  obtain ⟨file, member, rfl⟩ := List.mem_map.mp among
  exact ⟨file, member, season⟩

/-- The name of a directory bounds the digits of the season that it is named by. -/
theorem length_dumpInt_of_inSeason {path : String} {season : Int}
    (named : inSeason (parentOf (posixPath path)) season = true) :
    (dumpInt season).length ≤ 3 * path.toList.length := by
  rw [inSeason, endsWith, List.isSuffixOf_iff_suffix] at named
  have name : (nameOf (parentOf (parentOf (posixPath path)))).toList.length ≤ path.toList.length :=
    nameOf_length fun part member => List.dropLast_subset _ (List.dropLast_subset _ member)
  calc (dumpInt season).length
      ≤ (Policy.seasonDirectorySuffix season).toList.length := by
        simp [Policy.seasonDirectorySuffix, Policy.decimalText]
        omega
    _ ≤ (Text.casefold (Policy.seasonDirectorySuffix season)).toList.length := (Text.length_casefold _).1
    _ ≤ (Text.casefold (nameOf (parentOf (parentOf (posixPath path))))).toList.length := named.length_le
    _ ≤ 3 * (nameOf (parentOf (parentOf (posixPath path)))).toList.length := (Text.length_casefold _).2
    _ ≤ 3 * path.toList.length := Nat.mul_le_mul_left 3 name

/-! ### The manifest -/

theorem width_dumpInt {n : Int} {k : Nat} (nonneg : 0 ≤ n) (small : n < 10 ^ (k + 1)) :
    width (dumpInt n) ≤ k + 1 := by
  obtain ⟨m, rfl⟩ := Int.eq_ofNat_of_zero_le nonneg
  change width (decimal m) ≤ k + 1
  rw [width_decimal]
  exact length_decimal (by exact_mod_cast small)

variable [Floats] [Composition]

theorem width_entry {file : BundleFile} (valid : IsBundleFile file) :
    width (write .packed (entryJson file).sortKeys) ≤ 343 := by
  have path := width_quoted valid.path.escape
  have short := valid.path.short
  obtain ⟨plain, size⟩ := digest_escape valid.digest
  have digest := width_quoted plain
  have number := width_dumpInt (n := file.size) (k := 7) valid.positive.le
    (lt_of_le_of_lt valid.bounded (by decide))
  have keys : width (quoted escape "path") = 6 ∧ width (quoted escape "size") = 6 ∧
      width (quoted escape "sha256") = 8 := by decide
  have limit : Policy.maxPathBytes = 240 := rfl
  rw [entryJson, width_packed_obj (List.cons_ne_nil _ _)]
  simp only [sortFields, sortKeys, List.map_cons, List.map_nil, List.sum_cons, List.sum_nil, itemWidth,
    write, Layout.escape_packed]
  omega

theorem width_entries {files : List BundleFile} (each : ∀ file ∈ files, IsBundleFile file) :
    ((sortAll (files.map entryJson)).map fun a => width (write .packed a) + 1).sum ≤ 344 * files.length := by
  induction files with
  | nil => simp [sortAll]
  | cons file files ih =>
      rw [List.forall_mem_cons] at each
      have first := width_entry each.1
      have others := ih each.2
      rw [List.map_cons, sortAll, List.map_cons, List.sum_cons, List.length_cons]
      omega

omit [Floats] in
theorem width_season {purpose : String} {season : Int} {files : List BundleFile} {catalogue : String}
    (valid : IsManifest purpose season files catalogue) : width (dumpInt season) ≤ 720 := by
  obtain ⟨file, member, named⟩ := inSeason_of_shape valid.layout
  have digits := length_dumpInt_of_inSeason named
  have path := length_le_utf8ByteSize file.path
  have short := (valid.each file member).path.short
  have limit : Policy.maxPathBytes = 240 := rfl
  have ascii : width (dumpInt season) = (dumpInt season).length := by
    obtain ⟨n, rfl⟩ := Int.eq_ofNat_of_zero_le (le_trans (by decide) valid.positive)
    exact width_decimal n
  omega

/-- The text of a valid manifest is short enough to be decoded. -/
theorem size_manifest {purpose : String} {season : Int} {files : List BundleFile} {catalogue : String}
    (valid : IsManifest purpose season files catalogue) :
    (canonicalJson (manifest purpose season files catalogue)).size ≤ Policy.maxManifestBytes := by
  have entries := width_entries valid.each
  have count : files.length ≤ 256 := valid.count
  have total : (files.map (·.size)).sum ≤ 64 * 1024 * 1024 := valid.total
  obtain ⟨plain, size⟩ := digest_escape valid.digest
  have digest := width_quoted plain
  have purposes : width (quoted escape purpose) ≤ 20 := by
    have allowed := valid.allowed
    simp only [Policy.allowedPurposes, List.mem_cons, List.not_mem_nil, or_false] at allowed
    rcases allowed with rfl | rfl <;> decide
  have positive : 0 ≤ (files.map (·.size)).sum := by
    apply List.sum_nonneg
    intro size member
    obtain ⟨file, inside, rfl⟩ := List.mem_map.mp member
    exact (valid.each file inside).positive.le
  have number := width_season valid
  have version : width (dumpInt Policy.schemaVersion) = 1 := by decide
  have counted := width_dumpInt (n := files.length) (k := 2) (Int.natCast_nonneg _) (by omega)
  have totalled := width_dumpInt (n := (files.map (·.size)).sum) (k := 7) positive (by omega)
  have keys : width (quoted escape "schema_version") = 16 ∧ width (quoted escape "purpose") = 9 ∧
      width (quoted escape "season_number") = 15 ∧ width (quoted escape "files") = 7 ∧
      width (quoted escape "file_count") = 12 ∧ width (quoted escape "total_bytes") = 13 ∧
      width (quoted escape "source_catalogue_sha256") = 25 := by decide
  have listed : sortAll (files.map entryJson) ≠ [] := by
    cases files with
    | nil => exact absurd rfl valid.nonempty
    | cons file files => exact List.cons_ne_nil _ _
  have newline : '\n'.utf8Size = 1 := rfl
  have limit : Policy.maxManifestBytes = 262144 := rfl
  change (String.ofList _).utf8ByteSize ≤ _
  rw [utf8ByteSize_ofList, width_append, packedDumps, manifest, manifestItems,
    width_packed_obj (List.cons_ne_nil _ _)]
  simp only [sortFields, sortKeys, List.map_cons, List.map_nil, List.sum_cons, List.sum_nil, itemWidth,
    width_packed_arr listed, width_cons, width_nil, write.eq_3, write.eq_5, Layout.escape_packed]
  omega

end Cinegraph.PrivateCorpus
