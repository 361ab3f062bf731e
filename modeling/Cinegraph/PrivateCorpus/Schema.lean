import Cinegraph.PrivateCorpus.Manifest

/-!
What the schema of a manifest accepts: the items of a valid manifest, in any order of the keys.
-/

namespace Cinegraph.PrivateCorpus

open Library

/-! ### Entries -/

/-- What an entry says about its file, in any order. -/
structure Describes (items : List (String × Json)) (file : BundleFile) : Prop where
  keys : hasKeys items ["path", "size", "sha256"]
  path : field items "path" = .str file.path
  size : field items "size" = .int file.size
  sha256 : field items "sha256" = .str file.sha256

theorem asObject_eq_ok {message : String} {value : Json} {items : List (String × Json)} :
    asObject message value = .ok items ↔ value = .obj items := by
  cases value <;> simp [asObject]

theorem asList_eq_ok {message : String} {value : Json} {items : List Json} :
    asList message value = .ok items ↔ value = .arr items := by
  cases value <;> simp [asList]

theorem asText_eq_ok {message : String} {value : Json} {text : String} :
    asText message value = .ok text ↔ value = .str text := by
  cases value <;> simp [asText]

theorem asInt_eq_ok {message : String} {value : Json} {n : Int} :
    asInt message value = .ok n ↔ value = .int n := by
  cases value <;> simp [asInt]

def Reading.add (reading : Reading) (file : BundleFile) : Reading where
  files := reading.files ++ [file]
  previous := Digest.utf8 file.path
  folded := reading.folded ++ [Text.casefold file.path]

theorem files_add (files : List BundleFile) (reading : Reading) :
    (files.foldl Reading.add reading).files = reading.files ++ files := by
  induction files generalizing reading with
  | nil => rw [List.foldl_nil, List.append_nil]
  | cons file files ih => rw [List.foldl_cons, ih, Reading.add, List.append_assoc, List.singleton_append]

theorem utf8_pos {text : String} (nonempty : text ≠ "") : [] < Digest.utf8 text := by
  rw [Digest.utf8]
  cases chars : text.toList with
  | nil => exact absurd (String.toList_eq_nil_iff.mp chars) nonempty
  | cons c rest =>
      rw [List.flatMap_cons]
      cases first : (String.utf8EncodeChar c).map UInt8.toNat with
      | nil => exact absurd (List.map_eq_nil_iff.mp first) String.utf8EncodeChar_ne_nil
      | cons byte more => exact List.nil_lt_cons _ _

section Entries

variable [Composition]

/-- What a file by itself has to meet. -/
structure IsBundleFile (file : BundleFile) : Prop where
  path : IsRelativePath file.path
  positive : 0 < file.size
  bounded : file.size ≤ Policy.maxFileBytes
  digest : isDigest file.sha256 = true

theorem readEntry_eq_ok {reading next : Reading} {entry : Json} :
    readEntry reading entry = .ok next ↔ ∃ file items, entry = .obj items ∧ Describes items file ∧
      IsBundleFile file ∧ reading.previous < Digest.utf8 file.path ∧
      Text.casefold file.path ∉ reading.folded ∧ next = reading.add file := by
  simp only [readEntry, bind_eq_ok, asObject_eq_ok, asText_eq_ok, asInt_eq_ok, reject_eq_ok,
    validateRelativeText_eq_ok, not_or, not_le, not_lt, not_not, Bool.not_eq_false]
  constructor
  · rintro ⟨items, rfl, _, keys, text, path, _, ⟨rfl, accepted⟩, _, ⟨later, fresh⟩, size, sized, _,
      ⟨positive, bounded⟩, digest, hashed, _, shaped, made⟩
    cases made
    exact ⟨⟨_, size, digest⟩, items, rfl, ⟨keys, path, sized, hashed⟩,
      ⟨accepted, positive, bounded, shaped⟩, later, fresh, rfl⟩
  · rintro ⟨file, items, rfl, describes, valid, later, fresh, rfl⟩
    exact ⟨items, rfl, (), describes.keys, file.path, describes.path, file.path, ⟨rfl, valid.path⟩, (),
      ⟨later, fresh⟩, file.size, describes.size, (), ⟨valid.positive, valid.bounded⟩, file.sha256,
      describes.sha256, (), valid.digest, rfl⟩

/-- The files may follow what was read already. -/
structure Follows (reading : Reading) (files : List BundleFile) : Prop where
  each : ∀ file ∈ files, IsBundleFile file
  later : ∀ file ∈ files, reading.previous < Digest.utf8 file.path
  sorted : files.Pairwise fun a b => Digest.utf8 a.path < Digest.utf8 b.path
  fresh : ∀ file ∈ files, Text.casefold file.path ∉ reading.folded
  distinct : (files.map fun file => Text.casefold file.path).Nodup

theorem follows_cons {reading : Reading} {file : BundleFile} {files : List BundleFile} :
    Follows reading (file :: files) ↔ (IsBundleFile file ∧ reading.previous < Digest.utf8 file.path ∧
      Text.casefold file.path ∉ reading.folded) ∧ Follows (reading.add file) files := by
  constructor
  · rintro ⟨each, later, sorted, fresh, distinct⟩
    rw [List.forall_mem_cons] at each later fresh
    rw [List.pairwise_cons] at sorted
    rw [List.map_cons, List.nodup_cons] at distinct
    refine ⟨⟨each.1, later.1, fresh.1⟩, each.2, sorted.1, sorted.2, fun other member => ?_, distinct.2⟩
    rw [Reading.add, List.mem_append, not_or, List.mem_singleton]
    refine ⟨fresh.2 other member, fun same => distinct.1 ?_⟩
    rw [← same]
    exact List.mem_map_of_mem member
  · rintro ⟨⟨valid, later, fresh⟩, rest⟩
    have unread : ∀ other ∈ files, Text.casefold other.path ∉ reading.folded ∧
        Text.casefold other.path ≠ Text.casefold file.path := by
      intro other member
      have absent := rest.fresh other member
      rwa [Reading.add, List.mem_append, not_or, List.mem_singleton] at absent
    refine ⟨List.forall_mem_cons.mpr ⟨valid, rest.each⟩, List.forall_mem_cons.mpr ⟨later, ?_⟩,
      List.pairwise_cons.mpr ⟨rest.later, rest.sorted⟩, List.forall_mem_cons.mpr ⟨fresh, ?_⟩, ?_⟩
    · exact fun other member => lt_trans later (rest.later other member)
    · exact fun other member => (unread other member).1
    · rw [List.map_cons, List.nodup_cons]
      refine ⟨fun inside => ?_, rest.distinct⟩
      obtain ⟨other, member, same⟩ := List.mem_map.mp inside
      exact (unread other member).2 same

/-- An entry of a file, in any order of its items. -/
def IsEntry (entry : Json) (file : BundleFile) : Prop := ∃ items, entry = .obj items ∧ Describes items file

theorem readEntries_eq_ok {entries : List Json} {reading next : Reading} :
    entries.foldlM readEntry reading = .ok next ↔ ∃ files, List.Forall₂ IsEntry entries files ∧
      Follows reading files ∧ next = files.foldl Reading.add reading := by
  induction entries generalizing reading with
  | nil =>
      constructor
      · intro read
        cases read
        exact ⟨[], .nil, ⟨by simp, by simp, .nil, by simp, by simp⟩, rfl⟩
      · rintro ⟨files, entries, _, rfl⟩
        cases entries
        rfl
  | cons entry rest ih =>
      rw [List.foldlM_cons, bind_eq_ok]
      simp only [ih, readEntry_eq_ok]
      constructor
      · rintro ⟨_, ⟨file, items, object, describes, valid, later, fresh, rfl⟩, files, entries, follows, rfl⟩
        exact ⟨file :: files, .cons ⟨items, object, describes⟩ entries,
          follows_cons.mpr ⟨⟨valid, later, fresh⟩, follows⟩, rfl⟩
      · rintro ⟨_, entries, follows, rfl⟩
        cases entries with
        | @cons _ file _ files first others =>
            obtain ⟨items, object, describes⟩ := first
            obtain ⟨⟨valid, later, fresh⟩, follows⟩ := follows_cons.mp follows
            exact ⟨_, ⟨file, items, object, describes, valid, later, fresh, rfl⟩, files, others, follows, rfl⟩

/-- What a manifest has to meet: the rules of paths and sizes, of the counts and of the layout. -/
structure IsManifest (purpose : String) (season : Int) (files : List BundleFile) (catalogue : String) :
    Prop where
  allowed : purpose ∈ Policy.allowedPurposes
  positive : 1 ≤ season
  nonempty : files ≠ []
  count : files.length ≤ Policy.maxFileCount
  each : ∀ file ∈ files, IsBundleFile file
  sorted : files.Pairwise fun a b => Digest.utf8 a.path < Digest.utf8 b.path
  distinct : (files.map fun file => Text.casefold file.path).Nodup
  total : (files.map (·.size)).sum ≤ Policy.maxTotalBytes
  digest : isDigest catalogue = true
  layout : validatePurposeShape files purpose season = .ok ()

/-- What the items of a manifest say, in any order. -/
structure Declares (items : List (String × Json)) (purpose : String) (season : Int)
    (files : List BundleFile) (catalogue : String) : Prop where
  keys : hasKeys items requiredKeys
  schemaVersion : field items "schema_version" = .int Policy.schemaVersion
  purposeText : field items "purpose" = .str purpose
  seasonNumber : field items "season_number" = .int season
  entries : ∃ entries, field items "files" = .arr entries ∧ List.Forall₂ IsEntry entries files
  fileCount : field items "file_count" = .int files.length
  totalBytes : field items "total_bytes" = .int (files.map (·.size)).sum
  catalogueSha256 : field items "source_catalogue_sha256" = .str catalogue

theorem follows_start {files : List BundleFile} : Follows ⟨[], [], []⟩ files ↔
    (∀ file ∈ files, IsBundleFile file) ∧
      (files.Pairwise fun a b => Digest.utf8 a.path < Digest.utf8 b.path) ∧
      (files.map fun file => Text.casefold file.path).Nodup := by
  constructor
  · rintro ⟨each, _, sorted, _, distinct⟩
    exact ⟨each, sorted, distinct⟩
  · rintro ⟨each, sorted, distinct⟩
    exact ⟨each, fun file member => utf8_pos (each file member).path.nonempty, sorted,
      fun _ _ => List.not_mem_nil, distinct⟩

/-- Which items pass the schema of a manifest. -/
theorem checkManifest_eq_ok {items : List (String × Json)} : checkManifest items = .ok () ↔
    ∃ purpose season files catalogue, Declares items purpose season files catalogue ∧
      IsManifest purpose season files catalogue := by
  simp only [checkManifest, bind_eq_ok, asInt_eq_ok, asText_eq_ok, asList_eq_ok, reject_eq_ok,
    readEntries_eq_ok, validateCatalogueDigest, not_or, not_not, not_lt, Bool.not_eq_false]
  constructor
  · rintro ⟨_, keys, version, versioned, _, rfl, purpose, purposed, _, allowed, season, numbered, _,
      positive, entries, listed, _, ⟨nonempty, bounded⟩, _, ⟨files, described, follows, rfl⟩, count,
      counted, total, totalled, _, ⟨rfl, rfl, limited⟩, catalogue, named, _, ⟨_, digest, _⟩, layout⟩
    rw [files_add, List.nil_append] at counted totalled limited layout
    obtain ⟨each, sorted, distinct⟩ := follows_start.mp follows
    have lengths := described.length_eq
    refine ⟨purpose, season, files, catalogue,
      ⟨keys, versioned, purposed, numbered, ⟨entries, listed, described⟩, counted, totalled, named⟩,
      allowed, positive, ?_, lengths ▸ bounded, each, sorted, distinct, limited, digest, layout⟩
    rintro rfl
    exact nonempty (List.length_eq_zero_iff.mp lengths)
  · rintro ⟨purpose, season, files, catalogue, declares, valid⟩
    obtain ⟨entries, listed, described⟩ := declares.entries
    have lengths := described.length_eq
    refine ⟨(), declares.keys, _, declares.schemaVersion, (), rfl, purpose, declares.purposeText, (),
      valid.allowed, season, declares.seasonNumber, (), valid.positive, entries, listed, (),
      ⟨?_, lengths ▸ valid.count⟩, _,
      ⟨files, described, follows_start.mpr ⟨valid.each, valid.sorted, valid.distinct⟩, rfl⟩, _,
      declares.fileCount, _, declares.totalBytes, (), ?_, catalogue, declares.catalogueSha256, catalogue,
      ⟨(), valid.digest, rfl⟩, ?_⟩
    · rintro rfl
      exact valid.nonempty (List.length_eq_zero_iff.mp lengths.symm)
    · rw [files_add, List.nil_append]
      exact ⟨rfl, rfl, valid.total⟩
    · rw [files_add, List.nil_append]
      exact valid.layout

end Entries

/-! ### The order of keys -/

theorem field_eq {items : List (String × Json)} (nodup : (items.map Prod.fst).Nodup)
    {item : String × Json} (member : item ∈ items) : field items item.1 = item.2 := by
  induction items with
  | nil => exact absurd member List.not_mem_nil
  | cons first items ih =>
      rw [List.map_cons, List.nodup_cons] at nodup
      rw [field, List.lookup_cons]
      rcases List.mem_cons.mp member with rfl | later
      · rw [beq_self_eq_true]
        rfl
      · have different : (item.1 == first.1) = false := by
          rw [beq_eq_false_iff_ne]
          intro same
          exact nodup.1 (same ▸ List.mem_map_of_mem later)
        rw [different]
        exact ih nodup.2 later

/-- The items of a dictionary with these keys, in the order of the keys. -/
theorem perm_of_hasKeys {items : List (String × Json)} {keys : List String} (has : hasKeys items keys)
    (nodup : keys.Nodup) : items.Perm (keys.map fun key => (key, field items key)) := by
  have distinct : (items.map Prod.fst).Nodup := has.nodup_iff.mpr nodup
  have itself : items = (items.map Prod.fst).map fun key => (key, field items key) := by
    rw [List.map_map]
    symm
    calc items.map ((fun key => (key, field items key)) ∘ Prod.fst)
        = items.map id := List.map_congr_left fun item member => Prod.ext rfl (field_eq distinct member)
      _ = items := List.map_id items
  have reordered := has.map fun key => (key, field items key)
  rwa [← itself] at reordered

theorem sortKeys_of_hasKeys {items : List (String × Json)} {keys : List String} (has : hasKeys items keys)
    (nodup : keys.Nodup) :
    (Json.obj items).sortKeys = (Json.obj (keys.map fun key => (key, field items key))).sortKeys :=
  Json.sortKeys_of_perm (perm_of_hasKeys has nodup) (has.nodup_iff.mpr nodup)

theorem IsEntry.sortKeys {entry : Json} {file : BundleFile} (is : IsEntry entry file) :
    entry.sortKeys = (entryJson file).sortKeys := by
  obtain ⟨items, rfl, describes⟩ := is
  rw [sortKeys_of_hasKeys describes.keys (by decide)]
  simp only [List.map_cons, List.map_nil, describes.path, describes.size, describes.sha256, entryJson]

theorem sortAll_of_entries {entries : List Json} {files : List BundleFile}
    (described : List.Forall₂ IsEntry entries files) :
    Json.sortAll entries = Json.sortAll (files.map entryJson) := by
  induction described with
  | nil => rfl
  | cons first _ ih => rw [List.map_cons, Json.sortAll, Json.sortAll, ih, first.sortKeys]

/-- The items of a manifest are those that its files give, up to the order of the keys. -/
theorem Declares.sortKeys {items : List (String × Json)} {purpose : String} {season : Int}
    {files : List BundleFile} {catalogue : String} (declares : Declares items purpose season files catalogue) :
    (Json.obj items).sortKeys = (manifest purpose season files catalogue).sortKeys := by
  obtain ⟨entries, listed, described⟩ := declares.entries
  rw [sortKeys_of_hasKeys declares.keys (by decide)]
  simp only [requiredKeys, List.map_cons, List.map_nil, declares.schemaVersion, declares.purposeText,
    declares.seasonNumber, listed, declares.fileCount, declares.totalBytes, declares.catalogueSha256,
    manifest, manifestItems, Json.sortKeys, Json.sortFields, sortAll_of_entries described]

theorem hasKeys_sorted {items : List (String × Json)} {keys : List String} (has : hasKeys items keys) :
    hasKeys (Json.sortItems (Json.sortFields items)) keys := by
  refine ((Json.sortItems_perm _).map Prod.fst).trans ?_
  rw [Json.sortFields_keys]
  exact has

theorem field_sorted {items : List (String × Json)} (nodup : (items.map Prod.fst).Nodup) (key : String) :
    field (Json.sortItems (Json.sortFields items)) key = (field items key).sortKeys := by
  rw [field, field, Json.lookup_sortKeys nodup]
  cases items.lookup key with
  | none => rw [Option.map_none, Option.getD_none, Json.sortKeys]
  | some value => rfl

theorem isEntry_sorted (file : BundleFile) : IsEntry (entryJson file).sortKeys file := by
  have keys : hasKeys [("path", .str file.path), ("size", .int file.size), ("sha256", .str file.sha256)]
      ["path", "size", "sha256"] := .refl _
  have nodup := keys.nodup_iff.mpr (by decide)
  rw [entryJson, Json.sortKeys]
  refine ⟨_, rfl, hasKeys_sorted keys, ?_, ?_, ?_⟩ <;> rw [field_sorted nodup] <;>
    simp [field, List.lookup_cons, Json.sortKeys]

theorem entries_sorted (files : List BundleFile) :
    List.Forall₂ IsEntry (Json.sortAll (files.map entryJson)) files := by
  induction files with
  | nil => exact .nil
  | cons file files ih => exact .cons (isEntry_sorted file) ih

theorem declares_sorted (purpose : String) (season : Int) (files : List BundleFile) (catalogue : String) :
    ∃ items, (manifest purpose season files catalogue).sortKeys = .obj items ∧
      Declares items purpose season files catalogue := by
  have keys : hasKeys (manifestItems purpose season files catalogue) requiredKeys := .refl _
  have nodup := keys.nodup_iff.mpr (by decide)
  rw [manifest, Json.sortKeys]
  refine ⟨_, rfl, hasKeys_sorted keys, ?_, ?_, ?_, ⟨_, ?_, entries_sorted files⟩, ?_, ?_, ?_⟩ <;>
    rw [field_sorted nodup] <;> simp [field, manifestItems, List.lookup_cons, Json.sortKeys]

theorem IsEntry.unique {entry : Json} {file other : BundleFile} (is : IsEntry entry file)
    (too : IsEntry entry other) : file = other := by
  obtain ⟨items, rfl, describes⟩ := is
  obtain ⟨_, same, describes'⟩ := too
  cases same
  have paths := describes.path.symm.trans describes'.path
  have sizes := describes.size.symm.trans describes'.size
  have digests := describes.sha256.symm.trans describes'.sha256
  obtain ⟨path, size, sha256⟩ := file
  rw [Json.str.injEq] at paths digests
  rw [Json.int.injEq] at sizes
  exact BundleFile.mk.injEq .. ▸ ⟨paths, sizes, digests⟩

theorem entries_unique {entries : List Json} {files others : List BundleFile}
    (described : List.Forall₂ IsEntry entries files) (too : List.Forall₂ IsEntry entries others) :
    files = others := by
  induction described generalizing others with
  | nil =>
      cases too
      rfl
  | cons first _ ih =>
      cases too with
      | cons second rest => rw [first.unique second, ih rest]

/-- The files of a manifest can be told from its text. -/
theorem files_of_manifest {purpose purpose' : String} {season season' : Int} {files others : List BundleFile}
    {catalogue catalogue' : String} (same : (manifest purpose season files catalogue).sortKeys =
      (manifest purpose' season' others catalogue').sortKeys) : files = others := by
  obtain ⟨items, object, declares⟩ := declares_sorted purpose season files catalogue
  obtain ⟨items', object', declares'⟩ := declares_sorted purpose' season' others catalogue'
  rw [object, object', Json.obj.injEq] at same
  subst same
  obtain ⟨entries, listed, described⟩ := declares.entries
  obtain ⟨entries', listed', described'⟩ := declares'.entries
  rw [listed, Json.arr.injEq] at listed'
  subst listed'
  exact entries_unique described described'

theorem fits_manifest (purpose : String) (season : Int) (files : List BundleFile) (catalogue : String)
    {stack : Nat} (deep : 3 ≤ stack) : Json.Fits stack (manifest purpose season files catalogue) := by
  obtain ⟨depth, rfl⟩ := Nat.exists_eq_add_of_le' deep
  have entries : Json.FitsAll (depth + 1) (files.map entryJson) := by
    induction files with
    | nil => simp [Json.FitsAll]
    | cons file files ih =>
        rw [List.map_cons, Json.FitsAll]
        refine ⟨?_, ih⟩
        simp [entryJson, Json.Fits, Json.FitsFields]
  have keys : hasKeys (manifestItems purpose season files catalogue) requiredKeys := .refl _
  rw [manifest, Json.Fits]
  refine ⟨keys.nodup_iff.mpr (by decide), ?_⟩
  simp [manifestItems, Json.FitsFields, Json.Fits, entries]

end Cinegraph.PrivateCorpus
