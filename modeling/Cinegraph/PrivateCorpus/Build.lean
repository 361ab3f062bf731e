import Cinegraph.Library.WholeFloats
import Cinegraph.PrivateCorpus.OneEncoding

/-!
How a bundle is built from the files that were selected. Its manifest decodes to these files, in
whatever order they were selected.
-/

namespace Cinegraph.PrivateCorpus

open Library

namespace Policy

def forbiddenContent (content : ByteArray) : Bool :=
  let upper := content.data.toList.map fun byte => if 97 ≤ byte ∧ byte ≤ 122 then byte - 32 else byte
  forbiddenContentMarkers.any fun marker => marker.toUTF8.data.toList <:+: upper

end Policy

/-- What stands below the knowledge root: the content of a regular file that stays there. -/
abbrev SourceTree := List String → Option ByteArray

/-- `_PreparedFile` -/
structure PreparedFile where
  descriptor : BundleFile
  content : ByteArray

/-- What is written to the archive: the manifest, and behind it the files. -/
structure Bundle where
  manifest : ByteArray
  prepared : List PreparedFile

def Bundle.files (bundle : Bundle) : List BundleFile := bundle.prepared.map (·.descriptor)

/-- `_stable_file_bytes` -/
def stableFileBytes : Option ByteArray → Except Raised ByteArray
  | none => .error ⟨.bundleError, "source file cannot be read"⟩
  | some content => do
      reject (content.size = 0 ∨ Policy.maxFileBytes < content.size)
        "source must be a nonempty regular non-hardlinked file" .bundleError
      reject (Policy.forbiddenContent content) "source content violates the private bundle policy" .bundleError
      return content

theorem stableFileBytes_size {source : Option ByteArray} {content : ByteArray}
    (read : stableFileBytes source = .ok content) :
    0 < content.size ∧ content.size ≤ Policy.maxFileBytes := by
  cases source with
  | none => cases read
  | some bytes =>
      simp only [stableFileBytes, unit_bind_eq_ok, reject_eq_ok, not_or, not_lt] at read
      obtain ⟨⟨some_bytes, bounded⟩, _, same⟩ := read
      cases same
      exact ⟨Nat.pos_of_ne_zero some_bytes, bounded⟩

def comesFirst (a b : PreparedFile) : Prop := Digest.utf8 a.descriptor.path ≤ Digest.utf8 b.descriptor.path

instance : DecidableRel comesFirst := fun a b =>
  inferInstanceAs (Decidable (Digest.utf8 a.descriptor.path ≤ Digest.utf8 b.descriptor.path))

section Building

variable [Composition] [Sha256Bytes] (tree : SourceTree)

/-- `_prepare_source` -/
def prepareSource (seen : List String) (candidate : String) : Except Raised PreparedFile := do
  let relative ← validateRelativeText candidate "selected source path is not canonical"
  reject (Text.casefold relative ∈ seen) "duplicate or case-colliding source path" .bundleError
  let content ← stableFileBytes (tree (pathParts relative))
  return { descriptor := ⟨relative, content.size, Sha256Bytes.hexdigest content⟩, content }

/-- Each selected path is prepared with the folded ones before it. -/
def prepareSources (seen : List String) : List String → Except Raised (List PreparedFile)
  | [] => return []
  | candidate :: selected => do
      let file ← prepareSource tree seen candidate
      let others ← prepareSources (Text.casefold file.descriptor.path :: seen) selected
      return file :: others

/-- `build_bundle`, up to the archive that it writes. -/
def buildBundle [Floats] (purpose : String) (selectedPaths : List String) (catalogueSha256 : String)
    (seasonNumber : Int) : Except Raised Bundle := do
  reject (purpose ∉ Policy.allowedPurposes) "unsupported bundle purpose" .bundleError
  reject (seasonNumber < 1) "season number must be a positive integer" .bundleError
  let catalogueDigest ← validateCatalogueDigest catalogueSha256
  reject (selectedPaths = [] ∨ Policy.maxFileCount < selectedPaths.length)
    "bundle file count exceeds the configured limit" .bundleError
  let selected ← prepareSources tree [] selectedPaths
  let prepared := selected.insertionSort comesFirst
  let files := prepared.map (·.descriptor)
  reject (Policy.maxTotalBytes < (files.map (·.size)).sum) "bundle size exceeds the configured limit"
    .bundleError
  validatePurposeShape files purpose seasonNumber
  let manifestBytes := canonicalJson (manifest purpose seasonNumber files catalogueDigest)
  reject (Policy.maxManifestBytes < manifestBytes.size) "bundle manifest exceeds the configured limit"
    .bundleError
  return { manifest := manifestBytes, prepared }

/-! ### What is prepared -/

/-- A selected path is prepared as this file. -/
structure Prepares (candidate : String) (file : PreparedFile) : Prop where
  path : IsRelativePath candidate
  content : stableFileBytes (tree (pathParts candidate)) = .ok file.content
  descriptor : file.descriptor = ⟨candidate, file.content.size, Sha256Bytes.hexdigest file.content⟩

variable {tree}

theorem Prepares.isBundleFile {candidate : String} {file : PreparedFile}
    (prepares : Prepares tree candidate file) : IsBundleFile file.descriptor := by
  obtain ⟨positive, bounded⟩ := stableFileBytes_size prepares.content
  rw [prepares.descriptor]
  exact ⟨prepares.path, Int.natCast_pos.mpr positive, bounded, Sha256Bytes.isDigest_hexdigest _⟩

theorem prepareSource_eq_ok {seen : List String} {candidate : String} {file : PreparedFile} :
    prepareSource tree seen candidate = .ok file ↔
      Prepares tree candidate file ∧ Text.casefold candidate ∉ seen := by
  simp only [prepareSource, bind_eq_ok, validateRelativeText_eq_ok, reject_eq_ok]
  constructor
  · rintro ⟨_, ⟨rfl, accepted⟩, _, fresh, content, read, made⟩
    cases made
    exact ⟨⟨accepted, read, rfl⟩, fresh⟩
  · rintro ⟨prepares, fresh⟩
    refine ⟨candidate, ⟨rfl, prepares.path⟩, (), fresh, file.content, prepares.content, ?_⟩
    obtain ⟨descriptor, content⟩ := file
    have same := prepares.descriptor
    simp only at same
    rw [same]
    rfl

theorem prepareSources_eq_ok {seen selected : List String} {prepared : List PreparedFile} :
    prepareSources tree seen selected = .ok prepared ↔ List.Forall₂ (Prepares tree) selected prepared ∧
      (∀ candidate ∈ selected, Text.casefold candidate ∉ seen) ∧ (selected.map Text.casefold).Nodup := by
  induction selected generalizing seen prepared with
  | nil =>
      rw [prepareSources, List.forall₂_nil_left_iff]
      simp [pure, Except.pure, eq_comm]
  | cons candidate selected ih =>
      simp only [prepareSources, bind_eq_ok, prepareSource_eq_ok, ih, List.forall_mem_cons, List.map_cons,
        List.nodup_cons]
      constructor
      · rintro ⟨file, ⟨prepares, fresh⟩, others, ⟨rest, later, distinct⟩, made⟩
        cases made
        have path : file.descriptor.path = candidate := by rw [prepares.descriptor]
        simp only [path, List.mem_cons, not_or] at later
        refine ⟨.cons prepares rest, ⟨fresh, fun other member => (later other member).2⟩, ?_, distinct⟩
        intro inside
        obtain ⟨other, member, same⟩ := List.mem_map.mp inside
        exact (later other member).1 same
      · rintro ⟨rest, ⟨fresh, later⟩, absent, distinct⟩
        cases rest with
        | @cons _ file _ others prepares rest =>
            have path : file.descriptor.path = candidate := by rw [prepares.descriptor]
            refine ⟨file, ⟨prepares, fresh⟩, others, ⟨rest, ?_, distinct⟩, rfl⟩
            intro other member
            rw [path, List.mem_cons, not_or]
            exact ⟨fun same => absent (same ▸ List.mem_map_of_mem member), later other member⟩

/-! ### The order of the files -/

theorem paths_eq {selected : List String} {prepared : List PreparedFile}
    (prepares : List.Forall₂ (Prepares tree) selected prepared) :
    prepared.map (·.descriptor.path) = selected := by
  induction prepares with
  | nil => rfl
  | cons first _ ih => rw [List.map_cons, ih, first.descriptor]

theorem prepared_valid {selected : List String} {prepared : List PreparedFile}
    (prepares : List.Forall₂ (Prepares tree) selected prepared) :
    ∀ file ∈ prepared, IsBundleFile file.descriptor := by
  induction prepares with
  | nil => exact fun _ member => absurd member List.not_mem_nil
  | cons first _ ih => exact List.forall_mem_cons.mpr ⟨first.isBundleFile, ih⟩

omit [Composition] [Sha256Bytes] in
/-- The files in the order of their encoded paths are strictly so, as no two paths are the same. -/
theorem sorted_strictly {files : List PreparedFile} (distinct : (files.map (·.descriptor.path)).Nodup) :
    (files.insertionSort comesFirst).Pairwise
      fun a b => Digest.utf8 a.descriptor.path < Digest.utf8 b.descriptor.path := by
  have total : Std.Total comesFirst := ⟨fun a b => le_total _ _⟩
  have trans : IsTrans PreparedFile comesFirst := ⟨fun a b c => le_trans⟩
  have sorted := List.pairwise_insertionSort comesFirst files
  have different : (files.insertionSort comesFirst).Pairwise
      fun a b => a.descriptor.path ≠ b.descriptor.path :=
    List.pairwise_map.mp (((List.perm_insertionSort comesFirst files).map _).nodup_iff.mpr distinct)
  refine sorted.imp₂ (fun a b le ne => lt_of_le_of_ne le fun same => ne (Digest.utf8_injective same)) different

omit [Composition] [Sha256Bytes] in
theorem sorted_eq {files others : List PreparedFile} (perm : files.Perm others)
    (distinct : (files.map (·.descriptor.path)).Nodup) :
    files.insertionSort comesFirst = others.insertionSort comesFirst := by
  have left := sorted_strictly distinct
  have right := sorted_strictly ((perm.map (·.descriptor.path)).nodup_iff.mp distinct)
  have same := ((List.perm_insertionSort comesFirst files).trans perm).trans
    (List.perm_insertionSort comesFirst others).symm
  exact same.eq_of_pairwise (fun _ _ _ _ first second => absurd second (lt_asymm first)) left right

/-! ### What is built -/

/-- The files that are prepared meet what a manifest asks of its files. -/
theorem files_prepared {selected : List String} {prepared : List PreparedFile}
    (prepares : List.Forall₂ (Prepares tree) selected prepared)
    (distinct : (selected.map Text.casefold).Nodup) :
    let files := (prepared.insertionSort comesFirst).map (·.descriptor)
    files.length = selected.length ∧ (∀ file ∈ files, IsBundleFile file) ∧
      (files.Pairwise fun a b => Digest.utf8 a.path < Digest.utf8 b.path) ∧
      (files.map fun file => Text.casefold file.path).Nodup := by
  have perm := List.perm_insertionSort comesFirst prepared
  have paths := paths_eq prepares
  refine ⟨?_, ?_, ?_, ?_⟩
  · rw [List.length_map, List.length_insertionSort, prepares.length_eq]
  · intro file member
    obtain ⟨made, inside, rfl⟩ := List.mem_map.mp member
    exact prepared_valid prepares made (perm.mem_iff.mp inside)
  · rw [List.pairwise_map]
    exact sorted_strictly (by rw [paths]; exact distinct.of_map _)
  · rw [List.map_map]
    refine (perm.map _).nodup_iff.mpr ?_
    have folded := congrArg (List.map Text.casefold) paths
    rw [List.map_map] at folded
    rw [← folded] at distinct
    exact distinct

variable [Floats] {purpose : String} {selected : List String} {catalogue : String} {season : Int}
  {bundle : Bundle}

/-- Which bundle is built, if any. -/
theorem buildBundle_eq_ok : buildBundle tree purpose selected catalogue season = .ok bundle ↔
    ∃ prepared, List.Forall₂ (Prepares tree) selected prepared ∧ (selected.map Text.casefold).Nodup ∧
      bundle.prepared = prepared.insertionSort comesFirst ∧
      IsManifest purpose season bundle.files catalogue ∧
      bundle.manifest = canonicalJson (manifest purpose season bundle.files catalogue) := by
  simp only [buildBundle, bind_eq_ok, reject_eq_ok, validateCatalogueDigest, prepareSources_eq_ok,
    not_or, not_not, not_lt, Bool.not_eq_false, pure, Except.pure, Except.ok.injEq]
  constructor
  · rintro ⟨_, allowed, _, positive, _, ⟨_, digest, rfl⟩, _, ⟨nonempty, count⟩, prepared,
      ⟨prepares, _, distinct⟩, _, total, _, layout, _, short, rfl⟩
    obtain ⟨lengths, each, ordered, folded⟩ := files_prepared prepares distinct
    have counted : ((prepared.insertionSort comesFirst).map (·.descriptor)).length ≤ Policy.maxFileCount := by
      rw [lengths]
      exact count
    have listed : (prepared.insertionSort comesFirst).map (·.descriptor) ≠ [] := by
      intro empty
      rw [empty, List.length_nil] at lengths
      exact nonempty (List.length_eq_zero_iff.mp lengths.symm)
    refine ⟨prepared, prepares, distinct, rfl,
      ⟨allowed, positive, listed, counted, each, ordered, folded, total, digest, layout⟩, ?_⟩
    simp only [Bundle.files]
  · obtain ⟨written, stored⟩ := bundle
    simp only [Bundle.files]
    rintro ⟨prepared, prepares, distinct, rfl, valid, canonical⟩
    rw [canonical]
    obtain ⟨lengths, _⟩ := files_prepared prepares distinct
    refine ⟨(), valid.allowed, (), valid.positive, catalogue, ⟨(), valid.digest, rfl⟩, (), ⟨?_, ?_⟩, prepared,
      ⟨prepares, fun _ _ => List.not_mem_nil, distinct⟩, (), valid.total, (), valid.layout, (),
      size_manifest valid, rfl⟩
    · rintro rfl
      exact valid.nonempty (List.length_eq_zero_iff.mp lengths)
    · rw [← lengths]
      exact valid.count

/-- A built manifest decodes to the files of the bundle, which are those that were selected. -/
theorem decodeManifest_of_built {stack : Nat} (deep : 3 ≤ stack)
    (built : buildBundle tree purpose selected catalogue season = .ok bundle) :
    decodeManifest stack bundle.manifest =
        .ok (manifest purpose season bundle.files catalogue).sortKeys ∧
      (bundle.files.map (·.path)).Perm selected := by
  obtain ⟨prepared, prepares, _, sorted, valid, written⟩ := buildBundle_eq_ok.mp built
  refine ⟨(decodeManifest_eq_ok deep).mpr ⟨_, _, _, _, valid, written, rfl⟩, ?_⟩
  have perm := (List.perm_insertionSort comesFirst prepared).map (·.descriptor.path)
  rw [paths_eq prepares] at perm
  rw [Bundle.files, sorted, List.map_map]
  exact perm

/-- The order of the selection does not matter. -/
theorem buildBundle_perm {others : List String} (perm : selected.Perm others)
    (built : buildBundle tree purpose selected catalogue season = .ok bundle) :
    buildBundle tree purpose others catalogue season = .ok bundle := by
  obtain ⟨prepared, prepares, distinct, sorted, valid, written⟩ := buildBundle_eq_ok.mp built
  obtain ⟨reordered, prepares', perm'⟩ := List.perm_comp_forall₂ perm.symm prepares
  have unique : (prepared.map (·.descriptor.path)).Nodup := by
    rw [paths_eq prepares]
    exact distinct.of_map _
  refine buildBundle_eq_ok.mpr ⟨reordered, prepares', (perm.map _).nodup_iff.mp distinct, ?_, valid, written⟩
  rw [sorted]
  exact sorted_eq perm'.symm unique

end Building

/-! ### One encoding -/

section Encoding

variable [Floats] [Composition] [Sha256Bytes]

/-- What is asked of the bytes of a manifest: they are decoded exactly where they are the text of a
valid manifest, to the files from which they were built, and they are refused by `BundleError` alone. -/
structure HasOneEncoding (stack : Nat) (raw : ByteArray) : Prop where
  decodes : ∀ value, decodeManifest stack raw = .ok value ↔
    ∃ purpose season files catalogue, IsManifest purpose season files catalogue ∧
      raw = canonicalJson (manifest purpose season files catalogue) ∧
      value = (manifest purpose season files catalogue).sortKeys
  built : ∀ tree purpose selected catalogue season bundle,
    buildBundle tree purpose selected catalogue season = .ok bundle → bundle.manifest = raw →
      decodeManifest stack raw = .ok (manifest purpose season bundle.files catalogue).sortKeys ∧
        (bundle.files.map (·.path)).Perm selected ∧
        ∀ others, selected.Perm others → buildBundle tree purpose others catalogue season = .ok bundle
  inside : ∀ purpose season files catalogue,
    decodeManifest stack raw = .ok (manifest purpose season files catalogue).sortKeys →
      ∀ file ∈ files, StaysInside file.path
  refuses : OnlyBundleErrors (decodeManifest stack raw)

end Encoding

namespace ManifestSamples

attribute [local instance] wholeFloats Composition.ascii Sha256Bytes.standard

def loneSurrogateText : List Char :=
  ['\x7b', '"', 'a', '"', ':', '"', '\\', 'u', 'd', '8', '0', '0', '"', '\x7d']

/-- A dictionary with one text, a surrogate alone behind its escape. -/
def loneSurrogate : ByteArray := (String.ofList loneSurrogateText).toUTF8

def subtitlePath : String := " - season 1.en/reviewed/.reviewed.srt"

def ledgerPath : String := " - season 1.en/reviewed/review-ledger.json"

/-- A subtitle and its ledger, which comes second as `.` comes before `r`. -/
theorem isManifest_sample {subtitleDigest ledgerDigest catalogue : String}
    (digests : ∀ digest ∈ [subtitleDigest, ledgerDigest, catalogue], isDigest digest = true) :
    IsManifest "reviewed_ingestion" 1 [⟨subtitlePath, 1, subtitleDigest⟩, ⟨ledgerPath, 2, ledgerDigest⟩]
      catalogue := by
  have paths : ∀ path ∈ [subtitlePath, ledgerPath], validateRelativeText path "" = .ok path := by
    decide +kernel
  have order : Digest.utf8 subtitlePath < Digest.utf8 ledgerPath := by decide +kernel
  have distinct : ([subtitlePath, ledgerPath].map Text.casefold).Nodup := by decide +kernel
  have layout : validatePurposeShape [⟨subtitlePath, 1, ""⟩, ⟨ledgerPath, 2, ""⟩] "reviewed_ingestion" 1 =
      .ok () := by decide +kernel
  have sizes : ∀ size ∈ [(1 : Int), 2], 0 < size ∧ size ≤ Policy.maxFileBytes := by decide
  have total : [(1 : Int), 2].sum ≤ Policy.maxTotalBytes := by decide
  refine ⟨by decide, by decide, List.cons_ne_nil _ _, ?_, fun file member => ?_, List.pairwise_pair.mpr order,
    distinct, total, digests _ (by simp), layout⟩
  · change 2 ≤ Policy.maxFileCount
    decide
  · rcases List.mem_pair.mp member with rfl | rfl
    · exact ⟨(validateRelativeText_eq_ok.mp (paths _ (by simp))).2, (sizes 1 (by simp)).1,
        (sizes 1 (by simp)).2, digests _ (by simp)⟩
    · exact ⟨(validateRelativeText_eq_ok.mp (paths _ (by simp))).2, (sizes 2 (by simp)).1,
        (sizes 2 (by simp)).2, digests _ (by simp)⟩

def digest : String := "0123456789abcdef0123456789abcdef0123456789abcdef0123456789abcdef"

def twoFiles : List BundleFile := [⟨subtitlePath, 1, digest⟩, ⟨ledgerPath, 2, digest⟩]

/-- The manifest of a subtitle and its ledger, as `build_bundle` writes it. -/
def written : ByteArray := canonicalJson (manifest "reviewed_ingestion" 1 twoFiles digest)

theorem decodeManifest_written : decodeManifest 1000 written =
    .ok (manifest "reviewed_ingestion" 1 twoFiles digest).sortKeys := by
  have digests : isDigest digest = true := by decide
  refine (decodeManifest_eq_ok (by decide)).mpr
    ⟨"reviewed_ingestion", 1, twoFiles, digest, isManifest_sample ?_, rfl, rfl⟩
  simp [digests]

end ManifestSamples

end Cinegraph.PrivateCorpus
