import Cinegraph.PrivateCorpus.Build

/-!
How the bytes of an archive are verified. What a ZIP library reads from them is taken as it comes:
the members that are verified are known by the digests of the manifest.
-/

namespace Cinegraph.PrivateCorpus

open Library

namespace Policy

def maxArchiveBytes : Nat := 65 * 1024 * 1024
def archiveCompression : Nat := 0
def archiveMode : Nat := 0o100600

end Policy

/-- `zipfile.ZipInfo` -/
structure ZipInfo where
  filename : String
  fileSize : Nat
  headerOffset : Nat
  createSystem : Nat
  externalAttr : Nat
  compressType : Nat
  flagBits : Nat
  extra : ByteArray
  comment : ByteArray

/-- `info.is_dir()` -/
def ZipInfo.isDir (info : ZipInfo) : Bool := info.filename.toList.getLast? = some '/'

/-- What `zipfile.ZipFile(handle, "r")` reads from the bytes of an archive. -/
structure ZipFile where
  infolist : List ZipInfo
  startDir : Nat
  comment : ByteArray
  read : ZipInfo → Except Raised ByteArray

/-- `archive.getinfo(name)`: the last member of this name. -/
def ZipFile.getinfo (archive : ZipFile) (name : String) : Except Raised ZipInfo :=
  match archive.infolist.reverse.find? (·.filename = name) with
  | some info => .ok info
  | none => .error ⟨.keyError, "There is no item named " ++ name ++ " in the archive"⟩

class ZipLibrary where
  zipFile : ByteArray → Except Raised ZipFile

/-- `_regular_zip_member` -/
def regularZipMember (info : ZipInfo) : Bool :=
  !info.isDir && info.createSystem = 3 &&
    (info.externalAttr >>> 16) &&& 0xFFFF = Policy.archiveMode &&
    info.compressType = Policy.archiveCompression && info.externalAttr &&& 0x10 = 0 &&
    (info.flagBits = 0 || info.flagBits = 0x800) && info.extra.size = 0 && info.comment.size = 0

/-- An unsigned number, little end first. -/
def littleEndian (bytes : List UInt8) : Nat := bytes.foldr (fun byte n => byte.toNat + 256 * n) 0

def eocdSize : Nat := 22

/-- `_read_zip_end`: the count of the members, and the size and place of the central directory. -/
def readZipEnd (content : ByteArray) : Except Raised (Nat × Nat × Nat) := do
  let message := "bundle archive has trailing or ambiguous data"
  reject (content.size < eocdSize) message .bundleError
  let raw := content.data.toList.drop (content.size - eocdSize)
  let number (start size : Nat) := littleEndian ((raw.drop start).take size)
  reject (raw.take 4 ≠ [0x50, 0x4B, 5, 6] ∨ number 4 2 ≠ 0 ∨ number 6 2 ≠ 0 ∨ number 8 2 ≠ number 10 2 ∨
    Policy.maxFileCount + 1 < number 10 2 ∨ number 20 2 ≠ 0 ∨ number 12 4 = 0xFFFFFFFF ∨
    number 16 4 = 0xFFFFFFFF ∨ number 16 4 + number 12 4 ≠ content.size - eocdSize) message .bundleError
  return (number 10 2, number 12 4, number 16 4)

/-- `_check_zip_end` -/
def checkZipEnd (content : ByteArray) (archive : ZipFile) (count : Nat) : Except Raised Unit := do
  let (expectedCount, _, centralOffset) ← readZipEnd content
  reject (expectedCount ≠ count ∨ archive.startDir ≠ centralOffset ∨ archive.comment.size ≠ 0)
    "bundle archive has trailing or ambiguous data" .bundleError

/-! ### What is written to an archive -/

/-- An unsigned number in so many bytes, little end first. -/
def littleBytes : (size n : Nat) → List UInt8
  | 0, _ => []
  | size + 1, n => (n % 256).toUInt8 :: littleBytes size (n / 256)

@[simp] theorem length_littleBytes (size n : Nat) : (littleBytes size n).length = size := by
  induction size generalizing n with
  | zero => rfl
  | succ size ih => rw [littleBytes, List.length_cons, ih]

theorem littleEndian_littleBytes {size n : Nat} (small : n < 256 ^ size) :
    littleEndian (littleBytes size n) = n := by
  induction size generalizing n with
  | zero =>
      rw [Nat.pow_zero, Nat.lt_one_iff] at small
      rw [small]
      rfl
  | succ size ih =>
      rw [Nat.pow_succ'] at small
      have digit : ((n % 256).toUInt8).toNat = n % 256 := by
        rw [Nat.toUInt8, UInt8.toNat_ofNat', Nat.mod_mod]
      change (n % 256).toUInt8.toNat + 256 * littleEndian (littleBytes size (n / 256)) = n
      rw [ih (Nat.div_lt_of_lt_mul small), digit]
      exact Nat.mod_add_div n 256

/-- `zlib.crc32` -/
def crc32 (bytes : List UInt8) : Nat :=
  let shift (crc : Nat) := if crc % 2 = 1 then (crc / 2) ^^^ 0xEDB88320 else crc / 2
  bytes.foldl (fun crc byte => shift^[8] (crc ^^^ byte.toNat)) 0xFFFFFFFF ^^^ 0xFFFFFFFF

/-- The members of an archive in the order in which they are written. -/
abbrev Members := List (String × ByteArray)

/-- The flags, the date and the sizes, in a member and in the central directory. -/
def zipFields (member : String × ByteArray) : List UInt8 :=
  littleBytes 2 0 ++ littleBytes 2 Policy.archiveCompression ++ littleBytes 2 0 ++ littleBytes 2 33 ++
    littleBytes 4 (crc32 member.2.data.toList) ++ littleBytes 4 member.2.size ++
    littleBytes 4 member.2.size ++ littleBytes 2 member.1.toUTF8.size ++ littleBytes 2 0

def zipMember (member : String × ByteArray) : List UInt8 :=
  [0x50, 0x4B, 3, 4] ++ littleBytes 2 20 ++ zipFields member ++ member.1.toUTF8.data.toList ++
    member.2.data.toList

def centralDirectory : (offset : Nat) → Members → List UInt8
  | _, [] => []
  | offset, member :: members =>
      [0x50, 0x4B, 1, 2] ++ littleBytes 2 (3 * 256 + 20) ++ littleBytes 2 20 ++ zipFields member ++
        littleBytes 6 0 ++ littleBytes 4 (Policy.archiveMode * 65536) ++ littleBytes 4 offset ++
        member.1.toUTF8.data.toList ++
        centralDirectory (offset + (zipMember member).length) members

def endRecord (count size offset : Nat) : List UInt8 :=
  [0x50, 0x4B, 5, 6] ++ littleBytes 4 0 ++ littleBytes 2 count ++ littleBytes 2 count ++
    littleBytes 4 size ++ littleBytes 4 offset ++ littleBytes 2 0

/-- The bytes of an archive after `archive.writestr(_zip_info(name), content)` for each of its members. -/
def storedArchive (members : Members) : ByteArray :=
  ⟨(members.flatMap zipMember ++ centralDirectory 0 members ++
    endRecord members.length (centralDirectory 0 members).length (members.flatMap zipMember).length).toArray⟩

/-- What the central directory says about a member. -/
def storedInfo (name : String) (size offset : Nat) : ZipInfo where
  filename := name
  fileSize := size
  headerOffset := offset
  createSystem := 3
  externalAttr := Policy.archiveMode * 65536
  compressType := Policy.archiveCompression
  flagBits := 0
  extra := .empty
  comment := .empty

def storedInfos : (offset : Nat) → Members → List ZipInfo
  | _, [] => []
  | offset, member :: members =>
      storedInfo member.1 member.2.size offset :: storedInfos (offset + (zipMember member).length) members

/-- What is read from these bytes. -/
def storedZipFile (members : Members) : ZipFile where
  infolist := storedInfos 0 members
  startDir := (members.flatMap zipMember).length
  comment := .empty
  read info := match members.lookup info.filename with
    | some content => .ok content
    | none => .error ⟨.keyError, "There is no item named " ++ info.filename ++ " in the archive"⟩

theorem size_storedArchive (members : Members) : (storedArchive members).size =
    (members.flatMap zipMember).length + (centralDirectory 0 members).length + eocdSize := by
  simp only [storedArchive, ByteArray.size, List.size_toArray, List.length_append, endRecord,
    length_littleBytes, List.length_cons, List.length_nil, eocdSize]

/-- The parts of an archive fit into the bytes that an archive may have. -/
def Fitting (members : Members) : Prop :=
  members.length ≤ Policy.maxFileCount + 1 ∧ (members.flatMap zipMember).length +
    (centralDirectory 0 members).length + eocdSize ≤ Policy.maxArchiveBytes

theorem storedArchive_bounded {members : Members} (fitting : Fitting members) :
    ¬((storedArchive members).size = 0 ∨ Policy.maxArchiveBytes < (storedArchive members).size) := by
  have footer : 0 < eocdSize := by decide
  have small := fitting.2
  rw [size_storedArchive]
  omega

/-- The end of an archive says where its central directory is. -/
theorem readZipEnd_storedArchive {members : Members} (fitting : Fitting members) :
    readZipEnd (storedArchive members) =
      .ok (members.length, (centralDirectory 0 members).length, (members.flatMap zipMember).length) := by
  obtain ⟨count, small⟩ := fitting
  have limit : Policy.maxArchiveBytes = 68157440 := rfl
  have central : (centralDirectory 0 members).length < 0xFFFFFFFF := by omega
  have bodies : (members.flatMap zipMember).length < 0xFFFFFFFF := by omega
  clear small limit
  generalize same : centralDirectory 0 members = directory at central
  generalize same' : members.flatMap zipMember = body at bodies
  have limit : Policy.maxFileCount = 256 := rfl
  have few : members.length < 256 ^ 2 := by omega
  have numbers : ∀ n : Nat, n < 0xFFFFFFFF → littleEndian (littleBytes 4 n) = n := fun n below =>
    littleEndian_littleBytes (lt_trans below (by decide))
  have counted := littleEndian_littleBytes few
  have zeros : littleEndian (littleBytes 2 0) = 0 := rfl
  have size : (storedArchive members).size = body.length + directory.length + eocdSize := by
    rw [size_storedArchive, same, same']
  have raw : (storedArchive members).data.toList.drop ((storedArchive members).size - eocdSize) =
      endRecord members.length directory.length body.length := by
    rw [size, Nat.add_sub_cancel, storedArchive, same, same']
    rw [List.toList_toArray, ← List.length_append, List.drop_left]
  have disks : ∀ start ∈ [4, 6, 20], ((endRecord members.length directory.length body.length).drop start).take 2 =
      littleBytes 2 0 := by simp [endRecord, littleBytes]
  have counts : ∀ start ∈ [8, 10], ((endRecord members.length directory.length body.length).drop start).take 2 =
      littleBytes 2 members.length := by simp [endRecord, littleBytes]
  have sizes : ((endRecord members.length directory.length body.length).drop 12).take 4 =
      littleBytes 4 directory.length := rfl
  have offsets : ((endRecord members.length directory.length body.length).drop 16).take 4 =
      littleBytes 4 body.length := rfl
  have signature : (endRecord members.length directory.length body.length).take 4 = [0x50, 0x4B, 5, 6] := rfl
  simp only [readZipEnd, raw, disks, counts, sizes, offsets, signature, List.mem_cons, true_or, or_true, zeros,
    counted, numbers _ central, numbers _ bodies]
  rw [reject_of_not (by omega), ok_bind, reject_of_not]
  · rfl
  · simp only [ne_eq, not_true_eq_false, false_or]
    omega

theorem checkZipEnd_storedArchive {members : Members} (fitting : Fitting members) :
    checkZipEnd (storedArchive members) (storedZipFile members) members.length = .ok () := by
  rw [checkZipEnd, readZipEnd_storedArchive fitting, ok_bind]
  exact reject_of_not (by simp [storedZipFile])

theorem length_toList (content : ByteArray) : content.data.toList.length = content.size := rfl

/-- `BundleFile(item["path"], item["size"], item["sha256"])` -/
def entryFile : Json → Option BundleFile
  | .obj entry =>
      match field entry "path", field entry "size", field entry "sha256" with
      | .str path, .int size, .str sha256 => some ⟨path, size, sha256⟩
      | _, _, _ => none
  | _ => none

/-- The files that a decoded manifest lists. -/
def listedFiles : Json → List BundleFile
  | .obj items =>
      match field items "files" with
      | .arr entries => entries.filterMap entryFile
      | _ => []
  | _ => []

/-- The members' names, each of which may be read once. -/
def checkNames [Composition] (folded : List String) : List String → Except Raised Unit
  | [] => return ()
  | name :: names => do
      let _ ← validateRelativeText name "bundle archive has an invalid member"
      reject (Text.casefold name ∈ folded) "bundle archive has duplicate members" .bundleError
      checkNames (Text.casefold name :: folded) names

section Verification

variable [Floats] [Composition] [Sha256Bytes] [ZipLibrary]

/-- `_verified_member_bytes` -/
def verifiedMemberBytes (archive : ZipFile) (info : ZipInfo) (item : BundleFile) :
    Except Raised ByteArray := do
  reject (regularZipMember info = false ∨ (info.fileSize : Int) ≠ item.size)
    "bundle archive member metadata is invalid" .bundleError
  let content ← archive.read info
  reject ((content.size : Int) ≠ item.size ∨ Sha256Bytes.hexdigest content ≠ item.sha256)
    "bundle archive content hash does not match the manifest" .bundleError
  reject (Policy.forbiddenContent content) "bundle archive content violates the private bundle policy"
    .bundleError
  return content

/-- `zip(infos, files, strict=True)` -/
def verifyMembers (archive : ZipFile) : List ZipInfo → List BundleFile → Except Raised Unit
  | [], [] => return ()
  | info :: infos, item :: files => do
      let _ ← verifiedMemberBytes archive info item
      verifyMembers archive infos files
  | _, _ => throw ⟨.valueError, "zip() arguments have different lengths"⟩

/-- The body of `verify_bundle`, in front of its handlers. -/
def verifyArchive (stack : Nat) (content : ByteArray) : Except Raised (Json × List BundleFile) := do
  reject (content.size = 0 ∨ Policy.maxArchiveBytes < content.size)
    "bundle archive must be a bounded regular non-hardlinked file" .bundleError
  let _ ← readZipEnd content
  let archive ← ZipLibrary.zipFile content
  let infos := archive.infolist
  checkZipEnd content archive infos.length
  match infos with
  | [] => throw ⟨.bundleError, "bundle archive layout is invalid"⟩
  | manifestInfo :: members => do
      reject (manifestInfo.headerOffset ≠ 0) "bundle archive layout is invalid" .bundleError
      let names := infos.map (·.filename)
      checkNames [] names
      reject (names.count Policy.manifestFilename ≠ 1) "bundle archive manifest is missing" .bundleError
      reject (manifestInfo.filename ≠ Policy.manifestFilename ∨ regularZipMember manifestInfo = false)
        "bundle archive manifest member is invalid" .bundleError
      reject (Policy.maxManifestBytes < manifestInfo.fileSize)
        "bundle archive manifest exceeds the configured limit" .bundleError
      let manifest ← decodeManifest stack (← archive.read manifestInfo)
      let files := listedFiles manifest
      reject (names ≠ Policy.manifestFilename :: files.map (·.path))
        "bundle archive members do not match the manifest" .bundleError
      verifyMembers archive members files
      return (manifest, files)

/-- `verify_bundle` of an archive's bytes: only `BundleError` and what is no error of a file, an archive
or a value leaves it. -/
def verifyBundle (stack : Nat) (content : ByteArray) : Except Raised (Json × List BundleFile) :=
  match verifyArchive stack content with
  | .ok verified => .ok verified
  | .error raised =>
      if raised.kind ∈ [.osError, .badZipFile, .keyError, .runtimeError, .recursionError, .valueError,
          .unicodeEncodeError] then
        .error ⟨.bundleError, "bundle archive is malformed"⟩
      else .error raised

/-! ### What was verified -/

/-- The content is what the manifest records of its file. -/
structure Matches (item : BundleFile) (content : ByteArray) : Prop where
  size : (content.size : Int) = item.size
  sha256 : Sha256Bytes.hexdigest content = item.sha256

omit [Floats] [Composition] [ZipLibrary] in
theorem verifiedMemberBytes_matches {archive : ZipFile} {info : ZipInfo} {item : BundleFile}
    {content : ByteArray} (verified : verifiedMemberBytes archive info item = .ok content) :
    Matches item content := by
  simp only [verifiedMemberBytes, bind_eq_ok, reject_eq_ok, not_or, not_not] at verified
  obtain ⟨_, _, read, _, _, same, _, _, returned⟩ := verified
  cases returned
  exact ⟨same.1, same.2⟩

omit [Floats] [Composition] [Sha256Bytes] [ZipLibrary] in
theorem entryFiles_of_entries {entries : List Json} {files : List BundleFile}
    (described : List.Forall₂ IsEntry entries files) : entries.filterMap entryFile = files := by
  induction described with
  | nil => rfl
  | @cons entry file entries files first _ ih =>
      obtain ⟨items, rfl, describes⟩ := first
      have read : entryFile (.obj items) = some file := by
        simp only [entryFile, describes.path, describes.size, describes.sha256]
      rw [List.filterMap_cons_some read, ih]

omit [Floats] [Composition] [Sha256Bytes] [ZipLibrary] in
theorem regularZipMember_stored {name : String} (size offset : Nat) (plain : name.toList.getLast? ≠ some '/') :
    regularZipMember (storedInfo name size offset) = true := by
  have attributes : (Policy.archiveMode * 65536) >>> 16 &&& 0xFFFF = Policy.archiveMode ∧
      Policy.archiveMode * 65536 &&& 0x10 = 0 := by decide
  have empty : ByteArray.empty.size = 0 := rfl
  simp only [regularZipMember, storedInfo, ZipInfo.isDir, plain, attributes, empty, decide_false, decide_true,
    Bool.not_false, Bool.and_true, Bool.true_or]

omit [Floats] [Composition] [ZipLibrary] in
/-- A stored member is verified against its own size and digest. -/
theorem verifiedMemberBytes_stored {members : Members} {item : BundleFile} {content : ByteArray} (offset : Nat)
    (found : members.lookup item.path = some content) (recorded : Matches item content)
    (clean : Policy.forbiddenContent content = false) (plain : item.path.toList.getLast? ≠ some '/') :
    verifiedMemberBytes (storedZipFile members) (storedInfo item.path content.size offset) item =
      .ok content := by
  have read : (storedZipFile members).read (storedInfo item.path content.size offset) = .ok content := by
    simp only [storedZipFile, storedInfo, found]
  have shaped := regularZipMember_stored content.size offset plain
  rw [verifiedMemberBytes, reject_of_not, ok_bind, read, ok_bind, reject_of_not, ok_bind, reject_of_not, ok_bind]
  · rfl
  · rw [clean]
    decide
  · rw [not_or, not_not, not_not]
    exact ⟨recorded.size, recorded.sha256⟩
  · rw [shaped, not_or, not_not]
    exact ⟨by decide, recorded.size⟩

omit [Floats] [Composition] [Sha256Bytes] [ZipLibrary] in
theorem listedFiles_manifest (purpose : String) (season : Int) (files : List BundleFile)
    (catalogue : String) : listedFiles (manifest purpose season files catalogue).sortKeys = files := by
  obtain ⟨items, object, declares⟩ := declares_sorted purpose season files catalogue
  obtain ⟨entries, listed, described⟩ := declares.entries
  rw [object, listedFiles, listed]
  exact entryFiles_of_entries described

omit [Floats] [Sha256Bytes] [ZipLibrary] in
theorem checkNames_eq_ok {folded names : List String} : checkNames folded names = .ok () ↔
    (∀ name ∈ names, IsRelativePath name ∧ Text.casefold name ∉ folded) ∧
      (names.map Text.casefold).Nodup := by
  induction names generalizing folded with
  | nil => simp [checkNames, pure, Except.pure]
  | cons name names ih =>
      simp only [checkNames, bind_eq_ok, validateRelativeText_eq_ok, reject_eq_ok, ih, List.forall_mem_cons,
        List.map_cons, List.nodup_cons]
      constructor
      · rintro ⟨_, ⟨rfl, accepted⟩, _, fresh, later, distinct⟩
        simp only [List.mem_cons, not_or] at later
        refine ⟨⟨⟨accepted, fresh⟩, fun other member => ?_⟩, fun inside => ?_, distinct⟩
        · exact ⟨(later other member).1, (later other member).2.2⟩
        · obtain ⟨other, member, same⟩ := List.mem_map.mp inside
          exact (later other member).2.1 same
      · rintro ⟨⟨⟨accepted, fresh⟩, later⟩, absent, distinct⟩
        refine ⟨name, ⟨rfl, accepted⟩, (), fresh, fun other member => ⟨(later other member).1, ?_⟩, distinct⟩
        rw [List.mem_cons, not_or]
        exact ⟨fun same => absent (same ▸ List.mem_map_of_mem member), (later other member).2⟩

/-- What `verify_bundle` returns is a valid manifest and its files. -/
theorem verifyBundle_manifest {stack : Nat} (deep : 3 ≤ stack) {content : ByteArray} {value : Json}
    {files : List BundleFile} (verified : verifyBundle stack content = .ok (value, files)) :
    ∃ purpose season catalogue, IsManifest purpose season files catalogue ∧
      value = (manifest purpose season files catalogue).sortKeys := by
  have body : verifyArchive stack content = .ok (value, files) := by
    unfold verifyBundle at verified
    split at verified
    · cases verified
      assumption
    · split at verified <;> cases verified
  simp only [verifyArchive, bind_eq_ok] at body
  obtain ⟨_, _, _, _, archive, _, _, _, body⟩ := body
  split at body
  · cases body
  · simp only [bind_eq_ok] at body
    obtain ⟨_, _, _, _, _, _, _, _, _, _, raw, _, decoded, accepted, _, _, _, _, returned⟩ := body
    cases returned
    obtain ⟨purpose, season, others, catalogue, valid, _, rfl⟩ := (decodeManifest_eq_ok deep).mp accepted
    rw [listedFiles_manifest]
    exact ⟨purpose, season, catalogue, valid, rfl⟩

/-- Which checks an archive has to pass to be verified. -/
theorem verifyArchive_of_checks {stack : Nat} {content raw : ByteArray} {archive : ZipFile} {ending : Nat × Nat × Nat}
    {manifestInfo : ZipInfo} {infos : List ZipInfo} {value : Json}
    (bounded : ¬(content.size = 0 ∨ Policy.maxArchiveBytes < content.size))
    (ends : readZipEnd content = .ok ending) (opened : ZipLibrary.zipFile content = .ok archive)
    (listed : archive.infolist = manifestInfo :: infos)
    (checked : checkZipEnd content archive (manifestInfo :: infos).length = .ok ())
    (first : manifestInfo.headerOffset = 0)
    (names : (manifestInfo :: infos).map (·.filename) =
      Policy.manifestFilename :: (listedFiles value).map (·.path))
    (valid : checkNames [] (Policy.manifestFilename :: (listedFiles value).map (·.path)) = .ok ())
    (once : (Policy.manifestFilename :: (listedFiles value).map (·.path)).count Policy.manifestFilename = 1)
    (regular : regularZipMember manifestInfo = true)
    (short : manifestInfo.fileSize ≤ Policy.maxManifestBytes) (read : archive.read manifestInfo = .ok raw)
    (decoded : decodeManifest stack raw = .ok value)
    (members : verifyMembers archive infos (listedFiles value) = .ok ()) :
    verifyArchive stack content = .ok (value, listedFiles value) := by
  have named : manifestInfo.filename = Policy.manifestFilename := (List.cons.inj names).1
  simp only [verifyArchive, bind_eq_ok]
  refine ⟨(), reject_of_not bounded, ending, ends, archive, opened, (), ?_, ?_⟩
  · rw [listed]
    exact checked
  · rw [listed]
    simp only [bind_eq_ok, names]
    refine ⟨(), reject_of_not (by simpa using first), (), valid, (), reject_of_not (by simpa using once), (),
      reject_of_not ?_, (), reject_of_not (not_lt.mpr short), raw, read, value, decoded, (),
      reject_of_not (by simp), (), members, rfl⟩
    rw [named, regular]
    simp

end Verification

end Cinegraph.PrivateCorpus
