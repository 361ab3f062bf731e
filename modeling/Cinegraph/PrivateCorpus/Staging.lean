import Cinegraph.Library.FileTree
import Cinegraph.Library.Run
import Cinegraph.PrivateCorpus.Verify

/-!
How a bundle is staged, one file-system call after the other. Any number of calls of `stage_bundle`
for one destination take their steps in any order, and each step may fail.
-/

namespace Cinegraph.PrivateCorpus

open Library

def snapshotPath : List String := [".bundle.zip"]

def manifestPath : List String := [Policy.manifestFilename]

/-- The lock file of a destination. -/
def lockName (destination : String) : String := "." ++ destination ++ ".private-corpus.lock"

/-- What `mkdtemp(prefix=".private-corpus-stage-")` draws its names from. -/
def isStageName (name : String) : Bool :=
  let start := ".private-corpus-stage-".toList
  start.isPrefixOf name.toList && name.toList.length = start.length + 8 &&
    (name.toList.drop start.length).all ("abcdefghijklmnopqrstuvwxyz0123456789_".toList.contains ·)

/-- `BundleResult`, with the values of the manifest. -/
structure BundleResult where
  purpose : Json
  fileCount : Json
  totalBytes : Json
  archiveBytes : Nat
  catalogueSha256 : Json
  seasonNumber : Json

/-- Where a call of `stage_bundle` stands: the call of the file system that it makes next. -/
inductive Phase where
  | check
  | resolve
  | lock
  | mkdtemp
  | chmod
  | openSnapshot
  | copySnapshot
  | verify
  | openFile (path : List String) (content : ByteArray) (rest : List BundleFile)
  | fillFile (path : List String) (content : ByteArray) (rest : List BundleFile)
  | extract (rest : List BundleFile)
  | readMember (item : BundleFile) (rest : List BundleFile)
  | unlinkSnapshot
  | recheck
  | rename
  | rmtree
  | close
  | unlinkLock
  | returned (result : BundleResult)
  | raised (raised : Raised)

/-- A call of `stage_bundle`; `published` records that its rename went through. -/
structure Call where
  phase : Phase
  locked : Bool
  temp : Option String
  manifest : Option Json
  files : List BundleFile
  archiveBytes : Nat
  raised : Option Raised
  published : Bool

namespace Call

def begun : Call := ⟨.check, false, none, none, [], 0, none, false⟩

/-- What the `except` clauses make of an exception. -/
def convert (raised : Raised) : Raised :=
  if raised.kind ∈ [.osError, .badZipFile, .keyError] then
    ⟨.bundleError, "bundle staging failed; destination was not published"⟩
  else raised

/-- An exception leaves the `try` block for its `finally`. -/
def unwind (call : Call) (raised : Raised) : Call :=
  { call with phase := .rmtree, raised := some (convert raised) }

def result (call : Call) (manifest : Json) : BundleResult :=
  let items := match manifest with
    | .obj items => items
    | _ => []
  { purpose := field items "purpose"
    fileCount := field items "file_count"
    totalBytes := field items "total_bytes"
    archiveBytes := call.archiveBytes
    catalogueSha256 := field items "source_catalogue_sha256"
    seasonNumber := field items "season_number" }

/-- The end of the `finally` block. -/
def leave (call : Call) : Call :=
  { call with
    phase := match call.raised, call.manifest with
      | some raised, _ => .raised raised
      | none, some manifest => .returned (call.result manifest)
      | none, none => .raised ⟨.bundleError, "bundle staging failed; destination was not published"⟩ }

/-- A step raises an exception: it is on its way to the `finally` block, or out of the call. -/
def fails (call : Call) (raised : Raised) : Option Call :=
  match call.phase with
  | .check | .resolve => some { call with phase := .raised raised }
  | .close => if call.locked then some { call with phase := .raised raised } else none
  | .rmtree | .unlinkLock | .returned _ | .raised _ => none
  | _ => some (call.unwind raised)

end Call

/-- What the next step of a call does: it goes through, it raises, or it does a part of its work. -/
inductive Event where
  | proceed
  | fail (raised : Raised)
  | draw (name : String)
  | copy (chunk : ByteArray)
  | fill (count : Nat)
  | remove (path : List String)
  | ignore

/-- The directory in which the destination is staged. -/
abbrev Entries := Dict String Node

def fileExists : Raised := ⟨.osError, "File exists"⟩

def noSuchFile : Raised := ⟨.osError, "No such file or directory"⟩

/-- A change below the temporary directory of a call. -/
def inTemp (entries : Entries) (call : Call) (change : FileTree → Option FileTree) (next : Phase) :
    Entries × Call :=
  match call.temp with
  | none => (entries, call.unwind noSuchFile)
  | some temp =>
      match entries.get? temp with
      | some (.directory tree) =>
          match change tree with
          | some after => (entries.set temp (.directory after), { call with phase := next })
          | none => (entries, call.unwind noSuchFile)
      | _ => (entries, call.unwind noSuchFile)

def snapshotOf (entries : Entries) (call : Call) : Except Raised ByteArray :=
  match call.temp.bind entries.get? with
  | some (.directory tree) =>
      match tree.files.get? snapshotPath with
      | some content => .ok content
      | none => .error noSuchFile
  | _ => .error noSuchFile

/-- `lock.unlink(missing_ok=True)`, which takes away no directory. -/
def unlinkFile (entries : Entries) (name : String) : Entries :=
  match entries.get? name with
  | some (.file _) => entries.erase name
  | _ => entries

section Steps

variable [Floats] [Composition] [Sha256Bytes] [ZipLibrary] (stack : Nat) (destination : String)

/-- `_verified_member_bytes(archive, archive.getinfo(item.path), item)` from the snapshot. -/
def readMember (entries : Entries) (call : Call) (item : BundleFile) : Except Raised ByteArray := do
  let snapshot ← snapshotOf entries call
  let archive ← ZipLibrary.zipFile snapshot
  let info ← archive.getinfo item.path
  verifiedMemberBytes archive info item

def verifySnapshot (entries : Entries) (call : Call) :
    Except Raised (ByteArray × Json × List BundleFile) := do
  let snapshot ← snapshotOf entries call
  let verified ← verifyBundle stack snapshot
  return (snapshot, verified)

/-- The next step of a call goes as far as the directory allows. -/
def proceed (entries : Entries) (call : Call) : Option (Entries × Call) :=
  match call.phase with
  | .check =>
      if (entries.get? destination).isSome then
        some (entries, { call with
          phase := .raised ⟨.bundleError, "staging destination must not already exist"⟩ })
      else some (entries, { call with phase := .resolve })
  | .resolve => some (entries, { call with phase := .lock })
  | .lock =>
      if (entries.get? (lockName destination)).isSome then some (entries, call.unwind fileExists)
      else some (entries.set (lockName destination) (.file .empty),
        { call with phase := .mkdtemp, locked := true })
  | .chmod => some (entries, { call with phase := .openSnapshot })
  | .openSnapshot => some (inTemp entries call (·.create snapshotPath) .copySnapshot)
  | .copySnapshot => some (entries, { call with phase := .verify })
  | .verify =>
      match verifySnapshot stack entries call with
      | .error raised => some (entries, call.unwind raised)
      | .ok (snapshot, manifest, files) =>
          some (entries, { call with
            phase := .openFile manifestPath (canonicalJson manifest) files
            manifest := some manifest
            files := files
            archiveBytes := snapshot.size })
  | .openFile path content rest =>
      some (inTemp entries call (·.create path) (.fillFile path content rest))
  | .fillFile path content rest => some (inTemp entries call (·.write path content) (.extract rest))
  | .extract (item :: rest) =>
      some (inTemp entries call (·.mkdirs (parentOf (posixPath item.path))) (.readMember item rest))
  | .extract [] => some (entries, { call with phase := .unlinkSnapshot })
  | .readMember item rest =>
      match readMember entries call item with
      | .error raised => some (entries, call.unwind raised)
      | .ok content => some (entries, { call with phase := .openFile (posixPath item.path) content rest })
  | .unlinkSnapshot => some (inTemp entries call (·.unlink snapshotPath) .recheck)
  | .recheck =>
      if (entries.get? destination).isSome then
        some (entries, call.unwind ⟨.bundleError, "staging destination must not already exist"⟩)
      else some (entries, { call with phase := .rename })
  | .rename =>
      if (entries.get? destination).isSome then some (entries, call.unwind fileExists)
      else match call.temp with
        | none => some (entries, call.unwind noSuchFile)
        | some temp =>
            match entries.get? temp with
            | none => some (entries, call.unwind noSuchFile)
            | some node => some ((entries.erase temp).set destination node,
                { call with phase := .rmtree, temp := none, published := true })
  | .rmtree =>
      match call.temp with
      | none => some (entries, { call with phase := .close })
      | some temp => some (entries.erase temp, { call with phase := .close, temp := none })
  | .close => some (entries, { call with phase := .unlinkLock })
  | .unlinkLock =>
      if call.locked then some (unlinkFile entries (lockName destination), call.leave)
      else some (entries, call.leave)
  | .mkdtemp | .returned _ | .raised _ => none

def perform (entries : Entries) (call : Call) : Event → Option (Entries × Call)
  | .proceed => proceed stack destination entries call
  | .fail raised => (call.fails raised).map fun call => (entries, call)
  | .draw name =>
      match call.phase with
      | .mkdtemp =>
          if isStageName name = false ∨ (entries.get? name).isSome then none
          else some (entries.set name (.directory .empty), { call with phase := .chmod, temp := some name })
      | _ => none
  | .copy chunk =>
      match call.phase, snapshotOf entries call with
      | .copySnapshot, .ok copied =>
          if Policy.maxArchiveBytes < copied.size + chunk.size then
            some (entries, call.unwind ⟨.bundleError, "bundle archive exceeds the configured limit"⟩)
          else some (inTemp entries call (·.write snapshotPath (copied ++ chunk)) .copySnapshot)
      | _, _ => none
  | .fill count =>
      match call.phase with
      | .fillFile path content rest =>
          some (inTemp entries call (·.write path (content.extract 0 count)) (.fillFile path content rest))
      | _ => none
  | .remove path =>
      match call.phase, call.temp with
      | .rmtree, some temp =>
          match entries.get? temp with
          | some (.directory tree) =>
              (tree.unlink path).map fun after => (entries.set temp (.directory after), call)
          | _ => none
      | _, _ => none
  | .ignore =>
      match call.phase with
      | .rmtree => some (entries, { call with phase := .close, temp := none })
      | .unlinkLock => some (entries, call.leave)
      | _ => none

/-- The directory, and the calls that have been made or will be. -/
structure StagingState where
  entries : Entries
  calls : Nat → Call

def StagingState.start (entries : Entries) : StagingState := ⟨entries, fun _ => .begun⟩

/-- One call takes its next step. -/
def stagingStep (s : StagingState) (action : Nat × Event) : Option StagingState :=
  (perform stack destination s.entries (s.calls action.1) action.2).map fun after =>
    ⟨after.1, Function.update s.calls action.1 after.2⟩

end Steps

end Cinegraph.PrivateCorpus
