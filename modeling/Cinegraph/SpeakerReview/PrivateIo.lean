import Cinegraph.Library.Run
import Mathlib.Logic.Function.Basic

/-!
The private artifacts of one run directory, written by any number of processes.
`write_private_file_once` fills a file in place behind an exclusive create;
`replace_private_file` fills a temporary file and renames it. Each step below is
one file operation of one process, and a process may die before any of them.
-/

namespace Cinegraph.SpeakerReview

open Library

abbrev Bytes := List UInt8

/-- An artifact under its locator, or a temporary file beside it. -/
inductive FileName where
  | artifact (locator : String)
  | temporary (locator : String) (suffix : Nat)
  deriving DecidableEq

/-- A call of one of the two primitives, which its locator decides. -/
structure WriteCall where
  locator : String
  content : Bytes
  deriving DecidableEq

/-- `stable_file_snapshot`: the size before the file is opened, then its content,
which counts when the size is still the same afterwards. The real identity also
has the modification time; an append always changes the size. -/
inductive Snapshot where
  | lstat
  | opening (size : Nat)
  | reading (size : Nat)
  | confirming (size : Nat) (content : Bytes)
  deriving DecidableEq

/-- The next file operation of a call. -/
inductive Stage where
  | looking
  | comparing (snapshot : Snapshot)
  | creating
  | writing (file : FileName) (written : Nat)
  | replacing (file : FileName)
  | syncing
  deriving DecidableEq

inductive WriteOutcome where
  | returned
  | conflict
  | artifactInvalid
  | sourceInvalid
  | ioFailed
  deriving DecidableEq

/-- A call that is over, and whether it changed an artifact. -/
structure FinishedCall where
  call : WriteCall
  outcome : WriteOutcome
  changed : Bool
  deriving DecidableEq

structure RunDirectory where
  files : FileName → Option Bytes
  process : Nat → Option (WriteCall × Stage)
  calls : List WriteCall
  finished : List FinishedCall
  died : List WriteCall

inductive WriteAction where
  | start (process : Nat) (call : WriteCall)
  /-- One file operation; the choice is the number of bytes of a partial write or
  the suffix of a temporary file. -/
  | advance (process choice : Nat)
  | die (process : Nat)
  deriving DecidableEq

def WriteAction.actor : WriteAction → Nat
  | .start process _ | .advance process _ | .die process => process

namespace RunDirectory

def empty : RunDirectory := ⟨fun _ => none, fun _ => none, [], [], []⟩

def setFile (s : RunDirectory) (file : FileName) (content : Option Bytes) : RunDirectory :=
  { s with files := Function.update s.files file content }

def setStage (s : RunDirectory) (process : Nat) (call : WriteCall) (stage : Stage) :
    RunDirectory :=
  { s with process := Function.update s.process process (some (call, stage)) }

/-- The process is free again and its call is over. -/
def finish (s : RunDirectory) (process : Nat) (call : WriteCall) (outcome : WriteOutcome)
    (changed : Bool) : RunDirectory :=
  { s with
    process := Function.update s.process process none
    finished := ⟨call, outcome, changed⟩ :: s.finished }

/-- One step of `stable_file_snapshot` and the comparison with the content. -/
def compareStep (maxBytes : Nat) (s : RunDirectory) (process : Nat) (call : WriteCall) :
    Snapshot → RunDirectory
  | .lstat =>
      match s.files (.artifact call.locator) with
      | none => s.finish process call .sourceInvalid false
      | some current =>
          if current.length > maxBytes then s.finish process call .sourceInvalid false
          else s.setStage process call (.comparing (.opening current.length))
  | .opening size =>
      match s.files (.artifact call.locator) with
      | none => s.finish process call .sourceInvalid false
      | some current =>
          if current.length ≠ size then s.finish process call .sourceInvalid false
          else s.setStage process call (.comparing (.reading size))
  | .reading size =>
      match s.files (.artifact call.locator) with
      | none => s.finish process call .sourceInvalid false
      | some current =>
          s.setStage process call (.comparing (.confirming size (current.take (maxBytes + 1))))
  | .confirming size content =>
      match s.files (.artifact call.locator) with
      | none => s.finish process call .sourceInvalid false
      | some current =>
          if current.length ≠ size ∨ content.length ≠ size then
            s.finish process call .sourceInvalid false
          else if content ≠ call.content then s.finish process call .conflict false
          else s.finish process call .returned false

section Step

variable (writeOnce : String → Bool) (maxBytes : Nat)

/-- `_open_new_private_file` or `tempfile.mkstemp`. -/
def createStep (s : RunDirectory) (process choice : Nat) (call : WriteCall) :
    Option RunDirectory :=
  if writeOnce call.locator then
    match s.files (.artifact call.locator) with
    | some _ => some (s.setStage process call (.comparing .lstat))
    | none =>
        some ((s.setFile (.artifact call.locator) (some [])).setStage process call
          (.writing (.artifact call.locator) 0))
  else
    match s.files (.temporary call.locator choice) with
    | some _ => none
    | none =>
        some ((s.setFile (.temporary call.locator choice) (some [])).setStage process call
          (.writing (.temporary call.locator choice) 0))

/-- A partial write, or the checks after the last one. -/
def writeStep (s : RunDirectory) (process choice : Nat) (call : WriteCall) (file : FileName)
    (written : Nat) : Option RunDirectory :=
  let current := (s.files file).getD []
  if written < call.content.length then
    if choice = 0 ∨ written + choice > call.content.length then none
    else
      some ((s.setFile file (some (current ++ (call.content.drop written).take choice))).setStage
        process call (.writing file (written + choice)))
  else if writeOnce call.locator then
    if current.length ≠ call.content.length then some (s.finish process call .ioFailed true)
    else some (s.setStage process call .syncing)
  else some (s.setStage process call (.replacing file))

def advanceStep (s : RunDirectory) (process choice : Nat) (call : WriteCall) :
    Stage → Option RunDirectory
  | .looking =>
      if writeOnce call.locator ∧ (s.files (.artifact call.locator)).isSome then
        some (s.setStage process call (.comparing .lstat))
      else some (s.setStage process call .creating)
  | .comparing snapshot => some (compareStep maxBytes s process call snapshot)
  | .creating => createStep writeOnce s process choice call
  | .writing file written => writeStep writeOnce s process choice call file written
  | .replacing file =>
      some (((s.setFile (.artifact call.locator) (s.files file)).setFile file none).setStage
        process call .syncing)
  | .syncing => some (s.finish process call .returned true)

def step (s : RunDirectory) : WriteAction → Option RunDirectory
  | .start process call =>
      match s.process process with
      | some _ => none
      | none =>
          let called := { s with calls := call :: s.calls }
          if call.content.length > maxBytes then
            some (called.finish process call .artifactInvalid false)
          else some (called.setStage process call .looking)
  | .advance process choice =>
      match s.process process with
      | none => none
      | some (call, stage) => advanceStep writeOnce maxBytes s process choice call stage
  | .die process =>
      match s.process process with
      | none => none
      | some (call, _) =>
          some { s with
            process := Function.update s.process process none
            died := call :: s.died }

end Step

end RunDirectory

end Cinegraph.SpeakerReview
