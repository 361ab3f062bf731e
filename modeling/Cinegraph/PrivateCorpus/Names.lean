import Cinegraph.Common.Errors
import Cinegraph.Library.Digest
import Cinegraph.Library.Text

/-!
The names and paths of the members of a private-corpus bundle. A path that is accepted stays inside
the directory that it is joined to.
-/

namespace Cinegraph.PrivateCorpus

open Library

namespace Policy

def manifestFilename := "manifest.json"
def maxFileCount : Nat := 256
def maxTotalBytes : Int := 64 * 1024 * 1024
def maxFileBytes : Int := 32 * 1024 * 1024
def maxManifestBytes : Nat := 256 * 1024
def maxPathBytes : Nat := 240
def maxNameBytes : Nat := 120
def forbiddenExactNames : List String := [".env", "key.txt", "keys", "private.key"]

end Policy

/-- `unicodedata.normalize("NFC", ·)` -/
class Composition where
  nfc : String → String

/-- Composition leaves ASCII text alone. -/
@[reducible] def Composition.ascii : Composition := ⟨fun text => text⟩

/-! ### Patterns that ignore case -/

/-- A character matches one of a pattern, a lower-case letter or no letter. -/
def sameIgnoringCase (pattern c : Char) : Bool :=
  c = pattern || ('a' ≤ pattern && pattern ≤ 'z' && (c.toNat + 32 = pattern.toNat ||
    match pattern with
    | 'i' => c.toNat = 0x130 || c.toNat = 0x131
    | 'k' => c.toNat = 0x212A
    | 's' => c.toNat = 0x17F
    | _ => false))

/-- The rest behind a literal, if the text begins with it. -/
def afterLiteral : List Char → List Char → Option (List Char)
  | [], rest => some rest
  | _ :: _, [] => none
  | p :: pattern, c :: rest => if sameIgnoringCase p c then afterLiteral pattern rest else none

/-- `$` -/
def atEnd (rest : List Char) : Bool := rest = [] || rest = ['\n']

def separators : List Char := ['.', '_', '-']

/-- `(?:$|[._-])` -/
def endsWord (rest : List Char) : Bool := atEnd rest || rest.head?.any (separators.contains ·)

/-- One of some words stands alone in the text: `(?:^|[._-])(...)(?:$|[._-])` is found in it. -/
def hasWord (words : List String) (text : List Char) : Bool :=
  let starts := text :: (text.tails.filter fun rest => rest.head?.any (separators.contains ·)).map List.tail
  starts.any fun rest => words.any fun word => (afterLiteral word.toList rest).any endsWord

/-- `^(?:CON|PRN|AUX|NUL|COM[1-9]|LPT[1-9])(?:\.|$)` -/
def windowsReserved (name : List Char) : Bool :=
  let devices := ["con", "prn", "aux", "nul"].map String.toList ++
    ["com", "lpt"].flatMap fun port => "123456789".toList.map fun d => port.toList ++ [d]
  devices.any fun device =>
    (afterLiteral device name).any fun rest => atEnd rest || rest.head? = some '.'

/-- `forbidden_name_pattern` -/
def forbiddenName (name : List Char) : Bool :=
  hasWord ["key", "keys", "secret", "secrets", "token", "password", "credential", "credentials"] name

/-- `private_key_pattern` -/
def privateKeyName (name : List Char) : Bool :=
  let literals := ["privatekey", "private.key", "private_key", "private key", "private-key", "id_rsa",
    "id_dsa", "id_ecdsa", "id_ed25519"]
  name.tails.any (fun rest => literals.any fun word => (afterLiteral word.toList rest).isSome) ||
    hasWord ["ed25519"] name

/-! ### Names and paths -/

section Validation

variable [Composition]

/-- `_validate_name` -/
def validateName (name : String) : Except Raised Unit := do
  reject (name = "" ∨ name ≠ Composition.nfc name ∨ Policy.maxNameBytes < name.utf8ByteSize ∨
      name.toList.getLast? = some ' ' ∨ name.toList.getLast? = some '.' ∨
      name.toList.any (fun c => c.toNat < 32 || c.toNat = 127) ∨
      name.toList.any ("<>:\"|?*".toList.contains ·) ∨ windowsReserved name.toList)
    "bundle member name is not portable" .bundleError
  reject (Text.casefold name ∈ Policy.forbiddenExactNames ∨ forbiddenName name.toList ∨
      privateKeyName name.toList)
    "forbidden source name" .bundleError

/-- `value.split("/")` -/
def pathParts (value : String) : List String := (value.toList.splitOn '/').map String.ofList

/-- `PurePosixPath(value)` of a relative path, by its parts. -/
def posixPath (value : String) : List String := (pathParts value).filter fun part => part ≠ "" ∧ part ≠ "."

/-- `path.as_posix()` -/
def asPosix (path : List String) : String := if path = [] then "." else "/".intercalate path

/-- `^[A-Za-z]:` -/
def hasDrive (value : List Char) : Bool :=
  match value with
  | letter :: ':' :: _ => ('A' ≤ letter && letter ≤ 'Z') || ('a' ≤ letter && letter ≤ 'z')
  | _ => false

/-- `_validate_relative_text` -/
def validateRelativeText (value : String) (message : String := "bundle path is invalid") :
    Except Raised String := do
  reject (value = "" ∨ '\\' ∈ value.toList ∨ value.toList.head? = some '/') message .bundleError
  reject (hasDrive value.toList ∨ ['/', '/'].isPrefixOf value.toList) message .bundleError
  reject (∃ part ∈ pathParts value, part = "" ∨ part = "." ∨ part = "..") message .bundleError
  reject (value ≠ asPosix (posixPath value) ∨ Policy.maxPathBytes < value.utf8ByteSize) message
    .bundleError
  (pathParts value).forM validateName
  return value

/-- What is accepted as a relative path. -/
structure IsRelativePath (value : String) : Prop where
  nonempty : value ≠ ""
  slashes : '\\' ∉ value.toList
  relative : value.toList.head? ≠ some '/'
  undriven : hasDrive value.toList = false
  parts : ∀ part ∈ pathParts value, part ≠ "" ∧ part ≠ "." ∧ part ≠ ".."
  posix : value = asPosix (posixPath value)
  short : value.utf8ByteSize ≤ Policy.maxPathBytes
  names : ∀ part ∈ pathParts value, validateName part = .ok ()

theorem validateRelativeText_eq_ok {value path message : String} :
    validateRelativeText value message = .ok path ↔ path = value ∧ IsRelativePath value := by
  simp only [validateRelativeText, unit_bind_eq_ok, reject_eq_ok, forM_eq_ok]
  constructor
  · rintro ⟨plain, undriven, parts, posix, names, same⟩
    cases same
    simp only [not_or, not_not, not_lt, not_exists, not_and, Bool.not_eq_true] at plain undriven parts posix
    exact ⟨rfl, plain.1, plain.2.1, plain.2.2, undriven.1, parts, posix.1, posix.2, names⟩
  · rintro ⟨rfl, accepted⟩
    have slashed : ¬List.isPrefixOf ['/', '/'] path.toList = true := by
      intro slashes
      apply accepted.relative
      cases chars : path.toList with
      | nil => simp [chars] at slashes
      | cons c rest =>
          rw [chars] at slashes
          simp only [List.isPrefixOf, Bool.and_eq_true, beq_iff_eq] at slashes
          rw [slashes.1]
          rfl
    refine ⟨?_, ?_, ?_, ?_, accepted.names, rfl⟩
    · simp only [not_or]
      exact ⟨accepted.nonempty, accepted.slashes, accepted.relative⟩
    · simp only [not_or]
      exact ⟨by simp [accepted.undriven], slashed⟩
    · rintro ⟨part, member, bad⟩
      have good := accepted.parts part member
      rcases bad with empty | dot | dots
      · exact good.1 empty
      · exact good.2.1 dot
      · exact good.2.2 dots
    · simp only [not_or, not_not, not_lt]
      exact ⟨accepted.posix, accepted.short⟩

/-! ### Joining a path to a directory -/

/-- `directory.joinpath(text)`: an absolute path replaces the directory. -/
def joinpath (directory : List String) (text : String) : List String :=
  if text.toList.head? = some '/' then posixPath text else directory ++ posixPath text

/-- The path once each `..` in it is followed. -/
def resolve (path : List String) : List String :=
  path.foldl (fun above part => if part = ".." then above.dropLast else above ++ [part]) []

/-- The path is relative, and it leads below whatever directory it is joined to. -/
structure StaysInside (value : String) : Prop where
  relative : value.toList.head? ≠ some '/'
  parts : ∀ part ∈ pathParts value, part ≠ "" ∧ part ≠ "." ∧ part ≠ ".."
  below : ∀ directory, resolve (joinpath directory value) = resolve directory ++ pathParts value

omit [Composition] in
theorem resolve_append (directory : List String) {parts : List String} (forward : ∀ part ∈ parts, part ≠ "..") :
    resolve (directory ++ parts) = resolve directory ++ parts := by
  rw [resolve, List.foldl_append, ← resolve]
  generalize resolve directory = above
  induction parts generalizing above with
  | nil => rw [List.foldl_nil, List.append_nil]
  | cons part parts ih =>
      rw [List.forall_mem_cons] at forward
      rw [List.foldl_cons, if_neg forward.1, ih forward.2, List.append_assoc, List.singleton_append]

theorem IsRelativePath.staysInside {value : String} (accepted : IsRelativePath value) : StaysInside value where
  relative := accepted.relative
  parts := accepted.parts
  below directory := by
    have kept : posixPath value = pathParts value := by
      rw [posixPath, List.filter_eq_self]
      intro part member
      have good := accepted.parts part member
      simp [good.1, good.2.1]
    rw [joinpath, if_neg accepted.relative, kept]
    exact resolve_append directory fun part member => (accepted.parts part member).2.2

end Validation

end Cinegraph.PrivateCorpus
