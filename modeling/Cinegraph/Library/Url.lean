import Mathlib.Data.List.DropRight

/-!
URLs as the standard library of the host language parses them: scheme, network location and path,
and the errors of the network location.
-/

namespace Cinegraph.Library

/-- The Unicode normalization of texts, and which bracketed hosts are addresses. -/
class UrlText where
  nfkc : List Char → List Char
  bracketed : List Char → Bool

/-- On ASCII texts normalization changes nothing; no bracketed host is an address. -/
@[reducible] def UrlText.ascii : UrlText := ⟨id, fun _ => false⟩

structure ParsedUrl where
  scheme : List Char
  netloc : List Char
  path : List Char
  deriving DecidableEq

namespace Url

def isAscii (c : Char) : Bool := c.toNat < 128

def isSchemeChar (c : Char) : Bool := c.isAlphanum || c ∈ ['+', '-', '.']

/-- Schemes whose paths have parameters. -/
def usesParams : List String :=
  ["", "ftp", "hdl", "prospero", "http", "imap", "https", "shttp", "rtsp", "rtsps", "rtspu", "sip",
    "sips", "mms", "sftp", "tel"]

/-- Leading control characters and spaces go, and so do tabs and line ends anywhere. -/
def clean (url : List Char) : List Char :=
  (url.dropWhile fun c => decide (c.toNat ≤ 32)).filter fun c => c ∉ ['\t', '\r', '\n']

def splitScheme (url : List Char) : List Char × List Char :=
  let head := url.takeWhile (· ≠ ':')
  match url.dropWhile (· ≠ ':') with
  | _ :: rest =>
      if head.head?.any Char.isAlpha && head.all isSchemeChar then (head.map Char.toLower, rest)
      else ([], url)
  | [] => ([], url)

/-- The network location and what is behind it. -/
def splitNetloc : List Char → List Char × List Char
  | '/' :: '/' :: rest =>
      (rest.takeWhile fun c => c ∉ ['/', '?', '#'], rest.dropWhile fun c => c ∉ ['/', '?', '#'])
  | url => ([], url)

/-- The path up to the parameters of its last segment. -/
def splitParams (path : List Char) : List Char :=
  path.rdropWhile (· ≠ '/') ++ (path.rtakeWhile (· ≠ '/')).takeWhile (· ≠ ';')

section Parse

variable [UrlText]

/-- The normal form of a network location has no delimiter that it did not have. -/
def checkNetloc (netloc : List Char) : Bool :=
  let bare := netloc.filter fun c => c ∉ ['@', ':', '#', '?']
  let normal := UrlText.nfkc bare
  netloc.all isAscii || bare = normal || ['/', '?', '#', '@', ':'].all fun c => c ∉ normal

def bracketsFit (netloc : List Char) : Bool :=
  if '[' ∈ netloc ∨ ']' ∈ netloc then
    '[' ∈ netloc && ']' ∈ netloc && UrlText.bracketed netloc
  else true

/-- `urlparse`; there is no result where it raises. -/
def parse (url : List Char) : Option ParsedUrl :=
  let (scheme, rest) := splitScheme (clean url)
  let (netloc, rest) := splitNetloc rest
  if bracketsFit netloc && checkNetloc netloc then
    let path := (rest.takeWhile (· ≠ '#')).takeWhile (· ≠ '?')
    some ⟨scheme, netloc, if String.ofList scheme ∈ usesParams then splitParams path else path⟩
  else none

end Parse

/-- The host, in lower case as far as it is ASCII. -/
def hostname (url : ParsedUrl) : Option (List Char) :=
  let hostinfo := url.netloc.rtakeWhile (· ≠ '@')
  let host := if '[' ∈ hostinfo then
      ((hostinfo.dropWhile (· ≠ '[')).drop 1).takeWhile (· ≠ ']')
    else hostinfo.takeWhile (· ≠ ':')
  if host = [] then none
  else some ((host.takeWhile (· ≠ '%')).map Char.toLower ++ host.dropWhile (· ≠ '%'))

/-- A host is part of a network location. -/
theorem netloc_ne_nil {url : ParsedUrl} {host : List Char} (found : hostname url = some host) :
    url.netloc ≠ [] := by
  intro empty
  rw [hostname, empty] at found
  cases found

end Url

end Cinegraph.Library
