import Cinegraph.Library.Radix

/-!
The SHA-1 and SHA-256 digests of a byte sequence. Nothing here states that
digests differ: a result that needs two identifiers to be distinct says so.
-/

namespace Cinegraph.Library.Digest

def utf8 (text : String) : List Nat :=
  text.toList.flatMap (fun c => (String.utf8EncodeChar c).map UInt8.toNat)

/-- Groups of `size` elements; a shorter rest is dropped. -/
def chunks (size : Nat) : (count : Nat) → List Nat → List (List Nat)
  | 0, _ => []
  | count + 1, items => items.take size :: chunks size count (items.drop size)

/-- The message, a one bit, zeros and the bit length, up to whole 64-byte blocks. -/
def pad (message : List Nat) : List Nat :=
  message ++ 128 :: List.replicate ((119 - message.length % 64) % 64) 0 ++
    toDigits 256 8 (8 * message.length)

abbrev Word := BitVec 32

/-- The last sixteen schedule words, newest first, extended by one word. -/
def extend (window : List Word) : Word :=
  (window.getD 2 0 ^^^ window.getD 7 0 ^^^ window.getD 13 0 ^^^ window.getD 15 0).rotateLeft 1

def schedule : (count : Nat) → List Word → List Word
  | 0, window => window
  | count + 1, window => schedule count (extend window :: window)

def roundFunction (round : Nat) (b c d : Word) : Word × Word :=
  if round < 20 then ((b &&& c) ||| (~~~b &&& d), 0x5A827999)
  else if round < 40 then (b ^^^ c ^^^ d, 0x6ED9EBA1)
  else if round < 60 then ((b &&& c) ||| (b &&& d) ||| (c &&& d), 0x8F1BBCDC)
  else (b ^^^ c ^^^ d, 0xCA62C1D6)

structure Sha1State where
  a : Word
  b : Word
  c : Word
  d : Word
  e : Word

def step (s : Sha1State) (item : Word × Nat) : Sha1State :=
  let (f, k) := roundFunction item.2 s.b s.c s.d
  ⟨s.a.rotateLeft 5 + f + s.e + k + item.1, s.a, s.b.rotateLeft 30, s.c, s.d⟩

def compress (s : Sha1State) (block : List Nat) : Sha1State :=
  let words := (chunks 4 16 block).map (fun bytes => BitVec.ofNat 32 (ofDigits 256 bytes))
  let t := ((schedule 64 words.reverse).reverse.zipIdx).foldl step s
  ⟨s.a + t.a, s.b + t.b, s.c + t.c, s.d + t.d, s.e + t.e⟩

/-- The 160-bit digest as a number. -/
def sha1 (message : List Nat) : Nat :=
  let padded := pad message
  let s := (chunks 64 (padded.length / 64) padded).foldl compress
    ⟨0x67452301, 0xEFCDAB89, 0x98BADCFE, 0x10325476, 0xC3D2E1F0⟩
  [s.a, s.b, s.c, s.d, s.e].foldl (fun n w => 2 ^ 32 * n + w.toNat) 0

example : sha1 (utf8 "abc") = 0xA9993E364706816ABA3E25717850C26C9CD0D89D := by decide +kernel

theorem utf8_append (a b : String) : utf8 (a ++ b) = utf8 a ++ utf8 b := by
  unfold utf8
  rw [String.toList_append, List.flatMap_append]

theorem utf8_ofList (chars : List Char) : utf8 (String.ofList chars) =
    chars.flatMap fun c => (String.utf8EncodeChar c).map UInt8.toNat := by
  unfold utf8
  rw [String.toList_ofList]

theorem utf8_eq_toUTF8 (text : String) : utf8 text = text.toUTF8.data.toList.map UInt8.toNat := by
  obtain ⟨chars, rfl⟩ : ∃ chars, text = String.ofList chars := ⟨text.toList, String.ofList_toList.symm⟩
  rw [utf8_ofList, String.toUTF8_eq_toByteArray, String.toByteArray_ofList, List.utf8Encode,
    List.toList_data_toByteArray, List.map_flatMap]

theorem utf8_injective {a b : String} (same : utf8 a = utf8 b) : a = b := by
  rw [utf8_eq_toUTF8, utf8_eq_toUTF8] at same
  have bytes := List.map_inj_right (fun _ _ => UInt8.toNat_inj.mp) |>.mp same
  exact String.toByteArray_inj.mp (ByteArray.ext (Array.toList_inj.mp bytes))

/-- The last block of a message of one whole block and a short rest. -/
def secondBlock (rest : List Nat) : List Nat :=
  rest ++ 128 :: List.replicate (55 - rest.length) 0 ++ toDigits 256 8 (8 * (64 + rest.length))

/-- The state behind the first block serves all messages that begin with it. -/
theorem sha1_append {first rest : List Nat} (whole : first.length = 64)
    (short : rest.length ≤ 55) :
    sha1 (first ++ rest) =
      let s := compress (compress ⟨0x67452301, 0xEFCDAB89, 0x98BADCFE, 0x10325476, 0xC3D2E1F0⟩
        first) (secondBlock rest)
      [s.a, s.b, s.c, s.d, s.e].foldl (fun n w => 2 ^ 32 * n + w.toNat) 0 := by
  have fill : (119 - (64 + rest.length) % 64) % 64 = 55 - rest.length := by omega
  have padded : pad (first ++ rest) = first ++ secondBlock rest := by
    unfold pad secondBlock
    rw [List.length_append, whole, fill]
    simp only [List.append_assoc]
  have length_second : (secondBlock rest).length = 64 := by
    unfold secondBlock
    simp only [List.length_append, List.length_cons, List.length_replicate, length_toDigits]
    omega
  have blocks : chunks 64 2 (first ++ secondBlock rest) = [first, secondBlock rest] := by
    simp only [chunks, List.take_left' whole, List.drop_left' whole]
    rw [← length_second, List.take_length]
  unfold sha1
  simp only [padded, List.length_append, whole, length_second, blocks]
  rfl

/-- The initial words and round constants of SHA-256. -/
def initialWords : List Word :=
  [0x6a09e667, 0xbb67ae85, 0x3c6ef372, 0xa54ff53a, 0x510e527f, 0x9b05688c, 0x1f83d9ab, 0x5be0cd19]

def roundConstants : List Word :=
  [0x428a2f98, 0x71374491, 0xb5c0fbcf, 0xe9b5dba5, 0x3956c25b, 0x59f111f1, 0x923f82a4, 0xab1c5ed5,
    0xd807aa98, 0x12835b01, 0x243185be, 0x550c7dc3, 0x72be5d74, 0x80deb1fe, 0x9bdc06a7, 0xc19bf174,
    0xe49b69c1, 0xefbe4786, 0x0fc19dc6, 0x240ca1cc, 0x2de92c6f, 0x4a7484aa, 0x5cb0a9dc, 0x76f988da,
    0x983e5152, 0xa831c66d, 0xb00327c8, 0xbf597fc7, 0xc6e00bf3, 0xd5a79147, 0x06ca6351, 0x14292967,
    0x27b70a85, 0x2e1b2138, 0x4d2c6dfc, 0x53380d13, 0x650a7354, 0x766a0abb, 0x81c2c92e, 0x92722c85,
    0xa2bfe8a1, 0xa81a664b, 0xc24b8b70, 0xc76c51a3, 0xd192e819, 0xd6990624, 0xf40e3585, 0x106aa070,
    0x19a4c116, 0x1e376c08, 0x2748774c, 0x34b0bcb5, 0x391c0cb3, 0x4ed8aa4a, 0x5b9cca4f, 0x682e6ff3,
    0x748f82ee, 0x78a5636f, 0x84c87814, 0x8cc70208, 0x90befffa, 0xa4506ceb, 0xbef9a3f7, 0xc67178f2]

/-- The schedule of SHA-256, newest word first, extended by one word. -/
def extend256 (window : List Word) : Word :=
  let x := window.getD 1 0
  let y := window.getD 14 0
  (x.rotateRight 17 ^^^ x.rotateRight 19 ^^^ (x >>> 10)) + window.getD 6 0 +
    (y.rotateRight 7 ^^^ y.rotateRight 18 ^^^ (y >>> 3)) + window.getD 15 0

def schedule256 : (count : Nat) → List Word → List Word
  | 0, window => window
  | count + 1, window => schedule256 count (extend256 window :: window)

structure Sha256State where
  a : Word
  b : Word
  c : Word
  d : Word
  e : Word
  f : Word
  g : Word
  h : Word

def step256 (s : Sha256State) (item : Word × Word) : Sha256State :=
  let choice := (s.e &&& s.f) ^^^ (~~~s.e &&& s.g)
  let majority := (s.a &&& s.b) ^^^ (s.a &&& s.c) ^^^ (s.b &&& s.c)
  let t := s.h + (s.e.rotateRight 6 ^^^ s.e.rotateRight 11 ^^^ s.e.rotateRight 25) + choice +
    item.1 + item.2
  let u := (s.a.rotateRight 2 ^^^ s.a.rotateRight 13 ^^^ s.a.rotateRight 22) + majority
  ⟨t + u, s.a, s.b, s.c, s.d + t, s.e, s.f, s.g⟩

def compress256 (s : Sha256State) (block : List Nat) : Sha256State :=
  let words := (chunks 4 16 block).map (fun bytes => BitVec.ofNat 32 (ofDigits 256 bytes))
  let t := (roundConstants.zip (schedule256 48 words.reverse).reverse).foldl step256 s
  ⟨s.a + t.a, s.b + t.b, s.c + t.c, s.d + t.d, s.e + t.e, s.f + t.f, s.g + t.g, s.h + t.h⟩

/-- The 256-bit digest as a number. -/
def sha256 (message : List Nat) : Nat :=
  let padded := pad message
  let start (i : Nat) := initialWords.getD i 0
  let s := (chunks 64 (padded.length / 64) padded).foldl compress256
    ⟨start 0, start 1, start 2, start 3, start 4, start 5, start 6, start 7⟩
  [s.a, s.b, s.c, s.d, s.e, s.f, s.g, s.h].foldl (fun n w => 2 ^ 32 * n + w.toNat) 0

example : sha256 (utf8 "abc") =
    0xba7816bf8f01cfea414140de5dae2223b00361a396177a9cb410ff61f20015ad := by decide +kernel

end Cinegraph.Library.Digest
