import Cinegraph.Library.Digest
import Cinegraph.Library.Uuid

/-! The digests by which records are identified. -/

namespace Cinegraph

open Library

/-- `re.fullmatch(r"[0-9a-f]{64}", text)` -/
def isDigest (text : String) : Bool :=
  text.toList.length = 64 ∧ text.toList.all (UUID.hexChars.contains ·)

/-- `hashlib.sha256(text.encode("utf-8")).hexdigest()`. Nothing but the shape of its values is
used, so the results hold for any digest of this shape. -/
class Sha256 where
  hexdigest : String → String
  isDigest_hexdigest : ∀ text, isDigest (hexdigest text) = true

namespace Sha256

theorem isDigest_toDigits (n : Nat) :
    isDigest (String.ofList ((toDigits 16 64 n).map UUID.hexChar)) = true := by
  have shaped : ∀ c ∈ (toDigits 16 64 n).map UUID.hexChar, c ∈ UUID.hexChars := by
    intro c member
    obtain ⟨d, digit, rfl⟩ := List.mem_map.mp member
    have small : d < 16 := lt_of_mem_toDigits (by decide) digit
    have all : ∀ d : Fin 16, UUID.hexChar d ∈ UUID.hexChars := by decide
    exact all ⟨d, small⟩
  simp only [isDigest, String.toList_ofList, List.length_map, length_toDigits, List.all_eq_true,
    List.contains_iff_mem, decide_eq_true_eq, true_and]
  exact shaped

/-- The digest of the standard; proofs never compute it. -/
@[irreducible] def standardHex (text : String) : String :=
  String.ofList ((toDigits 16 64 (Digest.sha256 (Digest.utf8 text))).map UUID.hexChar)

/-- SHA-256 itself. -/
@[reducible] def standard : Sha256 where
  hexdigest := standardHex
  isDigest_hexdigest text := by
    unfold standardHex
    exact isDigest_toDigits _

end Sha256

/-- `hashlib.sha256(content).hexdigest()`, of bytes. -/
class Sha256Bytes where
  hexdigest : ByteArray → String
  isDigest_hexdigest : ∀ content, isDigest (hexdigest content) = true

namespace Sha256Bytes

@[irreducible] def standardHex (content : ByteArray) : String :=
  String.ofList ((toDigits 16 64 (Digest.sha256 (content.data.toList.map UInt8.toNat))).map UUID.hexChar)

@[reducible] def standard : Sha256Bytes where
  hexdigest := standardHex
  isDigest_hexdigest content := by
    unfold standardHex
    exact Sha256.isDigest_toDigits _

end Sha256Bytes

end Cinegraph
