import Cinegraph.Library.Digest
import Mathlib.Data.Nat.Basic
import Mathlib.Order.Basic

/-!
Universally unique identifiers: the 128-bit value, its canonical text and the
name-based version 5.
-/

namespace Cinegraph.Library

structure UUID where
  int : BitVec 128
  deriving DecidableEq

namespace UUID

def hexChars : List Char := "0123456789abcdef".toList

def hexChar (digit : Nat) : Char := hexChars.getD digit '0'

def hexValue? (c : Char) : Option Nat :=
  if '0' ≤ c ∧ c ≤ '9' then some (c.toNat - '0'.toNat)
  else if 'a' ≤ c ∧ c ≤ 'f' then some (c.toNat - 'a'.toNat + 10)
  else if 'A' ≤ c ∧ c ≤ 'F' then some (c.toNat - 'A'.toNat + 10)
  else none

/-- The 32 lower-case digits of `hex`. -/
def hex (u : UUID) : List Char := (toDigits 16 32 u.int.toNat).map hexChar

/-- The canonical text: groups of 8, 4, 4, 4 and 12 digits. -/
def strChars (u : UUID) : List Char :=
  u.hex.take 8 ++ '-' :: ((u.hex.drop 8).take 4 ++ '-' :: ((u.hex.drop 12).take 4 ++
    '-' :: ((u.hex.drop 16).take 4 ++ '-' :: u.hex.drop 20)))

def str (u : UUID) : String := String.ofList u.strChars

/-- The value of a text of 32 hexadecimal digits, hyphens ignored. -/
def parse? (text : String) : Option UUID := do
  let digits ← (text.toList.filter (· != '-')).mapM hexValue?
  if digits.length = 32 then some ⟨BitVec.ofNat 128 (ofDigits 16 digits)⟩ else none

/-- The identifier a text is the canonical form of. -/
def canonical? (text : String) : Option UUID :=
  match parse? text with
  | some u => if u.str = text then some u else none
  | none => none

/-- The identifier of version 5 with a given digest: its first 16 bytes with the variant and version
bits set. -/
def version5 (digest : Nat) : UUID :=
  let bits := BitVec.ofNat 128 (digest / 2 ^ 32)
  let varied := bits &&& ~~~(0xC000#128 <<< 48) ||| (0x8000#128 <<< 48)
  ⟨varied &&& ~~~(0xF000#128 <<< 64) ||| (5#128 <<< 76)⟩

def uuid5 (space : UUID) (name : String) : UUID :=
  version5 (Digest.sha1 (toDigits 256 16 space.int.toNat ++ Digest.utf8 name))

theorem hexValue?_hexChar {d : Nat} (h : d < 16) : hexValue? (hexChar d) = some d := by
  have all : ∀ d : Fin 16, hexValue? (hexChar d) = some d.val := by decide
  exact all ⟨d, h⟩

private theorem hexChar_ne_hyphen (d : Nat) : hexChar d ≠ '-' := by
  by_cases h : d < 16
  · have all : ∀ d : Fin 16, hexChar d ≠ '-' := by decide
    exact all ⟨d, h⟩
  · have : hexChar d = '0' := by
      have hlen : hexChars.length ≤ d := by
        have : hexChars.length = 16 := by decide
        omega
      simp [hexChar, List.getElem?_eq_none hlen]
    rw [this]
    decide

@[simp] theorem length_hex (u : UUID) : u.hex.length = 32 := by simp [hex]

@[simp] theorem length_str (u : UUID) : u.str.length = 36 := by
  rw [str, String.length_ofList, strChars]
  simp only [List.length_append, List.length_cons, List.length_take, List.length_drop, length_hex]
  omega

theorem mem_hexChars_of_mem_hex {u : UUID} {c : Char} (member : c ∈ u.hex) : c ∈ hexChars := by
  obtain ⟨d, hd, rfl⟩ := List.mem_map.mp member
  have h : d < 16 := lt_of_mem_toDigits (by decide) hd
  have all : ∀ d : Fin 16, hexChar d ∈ hexChars := by decide
  exact all ⟨d, h⟩

theorem mem_str {u : UUID} {c : Char} (member : c ∈ u.str.toList) : c = '-' ∨ c ∈ u.hex := by
  simp only [str, String.toList_ofList, strChars, List.mem_append, List.mem_cons] at member
  rcases member with h | rfl | h | rfl | h | rfl | h | rfl | h
  · exact .inr (List.mem_of_mem_take h)
  · exact .inl rfl
  · exact .inr (List.mem_of_mem_drop (List.mem_of_mem_take h))
  · exact .inl rfl
  · exact .inr (List.mem_of_mem_drop (List.mem_of_mem_take h))
  · exact .inl rfl
  · exact .inr (List.mem_of_mem_drop (List.mem_of_mem_take h))
  · exact .inl rfl
  · exact .inr (List.mem_of_mem_drop h)

private theorem filter_strChars (u : UUID) : u.strChars.filter (· != '-') = u.hex := by
  have keep : u.hex.filter (· != '-') = u.hex := by
    rw [List.filter_eq_self]
    intro c member
    obtain ⟨d, -, rfl⟩ := List.mem_map.mp member
    simpa using hexChar_ne_hyphen d
  have groups : u.hex = u.hex.take 8 ++ ((u.hex.drop 8).take 4 ++ ((u.hex.drop 12).take 4 ++
      ((u.hex.drop 16).take 4 ++ u.hex.drop 20))) := by
    have h (k : Nat) : u.hex.drop (k + 4) = (u.hex.drop k).drop 4 := by
      rw [List.drop_drop]
    rw [h 16, List.take_append_drop, h 12, List.take_append_drop, h 8, List.take_append_drop,
      List.take_append_drop]
  conv_rhs => rw [← keep, groups]
  simp [strChars]

theorem mapM_hexValue?_map_hexChar {digits : List Nat} (h : ∀ d ∈ digits, d < 16) :
    (digits.map hexChar).mapM hexValue? = some digits := by
  induction digits with
  | nil => rfl
  | cons d rest ih =>
      have hd : d < 16 := h d List.mem_cons_self
      have hrest := ih (fun e member => h e (List.mem_cons_of_mem _ member))
      simp [hexValue?_hexChar hd, hrest]

@[simp] theorem parse?_str (u : UUID) : parse? u.str = some u := by
  have digits : (toDigits 16 32 u.int.toNat).map hexChar = u.hex := rfl
  have small : ∀ d ∈ toDigits 16 32 u.int.toNat, d < 16 :=
    fun d member => lt_of_mem_toDigits (by decide) member
  have values := mapM_hexValue?_map_hexChar small
  rw [digits] at values
  have value : BitVec.ofNat 128 (u.int.toNat % 16 ^ 32) = u.int := by
    rw [Nat.mod_eq_of_lt (show u.int.toNat < 16 ^ 32 from u.int.isLt), BitVec.ofNat_toNat,
      BitVec.setWidth_eq]
  simp only [parse?, str, String.toList_ofList, filter_strChars, values, Option.bind_eq_bind,
    Option.bind_some, length_toDigits, if_true, ofDigits_toDigits, value]

@[simp] theorem canonical?_str (u : UUID) : canonical? u.str = some u := by
  simp [canonical?]

theorem str_injective {u v : UUID} (h : u.str = v.str) : u = v := by
  have : some u = some v := by rw [← parse?_str u, ← parse?_str v, h]
  exact Option.some.inj this

theorem canonical?_eq_some {text : String} {u : UUID} (h : canonical? text = some u) :
    u.str = text := by
  unfold canonical? at h
  split at h
  · split at h
    · cases h
      assumption
    · cases h
  · cases h

private theorem toNat_injective : Function.Injective fun u : UUID => u.int.toNat := by
  intro u v same
  cases u
  cases v
  exact congrArg UUID.mk (BitVec.eq_of_toNat_eq same)

/-- Identifiers in the order of their texts, which is that of the numbers they write. -/
instance : LinearOrder UUID :=
  @LinearOrder.lift' UUID Nat Nat.instLinearOrder (fun u => u.int.toNat) toNat_injective

end UUID

end Cinegraph.Library
