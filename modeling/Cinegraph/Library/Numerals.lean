import Cinegraph.Library.Text
import Cinegraph.Library.Uuid
import Mathlib.Data.Nat.Digits.Defs

/-!
Decimal digits of the Unicode character data and the whole numbers that the host
language reads from a text. The tables are those of Unicode 15.0.
-/

namespace Cinegraph.Library.Text

/-- The zero of each script; the other nine digits follow it. -/
def zeros : List Nat :=
  [48, 1632, 1776, 1984, 2406, 2534, 2662, 2790, 2918, 3046, 3174, 3302, 3430, 3558, 3664, 3792,
    3872, 4160, 4240, 6112, 6160, 6470, 6608, 6784, 6800, 6992, 7088, 7232, 7248, 42528, 43216,
    43264, 43472, 43504, 43600, 44016, 65296, 66720, 68912, 69734, 69872, 69942, 70096, 70384,
    70736, 70864, 71248, 71360, 71472, 71904, 72016, 72784, 73040, 73120, 73552, 92768, 92864,
    93008, 120782, 120792, 120802, 120812, 120822, 123200, 123632, 124144, 125264, 130032]

/-- The value of a decimal digit. -/
def digitValue? (c : Char) : Option Nat :=
  (zeros.find? fun first => first ≤ c.toNat && c.toNat < first + 10).map fun first => c.toNat - first

/-- Runs of digits that are not decimal: raised, lowered, circled and the like. -/
def otherDigits : List (Nat × Nat) :=
  [(178, 179), (185, 185), (4969, 4977), (6618, 6618), (8304, 8304), (8308, 8313), (8320, 8329),
    (9312, 9320), (9332, 9340), (9352, 9360), (9450, 9450), (9461, 9469), (9471, 9471),
    (10102, 10110), (10112, 10120), (10122, 10130), (68160, 68163), (69216, 69224),
    (69714, 69722), (127232, 127242)]

/-- `text.isdigit()` -/
def isDigits (text : List Char) : Bool :=
  text ≠ [] && text.all fun c => (digitValue? c).isSome ||
    otherDigits.any fun (first, last) => first ≤ c.toNat && c.toNat ≤ last

/-- The digits of a literal; single underscores may stand between them. -/
def literalDigits : List Char → Option (List Nat)
  | [] => none
  | [c] => (digitValue? c).map ([·])
  | c :: '_' :: rest => do
      let digit ← digitValue? c
      let digits ← literalDigits rest
      some (digit :: digits)
  | c :: rest => do
      let digit ← digitValue? c
      let digits ← literalDigits rest
      some (digit :: digits)

/-- A longer literal is refused. -/
def maxLiteralDigits : Nat := 4300

def readNat (text : List Char) : Option Nat :=
  match literalDigits text with
  | some digits =>
      if digits.length ≤ maxLiteralDigits then some (Nat.ofDigits 10 digits.reverse) else none
  | none => none

/-- `int(text)`, or nothing where it raises. -/
def readInt (text : List Char) : Option Int :=
  match stripChars text with
  | '-' :: digits => (readNat digits).map fun n => -(n : Int)
  | '+' :: digits => (readNat digits).map fun n => (n : Int)
  | digits => (readNat digits).map fun n => (n : Int)

/-- A digit of base sixteen. -/
def hexDigit? (c : Char) : Option Nat :=
  match digitValue? c with
  | some digit => some digit
  | none => UUID.hexValue? c

/-- Digits of base sixteen; single underscores may stand between them. -/
def hexLiteralDigits : List Char → Option (List Nat)
  | [] => none
  | [c] => (hexDigit? c).map ([·])
  | c :: '_' :: rest => do
      let digit ← hexDigit? c
      let digits ← hexLiteralDigits rest
      some (digit :: digits)
  | c :: rest => do
      let digit ← hexDigit? c
      let digits ← hexLiteralDigits rest
      some (digit :: digits)

/-- What follows the prefix of a literal in base sixteen. -/
def withoutHexPrefix : List Char → List Char
  | '0' :: x :: '_' :: rest => if x = 'x' ∨ x = 'X' then rest else '0' :: x :: '_' :: rest
  | '0' :: x :: rest => if x = 'x' ∨ x = 'X' then rest else '0' :: x :: rest
  | text => text

/-- `int(text, 16)` of a text without a minus sign. -/
def readHex (text : List Char) : Option Nat :=
  let unsigned := match stripChars text with
    | '+' :: digits => digits
    | digits => digits
  (hexLiteralDigits (withoutHexPrefix unsigned)).map fun digits => Nat.ofDigits 16 digits.reverse

/-- `text.replace(marker, "")`; the counter runs over a removed marker. -/
def removeAll (marker : List Char) : (skip : Nat) → List Char → List Char
  | _, [] => []
  | skip + 1, _ :: rest => removeAll marker skip rest
  | 0, c :: rest =>
      if marker.isPrefixOf (c :: rest) then removeAll marker (marker.length - 1) rest
      else c :: removeAll marker 0 rest

/-- `UUID(text)`, or nothing where it raises. -/
def readUuid (text : String) : Option UUID :=
  let plain := removeAll "uuid:".toList 0 (removeAll "urn:".toList 0 text.toList)
  let brace (c : Char) : Bool := c = '{' || c = '}'
  let digits := ((plain.dropWhile brace).rdropWhile brace).filter (· != '-')
  if digits.length = 32 then (readHex digits).map fun n => ⟨BitVec.ofNat 128 n⟩ else none

section Decimal

variable {text : List Char}

theorem not_isSpace_of_decimal {c : Char} (decimal : (digitValue? c).isSome = true) :
    isSpace c = false := by
  rw [digitValue?, Option.isSome_map, List.find?_isSome] at decimal
  obtain ⟨first, member, within⟩ := decimal
  have apart : ∀ first ∈ zeros, ∀ space ∈ spaces, space < first ∨ first + 10 ≤ space := by decide
  rw [Bool.and_eq_true, decide_eq_true_iff, decide_eq_true_iff] at within
  rw [isSpace, List.contains_eq_mem, decide_eq_false_iff_not]
  intro space
  have := apart first member c.toNat space
  omega

theorem literalDigits_of_decimal (nonempty : text ≠ [])
    (decimal : ∀ c ∈ text, (digitValue? c).isSome = true) :
    literalDigits text = some (text.map fun c => (digitValue? c).getD 0) := by
  induction text with
  | nil => exact absurd rfl nonempty
  | cons c rest ih =>
      obtain ⟨digit, value⟩ := Option.isSome_iff_exists.mp (decimal c List.mem_cons_self)
      have others : ∀ c ∈ rest, (digitValue? c).isSome = true :=
        fun c member => decimal c (List.mem_cons_of_mem _ member)
      cases rest with
      | nil => rw [literalDigits, value, List.map_singleton, value]; rfl
      | cons d rest =>
          have plain : d ≠ '_' := by
            rintro rfl
            exact absurd (others '_' List.mem_cons_self) (by decide)
          have tail := ih (List.cons_ne_nil _ _) others
          have head : (digitValue? c).getD 0 = digit := by rw [value]; rfl
          rw [literalDigits, value, tail, List.map_cons, List.map_cons, head]
          · rfl
          · exact fun single => nomatch single
          · exact fun other same => plain (List.cons.inj same).1

/-- `int(text)` of decimal digits. -/
theorem readInt_of_decimal (nonempty : text ≠ []) (short : text.length ≤ maxLiteralDigits)
    (decimal : ∀ c ∈ text, (digitValue? c).isSome = true) :
    readInt text =
      some ((Nat.ofDigits 10 (text.map fun c => (digitValue? c).getD 0).reverse : Nat) : Int) := by
  have stripped : stripChars text = text := by
    have front : text.dropWhile isSpace = text := by
      cases text with
      | nil => rfl
      | cons c rest =>
          rw [List.dropWhile_cons_of_neg]
          rw [not_isSpace_of_decimal (decimal c List.mem_cons_self)]
          exact Bool.false_ne_true
    rw [stripChars, front, List.rdropWhile_eq_self_iff]
    intro present
    rw [not_isSpace_of_decimal (decimal _ (List.getLast_mem present))]
    exact Bool.false_ne_true
  have read : readNat text =
      some (Nat.ofDigits 10 (text.map fun c => (digitValue? c).getD 0).reverse) := by
    rw [readNat, literalDigits_of_decimal nonempty decimal]
    exact if_pos (by rwa [List.length_map])
  have unsigned : ∀ sign rest, text = sign :: rest → sign ≠ '-' ∧ sign ≠ '+' := by
    rintro sign rest rfl
    have digit := decimal sign List.mem_cons_self
    constructor <;>
    · rintro rfl
      exact absurd digit (by decide)
  unfold readInt
  rw [stripped]
  split
  · exact absurd rfl (unsigned _ _ rfl).1
  · exact absurd rfl (unsigned _ _ rfl).2
  · rw [read]
    rfl

theorem digitValue?_of_isDigit {c : Char} (digit : c.isDigit = true) :
    digitValue? c = some (c.toNat - 48) := by
  rw [Char.isDigit, Bool.and_eq_true, decide_eq_true_iff, decide_eq_true_iff] at digit
  have low : 48 ≤ c.toNat := digit.1
  have high : c.toNat ≤ 57 := digit.2
  have first : (48 ≤ c.toNat && c.toNat < 48 + 10) = true := by
    rw [Bool.and_eq_true, decide_eq_true_iff, decide_eq_true_iff]
    omega
  have found : zeros.find? (fun first => first ≤ c.toNat && c.toNat < first + 10) = some 48 :=
    List.find?_cons_of_pos first
  rw [digitValue?, found]
  rfl

/-- `int(str(n))` -/
theorem readInt_repr {n : Nat} (short : n.repr.toList.length ≤ maxLiteralDigits) :
    readInt n.repr.toList = some (n : Int) := by
  have digits : ∀ c ∈ n.repr.toList, c.isDigit = true := by
    rw [Nat.toList_repr]
    exact fun c member => Nat.isDigit_of_mem_toDigits (by omega) (by omega) member
  have nonempty : n.repr.toList ≠ [] := by
    rw [Nat.toList_repr]
    exact Nat.toDigits_ne_nil
  rw [readInt_of_decimal nonempty short fun c member => by
    rw [digitValue?_of_isDigit (digits c member)]
    rfl]
  have values : (n.repr.toList.map fun c => (digitValue? c).getD 0) =
      n.repr.toList.map fun c => c.toNat - 48 := by
    apply List.map_congr_left
    intro c member
    rw [digitValue?_of_isDigit (digits c member)]
    rfl
  have folded : Nat.ofDigits 10 (n.repr.toList.map fun c => c.toNat - 48).reverse =
      Nat.ofDigitChars 10 n.repr.toList 0 := by
    rw [Nat.ofDigits_eq_foldr, List.foldr_reverse, List.foldl_map, Nat.ofDigitChars_eq_foldl]
    congr 1
    funext sofar c
    exact Nat.add_comm _ _
  rw [values, folded, Nat.toList_repr, Nat.ofDigitChars_ten_toDigits]

end Decimal

example : readInt " 1_2\u0663 ".toList = some 123 := by decide

example : isDigits "1\u00b2".toList = true ∧ readInt "1\u00b2".toList = none := by decide

example : readUuid "urn:uuid:{00000000-0000-0000-0000-0000000000Af}" = some ⟨175⟩ := by decide

end Cinegraph.Library.Text
