import Cinegraph.Library.Json
import Cinegraph.Library.Uuid
import Mathlib.Data.Nat.Digits.Lemmas
import Mathlib.Data.List.Sort

/-!
The text of a JSON value: how `json.dumps` writes one in a given layout, and how numbers and the
names of constants are scanned when it is read.
-/

namespace Cinegraph.Library

open Library

section Lexical

def isDigit (c : Char) : Bool := 48 ≤ c.toNat && c.toNat ≤ 57

def digitChar (d : Nat) : Char := Char.ofNat (48 + d)

def digitValue (c : Char) : Nat := c.toNat - 48

/-- The decimal digits of a number. -/
def decimal (n : Nat) : List Char :=
  if n = 0 then ['0'] else (Nat.digits 10 n).reverse.map digitChar

def ofDecimal (text : List Char) : Nat :=
  text.foldl (fun n c => 10 * n + digitValue c) 0

/-- The text of a float: an integer part, then a fraction or an exponent or both. -/
structure FloatLiteral where
  negative : Bool
  whole : List Char
  fraction : List Char
  exponent : List Char
  whole_digits : whole.all isDigit = true
  whole_leading : whole = ['0'] ∨ ∃ d rest, whole = d :: rest ∧ d ≠ '0'
  fraction_digits : fraction = [] ∨ ∃ d rest, fraction = '.' :: d :: rest ∧
    (d :: rest).all isDigit = true
  exponent_digits : exponent = [] ∨ ∃ sign d rest, exponent = 'e' :: (sign ++ d :: rest) ∧
    (sign = [] ∨ sign = ['+'] ∨ sign = ['-']) ∧ (d :: rest).all isDigit = true
  float : fraction ≠ [] ∨ exponent ≠ []

def FloatLiteral.text (l : FloatLiteral) : List Char :=
  (if l.negative then ['-'] else []) ++ l.whole ++ l.fraction ++ l.exponent

end Lexical

/-- The binary floats of the host language, with `float.__repr__` and `float(text)`.
Reading back the text of a float gives the same float. -/
class Floats where
  isFloat : ℚ → Prop
  decFloat : DecidablePred isFloat
  repr : ℚ → List Char
  read : List Char → Option FloatValue
  read_repr : ∀ q, isFloat q → read (repr q) = some (.finite q)
  literal : ∀ q, isFloat q → ∃ l : FloatLiteral, repr q = l.text

instance [Floats] : DecidablePred Floats.isFloat := Floats.decFloat

/-- The finite part of a float is one of the host language. -/
def FloatValue.isHost [Floats] : FloatValue → Prop
  | .finite q => Floats.isFloat q
  | _ => True

instance [Floats] : DecidablePred FloatValue.isHost := fun
  | .finite q => inferInstanceAs (Decidable (Floats.isFloat q))
  | .infinity _ | .nan => inferInstanceAs (Decidable True)

namespace Json

section Dump

def sortItems (items : List (String × Json)) : List (String × Json) :=
  items.insertionSort (fun a b => a.1 ≤ b.1)

mutual

/-- The value with the items of every object sorted by key. -/
def sortKeys : Json → Json
  | .arr items => .arr (sortAll items)
  | .obj items => .obj (sortItems (sortFields items))
  | .null => .null
  | .bool b => .bool b
  | .int n => .int n
  | .float f => .float f
  | .str s => .str s

def sortAll : List Json → List Json
  | [] => []
  | a :: as => sortKeys a :: sortAll as

def sortFields : List (String × Json) → List (String × Json)
  | [] => []
  | (k, a) :: as => (k, sortKeys a) :: sortFields as

end

/-- One character of a string literal. -/
def escape (c : Char) : List Char :=
  if c = '"' then ['\\', '"']
  else if c = '\\' then ['\\', '\\']
  else if c = '\n' then ['\\', 'n']
  else if c = '\r' then ['\\', 'r']
  else if c = '\t' then ['\\', 't']
  else if c.toNat = 8 then ['\\', 'b']
  else if c.toNat = 12 then ['\\', 'f']
  else if c.toNat < 32 then
    ['\\', 'u', '0', '0', UUID.hexChar (c.toNat / 16), UUID.hexChar (c.toNat % 16)]
  else [c]

/-- How a value is written: each character of a string, and the blanks behind a separator. -/
structure Layout where
  escape : Char → List Char
  gap : List Char

/-- `json.dumps(value, ensure_ascii=False)` -/
def Layout.spaced : Layout := ⟨Json.escape, [' ']⟩

/-- `json.dumps(value, ensure_ascii=False, separators=(",", ":"))` -/
def Layout.packed : Layout := ⟨Json.escape, []⟩

@[simp] theorem Layout.escape_spaced : Layout.spaced.escape = Json.escape := rfl

@[simp] theorem Layout.gap_spaced : Layout.spaced.gap = [' '] := rfl

@[simp] theorem Layout.escape_packed : Layout.packed.escape = Json.escape := rfl

@[simp] theorem Layout.gap_packed : Layout.packed.gap = [] := rfl

def quoted (escape : Char → List Char) (text : String) : List Char :=
  '"' :: (text.toList.flatMap escape ++ ['"'])

def dumpInt : Int → List Char
  | .ofNat n => decimal n
  | .negSucc n => '-' :: decimal (n + 1)

variable [Floats]

def dumpFloat : FloatValue → List Char
  | .finite q => Floats.repr q
  | .infinity negative => if negative then "-Infinity".toList else "Infinity".toList
  | .nan => "NaN".toList

mutual

def write (layout : Layout) : Json → List Char
  | .null => "null".toList
  | .bool b => if b then "true".toList else "false".toList
  | .int n => dumpInt n
  | .float f => dumpFloat f
  | .str s => quoted layout.escape s
  | .arr items => '[' :: writeAll layout items
  | .obj items => '{' :: writeFields layout items

/-- The elements of an array and its closing bracket. -/
def writeAll (layout : Layout) : List Json → List Char
  | [] => [']']
  | [a] => write layout a ++ [']']
  | a :: b :: as => write layout a ++ (',' :: (layout.gap ++ writeAll layout (b :: as)))

def writeFields (layout : Layout) : List (String × Json) → List Char
  | [] => ['}']
  | [(k, a)] => quoted layout.escape k ++ (':' :: (layout.gap ++ (write layout a ++ ['}'])))
  | (k, a) :: b :: as => quoted layout.escape k ++ (':' :: (layout.gap ++
      (write layout a ++ (',' :: (layout.gap ++ writeFields layout (b :: as))))))

end

/-- `json.dumps(value, ensure_ascii=False, sort_keys=True)` -/
def dumps (value : Json) : List Char := write .spaced value.sortKeys

end Dump

section Scan

def isJsonSpace (c : Char) : Bool := c = ' ' || c = '\t' || c = '\n' || c = '\r'

def skipSpace (text : List Char) : List Char := text.dropWhile isJsonSpace

def hexCode : List Char → Option (Nat × List Char)
  | a :: b :: c :: d :: rest => do
      let digits ← [a, b, c, d].mapM UUID.hexValue?
      return (ofDigits 16 digits, rest)
  | _ => none

/-- `(\.\d+)?` -/
def scanFraction : List Char → List Char × List Char
  | '.' :: d :: rest =>
      if isDigit d then ('.' :: d :: rest.takeWhile isDigit, rest.dropWhile isDigit)
      else ([], '.' :: d :: rest)
  | text => ([], text)

/-- `([eE][-+]?\d+)?` -/
def scanExponent (text : List Char) : List Char × List Char :=
  match text with
  | e :: rest =>
      if e = 'e' ∨ e = 'E' then
        let (sign, rest) := match rest with
          | '+' :: rest => (['+'], rest)
          | '-' :: rest => (['-'], rest)
          | rest => ([], rest)
        match rest with
        | d :: rest =>
            if isDigit d then
              (e :: (sign ++ d :: rest.takeWhile isDigit), rest.dropWhile isDigit)
            else ([], text)
        | [] => ([], text)
      else ([], text)
  | [] => ([], [])

/-- `(?:0|[1-9]\d*)` -/
def scanWhole : List Char → Option (List Char × List Char)
  | '0' :: rest => some (['0'], rest)
  | d :: rest =>
      if isDigit d then some (d :: rest.takeWhile isDigit, rest.dropWhile isDigit) else none
  | [] => none

variable [Floats]

def scanUnsigned (negative : Bool) (text : List Char) : Option (Json × List Char) := do
  let (whole, rest) ← scanWhole text
  let (fraction, rest) := scanFraction rest
  let (exponent, rest) := scanExponent rest
  if fraction = [] ∧ exponent = [] then
    let n : Int := ofDecimal whole
    return (.int (if negative then -n else n), rest)
  else
    let value ← Floats.read ((if negative then ['-'] else []) ++ whole ++ fraction ++ exponent)
    return (.float value, rest)

def scanNumber : List Char → Option (Json × List Char)
  | '-' :: rest => scanUnsigned true rest
  | text => scanUnsigned false text

/-- A literal name, or a number. -/
def scanAtom (text : List Char) : Option (Json × List Char) :=
  if "null".toList.isPrefixOf text then some (.null, text.drop 4)
  else if "true".toList.isPrefixOf text then some (.bool true, text.drop 4)
  else if "false".toList.isPrefixOf text then some (.bool false, text.drop 5)
  else if "NaN".toList.isPrefixOf text then some (.float .nan, text.drop 3)
  else if "Infinity".toList.isPrefixOf text then some (.float (.infinity false), text.drop 8)
  else if "-Infinity".toList.isPrefixOf text then some (.float (.infinity true), text.drop 9)
  else scanNumber text

end Scan

section Numbers

/-! What is scanned of a number that was written. -/

theorem isDigit_digitChar {d : Nat} (h : d < 10) : isDigit (digitChar d) = true := by
  have all : ∀ d : Fin 10, isDigit (digitChar d) = true := by decide
  exact all ⟨d, h⟩

theorem digitValue_digitChar {d : Nat} (h : d < 10) : digitValue (digitChar d) = d := by
  have all : ∀ d : Fin 10, digitValue (digitChar d) = d := by decide
  exact all ⟨d, h⟩

theorem digitChar_eq_zero {d : Nat} (h : d < 10) (zero : digitChar d = '0') : d = 0 := by
  have all : ∀ d : Fin 10, digitChar d = '0' → d = 0 := by decide
  exact congrArg Fin.val (all ⟨d, h⟩ zero)

theorem ofDecimal_map (digits : List Nat) (small : ∀ d ∈ digits, d < 10) :
    ofDecimal (digits.map digitChar) = Nat.ofDigits 10 digits.reverse := by
  induction digits using List.reverseRecOn with
  | nil => rfl
  | append_singleton digits d ih =>
      have before := ih fun e member => small e (List.mem_append_left _ member)
      have own := digitValue_digitChar (small d (by simp))
      rw [ofDecimal] at before ⊢
      rw [List.map_append, List.foldl_append, before]
      simp [Nat.ofDigits_cons, own]
      omega

@[simp] theorem ofDecimal_decimal (n : Nat) : ofDecimal (decimal n) = n := by
  unfold decimal
  split
  · subst n
    decide
  · rw [ofDecimal_map, List.reverse_reverse, Nat.ofDigits_digits]
    exact fun d member => Nat.digits_lt_base (by decide) (List.mem_reverse.mp member)

/-- The text of a number: digits with a leading zero only alone. -/
def WholeDigits (text : List Char) : Prop :=
  text.all isDigit = true ∧ (text = ['0'] ∨ ∃ d rest, text = d :: rest ∧ d ≠ '0')

theorem wholeDigits_decimal (n : Nat) : WholeDigits (decimal n) := by
  unfold decimal
  split
  · exact ⟨by decide, Or.inl rfl⟩
  · rename_i nonzero
    have small (d : Nat) (member : d ∈ (Nat.digits 10 n).reverse) : d < 10 :=
      Nat.digits_lt_base (by decide) (List.mem_reverse.mp member)
    constructor
    · rw [List.all_map, List.all_eq_true]
      exact fun d member => isDigit_digitChar (small d member)
    · right
      have nonempty : Nat.digits 10 n ≠ [] := Nat.digits_ne_nil_iff_ne_zero.mpr nonzero
      obtain ⟨d, rest, reversed⟩ := List.exists_cons_of_ne_nil
        (List.reverse_ne_nil_iff.mpr nonempty)
      refine ⟨digitChar d, rest.map digitChar, by rw [reversed, List.map_cons], fun zero => ?_⟩
      have first : d = 0 := digitChar_eq_zero (small d (by simp [reversed])) zero
      have last : (Nat.digits 10 n).getLast nonempty = d := by
        have := List.head_reverse (l := Nat.digits 10 n) (by simpa using nonempty)
        rw [← this]
        simp [reversed]
      exact Nat.getLast_digit_ne_zero 10 nonzero (last.trans first)

/-- A number ends before a text that begins like this. -/
def NumberEnd (rest : List Char) : Prop :=
  ∀ c ∈ rest.head?, isDigit c = false ∧ c ≠ '.' ∧ c ≠ 'e' ∧ c ≠ 'E'

theorem NumberEnd.cons {c : Char} {rest : List Char}
    (h : isDigit c = false ∧ c ≠ '.' ∧ c ≠ 'e' ∧ c ≠ 'E') : NumberEnd (c :: rest) := by
  rintro d ⟨⟩
  exact h

theorem takeWhile_append_end {digits rest : List Char} (all : digits.all isDigit = true)
    (ends : ∀ c ∈ rest.head?, isDigit c = false) :
    (digits ++ rest).takeWhile isDigit = digits ∧ (digits ++ rest).dropWhile isDigit = rest := by
  have all' : ∀ c ∈ digits, isDigit c = true := List.all_eq_true.mp all
  rw [List.takeWhile_append_of_pos all', List.dropWhile_append_of_pos all']
  cases rest with
  | nil => simp
  | cons c rest => simp [ends c rfl]

theorem scanWhole_append {whole rest : List Char} (digits : WholeDigits whole)
    (ends : ∀ c ∈ rest.head?, isDigit c = false) :
    scanWhole (whole ++ rest) = some (whole, rest) := by
  rcases digits with ⟨all, rfl | ⟨d, more, rfl, leading⟩⟩
  · rfl
  · rw [List.all_cons, Bool.and_eq_true] at all
    have := takeWhile_append_end all.2 ends
    simp [scanWhole, all.1, this]

theorem scanFraction_append {fraction rest : List Char}
    (digits : fraction = [] ∨ ∃ d more, fraction = '.' :: d :: more ∧
      (d :: more).all isDigit = true)
    (ends : ∀ c ∈ rest.head?, isDigit c = false ∧ c ≠ '.') :
    scanFraction (fraction ++ rest) = (fraction, rest) := by
  rcases digits with rfl | ⟨d, more, rfl, all⟩
  · cases rest with
    | nil => rfl
    | cons c rest => simp [scanFraction, (ends c rfl).2]
  · rw [List.all_cons, Bool.and_eq_true] at all
    have := takeWhile_append_end all.2 (fun c member => (ends c member).1)
    simp [scanFraction, all.1, this]

theorem scanExponent_append {exponent rest : List Char}
    (digits : exponent = [] ∨ ∃ sign d more, exponent = 'e' :: (sign ++ d :: more) ∧
      (sign = [] ∨ sign = ['+'] ∨ sign = ['-']) ∧ (d :: more).all isDigit = true)
    (ends : NumberEnd rest) : scanExponent (exponent ++ rest) = (exponent, rest) := by
  rcases digits with rfl | ⟨sign, d, more, rfl, signs, all⟩
  · cases rest with
    | nil => rfl
    | cons c rest => simp [scanExponent, (ends c rfl).2.2.1, (ends c rfl).2.2.2]
  · rw [List.all_cons, Bool.and_eq_true] at all
    have := takeWhile_append_end all.2 (fun c member => (ends c member).1)
    have unsigned : d ≠ '+' ∧ d ≠ '-' := by
      constructor <;> (rintro rfl; exact absurd all.1 (by decide))
    rcases signs with rfl | rfl | rfl <;> simp [scanExponent, all.1, this, unsigned]

theorem hexCode_escape {n : Nat} (h : n < 32) (rest : List Char) :
    hexCode ('0' :: '0' :: UUID.hexChar (n / 16) :: UUID.hexChar (n % 16) :: rest) =
      some (n, rest) := by
  have high : UUID.hexValue? (UUID.hexChar (n / 16)) = some (n / 16) :=
    UUID.hexValue?_hexChar (by omega)
  have low : UUID.hexValue? (UUID.hexChar (n % 16)) = some (n % 16) :=
    UUID.hexValue?_hexChar (by omega)
  have zero : UUID.hexValue? '0' = some 0 := by decide
  simp only [hexCode, List.mapM_cons, List.mapM_nil, high, low, zero, Option.pure_def,
    Option.bind_eq_bind, Option.bind_some, ofDigits, List.foldl_cons, List.foldl_nil]
  congr 2
  omega

theorem length_escape_pos (c : Char) : 0 < (escape c).length := by
  unfold escape
  repeat' split
  all_goals simp

theorem length_le_flatMap_escape (text : List Char) :
    text.length ≤ (text.flatMap escape).length := by
  induction text with
  | nil => simp
  | cons c text ih =>
      have := length_escape_pos c
      rw [List.flatMap_cons, List.length_append, List.length_cons]
      omega

/-- A name does not begin with a digit or with a sign and a digit. -/
theorem scanAtom_digit [Floats] {d : Char} {text : List Char} (digit : isDigit d = true) :
    scanAtom (d :: text) = scanUnsigned false (d :: text) ∧
      scanAtom ('-' :: d :: text) = scanUnsigned true (d :: text) := by
  have letters : d ≠ 'n' ∧ d ≠ 't' ∧ d ≠ 'f' ∧ d ≠ 'N' ∧ d ≠ 'I' ∧ d ≠ '-' := by
    refine ⟨?_, ?_, ?_, ?_, ?_, ?_⟩ <;> (rintro rfl; exact absurd digit (by decide))
  obtain ⟨hn, ht, hf, hN, hI, hm⟩ := letters
  constructor
  · simp [scanAtom, scanNumber, List.isPrefixOf, hn.symm, ht.symm, hf.symm, hN.symm, hI.symm,
      hm.symm, hm]
  · simp [scanAtom, scanNumber, List.isPrefixOf, hI.symm]

theorem WholeDigits.head {whole : List Char} (digits : WholeDigits whole) :
    ∃ d more, whole = d :: more ∧ isDigit d = true := by
  rcases digits with ⟨all, rfl | ⟨d, more, rfl, -⟩⟩
  · exact ⟨'0', [], rfl, by decide⟩
  · rw [List.all_cons, Bool.and_eq_true] at all
    exact ⟨d, more, rfl, all.1⟩

theorem skipSpace_of_head {c : Char} (text : List Char) (h : isJsonSpace c = false) :
    skipSpace (c :: text) = c :: text := by
  simp [skipSpace, h]

@[simp] theorem skipSpace_space (text : List Char) : skipSpace (' ' :: text) = skipSpace text := by
  rfl

theorem NumberEnd.close {c : Char} (rest : List Char) (h : c = ']' ∨ c = '}' ∨ c = ',') :
    NumberEnd (c :: rest) := by
  rcases h with rfl | rfl | rfl <;> exact .cons (by decide)

section Values

variable [Floats]

theorem scanUnsigned_whole (negative : Bool) {n : Nat} {rest : List Char} (ends : NumberEnd rest) :
    scanUnsigned negative (decimal n ++ rest) =
      some (.int (if negative then -(n : Int) else n), rest) := by
  have whole := scanWhole_append (wholeDigits_decimal n) (fun c member => (ends c member).1)
  have fraction : scanFraction ([] ++ rest) = ([], rest) :=
    scanFraction_append (Or.inl rfl) fun c member => ⟨(ends c member).1, (ends c member).2.1⟩
  have exponent : scanExponent ([] ++ rest) = ([], rest) :=
    scanExponent_append (Or.inl rfl) ends
  rw [List.nil_append] at fraction exponent
  simp [scanUnsigned, whole, fraction, exponent]

theorem scanUnsigned_literal (l : FloatLiteral) {rest : List Char} (ends : NumberEnd rest) :
    scanUnsigned l.negative (l.whole ++ (l.fraction ++ (l.exponent ++ rest))) =
      (Floats.read l.text).map fun value => (.float value, rest) := by
  have afterFraction : ∀ c ∈ (l.exponent ++ rest).head?, isDigit c = false ∧ c ≠ '.' := by
    rcases l.exponent_digits with none | ⟨sign, d, more, some, -⟩
    · rw [none]
      exact fun c member => ⟨(ends c member).1, (ends c member).2.1⟩
    · rw [some]
      rintro c ⟨⟩
      exact ⟨by decide, by decide⟩
  have afterWhole : ∀ c ∈ (l.fraction ++ (l.exponent ++ rest)).head?, isDigit c = false := by
    rcases l.fraction_digits with none | ⟨d, more, some, -⟩
    · rw [none]
      exact fun c member => (afterFraction c member).1
    · rw [some]
      rintro c ⟨⟩
      decide
  have whole := scanWhole_append ⟨l.whole_digits, l.whole_leading⟩ afterWhole
  have fraction := scanFraction_append l.fraction_digits afterFraction
  have exponent := scanExponent_append l.exponent_digits ends
  have float : ¬(l.fraction = [] ∧ l.exponent = []) := by
    rcases l.float with h | h <;> simp [h]
  simp only [scanUnsigned, whole, fraction, exponent, Option.bind_eq_bind, Option.bind_some,
    if_neg float, FloatLiteral.text, Option.pure_def]
  cases Floats.read _ <;> rfl

theorem scanAtom_int (n : Int) {rest : List Char} (ends : NumberEnd rest) :
    scanAtom (dumpInt n ++ rest) = some (.int n, rest) := by
  cases n with
  | ofNat n =>
      obtain ⟨d, more, text, digit⟩ := (wholeDigits_decimal n).head
      have scanned := scanUnsigned_whole false (n := n) ends
      rw [dumpInt, text] at *
      exact (scanAtom_digit digit).1.trans scanned
  | negSucc n =>
      obtain ⟨d, more, text, digit⟩ := (wholeDigits_decimal (n + 1)).head
      have scanned := scanUnsigned_whole true (n := n + 1) ends
      rw [dumpInt, text] at *
      exact (scanAtom_digit digit).2.trans scanned

theorem scanAtom_float {q : ℚ} (float : Floats.isFloat q) {rest : List Char}
    (ends : NumberEnd rest) :
    scanAtom (Floats.repr q ++ rest) = some (.float (.finite q), rest) := by
  obtain ⟨l, text⟩ := Floats.literal q float
  obtain ⟨d, more, whole, digit⟩ := WholeDigits.head ⟨l.whole_digits, l.whole_leading⟩
  have scanned := scanUnsigned_literal l ends
  rw [← text, Floats.read_repr q float, Option.map_some] at scanned
  rw [← scanned, text, FloatLiteral.text]
  cases negative : l.negative
  · simp only [Bool.false_eq_true, if_false, List.nil_append, List.append_assoc]
    rw [whole]
    exact (scanAtom_digit digit).1
  · simp only [if_true, List.append_assoc, List.singleton_append]
    rw [whole]
    exact (scanAtom_digit digit).2

mutual

/-- A value whose floats are floats of the host language and whose objects have each
key once. -/
def Plain : Json → Prop
  | .float f => f.isHost
  | .arr items => PlainAll items
  | .obj items => (items.map Prod.fst).Nodup ∧ PlainFields items
  | _ => True

def PlainAll : List Json → Prop
  | [] => True
  | a :: as => Plain a ∧ PlainAll as

def PlainFields : List (String × Json) → Prop
  | [] => True
  | (_, a) :: as => Plain a ∧ PlainFields as

end

/-- A text that begins with a digit, or with a sign and a digit. -/
def NumberHead (text : List Char) : Prop :=
  ∃ d more, isDigit d = true ∧ (text = d :: more ∨ text = '-' :: d :: more)

omit [Floats] in
theorem numberHead_dumpInt (n : Int) : NumberHead (dumpInt n) := by
  cases n with
  | ofNat n =>
      obtain ⟨d, more, text, digit⟩ := (wholeDigits_decimal n).head
      exact ⟨d, more, digit, .inl (by rw [dumpInt, text])⟩
  | negSucc n =>
      obtain ⟨d, more, text, digit⟩ := (wholeDigits_decimal (n + 1)).head
      exact ⟨d, more, digit, .inr (by rw [dumpInt, text])⟩

theorem numberHead_repr {q : ℚ} (float : Floats.isFloat q) : NumberHead (Floats.repr q) := by
  obtain ⟨l, text⟩ := Floats.literal q float
  obtain ⟨d, more, whole, digit⟩ := WholeDigits.head ⟨l.whole_digits, l.whole_leading⟩
  rw [text, FloatLiteral.text, whole]
  cases l.negative
  · exact ⟨d, _, digit, .inl rfl⟩
  · exact ⟨d, _, digit, .inr rfl⟩

/-- What a value begins with that is no string, array or object. -/
def AtomHead (c : Char) : Prop :=
  isJsonSpace c = false ∧ c ≠ ']' ∧ c ≠ '}' ∧ c ≠ '"' ∧ c ≠ '[' ∧ c ≠ '{'

instance (c : Char) : Decidable (AtomHead c) := inferInstanceAs (Decidable (_ ∧ _))

omit [Floats] in
theorem NumberHead.atom {text : List Char} (number : NumberHead text) :
    ∃ c more, text = c :: more ∧ AtomHead c := by
  obtain ⟨d, more, digit, rfl | rfl⟩ := number
  · refine ⟨d, more, rfl, ?_, ?_, ?_, ?_, ?_, ?_⟩
    · by_contra space
      simp only [isJsonSpace, Bool.or_eq_true, decide_eq_true_eq, Bool.not_eq_false] at space
      rcases space with ((rfl | rfl) | rfl) | rfl <;> exact absurd digit (by decide)
    all_goals
      rintro rfl
      exact absurd digit (by decide)
  · exact ⟨'-', _, rfl, by decide⟩

/-- The first character of a value is no white space and closes nothing. -/
theorem write_head {layout : Layout} {a : Json} (host : ∀ q, a = .float (.finite q) → Floats.isFloat q) :
    ∃ c text, write layout a = c :: text ∧ isJsonSpace c = false ∧ c ≠ ']' := by
  cases a with
  | null => exact ⟨'n', "ull".toList, by simp [write], by decide, by decide⟩
  | bool b =>
      cases b
      · exact ⟨'f', "alse".toList, by simp [write], by decide, by decide⟩
      · exact ⟨'t', "rue".toList, by simp [write], by decide, by decide⟩
  | int n =>
      obtain ⟨c, text, same, space, bracket, -⟩ := (numberHead_dumpInt n).atom
      exact ⟨c, text, by rw [write, same], space, bracket⟩
  | float f =>
      cases f with
      | finite q =>
          obtain ⟨c, text, same, space, bracket, -⟩ := (numberHead_repr (host q rfl)).atom
          exact ⟨c, text, by rw [write, dumpFloat, same], space, bracket⟩
      | infinity negative =>
          cases negative
          · exact ⟨'I', "nfinity".toList, by simp [write, dumpFloat], by decide, by decide⟩
          · exact ⟨'-', "Infinity".toList, by simp [write, dumpFloat], by decide, by decide⟩
      | nan => exact ⟨'N', "aN".toList, by simp [write, dumpFloat], by decide, by decide⟩
  | str s => exact ⟨'"', _, by rw [write, quoted], by decide, by decide⟩
  | arr items => exact ⟨'[', _, by rw [write], by decide, by decide⟩
  | obj items => exact ⟨'{', _, by rw [write], by decide, by decide⟩

omit [Floats] in
theorem sortFields_keys (items : List (String × Json)) :
    (sortFields items).map Prod.fst = items.map Prod.fst := by
  induction items with
  | nil => rfl
  | cons item items ih =>
      obtain ⟨k, a⟩ := item
      rw [sortFields, List.map_cons, List.map_cons, ih]

theorem plainFields_iff (items : List (String × Json)) :
    PlainFields items ↔ ∀ item ∈ items, Plain item.2 := by
  induction items with
  | nil => simp [PlainFields]
  | cons item items ih =>
      obtain ⟨k, a⟩ := item
      simp [PlainFields, ih]

theorem plain_arr (items : List Json) : Plain (.arr items) ↔ ∀ a ∈ items, Plain a := by
  rw [Plain]
  induction items with
  | nil => simp [PlainAll]
  | cons a items ih => simp [PlainAll, ih]

theorem plain_obj (items : List (String × Json)) :
    Plain (.obj items) ↔ (items.map Prod.fst).Nodup ∧ ∀ item ∈ items, Plain item.2 := by
  rw [Plain, plainFields_iff]

omit [Floats] in
theorem sortItems_perm (items : List (String × Json)) : (sortItems items).Perm items :=
  List.perm_insertionSort _ items

mutual

theorem plain_sortKeys : ∀ a : Json, Plain a → Plain a.sortKeys
  | .null, plain | .bool _, plain | .int _, plain | .float _, plain | .str _, plain => by
      rwa [sortKeys]
  | .arr items, plain => by
      rw [Plain] at plain
      rw [sortKeys, Plain]
      exact plain_sortAll items plain
  | .obj items, plain => by
      rw [Plain] at plain
      rw [sortKeys, Plain]
      constructor
      · rw [((sortItems_perm _).map Prod.fst).nodup_iff, sortFields_keys]
        exact plain.1
      · rw [plainFields_iff]
        intro item member
        have sorted := plain_sortFields items plain.2
        rw [plainFields_iff] at sorted
        exact sorted item ((sortItems_perm _).mem_iff.mp member)

theorem plain_sortAll : ∀ as : List Json, PlainAll as → PlainAll (sortAll as)
  | [], _ => by rw [sortAll, PlainAll]; trivial
  | a :: as, plain => by
      rw [PlainAll] at plain
      rw [sortAll, PlainAll]
      exact ⟨plain_sortKeys a plain.1, plain_sortAll as plain.2⟩

theorem plain_sortFields : ∀ as : List (String × Json), PlainFields as → PlainFields (sortFields as)
  | [], _ => by rw [sortFields, PlainFields]; trivial
  | (k, a) :: as, plain => by
      rw [PlainFields] at plain
      rw [sortFields, PlainFields]
      exact ⟨plain_sortKeys a plain.1, plain_sortFields as plain.2⟩

end

omit [Floats] in
theorem lookup_sortFields (items : List (String × Json)) (key : String) :
    (sortFields items).lookup key = (items.lookup key).map sortKeys := by
  induction items with
  | nil => rfl
  | cons item items ih =>
      obtain ⟨k, a⟩ := item
      rw [sortFields, List.lookup_cons, List.lookup_cons, ih]
      cases key == k <;> rfl

omit [Floats] in
theorem lookup_perm {items others : List (String × Json)} (perm : items.Perm others)
    (nodup : (others.map Prod.fst).Nodup) (key : String) :
    items.lookup key = others.lookup key := by
  induction perm with
  | nil => rfl
  | cons item perm ih =>
      rw [List.map_cons, List.nodup_cons] at nodup
      rw [List.lookup_cons, List.lookup_cons, ih nodup.2]
  | swap a b items =>
      have different : a.1 ≠ b.1 := by
        rw [List.map_cons, List.map_cons, List.nodup_cons, List.mem_cons, not_or] at nodup
        exact nodup.1.1
      rw [List.lookup_cons, List.lookup_cons, List.lookup_cons, List.lookup_cons]
      cases first : key == a.1 with
      | false => rfl
      | true =>
          have second : (key == b.1) = false := by
            rw [beq_iff_eq.mp first]
            simpa using different
          rw [second]
  | trans left right ihl ihr =>
      have middle := ((right.map Prod.fst).nodup_iff).mpr nodup
      rw [ihl middle, ihr nodup]

omit [Floats] in
/-- A field of an object is found under its key whatever the order. -/
theorem lookup_sortKeys {items : List (String × Json)} (nodup : (items.map Prod.fst).Nodup)
    (key : String) :
    (sortItems (sortFields items)).lookup key = (items.lookup key).map sortKeys := by
  rw [lookup_perm (sortItems_perm _) (by rwa [sortFields_keys]), lookup_sortFields]

end Values

end Numbers

end Json

end Cinegraph.Library
