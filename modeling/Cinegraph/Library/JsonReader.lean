import Cinegraph.Library.Dict
import Cinegraph.Library.Exec
import Cinegraph.Library.JsonText
import Mathlib.Data.List.TakeWhile

/-!
`json.loads`. A value is read with its strings as code points; the caller decides about the names of
constants and about repeated keys, and every container takes room on the stack of the interpreter.
The fuel of the reader never runs out, and a text that was written is read back as its value.
-/

namespace Cinegraph.Library

/-- A value of `json.loads`: a string is its code points, and a surrogate may stand alone. -/
inductive Loaded where
  | null
  | bool (value : Bool)
  | int (value : Int)
  | float (value : FloatValue)
  | str (text : List Nat)
  | arr (items : List Loaded)
  | obj (items : List (List Nat × Loaded))

/-- `ValueError` of any kind, or `RecursionError`. -/
inductive LoadsError where
  | malformed
  | recursion
  deriving DecidableEq, Repr

namespace Loaded

def isDict : Loaded → Bool
  | .obj _ => true
  | _ => false

def isSurrogate (code : Nat) : Bool := 0xD800 ≤ code && code < 0xE000

def codes (text : String) : List Nat := text.toList.map Char.toNat

/-- The text of code points, unless one of them is a lone surrogate. -/
def text? (codes : List Nat) : Option String :=
  if codes.any isSurrogate then none else some (String.ofList (codes.map Char.ofNat))

mutual

/-- The value with proper texts, unless a surrogate stands alone in it. -/
def json? : Loaded → Option Json
  | .null => some .null
  | .bool b => some (.bool b)
  | .int n => some (.int n)
  | .float f => some (.float f)
  | .str text => (text? text).map .str
  | .arr items => (jsonAll? items).map .arr
  | .obj items => (jsonFields? items).map .obj

def jsonAll? : List Loaded → Option (List Json)
  | [] => some []
  | a :: as => (json? a).bind fun a => (jsonAll? as).map (a :: ·)

def jsonFields? : List (List Nat × Loaded) → Option (List (String × Json))
  | [] => some []
  | (k, a) :: as => (text? k).bind fun k => (json? a).bind fun a => (jsonFields? as).map ((k, a) :: ·)

end

mutual

def ofJson : Json → Loaded
  | .null => .null
  | .bool b => .bool b
  | .int n => .int n
  | .float f => .float f
  | .str text => .str (codes text)
  | .arr items => .arr (ofAll items)
  | .obj items => .obj (ofFields items)

def ofAll : List Json → List Loaded
  | [] => []
  | a :: as => ofJson a :: ofAll as

def ofFields : List (String × Json) → List (List Nat × Loaded)
  | [] => []
  | (k, a) :: as => (codes k, ofJson a) :: ofFields as

end

theorem text?_codes (text : String) : text? (codes text) = some text := by
  have proper : (codes text).any isSurrogate = false := by
    rw [List.any_eq_false]
    intro code member
    obtain ⟨c, _, rfl⟩ := List.mem_map.mp member
    have valid := c.valid
    simp only [isSurrogate, Bool.and_eq_true, decide_eq_true_eq, not_and, not_lt]
    intro high
    rcases valid with low | ⟨above, _⟩
    · exact absurd high (by simp only [Char.toNat]; omega)
    · simp only [Char.toNat] at high ⊢
      omega
  rw [text?, proper, codes, List.map_map]
  have same : Char.ofNat ∘ Char.toNat = id := funext Char.ofNat_toNat
  rw [same, List.map_id, String.ofList_toList]
  rfl

mutual

theorem json?_ofJson : ∀ a : Json, json? (ofJson a) = some a
  | .null | .bool _ | .int _ | .float _ => rfl
  | .str text => by rw [ofJson, json?, text?_codes]; rfl
  | .arr items => by rw [ofJson, json?, jsonAll?_ofAll items]; rfl
  | .obj items => by rw [ofJson, json?, jsonFields?_ofFields items]; rfl

theorem jsonAll?_ofAll : ∀ as : List Json, jsonAll? (ofAll as) = some as
  | [] => rfl
  | a :: as => by rw [ofAll, jsonAll?, json?_ofJson a, jsonAll?_ofAll as]; rfl

theorem jsonFields?_ofFields : ∀ as : List (String × Json), jsonFields? (ofFields as) = some as
  | [] => rfl
  | (k, a) :: as => by
      rw [ofFields, jsonFields?, text?_codes, json?_ofJson a, jsonFields?_ofFields as]
      rfl

end

theorem keys_ofFields (items : List (String × Json)) :
    (ofFields items).map Prod.fst = (items.map Prod.fst).map codes := by
  induction items with
  | nil => rfl
  | cons item items ih =>
      obtain ⟨k, a⟩ := item
      rw [ofFields, List.map_cons, List.map_cons, List.map_cons, ih]

theorem codes_injective : Function.Injective codes := by
  intro a b same
  have texts := congrArg text? same
  rw [text?_codes, text?_codes] at texts
  exact Option.some_inj.mp texts

/-- An object without a repeated key is read without a repeated key. -/
theorem nodup_keys_ofFields {items : List (String × Json)} (nodup : (items.map Prod.fst).Nodup) :
    ((ofFields items).map Prod.fst).Nodup := by
  rw [keys_ofFields]
  exact nodup.map codes_injective

section Load

open Json (hexCode skipSpace scanAtom)

/-- What a call of `json.loads` is given: whether it takes the names of constants, and what it makes of
the items of an object. -/
structure Hooks where
  constants : Bool
  pairs : List (List Nat × Loaded) → Option (List (List Nat × Loaded))

/-- Without arguments, where a repeated key keeps its place and takes the later value. -/
def Hooks.plain : Hooks := ⟨true, fun items => some (Dict.ofList items).entries⟩

/-- The room inside one more container, of a stack with an end or of one without. -/
def inner : Option Nat → Except LoadsError (Option Nat)
  | none => .ok none
  | some 0 => .error .recursion
  | some (depth + 1) => .ok (some depth)

/-- The code point after `\u`: a high surrogate takes a low one that follows it. -/
def unicodeEscape (text : List Char) : Option (Nat × List Char) := do
  let (code, rest) ← hexCode text
  if 0xD800 ≤ code ∧ code < 0xDC00 then
    match rest with
    | '\\' :: 'u' :: more =>
        let (low, after) ← hexCode more
        if 0xDC00 ≤ low ∧ low < 0xE000 then
          return (0x10000 + (code - 0xD800) * 0x400 + (low - 0xDC00), after)
        else return (code, rest)
    | _ => return (code, rest)
  else return (code, rest)

/-- The code point after a backslash other than `\u`. -/
def backslash : Char → Option Nat
  | '"' => some 34
  | '\\' => some 92
  | '/' => some 47
  | 'b' => some 8
  | 'f' => some 12
  | 'n' => some 10
  | 'r' => some 13
  | 't' => some 9
  | _ => none

/-- The rest of a string literal behind its opening quote. -/
def parseString : (fuel : Nat) → List Char → Option (List Nat × List Char)
  | 0, _ => none
  | _ + 1, [] => none
  | _ + 1, '"' :: rest => some ([], rest)
  | fuel + 1, '\\' :: 'u' :: rest => do
      let (code, rest) ← unicodeEscape rest
      let (text, rest) ← parseString fuel rest
      return (code :: text, rest)
  | fuel + 1, '\\' :: c :: rest => do
      let code ← backslash c
      let (text, rest) ← parseString fuel rest
      return (code :: text, rest)
  | fuel + 1, c :: rest =>
      if c.toNat < 32 ∨ c = '\\' then none
      else do
        let (text, rest) ← parseString fuel rest
        return (c.toNat :: text, rest)

def wellFormed {α : Type} : Option α → Except LoadsError α
  | some a => .ok a
  | none => .error .malformed

variable [Floats] (hooks : Hooks)

def isConstant (text : List Char) : Bool :=
  "NaN".toList.isPrefixOf text || "Infinity".toList.isPrefixOf text ||
    "-Infinity".toList.isPrefixOf text

/-- A literal name, or a number. -/
def parseAtom (text : List Char) : Except LoadsError (Loaded × List Char) :=
  if isConstant text ∧ hooks.constants = false then .error .malformed
  else (wellFormed (scanAtom text)).map fun (value, rest) => (ofJson value, rest)

mutual

/-- A value, with room for so many containers around one another. -/
def parseValue : (room : Option Nat) → (fuel : Nat) → List Char →
    Except LoadsError (Loaded × List Char)
  | _, 0, _ => .error .malformed
  | _, fuel + 1, '"' :: rest => do
      let (text, rest) ← wellFormed (parseString fuel rest)
      return (.str text, rest)
  | room, fuel + 1, '[' :: rest => do
      let room ← inner room
      match skipSpace rest with
      | ']' :: rest => return (.arr [], rest)
      | rest =>
          let (items, rest) ← parseItems room fuel rest
          return (.arr items, rest)
  | room, fuel + 1, '{' :: rest => do
      let room ← inner room
      match skipSpace rest with
      | '}' :: rest =>
          let items ← wellFormed (hooks.pairs [])
          return (.obj items, rest)
      | rest =>
          let (items, rest) ← parseFields room fuel rest
          let items ← wellFormed (hooks.pairs items)
          return (.obj items, rest)
  | _, _ + 1, text => parseAtom hooks text

/-- One or more elements and the closing bracket. -/
def parseItems : (room : Option Nat) → (fuel : Nat) → List Char →
    Except LoadsError (List Loaded × List Char)
  | _, 0, _ => .error .malformed
  | room, fuel + 1, text => do
      let (a, rest) ← parseValue room fuel text
      match skipSpace rest with
      | ']' :: rest => return ([a], rest)
      | ',' :: rest =>
          let (as, rest) ← parseItems room fuel (skipSpace rest)
          return (a :: as, rest)
      | _ => .error .malformed

def parseFields : (room : Option Nat) → (fuel : Nat) → List Char →
    Except LoadsError (List (List Nat × Loaded) × List Char)
  | _, 0, _ => .error .malformed
  | room, fuel + 1, '"' :: rest => do
      let (key, rest) ← wellFormed (parseString fuel rest)
      match skipSpace rest with
      | ':' :: rest =>
          let (a, rest) ← parseValue room fuel (skipSpace rest)
          match skipSpace rest with
          | '}' :: rest => return ([(key, a)], rest)
          | ',' :: rest =>
              let (as, rest) ← parseFields room fuel (skipSpace rest)
              return ((key, a) :: as, rest)
          | _ => .error .malformed
      | _ => .error .malformed
  | _, _ + 1, _ => .error .malformed

end

/-- `json.loads(text)` where the stack has so much room. -/
def loads (room : Option Nat) (text : List Char) : Except LoadsError Loaded := do
  let (value, rest) ← parseValue hooks room (2 * text.length + 2) (skipSpace text)
  if skipSpace rest = [] then return value else .error .malformed

end Load

section Progress

/-! What is read takes characters of the text, so the text bounds the recursion. -/

open Json

theorem length_skipSpace (text : List Char) : (skipSpace text).length ≤ text.length :=
  (List.dropWhile_sublist _).length_le

theorem length_dropDigits (text : List Char) : (text.dropWhile isDigit).length ≤ text.length :=
  (List.dropWhile_sublist _).length_le

theorem length_of_hexCode {text rest : List Char} {code : Nat}
    (read : hexCode text = some (code, rest)) : rest.length < text.length := by
  unfold hexCode at read
  split at read
  · simp only [Option.bind_eq_bind, Option.bind_eq_some_iff, Option.pure_def, Option.some.injEq,
      Prod.mk.injEq] at read
    obtain ⟨digits, -, -, rfl⟩ := read
    simp only [List.length_cons]
    omega
  · cases read

theorem length_of_unicodeEscape {text rest : List Char} {code : Nat}
    (read : unicodeEscape text = some (code, rest)) : rest.length < text.length := by
  simp only [unicodeEscape, Option.bind_eq_bind, Option.bind_eq_some_iff] at read
  obtain ⟨⟨high, after⟩, scanned, read⟩ := read
  have shorter := length_of_hexCode scanned
  split at read
  · split at read
    · rename_i more following
      obtain ⟨⟨low, last⟩, second, read⟩ := Option.bind_eq_some_iff.mp read
      have shorter' := length_of_hexCode second
      have behind : after.length = more.length + 2 := congrArg List.length following
      split at read <;> simp only [Option.pure_def, Option.some.injEq, Prod.mk.injEq] at read <;>
        obtain ⟨-, rfl⟩ := read <;> omega
    · cases read
      exact shorter
  · cases read
    exact shorter

theorem length_of_parseString {fuel : Nat} {text rest : List Char} {codes : List Nat}
    (read : parseString fuel text = some (codes, rest)) : rest.length < text.length := by
  fun_induction parseString fuel text generalizing codes rest with
  | case1 | case2 => contradiction
  | case3 fuel more =>
      cases read
      simp
  | case4 fuel more ih =>
      simp only [Option.bind_eq_bind, Option.bind_eq_some_iff] at read
      obtain ⟨⟨code, after⟩, escaped, ⟨text, last⟩, later, read⟩ := read
      cases read
      have first := length_of_unicodeEscape escaped
      have second : last.length < after.length := ih _ later
      simp only [List.length_cons]
      omega
  | case5 fuel c more other ih =>
      simp only [Option.bind_eq_bind, Option.bind_eq_some_iff] at read
      obtain ⟨code, -, ⟨text, last⟩, later, read⟩ := read
      cases read
      have second := ih later
      simp only [List.length_cons]
      omega
  | case6 => contradiction
  | case7 fuel c more _ _ _ _ ih =>
      simp only [Option.bind_eq_bind, Option.bind_eq_some_iff] at read
      obtain ⟨⟨text, last⟩, later, read⟩ := read
      cases read
      have second := ih later
      simp only [List.length_cons]
      omega

theorem length_of_scanWhole {text whole rest : List Char}
    (read : scanWhole text = some (whole, rest)) : rest.length < text.length := by
  unfold scanWhole at read
  split at read
  · cases read
    simp
  · rename_i d more zero
    have shorter := length_dropDigits more
    split at read <;> cases read
    simp only [List.length_cons]
    omega
  · contradiction

theorem length_scanFraction (text : List Char) : (scanFraction text).2.length ≤ text.length := by
  unfold scanFraction
  split
  · rename_i d rest
    have shorter := length_dropDigits rest
    split <;> simp only [List.length_cons] <;> omega
  · simp

theorem length_scanExponent (text : List Char) : (scanExponent text).2.length ≤ text.length := by
  unfold scanExponent
  have shorter := length_dropDigits
  split
  · split
    · split
      rename_i sign rest' h
      split
      · split
        · rename_i d more digit
          have := shorter more
          split at h <;> cases h <;> simp only [List.length_cons] <;> omega
        · simp
      · simp
    · simp
  · simp

theorem wellFormed_eq_ok {α : Type} {read : Option α} {a : α} :
    wellFormed read = .ok a ↔ read = some a := by
  cases read <;> simp [wellFormed]

variable [Floats]

theorem length_of_scanUnsigned {negative : Bool} {text rest : List Char} {a : Json}
    (read : scanUnsigned negative text = some (a, rest)) : rest.length < text.length := by
  simp only [scanUnsigned, Option.bind_eq_bind, Option.bind_eq_some_iff] at read
  obtain ⟨⟨whole, after⟩, scanned, read⟩ := read
  have first := length_of_scanWhole scanned
  have second := length_scanFraction after
  have third := length_scanExponent (scanFraction after).2
  have last : rest = (scanExponent (scanFraction after).2).2 := by
    split at read
    · cases read
      rfl
    · simp only [Option.bind_eq_some_iff] at read
      obtain ⟨value, -, read⟩ := read
      cases read
      rfl
  rw [last]
  omega

theorem length_of_scanAtom {text rest : List Char} {a : Json}
    (read : scanAtom text = some (a, rest)) : rest.length < text.length := by
  have named (name : List Char) {n : Nat} {b : Json} (size : n = name.length) (positive : 0 < n)
      (here : name.isPrefixOf text = true) (same : some (b, text.drop n) = some (a, rest)) :
      rest.length < text.length := by
    have long := (List.isPrefixOf_iff_prefix.mp here).length_le
    cases same
    rw [List.length_drop]
    omega
  unfold scanAtom at read
  split at read
  · exact named "null".toList (by decide) (by decide) ‹_› read
  split at read
  · exact named "true".toList (by decide) (by decide) ‹_› read
  split at read
  · exact named "false".toList (by decide) (by decide) ‹_› read
  split at read
  · exact named "NaN".toList (by decide) (by decide) ‹_› read
  split at read
  · exact named "Infinity".toList (by decide) (by decide) ‹_› read
  split at read
  · exact named "-Infinity".toList (by decide) (by decide) ‹_› read
  unfold scanNumber at read
  split at read
  · have shorter := length_of_scanUnsigned read
    simp only [List.length_cons]
    omega
  · exact length_of_scanUnsigned read

variable {hooks : Hooks} {fuel : Nat}

theorem length_of_parseAtom {text rest : List Char} {a : Loaded}
    (read : parseAtom hooks text = .ok (a, rest)) : rest.length < text.length := by
  unfold parseAtom at read
  split at read
  · cases read
  · cases scanned : scanAtom text with
    | none => simp [scanned, wellFormed, Except.map] at read
    | some found =>
        simp only [scanned, wellFormed, Except.map, Except.ok.injEq, Prod.mk.injEq] at read
        rw [← read.2]
        exact length_of_scanAtom scanned

/-- What reads with this fuel takes characters of the text. -/
def TakesText (hooks : Hooks) (fuel : Nat) : Prop :=
  (∀ room text a rest, parseValue hooks room fuel text = .ok (a, rest) → rest.length < text.length) ∧
  (∀ room text items rest, parseItems hooks room fuel text = .ok (items, rest) →
    rest.length < text.length) ∧
  ∀ room text items rest, parseFields hooks room fuel text = .ok (items, rest) →
    rest.length < text.length

theorem length_of_parseValue (before : TakesText hooks fuel) {room : Option Nat}
    {text rest : List Char} {a : Loaded}
    (read : parseValue hooks room (fuel + 1) text = .ok (a, rest)) : rest.length < text.length := by
  unfold parseValue at read
  split at read
  · contradiction
  · rename_i fuel' more same
    cases same
    obtain ⟨⟨codes, after⟩, literal, read⟩ := (bind_eq_ok _).mp read
    have shorter : after.length < _ := length_of_parseString (wellFormed_eq_ok.mp literal)
    cases read
    simp only [List.length_cons]
    omega
  · rename_i fuel' more same
    cases same
    have blanks := length_skipSpace more
    obtain ⟨inside, -, read⟩ := (bind_eq_ok _).mp read
    split at read
    · rename_i after closed
      rw [closed] at blanks
      cases read
      simp only [List.length_cons] at blanks ⊢
      omega
    · obtain ⟨⟨items, after⟩, listed, read⟩ := (bind_eq_ok _).mp read
      have shorter : after.length < _ := before.2.1 _ _ _ _ listed
      cases read
      simp only [List.length_cons]
      omega
  · rename_i fuel' more same
    cases same
    have blanks := length_skipSpace more
    obtain ⟨inside, -, read⟩ := (bind_eq_ok _).mp read
    split at read
    · rename_i after closed
      rw [closed] at blanks
      obtain ⟨items, -, read⟩ := (bind_eq_ok _).mp read
      cases read
      simp only [List.length_cons] at blanks ⊢
      omega
    · obtain ⟨⟨items, after⟩, listed, read⟩ := (bind_eq_ok _).mp read
      have shorter : after.length < _ := before.2.2 _ _ _ _ listed
      obtain ⟨made, -, read⟩ := (bind_eq_ok _).mp read
      cases read
      simp only [List.length_cons]
      omega
  · exact length_of_parseAtom read

theorem length_of_parseItems (before : TakesText hooks fuel) {room : Option Nat}
    {text rest : List Char} {items : List Loaded}
    (read : parseItems hooks room (fuel + 1) text = .ok (items, rest)) :
    rest.length < text.length := by
  unfold parseItems at read
  obtain ⟨⟨a, after⟩, first, read⟩ := (bind_eq_ok _).mp read
  have shorter := before.1 _ _ _ _ first
  have blanks := length_skipSpace after
  dsimp only at read
  split at read
  · rename_i last closed
    rw [closed] at blanks
    cases read
    simp only [List.length_cons] at blanks
    omega
  · rename_i more comma
    obtain ⟨⟨as, last⟩, later, read⟩ := (bind_eq_ok _).mp read
    have shorter' : last.length < _ := before.2.1 _ _ _ _ later
    have blanks' := length_skipSpace more
    rw [comma] at blanks
    cases read
    simp only [List.length_cons] at blanks ⊢
    omega
  · contradiction

theorem length_of_parseFields (before : TakesText hooks fuel) {room : Option Nat}
    {text rest : List Char} {items : List (List Nat × Loaded)}
    (read : parseFields hooks room (fuel + 1) text = .ok (items, rest)) :
    rest.length < text.length := by
  unfold parseFields at read
  split at read
  · contradiction
  · rename_i fuel' more same
    cases same
    obtain ⟨⟨key, after⟩, literal, read⟩ := (bind_eq_ok _).mp read
    have keyed := length_of_parseString (wellFormed_eq_ok.mp literal)
    have blanks := length_skipSpace after
    dsimp only at read
    split at read
    · rename_i value colon
      obtain ⟨⟨a, behind⟩, first, read⟩ := (bind_eq_ok _).mp read
      have shorter := before.1 _ _ _ _ first
      have blanks' := length_skipSpace value
      have blanks'' := length_skipSpace behind
      rw [colon] at blanks
      dsimp only at read
      split at read
      · rename_i last closed
        rw [closed] at blanks''
        cases read
        simp only [List.length_cons] at blanks blanks'' ⊢
        omega
      · rename_i following comma
        obtain ⟨⟨as, last⟩, later, read⟩ := (bind_eq_ok _).mp read
        have shorter' : last.length < _ := before.2.2 _ _ _ _ later
        have blanks''' := length_skipSpace following
        rw [comma] at blanks''
        cases read
        simp only [List.length_cons] at blanks blanks'' ⊢
        omega
      · contradiction
    · contradiction
  · contradiction

/-- Whatever the fuel, what is read takes characters of the text. -/
theorem takesText (hooks : Hooks) : ∀ fuel, TakesText hooks fuel
  | 0 => by simp [TakesText, parseValue, parseItems, parseFields]
  | fuel + 1 =>
      have before := takesText hooks fuel
      ⟨fun _ _ _ _ => length_of_parseValue before, fun _ _ _ _ => length_of_parseItems before,
        fun _ _ _ _ => length_of_parseFields before⟩

/-! ### More fuel than the text needs changes nothing -/

omit [Floats] in
theorem parseString_stable {fuel : Nat} {text : List Char} (enough : text.length < fuel) :
    parseString (fuel + 1) text = parseString fuel text := by
  induction fuel generalizing text with
  | zero => omega
  | succ fuel ih =>
      rw [parseString.eq_def, parseString.eq_def (fuel + 1)]
      split
      · contradiction
      · rfl
      · rfl
      · rename_i fuel' more same
        cases same
        cases escaped : unicodeEscape more with
        | none => rfl
        | some found =>
            obtain ⟨code, rest⟩ := found
            have shorter := length_of_unicodeEscape escaped
            simp only [List.length_cons] at enough
            have read := ih (show rest.length < fuel by omega)
            simp [read]
      · rename_i fuel' c more _ same
        cases same
        simp only [List.length_cons] at enough
        have read := ih (show more.length < fuel by omega)
        simp [read]
      · rename_i fuel' c more _ _ _ same
        cases same
        simp only [List.length_cons] at enough
        have read := ih (show more.length < fuel by omega)
        simp [read]

/-- Fuel beyond two units for each character changes nothing. -/
def Stable (hooks : Hooks) (fuel : Nat) : Prop :=
  (∀ room text, 2 * text.length < fuel →
    parseValue hooks room (fuel + 1) text = parseValue hooks room fuel text) ∧
  (∀ room text, 2 * text.length + 1 < fuel →
    parseItems hooks room (fuel + 1) text = parseItems hooks room fuel text) ∧
  ∀ room text, 2 * text.length + 1 < fuel →
    parseFields hooks room (fuel + 1) text = parseFields hooks room fuel text

theorem parseValue_stable (before : Stable hooks fuel) (room : Option Nat) (text : List Char)
    (enough : 2 * text.length < fuel + 1) :
    parseValue hooks room (fuel + 1 + 1) text = parseValue hooks room (fuel + 1) text := by
  rw [parseValue.eq_def, parseValue.eq_def hooks room (fuel + 1)]
  split
  · contradiction
  · rename_i fuel' more same
    cases same
    simp only [List.length_cons] at enough
    dsimp only
    rw [parseString_stable (by omega)]
  · rename_i fuel' more same
    cases same
    have blanks := length_skipSpace more
    simp only [List.length_cons] at enough
    refine bind_congr_ok fun inside _ => ?_
    split
    · rfl
    · rw [before.2.1 _ _ (by omega)]
  · rename_i fuel' more same
    cases same
    have blanks := length_skipSpace more
    simp only [List.length_cons] at enough
    refine bind_congr_ok fun inside _ => ?_
    split
    · rfl
    · rw [before.2.2 _ _ (by omega)]
  · rfl

theorem parseItems_stable (before : Stable hooks fuel) (room : Option Nat) (text : List Char)
    (enough : 2 * text.length + 1 < fuel + 1) :
    parseItems hooks room (fuel + 1 + 1) text = parseItems hooks room (fuel + 1) text := by
  rw [parseItems.eq_def, parseItems.eq_def hooks room (fuel + 1)]
  dsimp only
  rw [before.1 _ _ (by omega)]
  refine bind_congr_ok fun (a, rest) first => ?_
  have shorter := (takesText hooks fuel).1 _ _ _ _ first
  have blanks := length_skipSpace rest
  dsimp only
  split
  · rfl
  · rename_i more comma
    have blanks' := length_skipSpace more
    rw [comma, List.length_cons] at blanks
    rw [before.2.1 _ _ (by omega)]
  · rfl

theorem parseFields_stable (before : Stable hooks fuel) (room : Option Nat) (text : List Char)
    (enough : 2 * text.length + 1 < fuel + 1) :
    parseFields hooks room (fuel + 1 + 1) text = parseFields hooks room (fuel + 1) text := by
  rw [parseFields.eq_def, parseFields.eq_def hooks room (fuel + 1)]
  split
  · contradiction
  · rename_i fuel' more same
    cases same
    simp only [List.length_cons] at enough
    dsimp only
    rw [parseString_stable (by omega)]
    refine bind_congr_ok fun (key, rest) literal => ?_
    have keyed := length_of_parseString (wellFormed_eq_ok.mp literal)
    have blanks := length_skipSpace rest
    dsimp only
    split
    · rename_i value colon
      have blanks' := length_skipSpace value
      rw [colon, List.length_cons] at blanks
      rw [before.1 _ _ (by omega)]
      refine bind_congr_ok fun (a, behind) first => ?_
      have shorter := (takesText hooks fuel).1 _ _ _ _ first
      have blanks'' := length_skipSpace behind
      dsimp only
      split
      · rfl
      · rename_i following comma
        have blanks''' := length_skipSpace following
        rw [comma, List.length_cons] at blanks''
        rw [before.2.2 _ _ (by omega)]
      · rfl
    · rfl
  · rfl

theorem stable (hooks : Hooks) : ∀ fuel, Stable hooks fuel
  | 0 => by simp [Stable]
  | fuel + 1 =>
      have before := stable hooks fuel
      ⟨parseValue_stable before, parseItems_stable before, parseFields_stable before⟩

/-- What `loads` reads does not depend on its fuel. -/
theorem parseValue_fuel (hooks : Hooks) (room : Option Nat) (text : List Char) {fuel more : Nat}
    (enough : 2 * text.length < fuel) (above : fuel ≤ more) :
    parseValue hooks room more text = parseValue hooks room fuel text := by
  induction more, above using Nat.le_induction with
  | base => rfl
  | succ more above ih => rw [(stable hooks more).1 room text (by omega), ih]

end Progress

section RoundTrip

/-! What is read back from a text that was written. -/

open Json

/-- One escaped character is read back. -/
theorem parseString_escape (c : Char) (fuel : Nat) (more : List Char) :
    parseString (fuel + 1) (escape c ++ more) =
      (parseString fuel more).map fun (text, rest) => (c.toNat :: text, rest) := by
  have done {r : Option (List Nat × List Char)} (code : Nat) :
      (r.bind fun (text, rest) => some (code :: text, rest)) =
        r.map fun (text, rest) => (code :: text, rest) := by
    cases r <;> rfl
  unfold escape
  by_cases quote : c = '"'
  · subst quote
    exact done _
  by_cases backslash : c = '\\'
  · subst backslash
    exact done _
  by_cases newline : c = '\n'
  · subst newline
    exact done _
  by_cases carriage : c = '\r'
  · subst carriage
    exact done _
  by_cases tab : c = '\t'
  · subst tab
    exact done _
  rw [if_neg quote, if_neg backslash, if_neg newline, if_neg carriage, if_neg tab]
  by_cases backspace : c.toNat = 8
  · rw [if_pos backspace, backspace]
    exact done _
  by_cases formfeed : c.toNat = 12
  · rw [if_neg backspace, if_pos formfeed, formfeed]
    exact done _
  rw [if_neg backspace, if_neg formfeed]
  by_cases control : c.toNat < 32
  · rw [if_pos control]
    have code := hexCode_escape control more
    have low : ¬(0xD800 ≤ c.toNat ∧ c.toNat < 0xDC00) := by omega
    simp only [List.cons_append, List.nil_append, parseString, unicodeEscape, code,
      Option.bind_eq_bind, Option.bind_some, if_neg low, Option.pure_def]
    exact done _
  · rw [if_neg control]
    have plain : ¬(c.toNat < 32 ∨ c = '\\') := by simp [control, backslash]
    have step : parseString (fuel + 1) (c :: more) =
        (parseString fuel more).bind fun (text, rest) => some (c.toNat :: text, rest) := by
      rw [parseString.eq_def]
      split <;> simp_all
    exact step.trans (done _)

theorem parseString_quoted (text : String) (rest : List Char) (fuel : Nat)
    (enough : text.toList.length < fuel) :
    parseString fuel (text.toList.flatMap escape ++ '"' :: rest) = some (codes text, rest) := by
  unfold codes
  generalize text.toList = chars at enough ⊢
  induction chars generalizing fuel with
  | nil =>
      obtain ⟨fuel, rfl⟩ := Nat.exists_eq_add_of_lt enough
      rfl
  | cons c chars ih =>
      obtain ⟨fuel, rfl⟩ : ∃ f, fuel = f + 1 := ⟨fuel - 1, by simp at enough; omega⟩
      rw [List.flatMap_cons, List.append_assoc, parseString_escape,
        ih fuel (by simp at enough; omega)]
      rfl

/-- A layout that the reader takes: strings are escaped as it undoes it, and blanks are blanks. -/
structure Readable (layout : Layout) : Prop where
  escape : layout.escape = Json.escape
  gap : ∀ c ∈ layout.gap, isJsonSpace c = true

theorem readable_spaced : Readable .spaced := ⟨rfl, by simp [Layout.spaced, isJsonSpace]⟩

theorem readable_packed : Readable .packed := ⟨rfl, by simp [Layout.packed]⟩

theorem Readable.skipSpace_gap {layout : Layout} (readable : Readable layout) (text : List Char) :
    skipSpace (layout.gap ++ text) = skipSpace text :=
  List.dropWhile_append_of_pos readable.gap

variable [Floats] (hooks : Hooks)

mutual

/-- A value that these hooks take as it is, with so much room for its containers. -/
def Reads : (room : Option Nat) → Json → Prop
  | _, .null | _, .bool _ | _, .int _ | _, .str _ => True
  | _, .float f => f.isHost ∧ (hooks.constants = false → ∃ q, f = .finite q)
  | room, .arr items => ∃ inside, inner room = .ok inside ∧ ReadsAll inside items
  | room, .obj items => ∃ inside, inner room = .ok inside ∧
      hooks.pairs (ofFields items) = some (ofFields items) ∧ ReadsFields inside items

def ReadsAll : (room : Option Nat) → List Json → Prop
  | _, [] => True
  | room, a :: as => Reads room a ∧ ReadsAll room as

def ReadsFields : (room : Option Nat) → List (String × Json) → Prop
  | _, [] => True
  | room, (_, a) :: as => Reads room a ∧ ReadsFields room as

end

variable {hooks} {layout : Layout} {room : Option Nat}

variable (layout) in
theorem Reads.head {a : Json} (reads : Reads hooks room a) :
    ∃ c text, write layout a = c :: text ∧ isJsonSpace c = false ∧ c ≠ ']' := by
  apply write_head
  rintro q rfl
  rw [Reads] at reads
  exact reads.1

theorem Reads.skipSpace {a : Json} (reads : Reads hooks room a) (rest : List Char) :
    skipSpace (write layout a ++ rest) = write layout a ++ rest := by
  obtain ⟨c, text, head, space, -⟩ := reads.head layout
  rw [head, List.cons_append, skipSpace_of_head _ space]

theorem ReadsAll.skipSpace {a : Json} {as : List Json} (reads : ReadsAll hooks room (a :: as))
    (rest : List Char) :
    skipSpace (writeAll layout (a :: as) ++ rest) = writeAll layout (a :: as) ++ rest := by
  rw [ReadsAll] at reads
  cases as <;> rw [writeAll, List.append_assoc, reads.1.skipSpace]

theorem parseValue_atom {text rest : List Char} (fuel : Nat)
    (head : ∃ c more, text = c :: more ∧ AtomHead c) :
    parseValue hooks room (fuel + 1) (text ++ rest) = parseAtom hooks (text ++ rest) := by
  obtain ⟨c, more, rfl, -, -, -, quote, bracket, brace⟩ := head
  rw [List.cons_append, parseValue.eq_def]
  split <;> simp_all

omit [Floats] in
theorem isConstant_of_number {text rest : List Char} (number : NumberHead text) :
    isConstant (text ++ rest) = false := by
  obtain ⟨d, more, digit, same⟩ := number
  have letters : d ≠ 'N' ∧ d ≠ 'I' ∧ d ≠ '-' := by
    refine ⟨?_, ?_, ?_⟩ <;> (rintro rfl; exact absurd digit (by decide))
  obtain rfl | rfl := same <;>
    simp [isConstant, List.isPrefixOf, letters.1.symm, letters.2.1.symm, letters.2.2.symm]

theorem parseAtom_of_scan {text rest : List Char} {a : Json} (named : isConstant text = false)
    (scanned : scanAtom text = some (a, rest)) : parseAtom hooks text = .ok (ofJson a, rest) := by
  simp [parseAtom, named, scanned, wellFormed, Except.map]

theorem parseAtom_of_named {text : List Char} {a : Json} {rest : List Char}
    (taken : hooks.constants = true) (scanned : scanAtom text = some (a, rest)) :
    parseAtom hooks text = .ok (ofJson a, rest) := by
  simp [parseAtom, taken, scanned, wellFormed, Except.map]

omit [Floats] in
theorem atomHead_name : ∀ name ∈ ["null", "true", "false", "NaN", "Infinity", "-Infinity"],
    ∃ c more, name.toList = c :: more ∧ AtomHead c := by
  intro name member
  simp only [List.mem_cons, List.not_mem_nil, or_false] at member
  rcases member with rfl | rfl | rfl | rfl | rfl | rfl <;> exact ⟨_, _, rfl, by decide⟩

theorem parseValue_int (n : Int) (fuel : Nat) {rest : List Char} (ends : NumberEnd rest) :
    parseValue hooks room (fuel + 1) (dumpInt n ++ rest) = .ok (.int n, rest) := by
  have number := numberHead_dumpInt n
  rw [parseValue_atom fuel number.atom,
    parseAtom_of_scan (isConstant_of_number number) (scanAtom_int n ends), ofJson]

theorem parseValue_float {f : FloatValue} (reads : Reads hooks room (.float f)) (fuel : Nat)
    {rest : List Char} (ends : NumberEnd rest) :
    parseValue hooks room (fuel + 1) (dumpFloat f ++ rest) = .ok (.float f, rest) := by
  rw [Reads] at reads
  obtain ⟨host, constant⟩ := reads
  cases f with
  | finite q =>
      have number := numberHead_repr host
      rw [dumpFloat, parseValue_atom fuel number.atom,
        parseAtom_of_scan (isConstant_of_number number) (scanAtom_float host ends), ofJson]
  | infinity negative =>
      have taken : hooks.constants = true := by
        by_contra refused
        obtain ⟨q, same⟩ := constant (by simpa using refused)
        cases same
      cases negative
      · rw [dumpFloat, if_neg (by decide), parseValue_atom fuel (atomHead_name _ (by decide))]
        exact parseAtom_of_named (a := .float (.infinity false)) taken rfl
      · rw [dumpFloat, if_pos rfl, parseValue_atom fuel (atomHead_name _ (by decide))]
        exact parseAtom_of_named (a := .float (.infinity true)) taken rfl
  | nan =>
      have taken : hooks.constants = true := by
        by_contra refused
        obtain ⟨q, same⟩ := constant (by simpa using refused)
        cases same
      rw [dumpFloat, parseValue_atom fuel (atomHead_name _ (by decide))]
      exact parseAtom_of_named (a := .float .nan) taken rfl

omit [Floats] in
/-- A quoted text is read back up to its closing quote. -/
theorem parseString_of_quoted (readable : Readable layout) (text : String) (rest : List Char)
    (fuel : Nat) (enough : (quoted layout.escape text).length ≤ fuel + 1) :
    ∃ more, quoted layout.escape text ++ rest = '"' :: more ∧
      parseString fuel more = some (codes text, rest) := by
  have long := length_le_flatMap_escape text.toList
  rw [readable.escape] at enough ⊢
  simp only [quoted, List.length_cons, List.length_append, List.length_nil] at enough
  refine ⟨text.toList.flatMap escape ++ '"' :: rest, by simp [quoted], ?_⟩
  exact parseString_quoted text rest fuel (by omega)

mutual

/-- A value is read back from its text, whatever follows it that cannot extend a number. -/
theorem parseValue_write (readable : Readable layout) : ∀ (a : Json) (room : Option Nat),
    Reads hooks room a → ∀ (fuel : Nat) (rest : List Char), (write layout a).length ≤ fuel →
      NumberEnd rest → parseValue hooks room fuel (write layout a ++ rest) = .ok (ofJson a, rest)
  | a, room, reads, 0, rest, enough, _ => by
      obtain ⟨c, text, head, -⟩ := reads.head layout
      rw [head, List.length_cons] at enough
      omega
  | .null, room, _, fuel + 1, rest, _, _ => by
      rw [write, parseValue_atom fuel (atomHead_name _ (by decide))]
      exact parseAtom_of_scan rfl rfl
  | .bool true, room, _, fuel + 1, rest, _, _ => by
      rw [write, if_pos rfl, parseValue_atom fuel (atomHead_name _ (by decide))]
      exact parseAtom_of_scan rfl rfl
  | .bool false, room, _, fuel + 1, rest, _, _ => by
      rw [write, if_neg (by decide), parseValue_atom fuel (atomHead_name _ (by decide))]
      exact parseAtom_of_scan rfl rfl
  | .int n, room, _, fuel + 1, rest, _, ends => by
      rw [write, ofJson]
      exact parseValue_int n fuel ends
  | .float f, room, reads, fuel + 1, rest, _, ends => by
      rw [write, ofJson]
      exact parseValue_float reads fuel ends
  | .str s, room, _, fuel + 1, rest, enough, _ => by
      rw [write] at enough
      obtain ⟨more, opened, read⟩ := parseString_of_quoted readable s rest fuel enough
      rw [write, opened, parseValue, read, ofJson]
      rfl
  | .arr [], room, reads, fuel + 1, rest, _, _ => by
      rw [Reads] at reads
      obtain ⟨inside, within, -⟩ := reads
      simp [write, writeAll, parseValue, within, skipSpace, isJsonSpace, ofJson, ofAll, pure,
        Except.pure]
  | .arr (a :: as), room, reads, fuel + 1, rest, enough, _ => by
      rw [Reads] at reads
      obtain ⟨inside, within, reads⟩ := reads
      rw [write, List.length_cons] at enough
      have read := parseItems_write readable a as inside reads fuel rest (by omega)
      have unspaced : skipSpace (writeAll layout (a :: as) ++ rest) = writeAll layout (a :: as) ++ rest :=
        reads.skipSpace rest
      rw [ReadsAll] at reads
      obtain ⟨c, text, head, -, bracket⟩ := reads.1.head layout
      have opened : ∃ more, writeAll layout (a :: as) ++ rest = c :: more := by
        cases as <;> simp [writeAll, head]
      obtain ⟨more, opened⟩ := opened
      rw [write, List.cons_append, parseValue, within, ok_bind, unspaced, opened]
      rw [opened] at read
      split
      · simp_all
      · rw [read]
        rfl
  | .obj [], room, reads, fuel + 1, rest, _, _ => by
      rw [Reads] at reads
      obtain ⟨inside, within, pairs, -⟩ := reads
      rw [ofFields] at pairs
      simp [write, writeFields, parseValue, within, skipSpace, isJsonSpace, ofJson, ofFields, pairs,
        wellFormed, pure, Except.pure]
  | .obj ((k, a) :: as), room, reads, fuel + 1, rest, enough, _ => by
      rw [Reads] at reads
      obtain ⟨inside, within, pairs, reads⟩ := reads
      rw [write, List.length_cons] at enough
      have read := parseFields_write readable k a as inside reads fuel rest (by omega)
      have opened : ∃ more, writeFields layout ((k, a) :: as) ++ rest = '"' :: more := by
        cases as <;> simp [writeFields, quoted]
      obtain ⟨more, opened⟩ := opened
      rw [write, List.cons_append, parseValue, within, ok_bind, opened,
        skipSpace_of_head _ (by decide)]
      rw [opened] at read
      simp [read, pairs, wellFormed, ofJson, pure, Except.pure]

theorem parseItems_write (readable : Readable layout) : ∀ (a : Json) (as : List Json)
    (room : Option Nat), ReadsAll hooks room (a :: as) → ∀ (fuel : Nat) (rest : List Char),
      (writeAll layout (a :: as)).length ≤ fuel →
      parseItems hooks room fuel (writeAll layout (a :: as) ++ rest) = .ok (ofAll (a :: as), rest)
  | a, as, room, reads, 0, rest, enough => by
      cases as <;> simp [writeAll] at enough
  | a, [], room, reads, fuel + 1, rest, enough => by
      rw [ReadsAll] at reads
      simp only [writeAll, List.length_append, List.length_cons, List.length_nil] at enough
      have read := parseValue_write readable a room reads.1 fuel (']' :: rest) (by omega)
        (.close rest (Or.inl rfl))
      simp only [writeAll, List.append_assoc, List.cons_append, List.nil_append, parseItems, read,
        ok_bind, skipSpace_of_head _ (show isJsonSpace ']' = false by decide)]
      rfl
  | a, b :: as, room, reads, fuel + 1, rest, enough => by
      rw [ReadsAll] at reads
      simp only [writeAll, List.length_append, List.length_cons] at enough
      have read := parseValue_write readable a room reads.1 fuel
        (',' :: (layout.gap ++ (writeAll layout (b :: as) ++ rest))) (by omega)
        (.close _ (Or.inr (Or.inr rfl)))
      have more := parseItems_write readable b as room reads.2 fuel rest (by omega)
      simp only [writeAll, List.append_assoc, List.cons_append, parseItems, read, ok_bind,
        skipSpace_of_head _ (show isJsonSpace ',' = false by decide), readable.skipSpace_gap,
        reads.2.skipSpace, more]
      rfl

theorem parseFields_write (readable : Readable layout) : ∀ (k : String) (a : Json)
    (as : List (String × Json)) (room : Option Nat), ReadsFields hooks room ((k, a) :: as) →
      ∀ (fuel : Nat) (rest : List Char), (writeFields layout ((k, a) :: as)).length ≤ fuel →
      parseFields hooks room fuel (writeFields layout ((k, a) :: as) ++ rest) =
        .ok (ofFields ((k, a) :: as), rest)
  | k, a, as, room, reads, 0, rest, enough => by
      cases as <;> simp [writeFields] at enough
  | k, a, [], room, reads, fuel + 1, rest, enough => by
      rw [ReadsFields] at reads
      simp only [writeFields, List.length_append, List.length_cons, List.length_nil] at enough
      obtain ⟨more, opened, key⟩ := parseString_of_quoted readable k
        (':' :: (layout.gap ++ (write layout a ++ '}' :: rest))) fuel (by omega)
      have read := parseValue_write readable a room reads.1 fuel ('}' :: rest) (by omega)
        (.close rest (Or.inr (Or.inl rfl)))
      simp only [writeFields, List.append_assoc, List.cons_append, List.nil_append, opened,
        parseFields, key, wellFormed, ok_bind,
        skipSpace_of_head _ (show isJsonSpace ':' = false by decide), readable.skipSpace_gap,
        reads.1.skipSpace, read, skipSpace_of_head _ (show isJsonSpace '}' = false by decide)]
      rfl
  | k, a, (l, b) :: as, room, reads, fuel + 1, rest, enough => by
      rw [ReadsFields] at reads
      simp only [writeFields, List.length_append, List.length_cons] at enough
      obtain ⟨more, opened, key⟩ := parseString_of_quoted readable k
        (':' :: (layout.gap ++ (write layout a ++
          (',' :: (layout.gap ++ (writeFields layout ((l, b) :: as) ++ rest))))))
        fuel (by omega)
      have read := parseValue_write readable a room reads.1 fuel
        (',' :: (layout.gap ++ (writeFields layout ((l, b) :: as) ++ rest))) (by omega)
        (.close _ (Or.inr (Or.inr rfl)))
      have later := parseFields_write readable l b as room reads.2 fuel rest (by omega)
      have unspaced : skipSpace (writeFields layout ((l, b) :: as) ++ rest) =
          writeFields layout ((l, b) :: as) ++ rest := by
        cases as <;> exact skipSpace_of_head _ (by decide)
      rw [writeFields]
      simp only [List.append_assoc, List.cons_append, opened, parseFields, key, wellFormed, ok_bind,
        skipSpace_of_head _ (show isJsonSpace ':' = false by decide), readable.skipSpace_gap,
        reads.1.skipSpace, read, skipSpace_of_head _ (show isJsonSpace ',' = false by decide),
        unspaced, later]
      rfl

end

/-- `json.loads` reads a written text as the value that it came from. -/
theorem loads_write (readable : Readable layout) {a : Json} (reads : Reads hooks room a)
    {blank : List Char} (blanks : ∀ c ∈ blank, isJsonSpace c = true) :
    loads hooks room (write layout a ++ blank) = .ok (ofJson a) := by
  have nothing : skipSpace blank = [] := List.dropWhile_eq_nil_iff.mpr blanks
  have ends : NumberEnd blank := by
    intro c first
    have space := blanks c (List.mem_of_mem_head? first)
    simp only [isJsonSpace, Bool.or_eq_true, decide_eq_true_eq] at space
    rcases space with ((rfl | rfl) | rfl) | rfl <;> decide
  have read := parseValue_write readable a room reads (2 * (write layout a ++ blank).length + 2)
    blank (by rw [List.length_append]; omega) ends
  rw [loads, reads.skipSpace, read, ok_bind]
  simp [nothing, pure, Except.pure]

end RoundTrip

section Depth

open Json

variable [Floats]

/-- A text that opens more arrays than the stack takes is refused for its depth, whatever follows. -/
theorem parseValue_deep (hooks : Hooks) (more : List Char) : ∀ (stack fuel : Nat), 2 * stack < fuel →
    parseValue hooks (some stack) fuel (List.replicate (stack + 1) '[' ++ more) = .error .recursion
  | _, 0, enough => by omega
  | 0, fuel + 1, _ => rfl
  | stack + 1, 1, enough => by omega
  | stack + 1, fuel + 2, enough => by
      have deep := parseValue_deep hooks more stack fuel (by omega)
      rw [List.replicate_succ, List.cons_append] at deep ⊢
      rw [parseValue, inner, ok_bind, List.replicate_succ, List.cons_append,
        skipSpace_of_head _ (by decide)]
      split
      · rename_i closed
        cases closed
      · rw [parseItems, deep]
        rfl

/-- Every nesting past the limit raises `RecursionError`, closed or not. -/
theorem loads_deep (hooks : Hooks) {stack n : Nat} (deep : stack < n) (more : List Char) :
    loads hooks (some stack) (List.replicate n '[' ++ more) = .error .recursion := by
  obtain ⟨k, rfl⟩ := Nat.exists_eq_add_of_lt deep
  have split : List.replicate (stack + k + 1) '[' ++ more =
      List.replicate (stack + 1) '[' ++ (List.replicate k '[' ++ more) := by
    rw [← List.append_assoc, List.replicate_append_replicate]
    congr 2
    omega
  have bracket : skipSpace (List.replicate (stack + k + 1) '[' ++ more) =
      List.replicate (stack + k + 1) '[' ++ more := by
    rw [List.replicate_succ, List.cons_append, skipSpace_of_head _ (by decide)]
  rw [loads, bracket, split, parseValue_deep]
  · rfl
  · simp only [List.length_append, List.length_replicate]
    omega

end Depth

end Loaded

namespace Json

variable [Floats]

/-- `json.loads(text)`; `none` where it raises. A text with a surrogate escape that stands alone is
outside this model, and refused too. -/
def loads (text : List Char) : Option Json :=
  match Loaded.loads .plain none text with
  | .ok value => value.json?
  | .error _ => none

mutual

theorem reads_of_plain : ∀ a : Json, Plain a → Loaded.Reads .plain none a
  | .null, _ | .bool _, _ | .int _, _ | .str _, _ => by simp [Loaded.Reads]
  | .float f, plain => by
      rw [Plain] at plain
      exact ⟨plain, fun refused => by cases refused⟩
  | .arr items, plain => by
      rw [Plain] at plain
      exact ⟨none, rfl, readsAll_of_plain items plain⟩
  | .obj items, plain => by
      rw [Plain] at plain
      refine ⟨none, rfl, ?_, readsFields_of_plain items plain.2⟩
      exact congrArg some (Dict.entries_ofList (Loaded.nodup_keys_ofFields plain.1))

theorem readsAll_of_plain : ∀ as : List Json, PlainAll as → Loaded.ReadsAll .plain none as
  | [], _ => by simp [Loaded.ReadsAll]
  | a :: as, plain => by
      rw [PlainAll] at plain
      exact ⟨reads_of_plain a plain.1, readsAll_of_plain as plain.2⟩

theorem readsFields_of_plain : ∀ as : List (String × Json), PlainFields as →
    Loaded.ReadsFields .plain none as
  | [], _ => by simp [Loaded.ReadsFields]
  | (k, a) :: as, plain => by
      rw [PlainFields] at plain
      exact ⟨reads_of_plain a plain.1, readsFields_of_plain as plain.2⟩

end

/-- `json.loads` inverts `json.dumps`, up to the order of keys. -/
theorem loads_dumps {a : Json} (plain : Plain a) : loads (dumps a) = some a.sortKeys := by
  have sorted := reads_of_plain a.sortKeys (plain_sortKeys a plain)
  have read := Loaded.loads_write Loaded.readable_spaced sorted (List.forall_mem_nil _)
  rw [List.append_nil] at read
  rw [loads, dumps, read]
  exact Loaded.json?_ofJson a.sortKeys

end Json

end Cinegraph.Library
