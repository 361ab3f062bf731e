import Cinegraph.Library.JsonText

/-!
The compact ASCII text of a JSON value: no blanks behind separators and every
character outside the printable ASCII range as an escape.
-/

namespace Cinegraph.Library.Json

/-- `\u` and the four hexadecimal digits of a code unit. -/
def escapeUnit (unit : Nat) : List Char := '\\' :: 'u' :: (toDigits 16 4 unit).map UUID.hexChar

/-- One character of an ASCII string literal; beyond the basic plane a surrogate pair. -/
def escapeAscii (c : Char) : List Char :=
  if c = '"' then ['\\', '"']
  else if c = '\\' then ['\\', '\\']
  else if c = '\n' then ['\\', 'n']
  else if c = '\r' then ['\\', 'r']
  else if c = '\t' then ['\\', 't']
  else if c.toNat = 8 then ['\\', 'b']
  else if c.toNat = 12 then ['\\', 'f']
  else if 32 ≤ c.toNat ∧ c.toNat ≤ 126 then [c]
  else if c.toNat < 0x10000 then escapeUnit c.toNat
  else
    escapeUnit (0xD800 + (c.toNat - 0x10000) / 0x400) ++
      escapeUnit (0xDC00 + (c.toNat - 0x10000) % 0x400)

/-- `json.dumps(value)` without blanks. -/
def Layout.compact : Layout := ⟨escapeAscii, []⟩

/-- `json.dumps(value, sort_keys=True, separators=(",", ":"))` -/
def compactDumps [Floats] (value : Json) : List Char := write .compact value.sortKeys

end Cinegraph.Library.Json
