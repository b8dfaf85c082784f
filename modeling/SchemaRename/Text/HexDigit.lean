/-!
# Hexadecimal Digits

The sixteen digits, in both directions.

Escapes of all the formats the tool reads give code points in hexadecimal.
Capitals and small letters count alike when a digit is read; a digit that is
written is a small letter.

## Main definitions

* `hexDigit?`: The value of a digit.
* `hexDigit`: The digit of a value below sixteen.

## Theorems

* `hexDigit?_hexDigit`: A digit that is written has the value it is written
  for.
-/

namespace SchemaRename.Text

/-- The value of a hexadecimal digit. -/
def hexDigit? (c : Char) : Option Nat :=
  if c.isDigit then some (c.toNat - '0'.toNat)
  else if 'a' ≤ c && c ≤ 'f' then some (c.toNat - 'a'.toNat + 10)
  else if 'A' ≤ c && c ≤ 'F' then some (c.toNat - 'A'.toNat + 10)
  else none

/-- The digit of a value below sixteen. -/
def hexDigit (n : Nat) : Char :=
  if n < 10 then Char.ofNat ('0'.toNat + n) else Char.ofNat ('a'.toNat + (n - 10))

/-- A digit that is written has the value it is written for. -/
theorem hexDigit?_hexDigit : ∀ n < 16, hexDigit? (hexDigit n) = some n := by
  decide

end SchemaRename.Text
