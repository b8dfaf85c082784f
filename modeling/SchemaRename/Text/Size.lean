/-!
# Sizes in Bytes

How long a text is when it is stored.

Texts are lists of characters in this library, but positions in messages
count the bytes of the stored form. The size of a text is the sum of the
sizes of its characters, so an offset is the difference of two sizes, and no
function has to carry one along.

## Main definitions

* `byteSize`: The number of bytes of a text.
* `firstByte`: The first byte of a character, as the character it would be on
  its own.

## Theorems

* `byteSize_append`: Sizes add up.
-/

namespace SchemaRename.Text

/-- The number of bytes of a text. -/
def byteSize (s : List Char) : Nat :=
  s.foldr (fun c n => c.utf8Size + n) 0

/-- The first byte of a character, taken for a character itself. -/
def firstByte (c : Char) : Char :=
  let n := c.toNat
  if n < 0x80 then c
  else if n < 0x800 then Char.ofNat (0xC0 + n / 0x40)
  else if n < 0x10000 then Char.ofNat (0xE0 + n / 0x1000)
  else Char.ofNat (0xF0 + n / 0x40000)

theorem byteSize_nil : byteSize [] = 0 := rfl

theorem byteSize_cons (c : Char) (s : List Char) : byteSize (c :: s) = c.utf8Size + byteSize s :=
  rfl

/-- Sizes add up. -/
theorem byteSize_append (s t : List Char) : byteSize (s ++ t) = byteSize s + byteSize t := by
  induction s with
  | nil => simp [byteSize_nil]
  | cons c s ih => simp only [List.cons_append, byteSize_cons, ih]; omega

end SchemaRename.Text
