/-!
# Blank Characters

Which characters count as blank, and how a text loses the blanks around it.

Three decisions of the tool rest on this class: whether a name in the rename
map is missing, whether a source line is a comment, and where one fetch
expression of a comma-separated list starts and ends. All three use the
Unicode property `White_Space`, which is wider than the blanks a source
language accepts (a no-break space is blank) and narrower than what a reader
may expect (a zero-width space is not).

Texts are lists of characters here, as in every algorithm of the library: a
position in a text is then a suffix of a list, and nothing has to be said
about bytes until a position is reported.

## Main definitions

* `isBlank`: The characters with the property `White_Space`.
* `trimStart`, `trimEnd`, `trim`: A text without the blanks at its ends.

## Theorems

* `trimStart_append_of_not_isBlank`: Trimming stops at the first character
  that is not blank.
-/

namespace SchemaRename.Text

/-- The Unicode property `White_Space`. -/
def isBlank (c : Char) : Bool :=
  let n := c.toNat
  (0x09 ≤ n && n ≤ 0x0D) || n == 0x20 || n == 0x85 || n == 0xA0 || n == 0x1680 ||
    (0x2000 ≤ n && n ≤ 0x200A) || n == 0x2028 || n == 0x2029 || n == 0x202F ||
    n == 0x205F || n == 0x3000

/-- A text without its leading blanks. -/
def trimStart (s : List Char) : List Char :=
  s.dropWhile isBlank

/-- A text without its trailing blanks. -/
def trimEnd (s : List Char) : List Char :=
  (s.reverse.dropWhile isBlank).reverse

/-- A text without the blanks at both ends. -/
def trim (s : List Char) : List Char :=
  trimEnd (trimStart s)

/-- Leading blanks go, and the first character that is not blank stays with
    everything behind it. -/
theorem trimStart_append_of_not_isBlank {c : Char} (hc : isBlank c = false) (r : List Char) :
    trimStart (c :: r) = c :: r := by
  simp [trimStart, hc]

end SchemaRename.Text
