import SchemaRename.Text.Category

/-!
# Quoted Text

How a message shows a piece of input between quotation marks.

A message that names an unknown entity or a misplaced attribute quotes it, so
that blanks and control characters in it can be seen. The quote and the
backslash are escaped, four control characters have short names, and every
character that would not show, or that would join the character before it,
is written as its code point.

## Main definitions

* `quoted`: A text in quotation marks, escaped.
* `isShown`: Whether a character stands for itself inside the marks.
-/

namespace SchemaRename.Text

/-- Whether a character is visible on its own: no control, format, surrogate,
    private or unassigned character, no separator but the space, and nothing
    that extends the character before it. -/
def isShown (c : Char) : Bool :=
  c == ' ' || !((category c).isOther || (category c).isSeparator || isGraphemeExtend c)

/-- A character as it stands between the quotation marks. -/
def quotedChar (c : Char) : List Char :=
  if c == '"' then ['\\', '"']
  else if c == '\\' then ['\\', '\\']
  else if c == '\n' then ['\\', 'n']
  else if c == '\r' then ['\\', 'r']
  else if c == '\t' then ['\\', 't']
  else if c.toNat == 0 then ['\\', '0']
  else if isShown c then [c]
  else "\\u\x7b".toList ++ Nat.toDigits 16 c.toNat ++ "\x7d".toList

/-- A text in quotation marks, escaped. -/
def quoted (s : List Char) : List Char :=
  '"' :: s.flatMap quotedChar ++ ['"']

end SchemaRename.Text
