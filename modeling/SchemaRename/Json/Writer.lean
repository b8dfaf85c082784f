import SchemaRename.Json.Basic
import SchemaRename.Text.HexDigit

/-!
# Writing JSON

A value as text.

Strings are written as they are, apart from the quotation mark, the backslash
and the control characters: these have short escapes where the format gives
one and four hexadecimal digits otherwise. There are two layouts. The compact
one puts nothing between the tokens; the indented one gives every item and
every member a line of its own, two spaces deeper than the line that opens
it.

## Main definitions

* `Json.compact`: A value on one line.
* `Json.indented`: A value over several lines.
* `Json.sortKeys`: A value with the members of each object in key order.
-/

namespace SchemaRename.Json

/-- A character as it is written in a string. -/
def escapeChar (c : Char) : List Char :=
  if c == '"' then ['\\', '"']
  else if c == '\\' then ['\\', '\\']
  else if c == '\n' then ['\\', 'n']
  else if c == '\r' then ['\\', 'r']
  else if c == '\t' then ['\\', 't']
  else if c == '\x08' then ['\\', 'b']
  else if c == '\x0c' then ['\\', 'f']
  else if c.toNat < 0x20 then
    ['\\', 'u', '0', '0', Text.hexDigit (c.toNat / 16), Text.hexDigit (c.toNat % 16)]
  else [c]

/-- A text as a string in quotation marks. -/
def writeString (s : List Char) : List Char :=
  '"' :: s.flatMap escapeChar ++ ['"']

/-- A string. One that stands for no text is written as an escape that stands
    for none either. -/
def writeText : Option String → List Char
  | some s => writeString s.toList
  | none => "\"\\ud800\"".toList

mutual

/-- A value without blanks. -/
def writeCompact : Json → List Char
  | .null => "null".toList
  | .bool b => (if b then "true" else "false").toList
  | .number literal => literal.toList
  | .string text => writeText text
  | .array [] => ['[', ']']
  | .array (item :: items) => '[' :: writeCompact item ++ writeCompactItems items
  | .object [] => ['\x7b', '\x7d']
  | .object ((key, value) :: members) =>
    '\x7b' :: writeText key ++ ':' :: writeCompact value ++ writeCompactMembers members

/-- The items behind the first one, and the closing bracket. -/
def writeCompactItems : List Json → List Char
  | [] => [']']
  | item :: items => ',' :: writeCompact item ++ writeCompactItems items

/-- The members behind the first one, and the closing brace. -/
def writeCompactMembers : List (Option String × Json) → List Char
  | [] => ['\x7d']
  | (key, value) :: members =>
    ',' :: writeText key ++ ':' :: writeCompact value ++ writeCompactMembers members

end

/-- A value on one line. -/
def compact (v : Json) : String :=
  String.ofList (writeCompact v)

/-- A new line, indented to a depth. -/
def newline (depth : Nat) : List Char :=
  '\n' :: List.replicate (2 * depth) ' '

mutual

/-- A value over several lines, whose first line is `depth` deep. -/
def writeIndented (depth : Nat) : Json → List Char
  | .array (item :: items) =>
    '[' :: newline (depth + 1) ++ writeIndented (depth + 1) item ++
      writeIndentedItems depth items
  | .object ((key, value) :: members) =>
    '\x7b' :: newline (depth + 1) ++ writeText key ++ ": ".toList ++
      writeIndented (depth + 1) value ++ writeIndentedMembers depth members
  | .array [] => ['[', ']']
  | .object [] => ['\x7b', '\x7d']
  | .null => "null".toList
  | .bool b => (if b then "true" else "false").toList
  | .number literal => literal.toList
  | .string text => writeText text

/-- The items behind the first one, and the closing bracket. -/
def writeIndentedItems (depth : Nat) : List Json → List Char
  | [] => newline depth ++ [']']
  | item :: items =>
    ',' :: newline (depth + 1) ++ writeIndented (depth + 1) item ++
      writeIndentedItems depth items

/-- The members behind the first one, and the closing brace. -/
def writeIndentedMembers (depth : Nat) : List (Option String × Json) → List Char
  | [] => newline depth ++ ['\x7d']
  | (key, value) :: members =>
    ',' :: newline (depth + 1) ++ writeText key ++ ": ".toList ++
      writeIndented (depth + 1) value ++ writeIndentedMembers depth members

end

/-- A value over several lines. -/
def indented (v : Json) : String :=
  String.ofList (writeIndented 0 v)

mutual

/-- A value with the members of each object in key order. -/
def sortKeys : Json → Json
  | .array items => .array (sortItems items)
  | .object members =>
    .object ((sortMembers members).mergeSort fun a b => a.1.getD "" ≤ b.1.getD "")
  | v => v

/-- Every item with its objects in key order. -/
def sortItems : List Json → List Json
  | [] => []
  | item :: items => sortKeys item :: sortItems items

/-- Every member's value with its objects in key order. -/
def sortMembers : List (Option String × Json) → List (Option String × Json)
  | [] => []
  | (key, value) :: members => (key, sortKeys value) :: sortMembers members

end

end SchemaRename.Json
