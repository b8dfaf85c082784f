/-!
# JSON Values

The values of the format that rename maps and reports are written in.

A value keeps what the text says: members in the order in which they are
written, with repeated keys, and numbers as the characters they are written
with. Whether a repeated key is an error depends on who reads the object, so
it cannot be decided here.

A string may be well-formed and still stand for no text, when an escape names
one half of a surrogate pair and the other half does not follow. Such a
string is harmless in a part of a document that nobody reads, and an error
where a text is asked for. It is kept as `none`.

## Main definitions

* `Json`: The values of a document.
* `Json.str`, `Json.nat`, `Json.obj`: Values from the values of the library.
* `Json.get?`: The first member with a key.
-/

namespace SchemaRename

/-- The values of a JSON document. -/
inductive Json where
  | null
  | bool (b : Bool)
  /-- A number, by the characters it is written with. -/
  | number (literal : String)
  /-- A string; `none` when its escapes stand for no text. -/
  | string (text : Option String)
  | array (items : List Json)
  | object (members : List (Option String × Json))
deriving Repr, Inhabited

namespace Json

/-- The string with a given text. -/
def str (s : String) : Json :=
  .string (some s)

/-- A natural number in decimal digits. -/
def nat (n : Nat) : Json :=
  .number (String.ofList (Nat.toDigits 10 n))

/-- An object with given members. -/
def obj (members : List (String × Json)) : Json :=
  .object (members.map fun (key, value) => (some key, value))

/-- An array of strings. -/
def strs (items : List String) : Json :=
  .array (items.map .str)

/-- A member that is written only when there is a value for it. -/
def optional {α : Type} (key : String) (write : α → Json) (value : Option α) :
    List (String × Json) :=
  value.toList.map fun a => (key, write a)

/-- A list member that is written only when it has items. -/
def nonempty {α : Type} (key : String) (write : α → Json) (items : List α) :
    List (String × Json) :=
  if items.isEmpty then [] else [(key, .array (items.map write))]

/-- The first member with a key. -/
def get? (key : String) : Json → Option Json
  | .object members => members.lookup (some key)
  | _ => none

end Json

end SchemaRename
