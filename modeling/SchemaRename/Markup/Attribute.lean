import SchemaRename.Text.Size

/-!
# Attributes

The pairs of key and value inside a tag.

A key is whatever runs up to an equals sign or a blank, and a value stands in
single or double quotes; no blank is needed between one value and the next
key. Attributes are listed in order until something is wrong. What was listed
before still counts: a fault in a value further left is reported first.

Positions are offsets in the tag. They are differences of sizes: the size of
the whole tag less the size of what has not been read.

## Main definitions

* `isSpace`: The blanks of markup.
* `RawAttribute`: An attribute as it is written.
* `AttributeFault`: What is wrong with an attribute.
* `listAttributes`: The attributes of a tag up to the first fault.
-/

namespace SchemaRename.Markup

open SchemaRename.Text

/-- The blanks of markup. -/
def isSpace (c : Char) : Bool :=
  c == ' ' || c == '\t' || c == '\r' || c == '\n'

/-- An attribute as it is written, with the position of its key. -/
structure RawAttribute where
  key : List Char
  position : Nat
  value : List Char
deriving Repr, DecidableEq

/-- What is wrong with an attribute, and where. -/
inductive AttributeFault where
  | noEquals (position : Nat)
  | noValue (position : Nat)
  | unquoted (position : Nat)
  | unclosed (position : Nat) (quote : Char)
  | duplicate (position previous : Nat)
deriving Repr, DecidableEq

/-- The fault in words. -/
def AttributeFault.message : AttributeFault → String
  | .noEquals p =>
    "position " ++ toString p ++
      ": attribute key must be directly followed by \x60=\x60 or space"
  | .noValue p =>
    "position " ++ toString p ++ ": \x60=\x60 must be followed by an attribute value"
  | .unquoted p =>
    "position " ++ toString p ++
      ": attribute value must be enclosed in \x60\"\x60 or \x60'\x60"
  | .unclosed p quote =>
    "position " ++ toString p ++ ": missing closing quote \x60" ++ String.ofList [quote] ++
      "\x60 in attribute value"
  | .duplicate p previous =>
    "position " ++ toString p ++ ": duplicated attribute, previous declaration at position " ++
      toString previous

/-- Reads the value behind an equals sign. `position` gives the place of what
    is left to read. -/
def readValue (position : List Char → Nat) (s : List Char) :
    Except AttributeFault (List Char × List Char) :=
  match s.dropWhile isSpace with
  | [] => .error (.noValue (position []))
  | quote :: rest =>
    if quote == '"' || quote == '\'' then
      match rest.dropWhile (· != quote) with
      | [] => .error (.unclosed (position []) quote)
      | _ :: after => .ok (rest.takeWhile (· != quote), after)
    else .error (.unquoted (position (quote :: rest)))

/-- The rest of a key behind its first character, and what follows the equals
    sign. -/
def readKey (position : List Char → Nat) (s : List Char) :
    Except AttributeFault (List Char × List Char) :=
  let ends (c : Char) := c == '=' || isSpace c
  match (s.dropWhile fun c => !ends c).dropWhile isSpace with
  | '=' :: rest => .ok (s.takeWhile (fun c => !ends c), rest)
  | rest => .error (.noEquals (position rest))

/-- Attributes in order, and the fault that ended them. -/
structure Listing where
  attributes : List RawAttribute
  fault : Option AttributeFault
deriving Repr, DecidableEq

/-- Lists attributes from the given text on. `seen` holds the keys so far when
    each of them may occur only once. Every round reads at least a key. -/
def listFrom (position : List Char → Nat) (once : Bool) :
    Nat → List (List Char × Nat) → List Char → Listing
  | 0, _, _ => ⟨[], none⟩
  | fuel + 1, seen, s =>
    match s.dropWhile isSpace with
    | [] => ⟨[], none⟩
    | first :: rest =>
      let place := position (first :: rest)
      match readKey position rest with
      | .error fault => ⟨[], some fault⟩
      | .ok (more, rest) =>
        let key := first :: more
        match if once then seen.lookup key else none with
        | some previous => ⟨[], some (.duplicate place previous)⟩
        | none =>
          match readValue position rest with
          | .error fault => ⟨[], some fault⟩
          | .ok (value, rest) =>
            let listed := listFrom position once fuel ((key, place) :: seen) rest
            { listed with attributes := ⟨key, place, value⟩ :: listed.attributes }

/-- The attributes of a tag behind its name. `once` says whether a key may
    occur only once. -/
def listAttributes (once : Bool) (tag : List Char) (nameLength : Nat) : Listing :=
  let total := byteSize tag
  listFrom (fun rest => total - byteSize rest) once tag.length [] (tag.drop nameLength)

end SchemaRename.Markup
