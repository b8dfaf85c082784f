import SchemaRename.Text.HexDigit
import SchemaRename.Text.Quoted
import SchemaRename.Text.Size

/-!
# Character References

How a document writes the characters that have a meaning of their own.

Text and attribute values write five characters by name. Reading knows the
same five names and any character by its number. Everything else between an
ampersand and a semicolon is refused, and so is an ampersand without one.

## Main definitions

* `Markup.escape`: A text as it is written in a document.
* `Markup.unescape`: The text that a written one stands for.
* `EntityFault`: Why a written text stands for nothing.
-/

namespace SchemaRename.Markup

open SchemaRename.Text

/-- A character as it is written. -/
def escapeChar (c : Char) : List Char :=
  if c == '<' then "&lt;".toList
  else if c == '>' then "&gt;".toList
  else if c == '&' then "&amp;".toList
  else if c == '\'' then "&apos;".toList
  else if c == '"' then "&quot;".toList
  else [c]

/-- A text as it is written in a document. -/
def escape (s : List Char) : List Char :=
  s.flatMap escapeChar

/-- Why a written text stands for nothing. Ranges are in bytes. -/
inductive EntityFault where
  | unterminated (start stop : Nat)
  | unknown (start stop : Nat) (name : List Char)
  | null (start stop : Nat)
  | hexTooLong
  | hexDigit (c : Char)
  | decimalTooLong
  | decimalDigit (c : Char)
  | codePoint (n : Nat)
deriving Repr, DecidableEq

/-- The fault in words. -/
def EntityFault.message : EntityFault → String
  | .unterminated start stop =>
    at_ start stop ++ "Cannot find ';' after '&'"
  | .unknown start stop name =>
    at_ start stop ++ "Unrecognized escape symbol: " ++ String.ofList (quoted name)
  | .null start stop => at_ start stop ++ "Null character entity not allowed"
  | .hexTooLong => "Cannot convert hexadecimal to utf8"
  | .hexDigit c => "'" ++ String.ofList [c] ++ "' is not a valid hexadecimal character"
  | .decimalTooLong => "Cannot convert decimal to utf8"
  | .decimalDigit c => "'" ++ String.ofList [c] ++ "' is not a valid decimal character"
  | .codePoint n => "'" ++ toString n ++ "' is not a valid codepoint"
where
  /-- The part of a message that names the place. -/
  at_ (start stop : Nat) : String :=
    "Error while escaping character at range " ++ toString start ++ ".." ++ toString stop ++ ": "

/-- The value of a decimal digit. -/
def decimalDigit? (c : Char) : Option Nat :=
  if c.isDigit then some (c.toNat - '0'.toNat) else none

/-- The number that digits stand for. A character that is no digit is named by
    its first byte. -/
def readDigits (base : Nat) (digit? : Char → Option Nat) (bad : Char → EntityFault) (n : Nat) :
    List Char → Except EntityFault Nat
  | [] => .ok n
  | c :: rest =>
    match digit? c with
    | some d => readDigits base digit? bad (base * n + d) rest
    | none => .error (bad (firstByte c))

/-- The code point behind a number sign: hexadecimal digits behind an `x`,
    decimal digits otherwise, and no more of them than the greatest code point
    has. -/
def readCode (s : List Char) : Except EntityFault Nat :=
  match s with
  | 'x' :: digits =>
    if 6 < byteSize digits then .error .hexTooLong else readDigits 16 hexDigit? .hexDigit 0 digits
  | digits =>
    if 7 < byteSize digits then .error .decimalTooLong
    else readDigits 10 decimalDigit? .decimalDigit 0 digits

/-- The character that a name between ampersand and semicolon stands for. -/
def namedEntity? (name : List Char) : Option Char :=
  match String.ofList name with
  | "lt" => some '<'
  | "gt" => some '>'
  | "amp" => some '&'
  | "apos" => some '\''
  | "quot" => some '"'
  | _ => none

/-- The character that a reference stands for, given the text between its
    ampersand and its semicolon and the offsets of the two. -/
def resolveEntity (start stop : Nat) (body : List Char) : Except EntityFault Char :=
  match body with
  | '#' :: digits => do
    let n ← readCode digits
    if n == 0 then throw (.null start stop)
    else if n.isValidChar then return Char.ofNat n
    else throw (.codePoint n)
  | name =>
    match namedEntity? name with
    | some c => .ok c
    | none => .error (.unknown (start + 1) stop name)

/-- Reads a text from an offset on. `pending` is the reference that is open:
    its offset and what has been read of it, last character first. -/
def unescapeFrom (total : Nat) (offset : Nat) (pending : Option (Nat × List Char)) :
    List Char → Except EntityFault (List Char)
  | [] =>
    match pending with
    | none => .ok []
    | some (start, _) => .error (.unterminated start total)
  | c :: rest =>
    let next := offset + c.utf8Size
    match pending with
    | none =>
      if c == '&' then unescapeFrom total next (some (offset, [])) rest
      else (unescapeFrom total next none rest).map (c :: ·)
    | some (start, body) =>
      if c == ';' then
        match resolveEntity start offset body.reverse with
        | .error fault => .error fault
        | .ok d => (unescapeFrom total next none rest).map (d :: ·)
      else if c == '&' then .error (.unterminated start total)
      else unescapeFrom total next (some (start, c :: body)) rest

/-- The text that a written one stands for. -/
def unescape (s : List Char) : Except EntityFault (List Char) :=
  unescapeFrom (byteSize s) 0 none s

end SchemaRename.Markup
