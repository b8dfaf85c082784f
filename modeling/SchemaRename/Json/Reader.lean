import SchemaRename.Json.Basic
import SchemaRename.Text.HexDigit

/-!
# Reading JSON

A value from text.

The reader accepts the format and nothing beside it: no comments, no trailing
commas, no leading zeros, no control characters in strings, no byte order
mark, and only space, tab, carriage return and line feed between tokens.

A string is read in two steps. The first one finds its end and the escapes in
it, which is what well-formedness asks for; the second one joins surrogate
halves and may find that the string stands for no text.

## Main definitions

* `Json.Fault`: Why a text is not a value, or not the value asked for.
* `Json.parse`: The value that a text stands for.
-/

namespace SchemaRename.Json

/-- Why a text is not a JSON value, or a value not of the form asked for. -/
inductive Fault where
  | unexpectedEnd
  | unexpectedChar (c : Char)
  | badEscape
  | controlChar
  | trailing
  | wrongType (expected : String)
  | halfSurrogate
  | repeatedKey (key : String)
  | missingKey (key : String)
  | surplusItems
deriving Repr, DecidableEq

/-- What is wrong, in words. -/
def Fault.message : Fault → String
  | .unexpectedEnd => "unexpected end of the document"
  | .unexpectedChar c => "unexpected character '" ++ String.ofList [c] ++ "'"
  | .badEscape => "invalid escape"
  | .controlChar => "control character in a string"
  | .trailing => "trailing characters"
  | .wrongType expected => "invalid type: expected " ++ expected
  | .halfSurrogate => "lone surrogate in a string"
  | .repeatedKey key => "duplicate field '" ++ key ++ "'"
  | .missingKey key => "missing field '" ++ key ++ "'"
  | .surplusItems => "trailing characters in an array"

/-- The blanks that may stand between tokens. -/
def isGap (c : Char) : Bool :=
  c == ' ' || c == '\n' || c == '\t' || c == '\r'

/-- A text behind the blanks in front of it. -/
def skipGap (s : List Char) : List Char :=
  s.dropWhile isGap

/-- The unit that four hexadecimal digits stand for. -/
def unitOfHex? (a b c d : Char) : Option Nat := do
  let a ← Text.hexDigit? a
  let b ← Text.hexDigit? b
  let c ← Text.hexDigit? c
  let d ← Text.hexDigit? d
  return ((a * 16 + b) * 16 + c) * 16 + d

/-- The character that a short escape stands for. -/
def shortEscape? : Char → Option Char
  | '"' => some '"'
  | '\\' => some '\\'
  | '/' => some '/'
  | 'b' => some '\x08'
  | 'f' => some '\x0c'
  | 'n' => some '\n'
  | 'r' => some '\r'
  | 't' => some '\t'
  | _ => none

/-- A part of a string: a character, or one 16-bit unit given by its digits. -/
inductive Part where
  | char (c : Char)
  | unit (n : Nat)
deriving Repr, DecidableEq

/-- The parts of a string up to its closing quotation mark. -/
def readParts : List Char → Except Fault (List Part × List Char)
  | [] => .error .unexpectedEnd
  | '"' :: rest => .ok ([], rest)
  | '\\' :: 'u' :: a :: b :: c :: d :: rest =>
    match unitOfHex? a b c d with
    | none => .error .badEscape
    | some n => do
      let (parts, rest) ← readParts rest
      return (.unit n :: parts, rest)
  | '\\' :: e :: rest =>
    match shortEscape? e with
    | none => .error .badEscape
    | some c => do
      let (parts, rest) ← readParts rest
      return (.char c :: parts, rest)
  | c :: rest =>
    if c == '\\' then .error .unexpectedEnd
    else if c.toNat < 0x20 then .error .controlChar
    else do
      let (parts, rest) ← readParts rest
      return (.char c :: parts, rest)

/-- Whether a unit is the first half of a surrogate pair. -/
def isHighHalf (n : Nat) : Bool :=
  0xD800 ≤ n && n ≤ 0xDBFF

/-- Whether a unit is the second half of a surrogate pair. -/
def isLowHalf (n : Nat) : Bool :=
  0xDC00 ≤ n && n ≤ 0xDFFF

/-- The text that the parts of a string stand for; none if half of a pair
    stands alone. -/
def joinParts : List Part → Option (List Char)
  | [] => some []
  | .char c :: rest => (joinParts rest).map (c :: ·)
  | .unit high :: .unit low :: rest =>
    if isHighHalf high then
      if isLowHalf low then
        let code := 0x10000 + (high - 0xD800) * 0x400 + (low - 0xDC00)
        (joinParts rest).map (Char.ofNat code :: ·)
      else none
    else if isLowHalf high then none
    else (joinParts (.unit low :: rest)).map (Char.ofNat high :: ·)
  | .unit n :: rest =>
    if isHighHalf n || isLowHalf n then none else (joinParts rest).map (Char.ofNat n :: ·)

/-- A string behind its opening quotation mark. -/
def readString (s : List Char) : Except Fault (Option String × List Char) := do
  let (parts, rest) ← readParts s
  return ((joinParts parts).map String.ofList, rest)

/-- One or more digits. -/
def readDigits (s : List Char) : Except Fault (List Char × List Char) :=
  let digits := s.takeWhile Char.isDigit
  if digits.isEmpty then
    match s with
    | [] => .error .unexpectedEnd
    | c :: _ => .error (.unexpectedChar c)
  else .ok (digits, s.dropWhile Char.isDigit)

/-- The digits before the point: a zero stands alone. -/
def readWhole : List Char → Except Fault (List Char × List Char)
  | '0' :: rest =>
    match rest with
    | c :: _ => if c.isDigit then .error (.unexpectedChar c) else .ok (['0'], rest)
    | [] => .ok (['0'], rest)
  | s => readDigits s

/-- The digits behind the point, if there is one. -/
def readFraction : List Char → Except Fault (List Char × List Char)
  | '.' :: rest => do
    let (digits, rest) ← readDigits rest
    return ('.' :: digits, rest)
  | s => .ok ([], s)

/-- The exponent, if there is one. -/
def readExponent : List Char → Except Fault (List Char × List Char)
  | e :: rest =>
    if e == 'e' || e == 'E' then
      let (sign, rest) :=
        match rest with
        | '+' :: more => (['+'], more)
        | '-' :: more => (['-'], more)
        | _ => ([], rest)
      do
        let (digits, rest) ← readDigits rest
        return (e :: sign ++ digits, rest)
    else .ok ([], e :: rest)
  | [] => .ok ([], [])

/-- A number, by its characters. -/
def readNumber (s : List Char) : Except Fault (List Char × List Char) := do
  let (sign, rest) :=
    match s with
    | '-' :: more => (['-'], more)
    | _ => ([], s)
  let (whole, rest) ← readWhole rest
  let (fraction, rest) ← readFraction rest
  let (exponent, rest) ← readExponent rest
  return (sign ++ whole ++ fraction ++ exponent, rest)

mutual

/-- A value, with the blanks in front of it. The fuel bounds the nesting and
    the number of items on the way; the length of the text is always
    enough. -/
def readValue : Nat → List Char → Except Fault (Json × List Char)
  | 0, _ => .error .unexpectedEnd
  | fuel + 1, s =>
    match skipGap s with
    | [] => .error .unexpectedEnd
    | 'n' :: 'u' :: 'l' :: 'l' :: rest => .ok (.null, rest)
    | 't' :: 'r' :: 'u' :: 'e' :: rest => .ok (.bool true, rest)
    | 'f' :: 'a' :: 'l' :: 's' :: 'e' :: rest => .ok (.bool false, rest)
    | '"' :: rest => do
      let (text, rest) ← readString rest
      return (.string text, rest)
    | '[' :: rest =>
      match skipGap rest with
      | ']' :: rest => .ok (.array [], rest)
      | rest => do
        let (item, rest) ← readValue fuel rest
        let (items, rest) ← readItems fuel rest
        return (.array (item :: items), rest)
    | '\x7b' :: rest =>
      match skipGap rest with
      | '\x7d' :: rest => .ok (.object [], rest)
      | rest => do
        let (member, rest) ← readMember fuel rest
        let (members, rest) ← readMembers fuel rest
        return (.object (member :: members), rest)
    | c :: rest =>
      if c == '-' || c.isDigit then do
        let (literal, rest) ← readNumber (c :: rest)
        return (.number (String.ofList literal), rest)
      else .error (.unexpectedChar c)

/-- The items behind the first one, up to the closing bracket. -/
def readItems : Nat → List Char → Except Fault (List Json × List Char)
  | 0, _ => .error .unexpectedEnd
  | fuel + 1, s =>
    match skipGap s with
    | [] => .error .unexpectedEnd
    | ']' :: rest => .ok ([], rest)
    | ',' :: rest => do
      let (item, rest) ← readValue fuel rest
      let (items, rest) ← readItems fuel rest
      return (item :: items, rest)
    | c :: _ => .error (.unexpectedChar c)

/-- A member: a key, a colon and a value. -/
def readMember : Nat → List Char → Except Fault ((Option String × Json) × List Char)
  | 0, _ => .error .unexpectedEnd
  | fuel + 1, s =>
    match skipGap s with
    | [] => .error .unexpectedEnd
    | '"' :: rest => do
      let (key, rest) ← readString rest
      match skipGap rest with
      | ':' :: rest => do
        let (value, rest) ← readValue fuel rest
        return ((key, value), rest)
      | c :: _ => .error (.unexpectedChar c)
      | [] => .error .unexpectedEnd
    | c :: _ => .error (.unexpectedChar c)

/-- The members behind the first one, up to the closing brace. -/
def readMembers : Nat → List Char → Except Fault (List (Option String × Json) × List Char)
  | 0, _ => .error .unexpectedEnd
  | fuel + 1, s =>
    match skipGap s with
    | [] => .error .unexpectedEnd
    | '\x7d' :: rest => .ok ([], rest)
    | ',' :: rest => do
      let (member, rest) ← readMember fuel rest
      let (members, rest) ← readMembers fuel rest
      return (member :: members, rest)
    | c :: _ => .error (.unexpectedChar c)

end

/-- The value that a text stands for, with nothing but blanks around it. -/
def parse (text : String) : Except Fault Json := do
  let s := text.toList
  let (value, rest) ← readValue (2 * s.length + 2) s
  if (skipGap rest).isEmpty then return value else throw .trailing

end SchemaRename.Json
