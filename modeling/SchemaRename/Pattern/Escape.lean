import SchemaRename.Pattern.Flags
import SchemaRename.Text.HexDigit

/-!
# Escapes in Patterns

What a backslash in a pattern stands for, and how a text is written so that a
pattern takes it literally.

Rules are compiled from boundaries and identifiers that may hold any
character. Each of them is escaped before it enters a pattern, so that it
stands for itself there. The reader of escapes is the other direction: behind
a backslash a punctuation character stands for itself, a letter names a
class, an anchor or a control character, and any other letter is refused.

## Main definitions

* `isMeta`: The characters with a meaning of their own.
* `escape`: A text as a pattern that matches it literally.
* `Atom`: What one character or escape of a pattern stands for.
* `readEscape`: The atom behind a backslash.
* `skipBlank`: A pattern without leading blanks and comments.
-/

namespace SchemaRename.Pattern

open SchemaRename.Text

/-- The characters that mean something else than themselves in a pattern. -/
def isMeta (c : Char) : Bool :=
  match c with
  | '\\' | '.' | '+' | '*' | '?' | '(' | ')' | '|' | '[' | ']' | '\x7b' | '\x7d' | '^' | '$'
  | '#' | '&' | '-' | '~' => true
  | _ => false

/-- A text as a pattern that matches it literally. -/
def escape (text : List Char) : List Char :=
  text.flatMap fun c => if isMeta c then ['\\', c] else [c]

/-- Whether a character stands for itself behind a backslash: every ASCII
    character that is no letter, no digit and no angle bracket. -/
def isEscapable (c : Char) : Bool :=
  isMeta c || (c.toNat < 0x80 && !c.isAlphanum && c != '<' && c != '>')

/-- Drops blanks and comments; a comment runs from `#` to the end of its
    line. -/
def dropBlank (inComment : Bool) : List Char → List Char
  | [] => []
  | c :: rest =>
    if inComment then dropBlank (c != '\n') rest
    else if isBlank c then dropBlank false rest
    else if c == '#' then dropBlank true rest
    else c :: rest

/-- The pattern behind blanks and comments, in the mode that skips them. -/
def Flags.skipBlank (f : Flags) (s : List Char) : List Char :=
  if f.verbose then dropBlank false s else s

/-- What one character or one escape of a pattern stands for. -/
inductive Atom where
  | literal (c : Char)
  /-- A literal given by the two digits of a byte. -/
  | byte (c : Char)
  | class (s : CharSet)
  | anchor (a : Anchor)
deriving Repr, DecidableEq

/-- The character with a code point, if the code point has one. -/
def charOfCode? (n : Nat) : Option Char :=
  if n.isValidChar then some (Char.ofNat n) else none

/-- Reads exactly `count` hexadecimal digits onto the value so far. -/
def readHexDigits (f : Flags) : Nat → Nat → List Char → Except Cause (Char × List Char)
  | 0, value, s =>
    match charOfCode? value with
    | some c => .ok (c, s)
    | none => .error .hexInvalid
  | count + 1, value, s =>
    match s with
    | [] => .error .escapeUnclosed
    | d :: rest =>
      match hexDigit? d with
      | none => .error .hexDigitInvalid
      | some v => readHexDigits f count (16 * value + v) (f.skipBlank rest)

/-- Splits a pattern at the closing brace. In the mode that skips blanks they
    are dropped on the way. -/
def readBraced (f : Flags) : List Char → Except Cause (List Char × List Char)
  | [] => .error .escapeUnclosed
  | '\x7d' :: rest => .ok ([], rest)
  | c :: rest =>
    if f.verbose && isBlank c then readBraced f rest
    else do
      let (inside, rest) ← readBraced f rest
      return (c :: inside, rest)

/-- The character given by hexadecimal digits in braces. -/
def readHexBraced (f : Flags) (s : List Char) : Except Cause (Char × List Char) := do
  let (digits, rest) ← readBraced f s
  if digits.isEmpty then throw .hexEmpty
  match digits.mapM hexDigit? with
  | none => throw .hexDigitInvalid
  | some values =>
    match charOfCode? (values.foldl (fun n v => 16 * n + v) 0) with
    | some c => return (c, rest)
    | none => throw .hexInvalid

/-- The character behind `x`, `u` or `U`: two, four or eight digits, or any
    number of them in braces. -/
def readHex (f : Flags) (kind : Char) (s : List Char) : Except Cause (Atom × List Char) :=
  match f.skipBlank s with
  | [] => .error .escapeUnclosed
  | '\x7b' :: rest => do
    let (c, rest) ← readHexBraced f rest
    return (.literal c, f.skipBlank rest)
  | s => do
    let count := if kind == 'x' then 2 else if kind == 'u' then 4 else 8
    let (c, rest) ← readHexDigits f count 0 s
    return (if kind == 'x' then .byte c else .literal c, rest)

/-- Splits a text at the first occurrence of a separator. -/
def cutAt? (separator : List Char) : List Char → Option (List Char × List Char)
  | [] => if separator.isEmpty then some ([], []) else none
  | c :: rest =>
    if separator.isPrefixOf (c :: rest) then some ([], (c :: rest).drop separator.length)
    else (cutAt? separator rest).map fun (left, right) => (c :: left, right)

/-- The class of a property written in braces: a bare name, or a name and a
    value with `=`, `:` or, for the complement, `!=` between them. -/
def propertyClass (f : Flags) (negated : Bool) (name : List Char) : Except Cause CharSet :=
  let found : Option (Property × Bool) :=
    match cutAt? ['!', '='] name with
    | some (left, right) => (Property.ofNameAndValue? left right).map (·, !negated)
    | none =>
      match (cutAt? [':'] name).or (cutAt? ['='] name) with
      | some (left, right) => (Property.ofNameAndValue? left right).map (·, negated)
      | none => (Property.ofName? name).map (·, negated)
  match found with
  | none => .error .propertyUnknown
  | some (p, negated) =>
    if f.unicode then f.close negated (.named p) else .error .unicodeNotAllowed

/-- The class behind `p` or `P`: one letter, or a name in braces. -/
def readProperty (f : Flags) (negated : Bool) (s : List Char) :
    Except Cause (Atom × List Char) :=
  match f.skipBlank s with
  | [] => .error .escapeUnclosed
  | '\x7b' :: rest => do
    let (name, rest) ← readBraced f rest
    return (.class (← propertyClass f negated name), rest)
  | '\\' :: _ => .error .propertyUnknown
  | c :: rest => do
    return (.class (← propertyClass f negated [c]), f.skipBlank rest)

/-- The kind of word boundary that a name in braces asks for. Braces that hold
    no name are left alone: they are a repetition of the plain boundary. -/
def readWordBoundary (f : Flags) (s : List Char) : Except Cause (Atom × List Char) :=
  let k := f.wordClass
  let isNameChar (c : Char) := c.isAlpha || c == '-'
  match s with
  | '\x7b' :: inside =>
    match f.skipBlank inside with
    | [] => .error .wordBoundaryUnclosed
    | c :: more =>
      if !isNameChar c then .ok (.anchor (.wordBoundary k), s)
      else do
        let (name, rest) ←
          (readBraced f (c :: more)).mapError fun _ => Cause.wordBoundaryUnclosed
        if !name.all isNameChar then throw .wordBoundaryUnclosed
        match String.ofList name with
        | "start" => return (.anchor (.wordStart k), rest)
        | "end" => return (.anchor (.wordEnd k), rest)
        | "start-half" => return (.anchor (.wordStartHalf k), rest)
        | "end-half" => return (.anchor (.wordEndHalf k), rest)
        | _ => throw .wordBoundaryUnknown
  | _ => .ok (.anchor (.wordBoundary k), s)

/-- The ASCII ranges of decimal digits. -/
def digitRanges : List (Char × Char) :=
  [('0', '9')]

/-- The ASCII ranges of blanks. -/
def spaceRanges : List (Char × Char) :=
  [('\t', '\r'), (' ', ' ')]

/-- The ASCII ranges of word characters. -/
def wordRanges : List (Char × Char) :=
  [('0', '9'), ('A', 'Z'), ('_', '_'), ('a', 'z')]

/-- The atom behind a backslash. -/
def readEscape (f : Flags) : List Char → Except Cause (Atom × List Char)
  | [] => .error .escapeUnclosed
  | c :: rest =>
    if isEscapable c then .ok (.literal c, rest)
    else if c.isDigit then .error .backreference
    else
      let shorthand (p : Property) (ranges : List (Char × Char)) (negated : Bool) :=
        (f.shorthand p ranges negated).map fun s => (Atom.class s, rest)
      match c with
      | 'x' | 'u' | 'U' => readHex f c rest
      | 'p' => readProperty f false rest
      | 'P' => readProperty f true rest
      | 'd' => shorthand .digit digitRanges false
      | 'D' => shorthand .digit digitRanges true
      | 's' => shorthand .blank spaceRanges false
      | 'S' => shorthand .blank spaceRanges true
      | 'w' => shorthand .word wordRanges false
      | 'W' => shorthand .word wordRanges true
      | 'a' => .ok (.literal '\x07', rest)
      | 'f' => .ok (.literal '\x0c', rest)
      | 't' => .ok (.literal '\t', rest)
      | 'n' => .ok (.literal '\n', rest)
      | 'r' => .ok (.literal '\r', rest)
      | 'v' => .ok (.literal '\x0b', rest)
      | 'A' => .ok (.anchor .textStart, rest)
      | 'z' => .ok (.anchor .textEnd, rest)
      | 'b' => readWordBoundary f rest
      | 'B' => .ok (.anchor (.notWordBoundary f.wordClass), rest)
      | '<' => .ok (.anchor (.wordStart f.wordClass), rest)
      | '>' => .ok (.anchor (.wordEnd f.wordClass), rest)
      | _ => .error .escapeUnknown

end SchemaRename.Pattern
