import SchemaRename.Pattern.Expr

/-!
# Pattern Modes

The switches that change how the rest of a pattern is read.

A pattern turns modes on and off in its own text: `(?i)` for the rest of the
enclosing group, `(?i:…)` for one group. The modes decide what a literal
character, a dot, an anchor or a class means, so the reader of patterns
carries them along and builds expressions that no longer mention them.

Without the Unicode mode a pattern speaks about bytes. Texts here are always
valid, so a class that could match half a character is refused.

## Main definitions

* `Flags`: The modes in force at one point of a pattern.
* `Cause`: Why a pattern cannot be read.
* `Flags.literal`, `Flags.dot`, `Flags.lineStart`, `Flags.lineEnd`: Meanings
  that depend on the modes.
* `Flags.close`: What a class becomes under the modes.
-/

namespace SchemaRename.Pattern

/-- The modes in force at one point of a pattern. -/
structure Flags where
  /-- `i`: letters match in either case. -/
  anyCase : Bool := false
  /-- `m`: anchors match at every line. -/
  multiLine : Bool := false
  /-- `s`: the dot matches line ends too. -/
  dotAll : Bool := false
  /-- `U`: greedy and reluctant repetitions trade places. -/
  swapGreed : Bool := false
  /-- `u`: characters are Unicode characters and not bytes. -/
  unicode : Bool := true
  /-- `x`: blanks and comments in the pattern are skipped. -/
  verbose : Bool := false
  /-- `R`: a carriage return ends a line as a line feed does. -/
  crlf : Bool := false
deriving Repr, DecidableEq

/-- Why a pattern cannot be read. -/
inductive Cause where
  | groupUnclosed
  | groupUnopened
  | groupNameUnclosed
  | groupNameInvalid
  | groupNameDuplicate
  | lookAround
  | backreference
  | flagUnknown
  | flagDuplicate
  | flagRepeatedNegation
  | flagDanglingNegation
  | flagsUnclosed
  | repetitionMissing
  | repetitionUnclosed
  | repetitionInvalid
  | numberEmpty
  | numberTooLarge
  | escapeUnclosed
  | escapeUnknown
  | hexDigitInvalid
  | hexEmpty
  | hexInvalid
  | wordBoundaryUnclosed
  | wordBoundaryUnknown
  | classUnclosed
  | classRangeInvalid
  | classRangeNotLiteral
  | classEscapeInvalid
  | propertyUnknown
  | unicodeNotAllowed
  | invalidText
  | nestedTooDeep
deriving Repr, DecidableEq

/-- What is wrong, in words. -/
def Cause.message : Cause → String
  | .groupUnclosed => "unclosed group"
  | .groupUnopened => "unopened group"
  | .groupNameUnclosed => "unclosed capture group name"
  | .groupNameInvalid => "invalid capture group character"
  | .groupNameDuplicate => "duplicate capture group name"
  | .lookAround =>
    "look-around, including look-ahead and look-behind, is not supported"
  | .backreference => "backreferences are not supported"
  | .flagUnknown => "unrecognized flag"
  | .flagDuplicate => "duplicate flag"
  | .flagRepeatedNegation => "flag negation operator repeated"
  | .flagDanglingNegation => "dangling flag negation operator"
  | .flagsUnclosed => "expected flag but got end of pattern"
  | .repetitionMissing => "repetition operator missing expression"
  | .repetitionUnclosed => "unclosed counted repetition"
  | .repetitionInvalid =>
    "invalid repetition count range, the start must be <= the end"
  | .numberEmpty => "repetition quantifier expects a valid decimal"
  | .numberTooLarge => "decimal literal invalid"
  | .escapeUnclosed => "incomplete escape sequence, reached end of pattern prematurely"
  | .escapeUnknown => "unrecognized escape sequence"
  | .hexDigitInvalid => "invalid hexadecimal digit"
  | .hexEmpty => "hexadecimal literal empty"
  | .hexInvalid => "hexadecimal literal is not a Unicode scalar value"
  | .wordBoundaryUnclosed => "special word boundary assertion is either unclosed or " ++
      "contains an invalid character"
  | .wordBoundaryUnknown => "unrecognized special word boundary assertion"
  | .classUnclosed => "unclosed character class"
  | .classRangeInvalid =>
    "invalid character class range, the start must be <= the end"
  | .classRangeNotLiteral => "invalid range boundary, must be a literal"
  | .classEscapeInvalid => "invalid escape sequence found in character class"
  | .propertyUnknown => "Unicode property not found"
  | .unicodeNotAllowed => "Unicode not allowed here"
  | .invalidText => "pattern can match invalid UTF-8"
  | .nestedTooDeep => "exceeds the maximum number of nested parentheses/brackets (250)"

namespace Flags

/-- A set of bytes in byte mode: it may not reach beyond ASCII. -/
def checkBytes (s : CharSet) : Except Cause CharSet :=
  if s.isAscii then .ok s else .error .invalidText

/-- A class under the modes: first closed under case, then complemented. -/
def close (f : Flags) (negated : Bool) (s : CharSet) : Except Cause CharSet :=
  if f.unicode then
    let closed := if f.anyCase then .anyCase s else s
    .ok (if negated then .compl closed else closed)
  else
    let closed := if f.anyCase then .anyAsciiCase s else s
    checkBytes (if negated then .diff .bytes closed else closed)

/-- A literal character. In byte mode only ASCII letters have a second case. -/
def literal (f : Flags) (c : Char) : Expr :=
  if !f.anyCase then .char c
  else if f.unicode then .charAnyCase c
  else if c.isAlpha then .set (.anyAsciiCase (.single c))
  else .char c

/-- A literal given by the value of a byte. In byte mode a value beyond ASCII
    is no character. -/
def byteLiteral (f : Flags) (c : Char) : Except Cause Expr :=
  if !f.unicode && 0x80 ≤ c.toNat then .error .invalidText else .ok (f.literal c)

/-- The dot: any character but a line end. -/
def dot (f : Flags) : Except Cause Expr :=
  if !f.unicode then .error .invalidText
  else if f.dotAll then .ok (.set (.named .any))
  else if f.crlf then .ok (.set (.compl (.union (.single '\r') (.single '\n'))))
  else .ok (.set (.compl (.single '\n')))

/-- The start of the text, or of a line in the mode for lines. -/
def lineStart (f : Flags) : Anchor :=
  if !f.multiLine then .textStart else if f.crlf then .crlfLineStart else .lineStart

/-- The end of the text, or of a line in the mode for lines. -/
def lineEnd (f : Flags) : Anchor :=
  if !f.multiLine then .textEnd else if f.crlf then .crlfLineEnd else .lineEnd

/-- Which characters make up words under the modes. -/
def wordClass (f : Flags) : WordClass :=
  if f.unicode then .unicode else .ascii

/-- A class written with one letter, by its ASCII ranges and its Unicode
    property. It is not closed under case. -/
def shorthand (f : Flags) (p : Property) (ranges : List (Char × Char)) (negated : Bool) :
    Except Cause CharSet :=
  if f.unicode then
    .ok (if negated then .compl (.named p) else .named p)
  else
    checkBytes (if negated then .diff .bytes (.ofRanges ranges) else .ofRanges ranges)

/-- Sets the mode that a letter stands for. -/
def set? (f : Flags) (letter : Char) (on : Bool) : Option Flags :=
  match letter with
  | 'i' => some { f with anyCase := on }
  | 'm' => some { f with multiLine := on }
  | 's' => some { f with dotAll := on }
  | 'U' => some { f with swapGreed := on }
  | 'u' => some { f with unicode := on }
  | 'x' => some { f with verbose := on }
  | 'R' => some { f with crlf := on }
  | _ => none

end Flags

end SchemaRename.Pattern
