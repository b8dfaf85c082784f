import SchemaRename.Text.Category

/-!
# Derived Properties

Properties of characters that follow from the general category.

The standard derives them: a union of categories, with a few characters added
for the sake of older texts or taken away again. What is added and taken away
is listed here, and the rest is computed.

## Main definitions

* `isCased`, `isCaseIgnorable`: Characters that have a case, and characters
  that do not count next to one.
* `startsIdentifier`, `continuesIdentifier`: The characters of identifiers.
* `startsClosedIdentifier`, `continuesClosedIdentifier`: The same, closed
  under normalization.
* `isGraphemeBase`: Characters that others can join.
-/

namespace SchemaRename.Text

/-- Whether a code point is in one of some ranges. -/
def inRanges (ranges : List (Nat × Nat)) (c : Char) : Bool :=
  ranges.any fun (low, high) => low ≤ c.toNat && c.toNat ≤ high

/-- Characters that have a case. -/
def isCased (c : Char) : Bool :=
  isLowercase c || isUppercase c || category c == .titleLetter

/-- Punctuation that does not count next to a character with a case. -/
def caseIgnorablePunctuation : List (Nat × Nat) :=
  [(0x27, 0x27), (0x2E, 0x2E), (0x3A, 0x3A), (0xB7, 0xB7), (0x387, 0x387), (0x55F, 0x55F),
   (0x5F4, 0x5F4), (0x2018, 0x2019), (0x2024, 0x2024), (0x2027, 0x2027), (0xFE13, 0xFE13),
   (0xFE52, 0xFE52), (0xFE55, 0xFE55), (0xFF07, 0xFF07), (0xFF0E, 0xFF0E), (0xFF1A, 0xFF1A)]

/-- Characters that do not count next to a character with a case. -/
def isCaseIgnorable (c : Char) : Bool :=
  match category c with
  | .nonspacingMark | .enclosingMark | .format | .modifierLetter | .modifierSymbol => true
  | _ => inRanges caseIgnorablePunctuation c

/-- Characters that start an identifier. -/
def startsIdentifier (c : Char) : Bool :=
  (((category c).isLetter || category c == .letterNumber) && c.toNat != 0x2E2F) ||
    inRanges [(0x1885, 0x1886), (0x2118, 0x2118), (0x212E, 0x212E), (0x309B, 0x309C)] c

/-- Characters that continue an identifier. -/
def continuesIdentifier (c : Char) : Bool :=
  startsIdentifier c ||
    match category c with
    | .nonspacingMark | .spacingMark | .decimalNumber | .connector => true
    | _ => inRanges [(0xB7, 0xB7), (0x387, 0x387), (0x1369, 0x1371), (0x19DA, 0x19DA)] c

/-- Characters of identifiers that normalization takes apart into others. -/
def unstableInIdentifiers : List (Nat × Nat) :=
  [(0x37A, 0x37A), (0x309B, 0x309C), (0xFC5E, 0xFC63), (0xFDFA, 0xFDFB), (0xFE70, 0xFE70),
   (0xFE72, 0xFE72), (0xFE74, 0xFE74), (0xFE76, 0xFE76), (0xFE78, 0xFE78), (0xFE7A, 0xFE7A),
   (0xFE7C, 0xFE7C), (0xFE7E, 0xFE7E)]

/-- Characters that start an identifier, also after normalization. -/
def startsClosedIdentifier (c : Char) : Bool :=
  startsIdentifier c && !inRanges unstableInIdentifiers c &&
    !inRanges [(0xE33, 0xE33), (0xEB3, 0xEB3), (0xFF9E, 0xFF9F)] c

/-- Characters that continue an identifier, also after normalization. -/
def continuesClosedIdentifier (c : Char) : Bool :=
  continuesIdentifier c && !inRanges unstableInIdentifiers c

/-- Characters that others can join. -/
def isGraphemeBase (c : Char) : Bool :=
  match category c with
  | .control | .format | .surrogate | .privateUse | .unassigned | .lineSeparator
  | .paragraphSeparator => false
  | _ => !isGraphemeExtend c

end SchemaRename.Text
