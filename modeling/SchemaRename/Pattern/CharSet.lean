import SchemaRename.Pattern.Property
import SchemaRename.Text.CaseFold

/-!
# Character Sets

What a pattern says about one character.

A set is kept as it is written: ranges and named properties under union,
difference and complement, with one more operation that adds the other letter
cases. Keeping the operations apart matters because they do not commute:
closing a set under case and then complementing it is not the same as the
reverse, and a pattern that ignores case does the first at every bracket.

## Main definitions

* `CharSet`: A Boolean combination of ranges and named properties.
* `CharSet.contains`: Membership.
* `CharSet.ofRanges`: The union of a list of ranges.
* `CharSet.isAscii`: Whether a set of bytes stays below 128.
-/

namespace SchemaRename.Pattern

open SchemaRename.Text

/-- A set of characters, as a pattern spells it. -/
inductive CharSet where
  | empty
  | range (lo hi : Char)
  | named (p : Property)
  | union (a b : CharSet)
  | inter (a b : CharSet)
  | diff (a b : CharSet)
  | symmDiff (a b : CharSet)
  | compl (a : CharSet)
  /-- Closed under Unicode simple case folding. -/
  | anyCase (a : CharSet)
  /-- Closed under the case pairs of the Latin alphabet only. -/
  | anyAsciiCase (a : CharSet)
deriving Repr, DecidableEq

namespace CharSet

/-- The other case of an ASCII letter; any other character itself. -/
def otherAsciiCase (c : Char) : Char :=
  if c.isLower then c.toUpper else if c.isUpper then c.toLower else c

/-- Membership. -/
def contains : CharSet → Char → Bool
  | .empty, _ => false
  | .range lo hi, c => lo ≤ c && c ≤ hi
  | .named p, c => p.holds c
  | .union a b, c => a.contains c || b.contains c
  | .inter a b, c => a.contains c && b.contains c
  | .diff a b, c => a.contains c && !b.contains c
  | .symmDiff a b, c => a.contains c != b.contains c
  | .compl a, c => !a.contains c
  | .anyCase a, c => (caseVariants c).any a.contains
  | .anyAsciiCase a, c => a.contains c || a.contains (otherAsciiCase c)

/-- The set with one member. -/
def single (c : Char) : CharSet :=
  .range c c

/-- The union of a list of ranges. -/
def ofRanges (ranges : List (Char × Char)) : CharSet :=
  ranges.foldr (fun r s => .union (.range r.1 r.2) s) .empty

/-- The codes a byte can have, as characters. -/
def bytes : CharSet :=
  .range '\x00' '\xff'

/-- Whether a set of bytes has no member from 128 on. -/
def isAscii (s : CharSet) : Bool :=
  (List.range 128).all fun k => !s.contains (Char.ofNat (128 + k))

end CharSet

end SchemaRename.Pattern
