import SchemaRename.Pattern.Escape

/-!
# Bracketed Classes

Sets of characters written between square brackets.

A class lists characters, ranges and named classes; classes nest, and `&&`,
`--` and `~~` combine what stands on their left with what follows, one after
the other. Directly behind the opening bracket a hyphen is a plain character,
and so is a closing bracket that would otherwise leave the class empty.

The reader keeps the class it is in and the classes around it. Each class is
closed under the modes in force when its bracket closes, so an inner class is
finished before the outer one sees it.

## Main definitions

* `Members`: What a class has listed so far.
* `OpenClass`: A class whose closing bracket has not come yet.
* `readClass`: The set behind an opening bracket.
-/

namespace SchemaRename.Pattern

open SchemaRename.Text

/-- What a class has listed so far: the union, the number of items in it and
    how deeply the items are nested. -/
structure Members where
  set : CharSet := .empty
  count : Nat := 0
  depth : Nat := 0
deriving Repr, DecidableEq

/-- One more item. -/
def Members.add (m : Members) (s : CharSet) (depth : Nat) : Members :=
  ⟨if m.count == 0 then s else .union m.set s, m.count + 1, max m.depth depth⟩

/-- How deeply a list of items is nested; several items are a level of their
    own. -/
def Members.listDepth (m : Members) : Nat :=
  if 2 ≤ m.count then m.depth + 1 else m.depth

/-- Combinations of two classes. -/
inductive SetOp where
  | inter
  | diff
  | symmDiff
deriving Repr, DecidableEq

/-- Combines two classes; in the mode that ignores case both are closed under
    case first. -/
def SetOp.apply (op : SetOp) (f : Flags) (a b : CharSet) : CharSet :=
  let closed (s : CharSet) : CharSet :=
    if !f.anyCase then s else if f.unicode then .anyCase s else .anyAsciiCase s
  match op with
  | .inter => .inter (closed a) (closed b)
  | .diff => .diff (closed a) (closed b)
  | .symmDiff => .symmDiff (closed a) (closed b)

/-- A class whose closing bracket has not come yet. -/
structure OpenClass where
  negated : Bool
  /-- The operation in front of the items, with its left side. -/
  pending : Option (SetOp × CharSet × Nat) := none
  members : Members := {}
  /-- Whether the opening bracket was the last thing read, hyphens apart. -/
  leading : Bool := true
deriving Repr, DecidableEq

/-- The set that has been read since the opening bracket, and its depth. -/
def OpenClass.value (c : OpenClass) (f : Flags) : CharSet × Nat :=
  match c.pending with
  | none => (c.members.set, c.members.listDepth)
  | some (op, left, depth) =>
    (op.apply f left c.members.set, max depth c.members.listDepth + 1)

/-- Makes what has been read the left side of an operation. -/
def OpenClass.operate (c : OpenClass) (f : Flags) (op : SetOp) : OpenClass :=
  let (set, depth) := c.value f
  { c with pending := some (op, set, depth), members := {}, leading := false }

/-- Adds an item. -/
def OpenClass.add (c : OpenClass) (s : CharSet) (depth : Nat) : OpenClass :=
  { c with members := c.members.add s depth, leading := false }

/-- Opens a class: a circumflex behind the bracket complements it. -/
def openClass (f : Flags) (s : List Char) : OpenClass × List Char :=
  match f.skipBlank s with
  | '^' :: rest => ({ negated := true }, rest)
  | rest => ({ negated := false }, rest)

/-- A class named between colons, such as `[:alpha:]`, behind its bracket. A
    name that is not known makes it an ordinary class. -/
def asciiClassAt? (s : List Char) : Option (Bool × List (Char × Char) × List Char) :=
  match s with
  | ':' :: rest =>
    let (negated, rest) :=
      match rest with
      | '^' :: more => (true, more)
      | _ => (false, rest)
    match rest.dropWhile (· != ':') with
    | ':' :: ']' :: after =>
      (asciiClass? (rest.takeWhile (· != ':'))).map (negated, ·, after)
    | _ => none
  | _ => none

/-- One character or escape of a class. -/
def readMember (f : Flags) : List Char → Except Cause (Atom × List Char)
  | [] => .error .classUnclosed
  | '\\' :: rest => readEscape f rest
  | c :: rest => .ok (.literal c, rest)

/-- The character that bounds a range or stands alone. In byte mode it must be
    one byte. -/
def Atom.bound (f : Flags) : Atom → Except Cause Char
  | .literal c => if f.unicode || c.toNat < 0x80 then .ok c else .error .unicodeNotAllowed
  | .byte c => .ok c
  | _ => .error .classRangeNotLiteral

/-- The set that an atom adds to a class. -/
def Atom.asSet (f : Flags) : Atom → Except Cause CharSet
  | .class s => .ok s
  | .anchor _ => .error .classEscapeInvalid
  | a => (a.bound f).map .single

/-- Reads one item: a character, a class, or two characters with a hyphen
    between them. A hyphen in front of the closing bracket or of another
    hyphen makes no range. -/
def readItem (f : Flags) (s : List Char) : Except Cause (CharSet × List Char) := do
  let (first, rest) ← readMember f s
  match f.skipBlank rest with
  | [] => throw .classUnclosed
  | '-' :: more =>
    match f.skipBlank more with
    | ']' :: _ | '-' :: _ => return (← first.asSet f, '-' :: more)
    | [] => throw .classUnclosed
    | more =>
      let (last, rest) ← readMember f more
      let lo ← first.bound f
      let hi ← last.bound f
      if lo ≤ hi then return (.range lo hi, rest) else throw .classRangeInvalid
  | rest => return (← first.asSet f, rest)

/-- Reads a class up to its closing bracket. Every round consumes at least one
    character, so the length of the pattern is fuel enough. -/
def classFrom (f : Flags) :
    Nat → List OpenClass → OpenClass → List Char → Except Cause (CharSet × Nat × List Char)
  | 0, _, _, _ => .error .classUnclosed
  | fuel + 1, outer, current, s =>
    let plain (c : Char) (stillLeading : Bool) (rest : List Char) :=
      classFrom f fuel outer
        { current.add (.single c) 0 with leading := stillLeading } rest
    match f.skipBlank s with
    | [] => .error .classUnclosed
    | c :: rest =>
      if current.leading && c == '-' then plain '-' true rest
      else if current.leading && c == ']' && current.members.count == 0 then
        plain ']' false rest
      else
        match c, rest with
        | ']', rest => do
          let (set, depth) := current.value f
          let set ← f.close current.negated set
          match outer with
          | [] => return (set, depth + 1, rest)
          | enclosing :: outer => classFrom f fuel outer (enclosing.add set (depth + 1)) rest
        | '[', rest =>
          match asciiClassAt? rest with
          | some (negated, ranges, rest) => do
            let set ← f.close negated (.ofRanges ranges)
            classFrom f fuel outer (current.add set 0) rest
          | none =>
            let (inner, rest) := openClass f rest
            classFrom f fuel (current :: outer) inner rest
        | '&', '&' :: rest => classFrom f fuel outer (current.operate f .inter) rest
        | '-', '-' :: rest => classFrom f fuel outer (current.operate f .diff) rest
        | '~', '~' :: rest => classFrom f fuel outer (current.operate f .symmDiff) rest
        | c, rest => do
          let (set, rest) ← readItem f (c :: rest)
          classFrom f fuel outer (current.add set 0) rest

/-- The set behind an opening bracket, how deeply it is nested, and the rest
    of the pattern. -/
def readClass (f : Flags) (s : List Char) : Except Cause (CharSet × Nat × List Char) :=
  let (current, rest) := openClass f s
  classFrom f (rest.length + 1) [] current rest

end SchemaRename.Pattern
