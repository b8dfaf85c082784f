import SchemaRename.Pattern.Bracket

/-!
# Reading Patterns

From the text of a pattern to an expression.

A rule's pattern is a text in three parts: a fragment that the user of the
tool supplies, the escaped boundary and identifier, and another fragment. The
parts are joined as text and read as one pattern, so a fragment can open an
alternation or switch a mode for everything behind it. Reading is therefore
one pass over the whole text with the modes in hand.

Groups only group: nothing in the tool looks at what a group matched. Their
names are still checked, because a bad name is a bad pattern.

The reader keeps the alternatives and the pieces of the group it is in, and
the same for every group around it. Each round of the reader consumes at
least one character.

## Main definitions

* `Piece`: A part of a branch, ready to be repeated or sequenced.
* `Group`: An open group: finished branches, and the pieces of the last one.
* `parse`: The expression behind a pattern.
-/

namespace SchemaRename.Pattern

open SchemaRename.Text

/-- A part of a branch. -/
structure Piece where
  expr : Expr
  /-- How deeply the part is nested. -/
  depth : Nat := 0
  /-- Whether a repetition may follow: not after a switch of modes. -/
  repeatable : Bool := true
deriving Repr, DecidableEq

/-- An open group. Branches and pieces are kept last one first. -/
structure Group where
  branches : List Piece := []
  pieces : List Piece := []
  /-- The modes to return to when the group closes. -/
  outerFlags : Flags
deriving Repr, DecidableEq

/-- The greatest depth among some pieces. -/
def deepest (pieces : List Piece) : Nat :=
  pieces.foldr (fun p d => max p.depth d) 0

/-- Expressions one after the other. -/
def sequence (exprs : List Expr) : Expr :=
  exprs.foldr .seq .empty

/-- Expressions in order of preference. -/
def alternatives : List Expr → Expr
  | [] => .empty
  | [e] => e
  | e :: rest => .alt e (alternatives rest)

/-- The branch that the pieces of a group make up. -/
def Group.branch (g : Group) : Piece :=
  match g.pieces with
  | [] => { expr := .empty }
  | [p] => p
  | pieces => { expr := sequence (pieces.reverse.map (·.expr)), depth := deepest pieces + 1 }

/-- Everything between the parentheses of a group. -/
def Group.body (g : Group) : Piece :=
  match g.branches with
  | [] => g.branch
  | branches =>
    let all := g.branch :: branches
    { expr := alternatives (all.reverse.map (·.expr)), depth := deepest all + 1 }

/-- Adds a piece to the branch that is being read. -/
def Group.push (g : Group) (p : Piece) : Group :=
  { g with pieces := p :: g.pieces }

/-- Starts the next branch. -/
def Group.nextBranch (g : Group) : Group :=
  { g with branches := g.branch :: g.branches, pieces := [] }

/-- Reads the letters of a mode switch up to the character that ends it. `on`
    turns false at the hyphen, and `seen` holds the letters so far. -/
def readFlags (on : Bool) (seen : List Char) (f : Flags) :
    List Char → Except Cause (Flags × Bool × Char × List Char)
  | [] => .error .flagsUnclosed
  | c :: rest =>
    if c == ':' || c == ')' then
      if seen.head? == some '-' then .error .flagDanglingNegation
      else .ok (f, seen.isEmpty, c, rest)
    else if c == '-' then
      if on then readFlags false (c :: seen) f rest else .error .flagRepeatedNegation
    else
      match f.set? c on with
      | none => .error .flagUnknown
      | some g => if seen.contains c then .error .flagDuplicate else readFlags on (c :: seen) g rest

/-- Whether a character may stand in the name of a group. -/
def isGroupNameChar (isFirst : Bool) (c : Char) : Bool :=
  if isFirst then c == '_' || isAlphabetic c
  else c == '_' || c == '.' || c == '[' || c == ']' || isAlphabetic c || isNumeric c

/-- The name of a group up to its closing angle bracket. -/
def readGroupName (names : List (List Char)) (s : List Char) :
    Except Cause (List Char × List Char) :=
  let name := s.takeWhile (· != '>')
  match name, s.dropWhile (· != '>') with
  | first :: more, rest =>
    if !(isGroupNameChar true first && more.all (isGroupNameChar false)) then
      .error .groupNameInvalid
    else
      match rest with
      | [] => .error .groupNameUnclosed
      | _ :: rest => if names.contains name then .error .groupNameDuplicate else .ok (name, rest)
  | [], _ => .error .groupNameUnclosed

/-- The greatest count that a repetition may ask for. -/
def maxCount : Nat :=
  4294967295

/-- The digits of a count; the mode that skips blanks skips them between
    digits too. -/
def countDigits (f : Flags) : List Char → List Char × List Char
  | [] => ([], [])
  | c :: rest =>
    if c.isDigit then
      let (digits, after) := countDigits f rest
      (c :: digits, after)
    else if f.verbose && isBlank c then countDigits f rest
    else ([], c :: rest)

/-- A count with the blanks around it. -/
def readCount (f : Flags) (s : List Char) : Except Cause (Nat × List Char) :=
  let (digits, rest) := countDigits f (trimStart s)
  if digits.isEmpty then .error .numberEmpty
  else
    let n := digits.foldl (fun n d => 10 * n + (d.toNat - '0'.toNat)) 0
    if maxCount < n then .error .numberTooLarge else .ok (n, f.skipBlank (trimStart rest))

/-- The bounds of a counted repetition, behind its opening brace. -/
def readBounds (f : Flags) (s : List Char) :
    Except Cause (Nat × Option Nat × List Char) := do
  let (least, rest) ← readCount f (f.skipBlank s)
  let (most, rest) ←
    match rest with
    | ',' :: more =>
      match f.skipBlank more with
      | '\x7d' :: _ => pure (none, f.skipBlank more)
      | more => do
        let (most, rest) ← readCount f more
        pure (some most, rest)
    | _ => pure (some least, rest)
  match rest with
  | '\x7d' :: rest =>
    if most.any (· < least) then throw .repetitionInvalid else return (least, most, rest)
  | _ => throw .repetitionUnclosed

/-- Repeats the last piece of a group. A question mark behind the repetition
    makes it reluctant. -/
def Group.repeatLast (g : Group) (f : Flags) (least : Nat) (most : Option Nat)
    (rest : List Char) : Except Cause (Group × List Char) :=
  match g.pieces with
  | [] => .error .repetitionMissing
  | p :: pieces =>
    if !p.repeatable then .error .repetitionMissing
    else
      let (greedy, rest) :=
        match rest with
        | '?' :: more => (false, more)
        | _ => (true, rest)
      let piece : Piece :=
        { expr := .rounds p.expr least most (greedy != f.swapGreed), depth := p.depth + 1 }
      .ok ({ g with pieces := piece :: pieces }, rest)

/-- The expression of an atom under the modes. -/
def Atom.expr (f : Flags) : Atom → Except Cause Expr
  | .literal c => .ok (f.literal c)
  | .byte c => f.byteLiteral c
  | .class s => .ok (.set s)
  | .anchor a => .ok (.anchor a)

/-- Where the reader is in a pattern. -/
structure Reading where
  flags : Flags
  /-- Names of the groups so far. -/
  names : List (List Char) := []
  /-- The groups around the current one, innermost first. -/
  outer : List Group := []
  current : Group
deriving Repr, DecidableEq

/-- Opens a group under new modes. -/
def Reading.enter (r : Reading) (inner : Flags) : Reading :=
  { r with flags := inner, outer := r.current :: r.outer, current := { outerFlags := r.flags } }

/-- Adds a piece to the current branch. -/
def Reading.push (r : Reading) (p : Piece) : Reading :=
  { r with current := r.current.push p }

/-- Reads what follows an opening parenthesis: a group name, modes, or
    nothing. -/
def Reading.openGroup (r : Reading) (s : List Char) : Except Cause (Reading × List Char) := do
  match r.flags.skipBlank s with
  | '?' :: '=' :: _ | '?' :: '!' :: _ | '?' :: '<' :: '=' :: _ | '?' :: '<' :: '!' :: _ =>
    throw .lookAround
  | '?' :: 'P' :: '<' :: rest | '?' :: '<' :: rest =>
    let (name, rest) ← readGroupName r.names rest
    return ({ r with names := name :: r.names }.enter r.flags, rest)
  | '?' :: rest =>
    if rest.isEmpty then throw .groupUnclosed
    let (flags, isEmpty, last, rest) ← readFlags true [] r.flags rest
    if last == ':' then return (r.enter flags, rest)
    else if isEmpty then throw .repetitionMissing
    else
      return ({ r with flags }.push { expr := .empty, repeatable := false }, rest)
  | rest => return (r.enter r.flags, rest)

/-- Closes the current group. -/
def Reading.closeGroup (r : Reading) : Except Cause Reading :=
  match r.outer with
  | [] => .error .groupUnopened
  | enclosing :: outer =>
    let body := r.current.body
    let piece : Piece := { expr := body.expr, depth := body.depth + 1 }
    .ok { r with flags := r.current.outerFlags, outer, current := enclosing.push piece }

/-- Repeats the last piece of the current branch. -/
def Reading.repeatLast (r : Reading) (least : Nat) (most : Option Nat) (rest : List Char) :
    Except Cause (Reading × List Char) := do
  let (current, rest) ← r.current.repeatLast r.flags least most rest
  return ({ r with current }, rest)

/-- Reads one construct, given its first character and what follows. -/
def Reading.step (r : Reading) (c : Char) (rest : List Char) :
    Except Cause (Reading × List Char) := do
  let f := r.flags
  match c with
  | '(' => r.openGroup rest
  | ')' => return (← r.closeGroup, rest)
  | '|' => return ({ r with current := r.current.nextBranch }, rest)
  | '[' =>
    let (set, depth, rest) ← readClass f rest
    return (r.push { expr := .set set, depth }, rest)
  | '?' => r.repeatLast 0 (some 1) rest
  | '*' => r.repeatLast 0 none rest
  | '+' => r.repeatLast 1 none rest
  | '\x7b' =>
    let (least, most, rest) ← readBounds f rest
    r.repeatLast least most (f.skipBlank rest)
  | '\\' =>
    let (atom, rest) ← readEscape f rest
    return (r.push { expr := ← atom.expr f }, rest)
  | '.' => return (r.push { expr := ← f.dot }, rest)
  | '^' => return (r.push { expr := .anchor f.lineStart }, rest)
  | '$' => return (r.push { expr := .anchor f.lineEnd }, rest)
  | c => return (r.push { expr := f.literal c }, rest)

/-- Reads the rest of a pattern, one construct a round. -/
def readFrom : Nat → Reading → List Char → Except Cause Reading
  | 0, r, _ => .ok r
  | fuel + 1, r, s =>
    match r.flags.skipBlank s with
    | [] => .ok r
    | c :: rest =>
      match r.step c rest with
      | .error cause => .error cause
      | .ok (r, rest) => readFrom fuel r rest

/-- How deeply a pattern may be nested. -/
def maxDepth : Nat :=
  250

/-- The expression behind a pattern. `anyCase` says whether letters match in
    either case until the pattern itself says otherwise. -/
def parse (anyCase : Bool) (pattern : List Char) : Except Cause Expr := do
  let flags : Flags := { anyCase }
  let r ← readFrom (pattern.length + 1) { flags, current := { outerFlags := flags } } pattern
  if !r.outer.isEmpty then throw .groupUnclosed
  let body := r.current.body
  if maxDepth < body.depth then throw .nestedTooDeep
  return body.expr

end SchemaRename.Pattern
