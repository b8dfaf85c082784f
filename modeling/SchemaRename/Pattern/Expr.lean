import SchemaRename.Pattern.CharSet

/-!
# Pattern Expressions and Where They Can End

The matching language and its meaning.

An expression is matched at a position and may end at several. Which of them
is *the* match is a matter of preference: an alternation prefers its first
branch, a greedy repetition prefers to go on. So the meaning of an expression
is the list of its possible ends in order of preference, each once, and the
match is the head of that list. A sequence goes on from all the ends of its
first part, alternation is append, and nothing has to be said about
backtracking.

A position is a cursor: the text that is left, the character in front of it,
and a running index. The character in front is what word boundaries and line
starts look at, so a search can begin in the middle of a text.

A repetition may have a body that matches the empty text. An empty round ends
the repetition at that place in the order of preference and is not repeated,
so every further round consumes something and the length of the rest bounds
the number of rounds.

## Main definitions

* `Cursor`: A position in a text.
* `Anchor`: Conditions on a position that consume nothing.
* `Expr`: Pattern expressions.
* `Expr.endsFrom`, `Expr.ends`: The possible ends of a match, best first.
* `Expr.end?`: The preferred end of a match that starts at a cursor.
-/

namespace SchemaRename.Pattern

open SchemaRename.Text

/-- A position in a text. -/
structure Cursor where
  /-- Number of characters in front of the position. -/
  index : Nat
  /-- The character in front of the position, if there is one. -/
  prev : Option Char
  /-- The text behind the position. -/
  rest : List Char
deriving Repr, DecidableEq

/-- The position before the first character of a text. -/
def Cursor.start (text : List Char) : Cursor :=
  ⟨0, none, text⟩

/-- Which characters make up words. -/
inductive WordClass where
  | unicode
  | ascii
deriving Repr, DecidableEq

/-- Whether a character is part of a word. -/
def WordClass.isWord : WordClass → Char → Bool
  | .unicode, c => isWordChar c
  | .ascii, c => c.isAlphanum || c == '_'

/-- Conditions on a position. -/
inductive Anchor where
  | textStart
  | textEnd
  | lineStart
  | lineEnd
  /-- Line starts where carriage return and line feed end a line together. -/
  | crlfLineStart
  | crlfLineEnd
  | wordBoundary (k : WordClass)
  | notWordBoundary (k : WordClass)
  | wordStart (k : WordClass)
  | wordEnd (k : WordClass)
  /-- No word in front, whatever follows. -/
  | wordStartHalf (k : WordClass)
  /-- No word behind, whatever comes before. -/
  | wordEndHalf (k : WordClass)
deriving Repr, DecidableEq

/-- Whether a condition holds at a position. -/
def Anchor.holdsAt (a : Anchor) (c : Cursor) : Bool :=
  let next := c.rest.head?
  let wordBefore (k : WordClass) := c.prev.any k.isWord
  let wordAfter (k : WordClass) := next.any k.isWord
  match a with
  | .textStart => c.prev.isNone
  | .textEnd => next.isNone
  | .lineStart => c.prev.isNone || c.prev == some '\n'
  | .lineEnd => next.isNone || next == some '\n'
  | .crlfLineStart =>
    c.prev.isNone || c.prev == some '\n' || (c.prev == some '\r' && next != some '\n')
  | .crlfLineEnd =>
    next.isNone || next == some '\r' || (next == some '\n' && c.prev != some '\r')
  | .wordBoundary k => wordBefore k != wordAfter k
  | .notWordBoundary k => wordBefore k == wordAfter k
  | .wordStart k => !wordBefore k && wordAfter k
  | .wordEnd k => wordBefore k && !wordAfter k
  | .wordStartHalf k => !wordBefore k
  | .wordEndHalf k => !wordAfter k

/-- Pattern expressions. -/
inductive Expr where
  /-- The empty text. -/
  | empty
  /-- One character, exactly. -/
  | char (c : Char)
  /-- One character up to letter case. -/
  | charAnyCase (c : Char)
  /-- One character of a set. -/
  | set (s : CharSet)
  /-- A condition on the position. -/
  | anchor (a : Anchor)
  | seq (a b : Expr)
  /-- Either branch, the first one preferred. -/
  | alt (a b : Expr)
  /-- At least `least` and at most `most` rounds; more rounds are preferred
      when `greedy`, fewer otherwise. -/
  | rounds (body : Expr) (least : Nat) (most : Option Nat) (greedy : Bool)
deriving Repr, DecidableEq

/-- Keeps the first cursor of each index. The indices that have been met are
    the bits of `met`. -/
def keepFirst (met : Nat) : List Cursor → List Cursor
  | [] => []
  | c :: rest =>
    if met.testBit c.index then keepFirst met rest
    else c :: keepFirst (met ||| (1 <<< c.index)) rest

/-- A list of cursors without repetitions. -/
def distinct : List Cursor → List Cursor
  | [] => []
  | [c] => [c]
  | cs => keepFirst 0 cs

/-- Moves over one character that passes a test. -/
def Cursor.over (p : Char → Bool) (c : Cursor) : List Cursor :=
  match c.rest with
  | [] => []
  | x :: rest => if p x then [⟨c.index + 1, some x, rest⟩] else []

/-- What a repetition has collected so far: the indices whose further rounds
    have been explored, as bits, and the ends in reverse order. -/
structure Explored where
  entered : Nat
  ends : List Cursor

/-- Explores all further rounds from a cursor, which is itself an end. Greedy
    repetitions list it after everything beyond it, the others before. An
    index that has been entered already has its ends in the list. -/
def explore (step : Cursor → List Cursor) (greedy : Bool) :
    Nat → Cursor → Explored → Explored
  | 0, c, found => { found with ends := c :: found.ends }
  | fuel + 1, c, found =>
    if found.entered.testBit c.index then found
    else
      let entered := { found with entered := found.entered ||| (1 <<< c.index) }
      let opened := if greedy then entered else { entered with ends := c :: entered.ends }
      let beyond := (step c).foldl (fun found next =>
        if next.index ≤ c.index then { found with ends := c :: found.ends }
        else explore step greedy fuel next found) opened
      if greedy then { beyond with ends := c :: beyond.ends } else beyond

/-- The ends of one or more rounds. -/
def manyEnds (step : Cursor → List Cursor) (greedy : Bool) (c : Cursor) : List Cursor :=
  let found := (step c).foldl (fun found next =>
    if next.index ≤ c.index then { found with ends := next :: found.ends }
    else explore step greedy c.rest.length next found) ⟨0, []⟩
  found.ends.reverse

/-- The ends of exactly `n` rounds from one of some cursors. -/
def exactEnds (step : Cursor → List Cursor) : Nat → List Cursor → List Cursor
  | _, [] => []
  | 0, cs => cs
  | n + 1, c :: cs => exactEnds step n (distinct ((c :: cs).flatMap step))

/-- Explores up to `n` further rounds from a cursor, in the order of
    `explore`. What lies beyond an index depends on the number of rounds that
    are left, so an index is entered once for each such number; all indices
    are below `width`. -/
def exploreUpTo (step : Cursor → List Cursor) (greedy : Bool) (width : Nat) :
    Nat → Cursor → Explored → Explored
  | 0, c, found => { found with ends := c :: found.ends }
  | n + 1, c, found =>
    let bit := n * width + c.index
    if found.entered.testBit bit then found
    else
      let entered := { found with entered := found.entered ||| (1 <<< bit) }
      let opened := if greedy then entered else { entered with ends := c :: entered.ends }
      let beyond := (step c).foldl
        (fun found next => exploreUpTo step greedy width n next found) opened
      if greedy then { beyond with ends := c :: beyond.ends } else beyond

/-- The ends of at most `n` rounds. -/
def upToEnds (step : Cursor → List Cursor) (greedy : Bool) (n : Nat) (c : Cursor) :
    List Cursor :=
  let width := c.index + c.rest.length + 1
  (exploreUpTo step greedy width n c ⟨0, []⟩).ends.reverse

/-- The ends of a repetition. -/
def roundsEnds (step : Cursor → List Cursor) (least : Nat) (most : Option Nat) (greedy : Bool)
    (c : Cursor) : List Cursor :=
  match most, least with
  | some most, least => (exactEnds step least [c]).flatMap (upToEnds step greedy (most - least))
  | none, 0 =>
    let more := manyEnds step greedy c
    if greedy then more ++ [c] else c :: more
  | none, least + 1 => (exactEnds step least [c]).flatMap (manyEnds step greedy)

/-- The positions where a match that starts at one of some cursors can end,
    best first and each once. The cursors are in order of preference too. -/
def Expr.endsFrom : Expr → List Cursor → List Cursor
  | .empty, cs => cs
  | .char x, cs => cs.flatMap (Cursor.over (· == x))
  | .charAnyCase x, cs => cs.flatMap (Cursor.over (sameFolded x))
  | .set s, cs => cs.flatMap (Cursor.over s.contains)
  | .anchor a, cs => cs.filter a.holdsAt
  | .seq a b, cs =>
    match a.endsFrom cs with
    | [] => []
    | ends => b.endsFrom ends
  | .alt a b, cs => distinct (cs.flatMap fun c => a.endsFrom [c] ++ b.endsFrom [c])
  | .rounds body least most greedy, cs =>
    distinct (cs.flatMap (roundsEnds (fun c => body.endsFrom [c]) least most greedy))

/-- The positions where a match that starts at a cursor can end. -/
def Expr.ends (e : Expr) (c : Cursor) : List Cursor :=
  e.endsFrom [c]

/-- The preferred end of a match that starts at a cursor. -/
def Expr.end? (e : Expr) (c : Cursor) : Option Cursor :=
  (e.ends c).head?

end SchemaRename.Pattern
