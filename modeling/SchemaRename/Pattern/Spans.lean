import SchemaRename.Pattern.Expr

/-!
# Matches of a Pattern in a Text

Where a pattern matches, and what replacing the matches gives.

Matches are found from left to right and do not overlap: positions are tried
one after the other, the first one where the pattern matches opens a span,
and the search goes on at its end. A pattern may match the empty text. An
empty match is a span too, except directly behind another span, where it
would be found again and again.

Counting and replacing are both defined from the one list of spans, so they
cannot disagree.

## Main definitions

* `Span`: The part of a text between two indices.
* `Expr.spans`: The matches of a pattern in a text.
* `Expr.occursIn`: Whether there is a match at all.
* `replaceSpans`: A text with its spans replaced.
-/

namespace SchemaRename.Pattern

/-- The characters of a text from `start` up to, not including, `stop`. -/
structure Span where
  start : Nat
  stop : Nat
deriving Repr, DecidableEq

/-- The span of a match that starts at a cursor, given the end of the span
    before it. Positions inside that span are taken, and directly behind it an
    empty match does not count. -/
def Expr.spanAt? (e : Expr) (last : Option Nat) (c : Cursor) : Option Span :=
  if last.any (c.index < ·) then none
  else
    match e.end? c with
    | none => none
    | some stop =>
      if stop.index == c.index && last == some c.index then none
      else some ⟨c.index, stop.index⟩

/-- The spans from a position on. `last` is the end of the span before it. -/
def Expr.spansFrom (e : Expr) (last : Option Nat) (index : Nat) (prev : Option Char) :
    List Char → List Span
  | [] => (e.spanAt? last ⟨index, prev, []⟩).toList
  | x :: rest =>
    match e.spanAt? last ⟨index, prev, x :: rest⟩ with
    | none => e.spansFrom last (index + 1) (some x) rest
    | some span => span :: e.spansFrom (some span.stop) (index + 1) (some x) rest

/-- The matches of a pattern in a text, from left to right. -/
def Expr.spans (e : Expr) (text : List Char) : List Span :=
  e.spansFrom none 0 none text

/-- Whether a pattern matches somewhere from a position on. -/
def Expr.occursFrom (e : Expr) (index : Nat) (prev : Option Char) : List Char → Bool
  | [] => (e.end? ⟨index, prev, []⟩).isSome
  | x :: rest =>
    (e.end? ⟨index, prev, x :: rest⟩).isSome || e.occursFrom (index + 1) (some x) rest

/-- Whether a pattern matches somewhere in a text. -/
def Expr.occursIn (e : Expr) (text : List Char) : Bool :=
  e.occursFrom 0 none text

/-- A text, from position `index` on, with each span replaced. -/
def replaceSpansFrom (replacement : List Char) (index : Nat) :
    List Span → List Char → List Char
  | [], text => text
  | span :: spans, text =>
    text.take (span.start - index) ++ replacement ++
      replaceSpansFrom replacement span.stop spans (text.drop (span.stop - index))

/-- A text with each span replaced and everything between the spans kept. -/
def replaceSpans (replacement : List Char) (spans : List Span) (text : List Char) : List Char :=
  replaceSpansFrom replacement 0 spans text

end SchemaRename.Pattern
