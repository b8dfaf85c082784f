/-!
# Run-Length Coded Character Tables

Properties of characters that a standard lists range by range, held as text.

The general category alone takes four thousand ranges. Written as a list of
numbers such a table is slow to read for a person and for the compiler; run
lengths are short and keep the order of the standard. A table is a sequence
of runs that starts at code point zero: a mark, then the number of code
points that carry it, left out when it is one.

## Main definitions

* `Run`: A mark and the number of consecutive code points that carry it.
* `decodeRuns`: The runs a table's text stands for.
* `markAt`: The mark of a code point, if the table reaches that far.
-/

namespace SchemaRename.Text

/-- Consecutive code points with one mark. -/
structure Run where
  mark : Char
  size : Nat
deriving Repr, DecidableEq

/-- Reads the runs off a table's text, last character first: digits collect
    into the size of the run whose mark stands in front of them. -/
def decodeRuns (text : String) : List Run :=
  (text.toList.foldr addSymbol (none, [])).2
where
  /-- Places one more symbol in front of what has been read. A pending size
      is kept with the weight of its next digit. -/
  addSymbol (c : Char) : Option (Nat × Nat) × List Run → Option (Nat × Nat) × List Run
    | (pending, runs) =>
      if c.isDigit then
        let digit := c.toNat - '0'.toNat
        match pending with
        | none => (some (digit, 10), runs)
        | some (size, weight) => (some (digit * weight + size, weight * 10), runs)
      else
        match pending with
        | none => (none, ⟨c, 1⟩ :: runs)
        | some (size, _) => (none, ⟨c, size⟩ :: runs)

/-- The mark of the code point `n` places after the start of the first run. -/
def markAt : List Run → Nat → Option Char
  | [], _ => none
  | run :: rest, n => if n < run.size then some run.mark else markAt rest (n - run.size)

end SchemaRename.Text
