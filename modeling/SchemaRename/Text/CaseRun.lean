/-!
# Runs of Case Pairs

Case conversion tables, compressed to arithmetic.

Upper-case and lower-case forms come in long runs at one distance from each
other (the Latin alphabet at 32) or alternate letter by letter at distance
one. A run says so once: its first and last code point, the step between the
members and the signed distance to their counterparts. Folding, upper-casing
and lower-casing are each one list of runs, and a member belongs to one run
only, so the first run that covers a code point decides.

## Main definitions

* `CaseRun`: Equally spaced code points at one distance from their images.
* `CaseRun.covers`, `CaseRun.image`: Membership and counterpart.
* `CaseRun.preimage?`: The member that a run takes to a given code point.
* `shiftedBy`: The image of a character under the first run that covers it.
-/

namespace SchemaRename.Text

/-- Code points `first`, `first + stride`, … up to `last`, each with its image
    at distance `shift`. -/
structure CaseRun where
  first : Nat
  last : Nat
  stride : Nat
  shift : Int
deriving Repr, DecidableEq

namespace CaseRun

/-- Whether a code point is a member of the run. -/
def covers (run : CaseRun) (n : Nat) : Bool :=
  run.first ≤ n && n ≤ run.last && (n - run.first) % run.stride == 0

/-- The code point at the run's distance from `n`. -/
def image (run : CaseRun) (n : Nat) : Nat :=
  (Int.ofNat n + run.shift).toNat

/-- The member whose image is `n`, if the run has one. -/
def preimage? (run : CaseRun) (n : Nat) : Option Nat :=
  let source := (Int.ofNat n - run.shift).toNat
  if run.covers source && run.image source == n then some source else none

end CaseRun

/-- The image of `c` under the first run that covers it; a character that no
    run covers is its own image. -/
def shiftedBy (runs : List CaseRun) (c : Char) : Char :=
  match runs.find? (·.covers c.toNat) with
  | some run => Char.ofNat (run.image c.toNat)
  | none => c

end SchemaRename.Text
