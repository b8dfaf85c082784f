/-!
# Paths

The text that names a file, and what it says.

A path is kept as it was written, because reports show it that way, and is
understood through its components: doubled and trailing slashes say nothing,
and neither does a dot, unless the path starts with it. Two paths are the
same when their components are, and paths are sorted by their components, so
a folder's files stand together and `c/x` comes before `c-d/x`.

Components say nothing about the files behind them. In particular `..` is a
component like any other here; only a walk through a tree knows where it
leads.

## Main definitions

* `Component`: A step of a path.
* `Path`: A path as it is written.
* `Path.components`: What a path says.
* `inOrder`: The members of a list in an order.
* `Path.le`: The order of paths.
* `Path.join`: A path followed by another one.
* `Path.fileName?`, `Path.parent?`: The last step and what comes before it.
* `Path.relativeTo?`: The steps of a path below another one.
* `Path.expandHome`: A path with a leading tilde resolved.

## Theorems

* `inOrder_perm`: Putting a list in order changes nothing but the order.
-/

namespace SchemaRename

/-- Puts a member in its place in a list that is in order, in front of its
    equals. -/
def insertInOrder {α : Type} (le : α → α → Bool) (a : α) : List α → List α
  | [] => [a]
  | b :: rest => if le a b then a :: b :: rest else b :: insertInOrder le a rest

/-- The members of a list in an order. Equals stay in the order they have. -/
def inOrder {α : Type} (le : α → α → Bool) (l : List α) : List α :=
  l.foldr (insertInOrder le) []

theorem insertInOrder_perm {α : Type} (le : α → α → Bool) (a : α) (l : List α) :
    (insertInOrder le a l).Perm (a :: l) := by
  induction l with
  | nil => exact .refl _
  | cons b rest ih =>
    rw [insertInOrder]
    split
    · exact .refl _
    · exact (ih.cons b).trans (.swap a b rest)

/-- Putting a list in order changes nothing but the order. -/
theorem inOrder_perm {α : Type} (le : α → α → Bool) (l : List α) : (inOrder le l).Perm l := by
  induction l with
  | nil => exact .refl _
  | cons a l ih => exact (insertInOrder_perm le a _).trans (ih.cons a)

/-- A step of a path. -/
inductive Component where
  | root
  | current
  | parent
  | name (s : String)
deriving Repr, DecidableEq

namespace Component

/-- The text of a step. -/
def text : Component → String
  | .root => "/"
  | .current => "."
  | .parent => ".."
  | .name s => s

/-- The place of a step's kind in the order of steps. -/
def rank : Component → Nat
  | .root => 0
  | .current => 1
  | .parent => 2
  | .name _ => 3

/-- Steps in order: by kind, and names by their characters. -/
def order : Component → Component → Ordering
  | .name a, .name b => compare a b
  | a, b => compare a.rank b.rank

/-- The step a piece between slashes stands for, inside a path. -/
def ofPiece? (piece : String) : Option Component :=
  if piece == "" || piece == "." then none
  else if piece == ".." then some .parent
  else some (.name piece)

end Component

/-- A path as it is written. -/
structure Path where
  text : String
deriving Repr, DecidableEq

namespace Path

/-- The pieces of a path between its slashes. -/
def pieces (p : Path) : List String :=
  (p.text.toList.splitOn '/').map String.ofList

/-- What a path says. -/
def components (p : Path) : List Component :=
  match p.pieces with
  | "" :: piece :: rest => .root :: (piece :: rest).filterMap Component.ofPiece?
  | "." :: rest => .current :: rest.filterMap Component.ofPiece?
  | pieces => pieces.filterMap Component.ofPiece?

/-- Whether two paths say the same. -/
def same (p q : Path) : Bool :=
  p.components == q.components

/-- Lists of steps in order. -/
def orderSteps : List Component → List Component → Ordering
  | [], [] => .eq
  | [], _ :: _ => .lt
  | _ :: _, [] => .gt
  | a :: as, b :: bs => (a.order b).then (orderSteps as bs)

/-- Whether a path comes before another one, or says the same. -/
def le (p q : Path) : Bool :=
  orderSteps p.components q.components != .gt

/-- Whether a path starts at the root. -/
def isAbsolute (p : Path) : Bool :=
  p.text.toList.head? == some '/'

/-- Whether a path ends in a slash. -/
def endsInSlash (p : Path) : Bool :=
  p.text.toList.getLast? == some '/'

/-- A path followed by another one. One that starts at the root stands
    alone. -/
def join (p : Path) (next : String) : Path :=
  if (Path.mk next).isAbsolute then ⟨next⟩
  else if p.text.isEmpty || p.endsInSlash then ⟨p.text ++ next⟩
  else ⟨p.text ++ "/" ++ next⟩

/-- The path of some steps. -/
def ofComponents (steps : List Component) : Path :=
  steps.foldl (fun p step => p.join step.text) ⟨""⟩

/-- The last step, if it is a name. -/
def fileName? (p : Path) : Option String :=
  match p.components.getLast? with
  | some (.name s) => some s
  | _ => none

/-- The path without its last step. The root has none. -/
def parent? (p : Path) : Option Path :=
  match p.components.getLast? with
  | none | some .root => none
  | some _ => some (ofComponents p.components.dropLast)

/-- What follows one list of steps in another. -/
def stepsAfter? : List Component → List Component → Option (List Component)
  | [], steps => some steps
  | _ :: _, [] => none
  | a :: as, b :: bs => if a == b then stepsAfter? as bs else none

/-- The steps of a path below a folder, as text, if the path starts with the
    folder's steps. -/
def relativeTo? (p folder : Path) : Option String :=
  (stepsAfter? folder.components p.components).map fun steps => (ofComponents steps).text

/-- A path with a leading tilde replaced by the home folder. Only a tilde that
    is a whole step counts. -/
def expandHome (home : String) (text : String) : String :=
  match text.toList with
  | ['~'] => home
  | '~' :: '/' :: rest => home ++ "/" ++ String.ofList rest
  | _ => text

end Path

end SchemaRename
