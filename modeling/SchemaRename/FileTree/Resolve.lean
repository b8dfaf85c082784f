import SchemaRename.FileTree.Basic

/-!
# From Paths to Locations

Where a path leads in a tree.

A path is walked from the left: each name is looked up in the folder reached
so far, a dot stays, two dots go up, and a link is replaced by its target.
The last name is special in two ways. An operation on the link itself does
not follow it, and an operation that creates a file accepts that it is
missing, provided the folder it would stand in is there.

Links may lead in circles, so a walk follows at most forty of them. Names and
whole paths have a greatest length too; it is what stops a copy of a folder
into itself.

## Main definitions

* `Place`: Where a walk ends.
* `FileTree.walkTo`, `FileTree.walk`: The walk along the pieces of a path, up
  to a link and with links.
* `FileTree.resolve`: The place a path leads to.
* `FileTree.locate`: The location of an existing entry.
* `FileTree.isFolder`, `FileTree.isFile`, `FileTree.exists?`: What a path
  leads to, links followed.
* `FileTree.canonical?`: The location of a path that leads somewhere.
-/

namespace SchemaRename

/-- Where a walk ends. -/
inductive Place where
  | found (l : Location)
  /-- Only the last name is missing from an existing folder. -/
  | missing (folder : Location) (name : String)
deriving Repr, DecidableEq

/-- The greatest length of a name, in bytes. -/
def maxNameSize : Nat :=
  255

/-- The greatest length of a path, in bytes. -/
def maxPathSize : Nat :=
  4095

/-- The number of links that one walk follows. -/
def maxLinks : Nat :=
  40

namespace Path

/-- The names of a path, dots included. -/
def steps (p : Path) : List String :=
  p.pieces.filter (· != "")

/-- The names of a path for a walk that has to end in a folder if the path
    ends in a slash. -/
def stepsToFolder (p : Path) : List String :=
  p.steps ++ if p.endsInSlash then ["."] else []

end Path

namespace FileTree

/-- Walks from a folder along some names; the last name is followed only if
    `follow`. A link that is followed is left to `jump`, which walks on from
    the folder its target starts from. -/
def walkTo (t : FileTree) (follow : Bool) (jump : Location → List String → Except OsError Place) :
    Location → List String → Except OsError Place
  | here, [] => .ok (.found here)
  | here, name :: rest =>
    match t.get? here with
    | none => .error .notFound
    | some (.file _) | some (.link _) => .error .notFolder
    | some .folder =>
      if name == "." then t.walkTo follow jump here rest
      else if name == ".." then t.walkTo follow jump here.dropLast rest
      else if maxNameSize < name.utf8ByteSize then .error .nameTooLong
      else
        let there := here ++ [name]
        match t.get? there with
        | none => if rest.isEmpty then .ok (.missing here name) else .error .notFound
        | some .folder => t.walkTo follow jump there rest
        | some (.file _) => if rest.isEmpty then .ok (.found there) else .error .notFolder
        | some (.link target) =>
          if rest.isEmpty && !follow then .ok (.found there)
          else
            let from_ := if (Path.mk target).isAbsolute then [] else here
            jump from_ ((Path.mk target).stepsToFolder ++ rest)

/-- Walks from a folder along some names, following at most `links` links. -/
def walk (t : FileTree) (follow : Bool) :
    Nat → Location → List String → Except OsError Place
  | 0 => t.walkTo follow fun _ _ => .error .tooManyLinks
  | links + 1 => t.walkTo follow (t.walk follow links)

/-- Walks along the given names of a path. It is unfolded by name only: on a
    path that is not known, evaluation would follow all links in vain. -/
@[irreducible]
def resolveSteps (t : FileTree) (follow : Bool) (p : Path) (names : List String) :
    Except OsError Place :=
  if p.text.isEmpty then .error .notFound
  else if maxPathSize < p.text.utf8ByteSize then .error .nameTooLong
  else t.walk follow maxLinks (if p.isAbsolute then [] else t.workingFolder) names

/-- The place a path leads to. -/
def resolve (t : FileTree) (follow : Bool) (p : Path) : Except OsError Place :=
  t.resolveSteps follow p p.stepsToFolder

/-- The location of the existing entry that a path leads to. -/
def locate (t : FileTree) (follow : Bool) (p : Path) : Except OsError Location := do
  match ← t.resolve follow p with
  | .found l => return l
  | .missing _ _ => throw .notFound

/-- The entry that a path leads to. -/
def entryAt? (t : FileTree) (follow : Bool) (p : Path) : Option Entry :=
  match t.locate follow p with
  | .ok l => t.get? l
  | .error _ => none

/-- Whether a path leads to a folder. -/
def isFolder (t : FileTree) (p : Path) : Bool :=
  match t.entryAt? true p with
  | some .folder => true
  | _ => false

/-- Whether a path leads to a file. -/
def isFile (t : FileTree) (p : Path) : Bool :=
  match t.entryAt? true p with
  | some (.file _) => true
  | _ => false

/-- Whether a path leads to anything, links followed. -/
def exists? (t : FileTree) (p : Path) : Bool :=
  (t.entryAt? true p).isSome

/-- Whether a path names an entry, be it a link that leads nowhere. -/
def isPresent (t : FileTree) (p : Path) : Bool :=
  t.exists? p || (t.entryAt? false p).isSome

/-- The location that a path leads to, if it leads to an entry. -/
def canonical? (t : FileTree) (p : Path) : Option Location :=
  (t.locate true p).toOption

end FileTree

/-- The path of a location. -/
def Location.path (l : Location) : Path :=
  ⟨"/" ++ "/".intercalate l⟩

end SchemaRename
