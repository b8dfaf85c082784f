import SchemaRename.FileTree.Basic

/-!
# What Changed Between Two Trees

The steps that turn one tree into another.

The tool works on a tree as a value. Whoever holds the real files needs to
know which of them to touch afterwards, and in which order: what has gone is
removed from the inside out, folders are made from the outside in, and files
are written last.

## Main definitions

* `Edit`: One step on real files.
* `FileTree.edits`: The steps from one tree to another.
-/

namespace SchemaRename

/-- One step on real files. -/
inductive Edit where
  | removeFile (l : Location)
  | removeFolder (l : Location)
  | createFolder (l : Location)
  | writeFile (l : Location) (content : Content)
deriving Repr, DecidableEq

namespace FileTree

/-- Whether two entries are of one kind, so that the second can take the place
    of the first without a removal. -/
def sameKind : Entry → Entry → Bool
  | .folder, .folder => true
  | .file _, .file _ => true
  | .link _, .link _ => true
  | _, _ => false

/-- The removal of an entry that is not there any more, or is of another kind
    now. -/
def removal? (after : FileTree) (old : Location × Entry) : Option Edit :=
  if (after.get? old.1).any (sameKind old.2) then none
  else
    match old.2 with
    | .folder => some (.removeFolder old.1)
    | _ => some (.removeFile old.1)

/-- The folder that an entry is and was not before. -/
def newFolder? (before : FileTree) (new : Location × Entry) : Option Edit :=
  match new.2 with
  | .folder => if before.get? new.1 == some .folder then none else some (.createFolder new.1)
  | _ => none

/-- The file whose content is not what it was before. -/
def newContent? (before : FileTree) (new : Location × Entry) : Option Edit :=
  match new.2 with
  | .file content =>
    if before.get? new.1 == some (.file content) then none else some (.writeFile new.1 content)
  | _ => none

/-- The steps that turn one tree into another. -/
def edits (before after : FileTree) : List Edit :=
  let inner := before.entries.mergeSort fun a b => b.1.length ≤ a.1.length
  let outer := after.entries.mergeSort fun a b => a.1.length ≤ b.1.length
  inner.filterMap after.removal? ++ outer.filterMap before.newFolder? ++
    outer.filterMap before.newContent?

end FileTree

end SchemaRename
