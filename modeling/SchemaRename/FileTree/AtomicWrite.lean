import SchemaRename.Error
import SchemaRename.FileTree.Change

/-!
# Replacing a File at Once

Writing a file so that nobody ever sees half of it.

The new content goes to a temporary file beside the target, which is then
renamed over it. A target behind a link is found first, so the link survives
and the file behind it changes. A link that leads nowhere cannot be followed
and is itself replaced. If the temporary file cannot be written or renamed,
it is removed again.

Reading and removing are here too, with the context that an error report
gives for each of them.

## Main definitions

* `WriteMode`: Whether a pass changes files or only reports.
* `FileTree.read`: The text of a file, or the error a report shows.
* `FileTree.writeAtomic`: Replaces the content of a file at once.
* `FileTree.delete`: Removes what a path names.
-/

namespace SchemaRename

/-- Whether a pass changes files or only reports what it would change. -/
inductive WriteMode where
  | apply
  | dryRun
deriving Repr, DecidableEq

/-- Whether files are changed. -/
def WriteMode.writes : WriteMode → Bool
  | .apply => true
  | .dryRun => false

/-- The mode of a run. -/
def WriteMode.ofDryRun (dryRun : Bool) : WriteMode :=
  if dryRun then .dryRun else .apply

/-- The failure of an operation on files, as an error. -/
def OsError.toError (e : OsError) (context : String) : Error :=
  .of (.io e.message (some context))

/-- What is put behind the name of a file to name its temporary file. -/
def temporarySuffix : String :=
  ".tmp"

namespace FileTree

/-- The text of a file. `operation` is the context that an error shows. -/
def read (t : FileTree) (p : Path) (operation : String) : Except Error String :=
  (t.readText p).mapError (·.toError operation)

/-- The path whose file a write replaces: links are followed as long as they
    lead somewhere. -/
def writeTarget (t : FileTree) (p : Path) : Path :=
  match t.canonical? p with
  | some l => l.path
  | none => p

/-- Writes the temporary file and renames it over the target. -/
def replaceThrough (t : FileTree) (temporary target : Path) (content : String)
    (operation : String) : Except Error Unit × FileTree :=
  match t.write temporary (.text content) with
  | .error e =>
    let cleared := if t.isFile temporary then (t.removeFile temporary).toOption.getD t else t
    (.error (e.toError (operation ++ " (write temp)")), cleared)
  | .ok written =>
    match written.rename temporary target with
    | .ok renamed => (.ok (), renamed)
    | .error e =>
      let cleared := (written.removeFile temporary).toOption.getD written
      (.error (e.toError (operation ++ " (rename)")), cleared)

/-- Replaces the content of a file at once. -/
def writeAtomic (t : FileTree) (p : Path) (content : String) (operation : String) :
    Except Error Unit × FileTree :=
  let target := t.writeTarget p
  match target.parent?, target.fileName? with
  | some parent, some name =>
    t.replaceThrough (parent.join (name ++ temporarySuffix)) target content operation
  | _, _ => (.error (.of (.io ("Invalid path: " ++ target.text) (some operation))), t)

/-- Removes what a path names. -/
def delete (t : FileTree) (p : Path) (operation : String) : Except Error Unit × FileTree :=
  let (outcome, t) := t.remove p
  (outcome.mapError (·.toError operation), t)

end FileTree

end SchemaRename
