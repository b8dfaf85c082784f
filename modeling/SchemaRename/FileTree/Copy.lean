import SchemaRename.FileTree.AtomicWrite

/-!
# Copying and Counting Folders

A folder laid over another one, file by file.

Folders are created where they are missing, files are overwritten, and
nothing is ever removed from the target. Entries are taken in the order of
their names; an error stops the copy where it is, with what has been copied
in place.

The folder may contain the one it is copied into. The copy then finds itself
at every level, and goes on until its paths are too long for the system.
Every level makes the paths longer, so the greatest length of a path bounds
the depth, and is the fuel of both functions.

## Main definitions

* `FileTree.copyFolder`: Copies a folder into another one.
* `FileTree.countFiles`: The number of files below a folder.
-/

namespace SchemaRename.FileTree

/-- Copies one entry and counts its files. `copySubfolder` is the copy of a
    folder one level down. -/
def copyEntry
    (copySubfolder : FileTree → Path → Path → Except Error Nat × FileTree)
    (t : FileTree) (here there : Path) : Except Error Nat × FileTree :=
  if t.isFolder here then copySubfolder t here there
  else
    match t.copyFile here there with
    | .ok t => (.ok 1, t)
    | .error e => (.error (e.toError ("copy " ++ here.text ++ " -> " ++ there.text)), t)

/-- Copies the entries with the given names from one folder into another. -/
def copyEntries
    (copySubfolder : FileTree → Path → Path → Except Error Nat × FileTree)
    (source target : Path) : List String → FileTree → Except Error Nat × FileTree
  | [], t => (.ok 0, t)
  | name :: names, t =>
    match copyEntry copySubfolder t (source.join name) (target.join name) with
    | (.error e, t) => (.error e, t)
    | (.ok n, t) =>
      match copyEntries copySubfolder source target names t with
      | (.ok m, t) => (.ok (n + m), t)
      | (.error e, t) => (.error e, t)

/-- Copies a folder that is at most `depth` levels deep. -/
def copyFolderUpTo : Nat → FileTree → Path → Path → Except Error Nat × FileTree
  | 0, t, _, target => (.error (OsError.nameTooLong.toError ("create " ++ target.text)), t)
  | depth + 1, t, source, target =>
    match t.createFolders target with
    | (.error e, t) => (.error (e.toError ("create " ++ target.text)), t)
    | (.ok (), t) =>
      match t.list source with
      | .error e => (.error (e.toError ("list " ++ source.text)), t)
      | .ok names => copyEntries (copyFolderUpTo depth) source target names t

/-- Copies a folder into another one and counts the files. -/
def copyFolder (t : FileTree) (source target : Path) : Except Error Nat × FileTree :=
  copyFolderUpTo (maxPathSize + 1) t source target

/-- The number of files below a folder that is at most `depth` levels deep. -/
def countFilesUpTo : Nat → FileTree → Path → Except Error Nat
  | 0, _, _ => .ok 0
  | depth + 1, t, folder =>
    match t.list folder with
    | .error e => .error (e.toError ("list " ++ folder.text))
    | .ok names =>
      names.foldlM (fun total name =>
        let p := folder.join name
        if t.isFolder p then (countFilesUpTo depth t p).map (total + ·) else .ok (total + 1)) 0

/-- The number of files below a folder. -/
def countFiles (t : FileTree) (folder : Path) : Except Error Nat :=
  countFilesUpTo (maxPathSize + 1) t folder

end SchemaRename.FileTree
