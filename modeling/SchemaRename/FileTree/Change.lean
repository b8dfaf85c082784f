import SchemaRename.FileTree.Resolve

/-!
# Changes to a File Tree

The operations of a file system, as functions on trees.

Each operation resolves its paths the way the system does and then changes
entries. An operation that either succeeds or leaves everything as it was
gives back an `Except`; creating a chain of folders and removing a folder can
stop halfway, so they give back the tree they leave behind beside the
outcome.

## Main definitions

* `FileTree.readText`: The text of a file.
* `FileTree.write`: Creates a file or replaces its content.
* `FileTree.rename`: Moves an entry over another one.
* `FileTree.createFolders`: A folder and the folders above it.
* `FileTree.remove`: Removes a file, a link or a whole folder.
* `FileTree.copyFile`: Copies the content of a file.
* `FileTree.list`: The names in a folder.
-/

namespace SchemaRename.FileTree

/-- The content of the file that a path leads to. -/
def readContent (t : FileTree) (p : Path) : Except OsError Content := do
  match t.get? (← t.locate true p) with
  | some (.file content) => return content
  | some .folder => throw .isFolder
  | _ => throw .notFound

/-- The text of the file that a path leads to. -/
def readText (t : FileTree) (p : Path) : Except OsError String := do
  match ← t.readContent p with
  | .text s => return s
  | .bytes _ => throw .invalidText

/-- Puts content at the place a path leads to: an existing file is emptied and
    written, a missing one is created, and links are followed. -/
def write (t : FileTree) (p : Path) (content : Content) : Except OsError FileTree := do
  match ← t.resolve true p with
  | .missing folder name => return t.insert (folder ++ [name]) (.file content)
  | .found l =>
    match t.get? l with
    | some .folder => throw .isFolder
    | _ => return t.insert l (.file content)

/-- Moves the entry at one path to another one. Links at the end of either
    path are not followed. A file takes the place of a file or a link, but not
    of a folder, and a path with a trailing slash names no file. -/
def rename (t : FileTree) (source target : Path) : Except OsError FileTree := do
  let here ← t.locate false source
  match t.get? here with
  | none => throw .notFound
  | some entry =>
    match ← t.resolveSteps false target target.steps with
    | .missing folder name =>
      if target.endsInSlash then throw .notFolder
      return (t.erase here).insert (folder ++ [name]) entry
    | .found l =>
      if target.endsInSlash then throw .notFolder
      match t.get? l with
      | some .folder => throw .isFolder
      | _ => return (t.erase here).insert l entry

/-- Creates one folder. -/
def createFolder (t : FileTree) (p : Path) : Except OsError FileTree := do
  match ← t.resolveSteps false p p.steps with
  | .found _ => throw .alreadyExists
  | .missing folder name => return t.insert (folder ++ [name]) .folder

/-- Creates a folder and, if they are missing, the folders above it; at most
    `levels` of them. A folder that is there already is fine. -/
def createFoldersUpTo : Nat → FileTree → Path → Except OsError Unit × FileTree
  | levels, t, p =>
    if p.text.isEmpty then (.ok (), t)
    else
      match t.createFolder p with
      | .ok t => (.ok (), t)
      | .error .notFound =>
        match levels, p.parent? with
        | levels + 1, some parent =>
          match createFoldersUpTo levels t parent with
          | (.error e, t) => (.error e, t)
          | (.ok (), t) =>
            match t.createFolder p with
            | .ok t => (.ok (), t)
            | .error e => (if t.isFolder p then .ok () else .error e, t)
        | _, _ => (.error .notFound, t)
      | .error e => (if t.isFolder p then .ok () else .error e, t)

/-- Creates a folder and the folders above it. -/
def createFolders (t : FileTree) (p : Path) : Except OsError Unit × FileTree :=
  createFoldersUpTo p.components.length t p

/-- Removes a file or a link. -/
def removeFile (t : FileTree) (p : Path) : Except OsError FileTree := do
  let l ← t.locate false p
  match t.get? l with
  | some .folder => throw .isFolder
  | _ => return t.erase l

/-- Removes an empty folder. The last name of the path has to name it: a dot
    or two dots do not, and a link to it does not either. -/
def removeEmptyFolder (t : FileTree) (p : Path) : Except OsError FileTree := do
  match p.steps.getLast? with
  | none => throw .busy
  | some "." => throw .invalidArgument
  | some ".." =>
    let _ ← t.locate false p
    throw .notEmpty
  | some _ =>
    match ← t.resolveSteps false p p.steps with
    | .missing _ _ => throw .notFound
    | .found l =>
      match t.get? l with
      | some .folder => return t.erase l
      | _ => throw .notFolder

/-- Removes a folder with everything below it. A link to a folder is removed
    itself. That the folder is gone at the end is no failure. -/
def removeFolder (t : FileTree) (p : Path) : Except OsError Unit × FileTree :=
  match t.locate false p with
  | .error e => (.error e, t)
  | .ok l =>
    match t.get? l with
    | some .folder =>
      let emptied := t.eraseBelow l
      match emptied.removeEmptyFolder p with
      | .ok t => (.ok (), t)
      | .error .notFound => (.ok (), emptied)
      | .error e => (.error e, emptied)
    | _ => (.ok (), t.erase l)

/-- Removes what a path names. -/
def remove (t : FileTree) (p : Path) : Except OsError Unit × FileTree :=
  if t.isFolder p then t.removeFolder p
  else
    match t.removeFile p with
    | .ok t => (.ok (), t)
    | .error e => (.error e, t)

/-- Copies the content of a file. The target is emptied before the source is
    read, so a file that is copied onto itself ends up empty. -/
def copyFile (t : FileTree) (source target : Path) : Except OsError FileTree := do
  let _ ← t.readContent source
  let emptied ← t.write target (.text "")
  let content ← emptied.readContent source
  emptied.write target content

/-- The names in the folder that a path leads to. -/
def list (t : FileTree) (p : Path) : Except OsError (List String) := do
  let l ← t.locate true p
  match t.get? l with
  | some .folder => return t.children l
  | _ => throw .notFolder

end SchemaRename.FileTree
