import SchemaRename.Glob.Walk
import SchemaRename.Lookup
import SchemaRename.Text.CaseMap
import SchemaRename.Text.Search

/-!
# Cleanup

Removing what is still tied to a prefix that has gone out of use.

A project has a folder for each type of metadata, and the entries of these
folders are looked at one by one. An entry goes if its path below the project
folder contains the prefix, if it is a lookup field that points at an object
with the prefix, or if it is a layout that still places a field or an action
with it. Folders that stay are looked into.

A removal that fails is noted and the walk goes on. Entries of a folder are
listed before any of them is removed, so an entry may be gone when its turn
comes, and that is a failure too.

## Main definitions

* `Verdict`: What becomes of an entry.
* `judge`: The verdict on an entry.
* `CleanupReport`: What was looked at, removed and not removed.
* `sweep`: The walk over a list of entries.
* `deleteDeprecated`: The cleanup of a project folder.
-/

namespace SchemaRename

open SchemaRename.Markup

/-- Whether a text holds another one. -/
def holds (text needle : String) : Bool :=
  Text.occursIn needle.toList text.toList

/-- How the file name of a layout ends. -/
def layoutFileSuffix : String :=
  ".layout-meta.xml"

/-- Where a layout places its fields. -/
def layoutFieldPath : List String :=
  ["layoutSections", "layoutColumns", "layoutItems", "field"]

/-- Where a layout places its actions. -/
def layoutActionPath : List String :=
  ["platformActionList", "platformActionListItems", "actionName"]

/-- An entry that could not be removed. -/
structure CleanupFailure where
  path : Path
  error : String
deriving Repr, DecidableEq

/-- What a cleanup has looked at, removed and failed to remove. On a dry run
    the removed entries are those that would be. -/
structure CleanupReport where
  scanned : Nat := 0
  removed : List Path := []
  failures : List CleanupFailure := []
deriving Repr, DecidableEq

/-- What becomes of an entry. -/
inductive Verdict where
  | remove
  | descend
  | keep
deriving Repr, DecidableEq

/-- Whether the file name of a path ends in a suffix, in any letter case. -/
def hasSuffix (path : Path) (suffix : String) : Bool :=
  path.fileName?.any fun name => suffix.toList.isSuffixOf (Text.lowerCase name.toList)

/-- Whether a field definition points at an object with the prefix. -/
def referencesPrefix (deprecated : String) (d : Document) : Bool :=
  d.roots.any fun root => (root.firstValue? "referenceTo").any (holds · deprecated)

/-- Whether a layout places a field or an action with the prefix. -/
def placesPrefix (deprecated : String) (d : Document) : Bool :=
  d.roots.any fun root =>
    (root.descendantsAt layoutFieldPath ++ root.descendantsAt layoutActionPath).any fun e =>
      e.text.any (holds · deprecated)

/-- The verdict on a file by what is in it. One that cannot be read is
    kept. -/
def judgeContent (t : FileTree) (path : Path) (isTied : Document → Bool) : Verdict :=
  match t.readText path with
  | .error _ => .keep
  | .ok content =>
    match Document.parse content with
    | .error _ => .keep
    | .ok d => if isTied d then .remove else .keep

/-- The part of a path that is searched for the prefix: what is below the
    project folder, or all of it if the two are spelled differently. -/
def searchedPart (root path : Path) : String :=
  (path.relativeTo? root).getD path.text

/-- The verdict on an entry. -/
@[irreducible]
def judge (t : FileTree) (root path : Path) (deprecated : String) : Verdict :=
  if holds (searchedPart root path) deprecated then .remove
  else if t.isFolder path then .descend
  else if hasSuffix path fieldFileSuffix then judgeContent t path (referencesPrefix deprecated)
  else if hasSuffix path layoutFileSuffix then judgeContent t path (placesPrefix deprecated)
  else .keep

/-- The entries that fit a pattern. -/
def listEntries (t : FileTree) (pattern : String) : Except Cause (List Path) :=
  match Glob.find t pattern with
  | .ok paths => .ok paths
  | .error fault =>
    .error (.invalidArgument "input"
      ("Invalid glob pattern '" ++ pattern ++ "': " ++ fault.message) (some pattern) none)

/-- The pattern for the entries of a folder. -/
def childrenPattern (folder : Path) : String :=
  Glob.escape folder.text ++ "/*"

namespace CleanupReport

/-- One more entry has been looked at. -/
def scan (r : CleanupReport) : CleanupReport :=
  { r with scanned := r.scanned + 1 }

/-- One more entry has been removed. -/
def remove (r : CleanupReport) (path : Path) : CleanupReport :=
  { r with removed := r.removed ++ [path] }

/-- One more entry could not be removed. -/
def fail (r : CleanupReport) (path : Path) (error : String) : CleanupReport :=
  { r with failures := r.failures ++ [⟨path, error⟩] }

end CleanupReport

/-- Removes an entry, or notes that it would be removed. -/
def removeEntry (mode : WriteMode) (path : Path) (report : CleanupReport) (t : FileTree) :
    CleanupReport × FileTree :=
  if mode.writes then
    match t.delete path ("remove " ++ path.text) with
    | (.error e, t) => (report.fail path e.cause.message, t)
    | (.ok (), t) => (report.remove path, t)
  else (report.remove path, t)

/-- Goes through a list of entries. `sweepFolder` is the sweep of a folder one
    level down. -/
def sweepEntries (root : Path) (deprecated : String) (mode : WriteMode)
    (sweepFolder : Path → CleanupReport → FileTree → Except Cause CleanupReport × FileTree) :
    List Path → CleanupReport → FileTree → Except Cause CleanupReport × FileTree
  | [], report, t => (.ok report, t)
  | path :: paths, report, t =>
    match judge t root path deprecated with
    | .keep => sweepEntries root deprecated mode sweepFolder paths report.scan t
    | .remove =>
      let (report, t) := removeEntry mode path report.scan t
      sweepEntries root deprecated mode sweepFolder paths report t
    | .descend =>
      match sweepFolder path report.scan t with
      | (.error cause, t) => (.error cause, t)
      | (.ok report, t) => sweepEntries root deprecated mode sweepFolder paths report t

/-- Goes through the entries of a folder, at most `depth` levels down. Every
    level makes the paths longer, and a path that is too long leads to no
    folder. -/
def sweepFolder (root : Path) (deprecated : String) (mode : WriteMode) :
    Nat → Path → CleanupReport → FileTree → Except Cause CleanupReport × FileTree
  | 0, _, report, t => (.ok report, t)
  | depth + 1, folder, report, t =>
    match listEntries t (childrenPattern folder) with
    | .error cause => (.error cause, t)
    | .ok paths =>
      sweepEntries root deprecated mode (sweepFolder root deprecated mode depth) paths report t

/-- The pattern for the entries two levels below a project folder. -/
def candidatesPattern (root : Path) : String :=
  Glob.escape root.text ++ "/*/*"

/-- Goes through a list of entries and everything below them. -/
def sweep (t : FileTree) (root : Path) (candidates : List Path) (deprecated : String)
    (mode : WriteMode) : Except Cause CleanupReport × FileTree :=
  sweepEntries root deprecated mode (sweepFolder root deprecated mode maxPathSize) candidates {} t

/-- Removes everything under a project folder that is still tied to a
    prefix. -/
def deleteDeprecated (t : FileTree) (root : Path) (deprecated : String) (mode : WriteMode) :
    Except Cause CleanupReport × FileTree :=
  if deprecated.isEmpty then (.error emptyPrefix, t)
  else
    match listEntries t (candidatesPattern root) with
    | .error cause => (.error cause, t)
    | .ok candidates => sweep t root candidates deprecated mode

end SchemaRename
