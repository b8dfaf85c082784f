import SchemaRename.Cleanup
import SchemaRename.Fetch
import SchemaRename.FileTree.Copy
import SchemaRename.Substitution

/-!
# Runs

A whole migration: substitute, migrate, clean up, overlay.

The expressions are worked through in order, and the files of each in the
order of their paths, so the same project always gives the same result. Then
what is tied to the prefix is removed, and the folder of hand-made files is
laid over the result.

What goes wrong with a single file is noted in the report. An error of the
configuration stops the run where it is; what has been written by then stays
written.

## Main definitions

* `BatchReport`: What became of the files of one expression.
* `substitutionBatch`, `referenceBatch`: The two kinds of batches.
* `OverlayReport`, `RunReport`: The rest of the report.
* `RunOptions`: What a run is asked to do.
* `run`: The whole migration.
-/

namespace SchemaRename

/-- How the files of an expression are handled. -/
inductive BatchKind where
  | substitution
  | reference
deriving Repr, DecidableEq

/-- A file that was rewritten. -/
structure FileChange where
  path : Path
  replacements : Nat
  written : Bool
deriving Repr, DecidableEq

/-- A file that was left alone, and why. -/
structure SkippedFile where
  path : Path
  reason : String
deriving Repr, DecidableEq

/-- What became of the files of one expression. -/
structure BatchReport where
  expression : String
  kind : BatchKind
  matchedFiles : Nat
  changed : List FileChange := []
  migrated : List Migrated := []
  skipped : List SkippedFile := []
  /-- Files that no rule applies to. -/
  outOfScope : Nat := 0
  untouched : Nat := 0
deriving Repr, DecidableEq

namespace BatchReport

/-- One more file was left alone. -/
def skip (b : BatchReport) (path : Path) (reason : String) : BatchReport :=
  { b with skipped := b.skipped ++ [⟨path, reason⟩] }

/-- One more file that no rule applies to. -/
def exclude (b : BatchReport) : BatchReport :=
  { b with outOfScope := b.outOfScope + 1 }

/-- One more file with nothing to change. -/
def leave (b : BatchReport) : BatchReport :=
  { b with untouched := b.untouched + 1 }

/-- Notes what a substitution did to a file. -/
def noteSubstitution (b : BatchReport) (path : Path) : SubstitutionOutcome → BatchReport
  | .missing => b.skip path "missing"
  | .unreadable error => b.skip path error
  | .writeFailed error => b.skip path ("write failed: " ++ error)
  | .unchanged => b.leave
  | .rewritten replacements written =>
    { b with changed := b.changed ++ [⟨path, replacements, written⟩] }

/-- Notes what a lookup migration did to a file. -/
def noteMigration (b : BatchReport) (path : Path) : Except SkippedReason Migrated → BatchReport
  | .ok migrated => { b with migrated := b.migrated ++ [migrated] }
  | .error .noMatchingReference => b.leave
  | .error reason => b.skip path reason.message

end BatchReport

/-- One more file of a substitution batch. -/
def substituteFile (rules : List Rule) (mode : WriteMode) (state : BatchReport × FileTree)
    (path : Path) : BatchReport × FileTree :=
  let (batch, t) := state
  let target := FileTarget.ofPath path
  let applicable := rules.filter (·.scope.allows target)
  if applicable.isEmpty then (batch.exclude, t)
  else
    let (outcome, t) := applyRules t path applicable mode
    (batch.noteSubstitution path outcome, t)

/-- Substitutes in the files of an expression. -/
def substitutionBatch (m : RenameMap) (expression : String) (files : List Path)
    (mode : WriteMode) (t : FileTree) : Except Cause BatchReport × FileTree :=
  match m.rules expression with
  | .error cause => (.error cause, t)
  | .ok rules =>
    let start : BatchReport :=
      { expression, kind := .substitution, matchedFiles := files.length }
    let (batch, t) := files.foldl (substituteFile rules mode) (start, t)
    (.ok batch, t)

/-- One more file of a reference batch. -/
def migrateFile (m : RenameMap) (mode : WriteMode) (state : BatchReport × FileTree)
    (path : Path) : BatchReport × FileTree :=
  let (batch, t) := state
  let (outcome, t) := migrateReference t path m.objects mode
  (batch.noteMigration path outcome, t)

/-- Migrates the field definitions of an expression. -/
def referenceBatch (m : RenameMap) (expression : String) (files : List Path)
    (mode : WriteMode) (t : FileTree) : BatchReport × FileTree :=
  let start : BatchReport := { expression, kind := .reference, matchedFiles := files.length }
  files.foldl (migrateFile m mode) (start, t)

/-- Handles one expression. -/
@[irreducible]
def runExpression (m : RenameMap) (input : Path) (mode : WriteMode) (expression : String)
    (t : FileTree) : Except Cause BatchReport × FileTree :=
  match expandExpression t input expression with
  | .error cause => (.error cause, t)
  | .ok files =>
    if isReferenceExpression expression then
      let (batch, t) := referenceBatch m expression files mode t
      (.ok batch, t)
    else substitutionBatch m expression files mode t

/-- Handles expressions in order, up to the first error. -/
def runExpressions (m : RenameMap) (input : Path) (mode : WriteMode) :
    List String → FileTree → Except Cause (List BatchReport) × FileTree
  | [], t => (.ok [], t)
  | expression :: expressions, t =>
    match runExpression m input mode expression t with
    | (.error cause, t) => (.error cause, t)
    | (.ok batch, t) =>
      match runExpressions m input mode expressions t with
      | (.error cause, t) => (.error cause, t)
      | (.ok batches, t) => (.ok (batch :: batches), t)

/-- What the overlay has copied, or would copy. -/
structure OverlayReport where
  source : Path
  files : Nat
  written : Bool
deriving Repr, DecidableEq

/-- The error for an overlay that is not there. -/
def missingOverlay (source : Path) : Cause :=
  .invalidValue "sfdxProjectFolder" (some source.text) "project folder does not exist" none

/-- Lays a folder over the project. -/
def copyOverlay (t : FileTree) (source input : Path) (mode : WriteMode) :
    Except Error OverlayReport × FileTree :=
  if !t.isFolder source then (.error (.of (missingOverlay source)), t)
  else if mode.writes then
    match t.copyFolder source input with
    | (.ok files, t) => (.ok ⟨source, files, true⟩, t)
    | (.error e, t) => (.error e, t)
  else
    match t.countFiles source with
    | .ok files => (.ok ⟨source, files, false⟩, t)
    | .error e => (.error e, t)

/-- The report of a run. -/
structure RunReport where
  inputFolder : Path
  dryRun : Bool
  batches : List BatchReport
  cleanup : Option CleanupReport
  overlay : Option OverlayReport
deriving Repr, DecidableEq

namespace RunReport

/-- The number of files that were rewritten. -/
def changedFiles (r : RunReport) : Nat :=
  (r.batches.map (·.changed.length)).foldr (· + ·) 0

/-- The number of files that were migrated. -/
def migratedFiles (r : RunReport) : Nat :=
  (r.batches.map (·.migrated.length)).foldr (· + ·) 0

end RunReport

/-- What a run is asked to do. -/
structure RunOptions where
  inputFolder : String := "."
  expressions : List String := defaultExpressions
  deleteFiles : Bool := true
  copyProject : Bool := true
  dryRun : Bool := false
deriving Repr, DecidableEq

namespace RunOptions

/-- The project folder of a run. -/
def input (options : RunOptions) (home : String) : Path :=
  ⟨Path.expandHome home options.inputFolder⟩

/-- Whether a run changes files. -/
def mode (options : RunOptions) : WriteMode :=
  .ofDryRun options.dryRun

end RunOptions

/-- The cleanup of a run, if the map and the options ask for one. -/
def runCleanup (m : RenameMap) (options : RunOptions) (input : Path) (mode : WriteMode)
    (t : FileTree) : Except Cause (Option CleanupReport) × FileTree :=
  match m.deletedPrefix, options.deleteFiles with
  | some deprecated, true =>
    match deleteDeprecated t input deprecated mode with
    | (.ok report, t) => (.ok (some report), t)
    | (.error cause, t) => (.error cause, t)
  | _, _ => (.ok none, t)

/-- The overlay of a run, if the map and the options ask for one. -/
def runOverlay (m : RenameMap) (home : String) (options : RunOptions) (input : Path)
    (mode : WriteMode) (t : FileTree) : Except Error (Option OverlayReport) × FileTree :=
  match m.overlayFolder? home, options.copyProject with
  | some source, true =>
    match copyOverlay t source input mode with
    | (.ok report, t) => (.ok (some report), t)
    | (.error e, t) => (.error e, t)
  | _, _ => (.ok none, t)

/-- The error for a project folder that is not there. -/
def missingInput (input : Path) : Cause :=
  .invalidArgument "input" ("Input folder not found: " ++ input.text) (some input.text) none

/-- Migrates a project. -/
def run (m : RenameMap) (home : String) (options : RunOptions) (t : FileTree) :
    Except Error RunReport × FileTree :=
  let mode := options.mode
  let input := options.input home
  if !t.isFolder input then (.error (.of (missingInput input)), t)
  else
    match m.validate with
    | .error cause => (.error (.of cause), t)
    | .ok () =>
      match runExpressions m input mode options.expressions t with
      | (.error cause, t) => (.error (.of cause), t)
      | (.ok batches, t) =>
        match runCleanup m options input mode t with
        | (.error cause, t) => (.error (.of cause), t)
        | (.ok cleanup, t) =>
          match runOverlay m home options input mode t with
          | (.error e, t) => (.error e, t)
          | (.ok overlay, t) => (.ok ⟨input, options.dryRun, batches, cleanup, overlay⟩, t)

end SchemaRename
