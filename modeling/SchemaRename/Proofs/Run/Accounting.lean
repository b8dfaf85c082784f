import Mathlib.Algebra.GroupWithZero.Nat
import SchemaRename.Proofs.Run.Foretelling

/-!
# Every File Once

What the numbers in a report add up to.

A batch goes through its files, and one of five things becomes of each of
them. The report lists some of the files and only counts the others, so it
does not show that none is missing and none is there twice. A ledger does: it
has one line for each file, in the order of the files, with what became of it.
The report of a batch is always the summary of a ledger, whatever happens to
the files while the batch is on.

A batch of either kind writes its ledger line by line. What one line adds to
the report is the same for both; they differ in what can become of a file. No
file of a substitution is migrated, and no file of a migration is changed or
out of scope.

## Main definitions

* `Fate`: What became of a file.
* `pathsOf`: The files of a ledger that something became of.
* `Balances`: A report that sums up a ledger.
* `Accounts`: A report that accounts for the files of a batch.
* `Books`: Batches that write a line for every file.

## Theorems

* `length_ledger`: The lines of a ledger, by what became of the files.
* `Balances.noteSubstitution`, `Balances.noteMigration`, `Balances.exclude`:
  One more line.
* `Books.foldl`: All the lines of a batch.
* `substitutionBatch_accounts`, `referenceBatch_accounts`: The two kinds of
  batches.
* `runExpressions_accounts`: The ledgers of a run.
* `batches_account_for_all_files`: What the numbers of a batch and of a run
  add up to.
-/

namespace SchemaRename

/-- What became of a file of a batch. -/
inductive Fate where
  | changed
  | migrated
  | skipped
  | outOfScope
  | untouched
deriving Repr, DecidableEq

/-- The files of a ledger that something became of, in order. -/
def pathsOf (fate : Fate) (ledger : List (Path × Fate)) : List Path :=
  (ledger.filter (·.2 == fate)).map Prod.fst

@[simp]
theorem pathsOf_nil (fate : Fate) : pathsOf fate [] = [] :=
  rfl

@[simp]
theorem pathsOf_append (fate : Fate) (ledger ledger' : List (Path × Fate)) :
    pathsOf fate (ledger ++ ledger') = pathsOf fate ledger ++ pathsOf fate ledger' := by
  rw [pathsOf, List.filter_append, List.map_append]
  rfl

@[simp]
theorem pathsOf_cons (fate : Fate) (line : Path × Fate) (ledger : List (Path × Fate)) :
    pathsOf fate (line :: ledger) =
      if line.2 = fate then line.1 :: pathsOf fate ledger else pathsOf fate ledger := by
  rw [pathsOf, List.filter_cons]
  by_cases h : line.2 = fate
  · rw [if_pos (beq_iff_eq.mpr h), if_pos h]
    rfl
  · rw [if_neg (by simpa using h), if_neg h]
    rfl

theorem pathsOf_eq_nil (fate : Fate) (ledger : List (Path × Fate))
    (h : ∀ line ∈ ledger, line.2 ≠ fate) : pathsOf fate ledger = [] := by
  rw [pathsOf, List.map_eq_nil_iff, List.filter_eq_nil_iff]
  exact fun line hline => by simpa using h line hline

/-- Every line of a ledger is about one of the five things. -/
theorem length_ledger (ledger : List (Path × Fate)) :
    ledger.length = (pathsOf .changed ledger).length + (pathsOf .migrated ledger).length +
      (pathsOf .skipped ledger).length + (pathsOf .outOfScope ledger).length +
      (pathsOf .untouched ledger).length := by
  induction ledger with
  | nil => rfl
  | cons line ledger ih =>
      obtain ⟨path, fate⟩ := line
      cases fate <;>
        simp only [List.length_cons, pathsOf_cons, reduceCtorEq, if_true, if_false, ih] <;> omega

/-- A report that sums up a ledger. -/
structure Balances (b : BatchReport) (ledger : List (Path × Fate)) : Prop where
  changed : b.changed.map (·.path) = pathsOf .changed ledger
  migrated : b.migrated.map (·.source) = pathsOf .migrated ledger
  skipped : b.skipped.map (·.path) = pathsOf .skipped ledger
  outOfScope : b.outOfScope = (pathsOf .outOfScope ledger).length
  untouched : b.untouched = (pathsOf .untouched ledger).length

/-- What can become of a file of a batch. -/
def BatchKind.Allows : BatchKind → Fate → Prop
  | .substitution, fate => fate ≠ .migrated
  | .reference, fate => fate ≠ .changed ∧ fate ≠ .outOfScope

/-- A report that accounts for the files of a batch: it sums up a ledger with
    one line for each of them. -/
structure Accounts (b : BatchReport) (files : List Path) (ledger : List (Path × Fate)) : Prop
    extends Balances b ledger where
  lines : ledger.map Prod.fst = files
  matched : b.matchedFiles = files.length
  allowed : ∀ line ∈ ledger, b.kind.Allows line.2

section Sums

variable {b : BatchReport} {files : List Path} {ledger : List (Path × Fate)}
  (h : Accounts b files ledger)
include h

theorem Accounts.matchedFiles_eq : b.matchedFiles = b.changed.length + b.migrated.length +
    b.skipped.length + b.outOfScope + b.untouched := by
  calc b.matchedFiles
      = ledger.length := by rw [h.matched, ← h.lines, List.length_map]
    _ = _ := length_ledger ledger
    _ = _ := by
        rw [← h.changed, ← h.migrated, ← h.skipped, h.outOfScope, h.untouched]
        simp only [List.length_map]

/-- The numbers of a substitution. -/
theorem Accounts.of_substitution (hkind : b.kind = .substitution) :
    b.migrated = [] ∧
      b.matchedFiles = b.changed.length + b.skipped.length + b.outOfScope + b.untouched := by
  have hallowed := h.allowed
  rw [hkind] at hallowed
  have hnone : b.migrated = [] := by
    rw [← List.map_eq_nil_iff (f := (·.source)), h.migrated]
    exact pathsOf_eq_nil _ _ hallowed
  have hsum := h.matchedFiles_eq
  rw [hnone, List.length_nil] at hsum
  exact ⟨hnone, by omega⟩

/-- The numbers of a migration. -/
theorem Accounts.of_reference (hkind : b.kind = .reference) :
    b.changed = [] ∧ b.outOfScope = 0 ∧
      b.matchedFiles = b.migrated.length + b.skipped.length + b.untouched := by
  have hallowed := h.allowed
  rw [hkind] at hallowed
  have hchanged : b.changed = [] := by
    rw [← List.map_eq_nil_iff (f := (·.path)), h.changed]
    exact pathsOf_eq_nil _ _ fun line hline => (hallowed line hline).1
  have hscope : b.outOfScope = 0 := by
    rw [h.outOfScope, pathsOf_eq_nil _ _ fun line hline => (hallowed line hline).2]
    rfl
  have hsum := h.matchedFiles_eq
  rw [hchanged, List.length_nil] at hsum
  exact ⟨hchanged, hscope, by omega⟩

end Sums

/-- What became of a file that a substitution was tried on. -/
def SubstitutionOutcome.fate : SubstitutionOutcome → Fate
  | .missing | .unreadable _ | .writeFailed _ => .skipped
  | .unchanged => .untouched
  | .rewritten _ _ => .changed

/-- What became of a file that a migration was tried on. -/
def migrationFate : Except SkippedReason Migrated → Fate
  | .ok _ => .migrated
  | .error .noMatchingReference => .untouched
  | .error _ => .skipped

section Line

variable {b : BatchReport} {ledger : List (Path × Fate)} (h : Balances b ledger) (path : Path)
include h

theorem Balances.skip (reason : String) :
    Balances (b.skip path reason) (ledger ++ [(path, .skipped)]) := by
  constructor <;> simp [BatchReport.skip, h.changed, h.migrated, h.skipped, h.outOfScope,
    h.untouched]

theorem Balances.leave : Balances b.leave (ledger ++ [(path, .untouched)]) := by
  constructor <;> simp [BatchReport.leave, h.changed, h.migrated, h.skipped, h.outOfScope,
    h.untouched]

/-- One more line about a file that no rule applies to. -/
theorem Balances.exclude : Balances b.exclude (ledger ++ [(path, .outOfScope)]) := by
  constructor <;> simp [BatchReport.exclude, h.changed, h.migrated, h.skipped, h.outOfScope,
    h.untouched]

/-- One more line about a substitution. -/
theorem Balances.noteSubstitution (outcome : SubstitutionOutcome) :
    Balances (b.noteSubstitution path outcome) (ledger ++ [(path, outcome.fate)]) := by
  cases outcome with
  | missing => exact h.skip path _
  | unreadable error => exact h.skip path _
  | writeFailed error => exact h.skip path _
  | unchanged => exact h.leave path
  | rewritten replacements written =>
      constructor <;> simp [BatchReport.noteSubstitution, SubstitutionOutcome.fate, h.changed,
        h.migrated, h.skipped, h.outOfScope, h.untouched]

/-- One more line about a migration. -/
theorem Balances.noteMigration (outcome : Except SkippedReason Migrated)
    (hsource : ∀ entry, outcome = .ok entry → entry.source = path) :
    Balances (b.noteMigration path outcome) (ledger ++ [(path, migrationFate outcome)]) := by
  cases outcome with
  | ok entry =>
      constructor <;> simp [BatchReport.noteMigration, migrationFate, h.changed, h.migrated,
        h.skipped, h.outOfScope, h.untouched, hsource entry rfl]
  | error reason =>
      cases reason with
      | noMatchingReference => exact h.leave path
      | _ => exact h.skip path _

end Line

/-- A migrated file is reported under its own path. -/
theorem source_of_migrateReference (t : FileTree) (path : Path) (candidates : List ObjectRename)
    (mode : WriteMode) (entry : Migrated)
    (h : (migrateReference t path candidates mode).1 = .ok entry) : entry.source = path := by
  unfold migrateReference at h
  split at h
  · cases h
  · split at h
    · split at h
      · cases h
      · cases h
        rfl
    · cases h
      rfl

/-- A batch that writes one line for every file, and about nothing but what
    can become of that file. -/
def Books (allowed : Path → Fate → Prop)
    (step : BatchReport × FileTree → Path → BatchReport × FileTree) : Prop :=
  ∀ b t path, (step (b, t) path).1.matchedFiles = b.matchedFiles ∧
    ∃ fate, allowed path fate ∧ ∀ ledger, Balances b ledger →
      Balances (step (b, t) path).1 (ledger ++ [(path, fate)])

/-- All the lines of a batch. The number of files that were matched stays. -/
theorem Books.foldl {allowed : Path → Fate → Prop}
    {step : BatchReport × FileTree → Path → BatchReport × FileTree} (hstep : Books allowed step)
    (files : List Path) (b : BatchReport) (t : FileTree) (before : List (Path × Fate))
    (hbefore : Balances b before) :
    (files.foldl step (b, t)).1.matchedFiles = b.matchedFiles ∧
      ∃ ledger, ledger.map Prod.fst = files ∧ (∀ line ∈ ledger, allowed line.1 line.2) ∧
        Balances (files.foldl step (b, t)).1 (before ++ ledger) := by
  induction files generalizing b t before with
  | nil => exact ⟨rfl, [], rfl, by simp, by rwa [List.append_nil]⟩
  | cons path files ih =>
      -- The line for the file is at the end of what was there before, whatever the tree is.
      obtain ⟨hmatched, fate, hfate, hline⟩ := hstep b t path
      obtain ⟨hmatched', ledger, hfiles, hallowed, hbalances⟩ :=
        ih (step (b, t) path).1 (step (b, t) path).2 _ (hline before hbefore)
      refine ⟨hmatched'.trans hmatched, (path, fate) :: ledger, ?_, ?_, ?_⟩
      · rw [List.map_cons, hfiles]
      · exact List.forall_mem_cons.mpr ⟨hfate, hallowed⟩
      · rwa [List.append_assoc] at hbalances

/-- A batch that starts with an empty ledger accounts for its files. -/
theorem Books.accounts {allowed : Path → Fate → Prop}
    {step : BatchReport × FileTree → Path → BatchReport × FileTree} (hstep : Books allowed step)
    (hnotes : NotesOnly step) (expression : String) (kind : BatchKind)
    (hkind : ∀ path fate, allowed path fate → kind.Allows fate) (files : List Path)
    (t : FileTree) (start : BatchReport)
    (hstart : start = { expression, kind, matchedFiles := files.length }) :
    ∃ ledger, Accounts (files.foldl step (start, t)).1 files ledger ∧
      (files.foldl step (start, t)).1.expression = expression ∧
      (files.foldl step (start, t)).1.kind = kind ∧ ∀ line ∈ ledger, allowed line.1 line.2 := by
  subst hstart
  obtain ⟨hmatched, ledger, hlines, hallowed, hbalances⟩ :=
    hstep.foldl files { expression, kind, matchedFiles := files.length } t []
      ⟨rfl, rfl, rfl, rfl, rfl⟩
  obtain ⟨hexpression, hkind', -⟩ :=
    hnotes.foldl files ({ expression, kind, matchedFiles := files.length }, t)
  refine ⟨ledger, ⟨hbalances, hlines, hmatched, fun line hline => ?_⟩, hexpression, hkind',
    hallowed⟩
  rw [hkind']
  exact hkind _ _ (hallowed line hline)

/-- Whether no rule applies to a file. -/
def isOutOfScope (rules : List Rule) (path : Path) : Bool :=
  rules.all fun rule => !rule.scope.allows (FileTarget.ofPath path)

/-- What can become of a file of a substitution: it is out of scope exactly if
    no rule applies to it. -/
def SubstitutionFate (rules : List Rule) (path : Path) (fate : Fate) : Prop :=
  BatchKind.substitution.Allows fate ∧ (fate = .outOfScope ↔ isOutOfScope rules path = true)

theorem books_substituteFile (rules : List Rule) (mode : WriteMode) :
    Books (SubstitutionFate rules) (substituteFile rules mode) := by
  intro b t path
  -- The batch leaves a file out if the rules that apply to it are none.
  have hscope : (rules.filter (·.scope.allows (FileTarget.ofPath path))).isEmpty =
      isOutOfScope rules path := by
    rw [isOutOfScope, Bool.eq_iff_iff, List.isEmpty_iff, List.filter_eq_nil_iff]
    simp
  unfold substituteFile
  simp only [hscope]
  cases hout : isOutOfScope rules path with
  | true =>
      rw [if_pos rfl]
      exact ⟨rfl, .outOfScope, ⟨nofun, by simp [hout]⟩, fun ledger h => h.exclude path⟩
  | false =>
      rw [if_neg Bool.false_ne_true]
      generalize (applyRules t path _ mode).1 = outcome
      refine ⟨by cases outcome <;> rfl, outcome.fate, ?_, fun ledger h =>
        h.noteSubstitution path outcome⟩
      cases outcome <;> simp [SubstitutionFate, BatchKind.Allows, SubstitutionOutcome.fate, hout]

theorem books_migrateFile (m : RenameMap) (mode : WriteMode) :
    Books (fun _ => BatchKind.reference.Allows) (migrateFile m mode) := by
  intro b t path
  have hsource := source_of_migrateReference t path m.objects mode
  unfold migrateFile
  simp only
  generalize (migrateReference t path m.objects mode).1 = outcome at hsource
  refine ⟨?_, migrationFate outcome, ?_, fun ledger h => h.noteMigration path outcome hsource⟩
  · cases outcome with
    | ok entry => rfl
    | error reason => cases reason <;> rfl
  · cases outcome with
    | ok entry => simp [BatchKind.Allows, migrationFate]
    | error reason => cases reason <;> simp [BatchKind.Allows, migrationFate]

section Batches

variable (m : RenameMap) (expression : String) (files : List Path) (mode : WriteMode)
  (t : FileTree)

/-- A substitution accounts for its files, whatever the tree looks like. -/
theorem substitutionBatch_accounts (rules : List Rule) (hrules : m.rules expression = .ok rules) :
    ∃ b t' ledger, substitutionBatch m expression files mode t = (.ok b, t') ∧
      Accounts b files ledger ∧ b.expression = expression ∧ b.kind = .substitution ∧
      ∀ line ∈ ledger, line.2 = .outOfScope ↔ isOutOfScope rules line.1 = true := by
  rw [substitutionBatch, hrules]
  obtain ⟨ledger, haccounts, hexpression, hkind, hfates⟩ :=
    (books_substituteFile rules mode).accounts (notesOnly_substituteFile rules mode) expression
      .substitution (fun _ _ h => h.1) files t _ rfl
  exact ⟨_, _, ledger, rfl, haccounts, hexpression, hkind, fun line hline => (hfates line hline).2⟩

/-- So does a migration. -/
theorem referenceBatch_accounts :
    ∃ ledger, Accounts (referenceBatch m expression files mode t).1 files ledger ∧
      (referenceBatch m expression files mode t).1.expression = expression ∧
      (referenceBatch m expression files mode t).1.kind = .reference := by
  obtain ⟨ledger, haccounts, hexpression, hkind, -⟩ := (books_migrateFile m mode).accounts
    (notesOnly_migrateFile m mode) expression .reference (fun _ _ h => h) files t _ rfl
  exact ⟨ledger, haccounts, hexpression, hkind⟩

/-- A batch of either kind. -/
theorem runFiles_accounts (b : BatchReport) (t' : FileTree)
    (h : runFiles m expression files mode t = (.ok b, t')) :
    b.expression = expression ∧ ∃ ledger, Accounts b files ledger := by
  unfold runFiles at h
  split at h
  · cases h
    obtain ⟨ledger, haccounts, hexpression, -⟩ :=
      referenceBatch_accounts m expression files mode t
    exact ⟨hexpression, ledger, haccounts⟩
  · cases hrules : m.rules expression with
    | error cause =>
        rw [substitutionBatch, hrules] at h
        cases h
    | ok rules =>
        obtain ⟨_, _, ledger, heq, haccounts, hexpression, -⟩ :=
          substitutionBatch_accounts m expression files mode t rules hrules
        rw [heq] at h
        cases h
        exact ⟨hexpression, ledger, haccounts⟩

end Batches

/-- A ledger of the files that the expression of a batch selects in some tree. -/
def SelectedLedger (input : Path) (b : BatchReport) (ledger : List (Path × Fate)) : Prop :=
  ∃ t files, expandExpression t input b.expression = .ok files ∧ Accounts b files ledger

theorem runExpression_accounts (m : RenameMap) (input : Path) (mode : WriteMode)
    (expression : String) (t : FileTree) (b : BatchReport) (after : FileTree)
    (h : runExpression m input mode expression t = (.ok b, after)) :
    ∃ ledger, SelectedLedger input b ledger := by
  rw [runExpression_eq] at h
  split at h
  · cases h
  · next files hfiles =>
      obtain ⟨rfl, ledger, haccounts⟩ := runFiles_accounts m expression files mode t b after h
      exact ⟨ledger, t, files, hfiles, haccounts⟩

/-- The batches of a run have a ledger each. -/
theorem runExpressions_accounts (m : RenameMap) (input : Path) (mode : WriteMode)
    (expressions : List String) (t : FileTree) (batches : List BatchReport) (after : FileTree)
    (h : runExpressions m input mode expressions t = (.ok batches, after)) :
    ∃ ledgers, List.Forall₂ (SelectedLedger input) batches ledgers := by
  induction expressions generalizing t batches with
  | nil =>
      cases h
      exact ⟨[], .nil⟩
  | cons expression expressions ih =>
      rw [runExpressions] at h
      split at h
      · cases h
      · next batch t' heq =>
          split at h
          · cases h
          · next rest t'' heq' =>
              cases h
              obtain ⟨ledgers, hrest⟩ := ih t' rest heq'
              obtain ⟨ledger, hledger⟩ :=
                runExpression_accounts m input mode expression t batch t' heq
              exact ⟨ledger :: ledgers, .cons hledger hrest⟩

/-- The totals of a run are those of all its ledgers together. -/
theorem totals_of_ledgers (input : Path) (batches : List BatchReport)
    (ledgers : List (List (Path × Fate)))
    (h : List.Forall₂ (SelectedLedger input) batches ledgers) :
    (batches.map (·.changed.length)).sum = (pathsOf .changed ledgers.flatten).length ∧
      (batches.map (·.migrated.length)).sum = (pathsOf .migrated ledgers.flatten).length := by
  induction h with
  | nil => exact ⟨rfl, rfl⟩
  | @cons b ledger batches ledgers hledger hrest ih =>
      obtain ⟨t, files, -, haccounts⟩ := hledger
      rw [List.map_cons, List.map_cons, List.sum_cons, List.sum_cons, List.flatten_cons,
        pathsOf_append, pathsOf_append, List.length_append, List.length_append, ih.1, ih.2,
        ← haccounts.changed, ← haccounts.migrated, List.length_map, List.length_map]
      exact ⟨rfl, rfl⟩

/-- Every batch accounts for each of its files exactly once, whatever becomes
    of the tree on the way. The totals of a run are the sums over its batches. -/
theorem batches_account_for_all_files (m : RenameMap) (t : FileTree) :
    (∀ expression rules files mode, m.rules expression = .ok rules →
      ∃ b t' ledger, substitutionBatch m expression files mode t = (.ok b, t') ∧
        Accounts b files ledger ∧
        (∀ line ∈ ledger, line.2 = .outOfScope ↔ isOutOfScope rules line.1 = true) ∧
        b.migrated = [] ∧
        b.matchedFiles = b.changed.length + b.skipped.length + b.outOfScope + b.untouched) ∧
    (∀ expression files mode, ∃ b t' ledger, referenceBatch m expression files mode t = (b, t') ∧
      Accounts b files ledger ∧ b.changed = [] ∧ b.outOfScope = 0 ∧
      b.matchedFiles = b.migrated.length + b.skipped.length + b.untouched) ∧
    ∀ home options r t', run m home options t = (.ok r, t') →
      r.changedFiles = (r.batches.map (·.changed.length)).sum ∧
      r.migratedFiles = (r.batches.map (·.migrated.length)).sum ∧
      ∃ ledgers, List.Forall₂ (SelectedLedger (options.input home)) r.batches ledgers ∧
        r.changedFiles = (pathsOf .changed ledgers.flatten).length ∧
        r.migratedFiles = (pathsOf .migrated ledgers.flatten).length := by
  refine ⟨?_, ?_, ?_⟩
  · intro expression rules files mode hrules
    obtain ⟨b, t', ledger, heq, haccounts, -, hkind, hscope⟩ :=
      substitutionBatch_accounts m expression files mode t rules hrules
    obtain ⟨hmigrated, hsum⟩ := haccounts.of_substitution hkind
    exact ⟨b, t', ledger, heq, haccounts, hscope, hmigrated, hsum⟩
  · intro expression files mode
    obtain ⟨ledger, haccounts, -, hkind⟩ := referenceBatch_accounts m expression files mode t
    obtain ⟨hchanged, hscope, hsum⟩ := haccounts.of_reference hkind
    exact ⟨_, _, ledger, rfl, haccounts, hchanged, hscope, hsum⟩
  · intro home options r t' hrun
    obtain ⟨-, -, batches, t₁, cleanup, t₂, overlay, hexpressions, -, -, rfl⟩ :=
      stages_of_run_ok m home options t r t' hrun
    obtain ⟨ledgers, hledgers⟩ := runExpressions_accounts _ _ _ _ _ _ _ hexpressions
    obtain ⟨hchanged, hmigrated⟩ := totals_of_ledgers _ _ _ hledgers
    exact ⟨rfl, rfl, ledgers, hledgers, hchanged, hmigrated⟩

/-- A batch of two classes, and a run with a batch of either kind. -/
theorem batches_account_for_stale_project :
    (∃ b t' ledger, substitutionBatch staleRenames "" [⟨"p/classes/A.cls"⟩, ⟨"B.cls"⟩] .apply
        staleProject = (.ok b, t') ∧
      Accounts b [⟨"p/classes/A.cls"⟩, ⟨"B.cls"⟩] ledger ∧
      b.matchedFiles = b.changed.length + b.skipped.length + b.outOfScope + b.untouched) ∧
    ∃ r t', run staleRenames "" (staleRun false) staleProject = (.ok r, t') ∧
      r.changedFiles = 1 ∧ r.migratedFiles = 1 ∧
      ∃ ledgers, List.Forall₂ (SelectedLedger ⟨"p"⟩) r.batches ledgers ∧
        r.changedFiles = (pathsOf .changed ledgers.flatten).length := by
  have haccounts := batches_account_for_all_files staleRenames staleProject
  refine ⟨?_, ?_⟩
  · have hgood : (staleRenames.rules "").toOption.isSome = true := by decide +kernel
    cases hrules : staleRenames.rules "" with
    | error cause =>
        rw [hrules] at hgood
        cases hgood
    | ok rules =>
        obtain ⟨b, t', ledger, heq, hledger, -, -, hsum⟩ :=
          haccounts.1 "" rules [⟨"p/classes/A.cls"⟩, ⟨"B.cls"⟩] .apply hrules
        exact ⟨b, t', ledger, heq, hledger, hsum⟩
  · have hgood : (run staleRenames "" (staleRun false) staleProject).1.toOption.map (fun r =>
        (r.changedFiles, r.migratedFiles)) = some (1, 1) := by
      decide +kernel
    rcases hrun : run staleRenames "" (staleRun false) staleProject with ⟨outcome, after⟩
    rw [hrun] at hgood
    cases outcome with
    | error e => cases hgood
    | ok r =>
        obtain ⟨hchanged, hmigrated⟩ := Prod.mk.inj (Option.some.inj hgood)
        obtain ⟨-, -, ledgers, hledgers, hlines, -⟩ :=
          haccounts.2.2 "" (staleRun false) r after hrun
        exact ⟨r, after, rfl, hchanged, hmigrated, ledgers, hledgers, hlines⟩

end SchemaRename
