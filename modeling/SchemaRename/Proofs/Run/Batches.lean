import SchemaRename.Proofs.Lookup.LastWord
import SchemaRename.Proofs.Run.DryRun

/-!
# Batches, Real and Dry

What the files of an expression come to, with writing and without.

A batch goes through its files one by one, and each of them adds a note to the
report and perhaps a change to the tree. What the note says depends on the
content of the file when its turn comes, and on nothing else in the tree. So
a dry batch notes what a real one does, as long as every file still has the
content it had at the start when its turn comes. Whether a write will fail is
the one thing a dry batch cannot know.

The two kinds of batches differ in what they do with a file, not in how they
go through the list, and so they are treated together.

## Main definitions

* `BatchReport.planned`: A report as a dry batch gives it.
* `BatchReport.AllWritten`: A report of a batch in which no write failed.
* `NotesOnly`: What both kinds of batches do with the report.
* `runFiles`: The files of an expression.

## Theorems

* `applyRules_planned`, `migrateReference_planned`: One file of a batch.
* `foldl_planned`: All its files.
* `runFiles_planned`: What a dry batch foretells.
* `runFiles_plain`: A batch keeps a tree plain and its folders as they are.
-/

namespace SchemaRename

open SchemaRename.FileTree

/-- A report of a batch, as if nothing had been written. -/
def BatchReport.planned (b : BatchReport) : BatchReport :=
  { b with
    changed := b.changed.map fun c => { c with written := false }
    migrated := b.migrated.map fun c => { c with written := false } }

/-- A substitution, as if nothing had been written. -/
def SubstitutionOutcome.planned : SubstitutionOutcome → SubstitutionOutcome
  | .rewritten replacements _ => .rewritten replacements false
  | outcome => outcome

/-- No file was skipped for a write that failed: the reasons that tell of one
    start in the same way. -/
def BatchReport.AllWritten (b : BatchReport) : Prop :=
  ∀ s ∈ b.skipped, ¬ "write ".toList <+: s.reason.toList

theorem planned_noteSubstitution (b : BatchReport) (path : Path) (outcome : SubstitutionOutcome) :
    (b.noteSubstitution path outcome).planned =
      b.planned.noteSubstitution path outcome.planned := by
  cases outcome <;> simp [BatchReport.noteSubstitution, BatchReport.planned, BatchReport.skip,
    BatchReport.leave, SubstitutionOutcome.planned]

theorem planned_noteMigration (b : BatchReport) (path : Path)
    (outcome : Except SkippedReason Migrated) :
    (b.noteMigration path outcome).planned =
      b.planned.noteMigration path (outcome.map fun c => { c with written := false }) := by
  cases outcome with
  | ok migrated => simp [BatchReport.noteMigration, BatchReport.planned, Except.map]
  | error reason =>
      cases reason <;> simp [BatchReport.noteMigration, BatchReport.planned, BatchReport.skip,
        BatchReport.leave, Except.map]

/-- What a batch does with its report: it adds notes, and the tree does not
    depend on them. -/
structure NotesOnly (step : BatchReport × FileTree → Path → BatchReport × FileTree) : Prop where
  expression : ∀ state path, (step state path).1.expression = state.1.expression
  kind : ∀ state path, (step state path).1.kind = state.1.kind
  skipped : ∀ state path, state.1.skipped <+: (step state path).1.skipped
  tree : ∀ b b' t path, (step (b, t) path).2 = (step (b', t) path).2

section NotesOnly

variable {step : BatchReport × FileTree → Path → BatchReport × FileTree} (hstep : NotesOnly step)
  (files : List Path)
include hstep

theorem NotesOnly.foldl (state : BatchReport × FileTree) :
    (files.foldl step state).1.expression = state.1.expression ∧
      (files.foldl step state).1.kind = state.1.kind ∧
      state.1.skipped <+: (files.foldl step state).1.skipped := by
  induction files generalizing state with
  | nil => exact ⟨rfl, rfl, List.prefix_refl _⟩
  | cons path files ih =>
      obtain ⟨hexpression, hkind, hskipped⟩ := ih (step state path)
      exact ⟨hexpression.trans (hstep.expression state path), hkind.trans (hstep.kind state path),
        (hstep.skipped state path).trans hskipped⟩

theorem NotesOnly.foldl_tree (b b' : BatchReport) (t : FileTree) :
    (files.foldl step (b, t)).2 = (files.foldl step (b', t)).2 := by
  induction files generalizing b b' t with
  | nil => rfl
  | cons path files ih =>
      have hsplit : step (b', t) path = ((step (b', t) path).1, (step (b, t) path).2) :=
        Prod.ext rfl (hstep.tree b' b t path)
      rw [List.foldl_cons, List.foldl_cons, hsplit]
      exact ih _ _ _

end NotesOnly

theorem skipped_noteSubstitution (b : BatchReport) (path : Path) (outcome : SubstitutionOutcome) :
    b.skipped <+: (b.noteSubstitution path outcome).skipped := by
  cases outcome with
  | missing => exact List.prefix_append _ _
  | unreadable error => exact List.prefix_append _ _
  | writeFailed error => exact List.prefix_append _ _
  | unchanged => exact List.prefix_refl _
  | rewritten replacements written => exact List.prefix_refl _

theorem skipped_noteMigration (b : BatchReport) (path : Path)
    (outcome : Except SkippedReason Migrated) :
    b.skipped <+: (b.noteMigration path outcome).skipped := by
  cases outcome with
  | ok migrated => exact List.prefix_refl _
  | error reason =>
      cases reason with
      | noMatchingReference => exact List.prefix_refl _
      | _ => exact List.prefix_append _ _

theorem notesOnly_substituteFile (rules : List Rule) (mode : WriteMode) :
    NotesOnly (substituteFile rules mode) := by
  have hnote : ∀ (b : BatchReport) (path : Path) (outcome : SubstitutionOutcome),
      (b.noteSubstitution path outcome).expression = b.expression ∧
        (b.noteSubstitution path outcome).kind = b.kind := by
    intro b path outcome
    cases outcome <;> exact ⟨rfl, rfl⟩
  refine ⟨?_, ?_, ?_, ?_⟩
  · rintro ⟨b, t⟩ path
    unfold substituteFile
    simp only
    split
    · rfl
    · exact (hnote b path _).1
  · rintro ⟨b, t⟩ path
    unfold substituteFile
    simp only
    split
    · rfl
    · exact (hnote b path _).2
  · rintro ⟨b, t⟩ path
    unfold substituteFile
    simp only
    split
    · exact List.prefix_refl _
    · exact skipped_noteSubstitution b path _
  · intro b b' t path
    unfold substituteFile
    simp only
    split <;> rfl

theorem notesOnly_migrateFile (m : RenameMap) (mode : WriteMode) :
    NotesOnly (migrateFile m mode) := by
  have hnote : ∀ (b : BatchReport) (path : Path) (outcome : Except SkippedReason Migrated),
      (b.noteMigration path outcome).expression = b.expression ∧
        (b.noteMigration path outcome).kind = b.kind := by
    intro b path outcome
    cases outcome with
    | ok migrated => exact ⟨rfl, rfl⟩
    | error reason => cases reason <;> exact ⟨rfl, rfl⟩
  refine ⟨?_, ?_, ?_, fun b b' t path => rfl⟩
  · rintro ⟨b, t⟩ path
    exact (hnote b path _).1
  · rintro ⟨b, t⟩ path
    exact (hnote b path _).2
  · rintro ⟨b, t⟩ path
    exact skipped_noteMigration b path _

/-- Destinations are given up for a write that fails, and for nothing else. -/
theorem writeDestinations_error (text : String) (done destinations : List Path) (t : FileTree)
    (reason : SkippedReason) (t' : FileTree)
    (h : writeDestinations text done destinations t = (.error reason, t')) :
    ∃ destination e, reason = .writeFailed destination e := by
  induction destinations generalizing done t with
  | nil => cases h
  | cons destination destinations ih =>
      rw [writeDestinations] at h
      split at h
      · exact ih _ _ h
      · split at h
        · cases h
          exact ⟨_, _, rfl⟩
        · exact ih _ _ h

section Turn

variable {t t' : FileTree} (path : Path) (content : Content)
  (hfile : t.entryAt? true path = some (.file content))
  (hsame : t'.entryAt? true path = t.entryAt? true path)
include hfile

theorem readContent_of_entryAt? : t.readContent path = .ok content := by
  rw [entryAt?] at hfile
  cases hlocate : t.locate true path with
  | error e => simp [hlocate] at hfile
  | ok l =>
      simp only [hlocate] at hfile
      simp only [readContent, hlocate, bind, Except.bind, hfile]
      rfl

include hsame

/-- What is read depends on the content of the file only. -/
theorem readText_of_same : t'.readText path = t.readText path := by
  rw [readText, readText, readContent_of_entryAt? path content hfile,
    readContent_of_entryAt? path content (hsame.trans hfile)]

/-- A dry substitution reports what a real one does, unless the write fails. -/
theorem applyRules_planned (rules : List Rule) :
    (∃ e, (applyRules t' path rules .apply).1 = .writeFailed e) ∨
      (applyRules t path rules .dryRun).1 = (applyRules t' path rules .apply).1.planned := by
  have hthere : t.exists? path = true := by
    rw [exists?, hfile]
    rfl
  have hthere' : t'.exists? path = true := by
    rw [exists?, hsame, hfile]
    rfl
  unfold applyRules FileTree.read
  rw [hthere, hthere', readText_of_same path content hfile hsame]
  simp only [Bool.not_true, Bool.false_eq_true, if_false]
  cases t.readText path with
  | error e => exact Or.inr rfl
  | ok before =>
      simp only [Except.mapError, WriteMode.writes, if_true, Bool.false_eq_true, if_false]
      split
      · exact Or.inr rfl
      · split
        · exact Or.inl ⟨_, rfl⟩
        · exact Or.inr rfl

/-- The same plan is made for the file. -/
theorem planMigration_of_same (objects : List ObjectRename) :
    planMigration t' path objects = planMigration t path objects := by
  unfold planMigration FileTree.read
  rw [readText_of_same path content hfile hsame]

/-- A dry migration reports what a real one does, unless a write fails. -/
theorem migrateReference_planned (objects : List ObjectRename) :
    (∃ destination e, (migrateReference t' path objects .apply).1 =
        .error (.writeFailed destination e)) ∨
      (migrateReference t path objects .dryRun).1 =
        (migrateReference t' path objects .apply).1.map fun c => { c with written := false } := by
  unfold migrateReference
  rw [planMigration_of_same path content hfile hsame]
  cases planMigration t path objects with
  | error reason => exact Or.inr rfl
  | ok plan =>
      obtain ⟨references, text⟩ := plan
      simp only [WriteMode.writes, if_true, Bool.false_eq_true, if_false]
      split
      · next reason t'' hwrite =>
          obtain ⟨destination, e, rfl⟩ := writeDestinations_error text _ _ _ _ _ hwrite
          exact Or.inl ⟨destination, e, rfl⟩
      · exact Or.inr rfl

end Turn

theorem BatchReport.AllWritten.of_prefix {b b' : BatchReport} (h : b'.AllWritten)
    (hskipped : b.skipped <+: b'.skipped) : b.AllWritten :=
  fun s hs => h s (hskipped.subset hs)

theorem not_allWritten_skip (b : BatchReport) (path : Path) (reason : String)
    (h : "write ".toList <+: reason.toList) : ¬ (b.skip path reason).AllWritten := by
  intro hall
  exact hall ⟨path, reason⟩ (List.mem_append_right _ (List.mem_singleton_self _)) h

theorem prefix_toList_append {start s : String} (h : start.toList <+: s.toList) (s' : String) :
    start.toList <+: (s ++ s').toList := by
  rw [String.toList_append]
  exact h.trans (List.prefix_append _ _)

/-- A dry step notes in one tree what a real step notes in another, if the file
    is the same in both and no write fails. -/
def Mirrors (t : FileTree) (step dry : BatchReport × FileTree → Path → BatchReport × FileTree) :
    Prop :=
  ∀ (b : BatchReport) (t' : FileTree) (path : Path), t.isFile path = true →
    t'.entryAt? true path = t.entryAt? true path → (step (b, t') path).1.AllWritten →
    dry (b.planned, t) path = ((step (b, t') path).1.planned, t)

theorem exists_of_isFile (t : FileTree) (path : Path) (h : t.isFile path = true) :
    ∃ content, t.entryAt? true path = some (.file content) := by
  rw [isFile] at h
  split at h
  · next content heq => exact ⟨content, heq⟩
  · cases h

theorem mirrors_substituteFile (t : FileTree) (rules : List Rule) :
    Mirrors t (substituteFile rules .apply) (substituteFile rules .dryRun) := by
  intro b t' path hfile hsame hwritten
  obtain ⟨content, hcontent⟩ := exists_of_isFile t path hfile
  refine Prod.ext ?_ (substituteFile_dryRun rules _ path)
  unfold substituteFile at hwritten ⊢
  simp only at hwritten ⊢
  split
  · rfl
  · next hnone =>
      rw [if_neg hnone] at hwritten
      rcases applyRules_planned path content hcontent hsame
        (rules.filter (·.scope.allows (FileTarget.ofPath path))) with ⟨e, hfail⟩ | hsame
      · rw [hfail] at hwritten
        refine absurd hwritten (not_allWritten_skip b path _ ?_)
        exact prefix_toList_append (by decide) _
      · rw [hsame, planned_noteSubstitution]

theorem mirrors_migrateFile (t : FileTree) (m : RenameMap) :
    Mirrors t (migrateFile m .apply) (migrateFile m .dryRun) := by
  intro b t' path hfile hsame hwritten
  obtain ⟨content, hcontent⟩ := exists_of_isFile t path hfile
  refine Prod.ext ?_ (migrateFile_dryRun m _ path)
  unfold migrateFile at hwritten ⊢
  simp only at hwritten ⊢
  rcases migrateReference_planned path content hcontent hsame m.objects with
    ⟨destination, e, hfail⟩ | hsame
  · rw [hfail] at hwritten
    refine absurd hwritten (not_allWritten_skip b path _ ?_)
    exact prefix_toList_append (prefix_toList_append (prefix_toList_append
      (List.prefix_refl _) _) _) _
  · rw [hsame, planned_noteMigration]

/-- A dry batch notes what a real one does, if each file has the content it had
    at the start when its turn comes, and no write fails. -/
theorem foldl_planned {t : FileTree}
    {step dry : BatchReport × FileTree → Path → BatchReport × FileTree} (hnotes : NotesOnly step)
    (hmirrors : Mirrors t step dry) (files : List Path) (hfiles : ∀ p ∈ files, t.isFile p = true)
    (b : BatchReport) (t' : FileTree)
    (hturns : ∀ done p rest, files = done ++ p :: rest →
      (done.foldl step (b, t')).2.entryAt? true p = t.entryAt? true p)
    (hwritten : (files.foldl step (b, t')).1.AllWritten) :
    files.foldl dry (b.planned, t) = ((files.foldl step (b, t')).1.planned, t) := by
  induction files generalizing b t' with
  | nil => rfl
  | cons path files ih =>
      -- The rest of the batch does not take a note back.
      have hfirst : (step (b, t') path).1.AllWritten :=
        hwritten.of_prefix (hnotes.foldl files (step (b, t') path)).2.2
      rw [List.foldl_cons, List.foldl_cons, hmirrors b t' path (hfiles path List.mem_cons_self)
        (hturns [] path files rfl) hfirst]
      refine ih (fun p hp => hfiles p (List.mem_cons_of_mem _ hp)) _ _ ?_ hwritten
      intro done p rest hsplit
      exact hturns (path :: done) p rest (by rw [hsplit, List.cons_append])

/-- A step that keeps a tree plain and its folders as they are. -/
def KeepsFolders (step : BatchReport × FileTree → Path → BatchReport × FileTree) : Prop :=
  ∀ state path, state.2.IsPlain →
    (step state path).2.IsPlain ∧ SameFolders state.2 (step state path).2

theorem keepsFolders_substituteFile (rules : List Rule) :
    KeepsFolders (substituteFile rules .apply) := by
  rintro ⟨b, t⟩ path ht
  have happly : ∀ applicable : List Rule, (applyRules t path applicable .apply).2.IsPlain ∧
      SameFolders t (applyRules t path applicable .apply).2 := by
    intro applicable
    unfold applyRules
    split
    · exact ⟨ht, SameFolders.refl t⟩
    · split
      · exact ⟨ht, SameFolders.refl t⟩
      · simp only [WriteMode.writes, if_true]
        split
        · exact ⟨ht, SameFolders.refl t⟩
        · next before _ _ =>
            rcases writeAtomic_cases ht path
              (String.ofList (substituteText applicable before.toList).content)
              ("write " ++ path.text) with ⟨e, t', heq, htidied⟩ | ⟨l, t', heq, -, hreplaced⟩
            · rw [heq]
              exact ⟨htidied.plain, htidied.folders⟩
            · rw [heq]
              exact ⟨hreplaced.plain, hreplaced.folders⟩
  unfold substituteFile
  simp only
  split
  · exact ⟨ht, SameFolders.refl t⟩
  · exact happly _

theorem keepsFolders_migrateFile (m : RenameMap) : KeepsFolders (migrateFile m .apply) :=
  fun state path ht => migrateReference_tree state.2 ht path m.objects

theorem KeepsFolders.foldl {step : BatchReport × FileTree → Path → BatchReport × FileTree}
    (hstep : KeepsFolders step) (files : List Path) (state : BatchReport × FileTree)
    (ht : state.2.IsPlain) :
    (files.foldl step state).2.IsPlain ∧ SameFolders state.2 (files.foldl step state).2 := by
  induction files generalizing state with
  | nil => exact ⟨ht, SameFolders.refl _⟩
  | cons path files ih =>
      obtain ⟨hplain, hfolders⟩ := hstep state path ht
      obtain ⟨hplain', hfolders'⟩ := ih _ hplain
      exact ⟨hplain', hfolders.trans hfolders'⟩

/-- Handles the files of an expression. -/
def runFiles (m : RenameMap) (expression : String) (files : List Path) (mode : WriteMode)
    (t : FileTree) : Except Cause BatchReport × FileTree :=
  if isReferenceExpression expression then
    let (batch, t) := referenceBatch m expression files mode t
    (.ok batch, t)
  else substitutionBatch m expression files mode t

theorem runExpression_eq (m : RenameMap) (input : Path) (mode : WriteMode) (expression : String)
    (t : FileTree) : runExpression m input mode expression t =
      match expandExpression t input expression with
      | .error cause => (.error cause, t)
      | .ok files => runFiles m expression files mode t := by
  rw [runExpression]
  unfold runFiles
  cases expandExpression t input expression <;> rfl

/-- The step that a batch takes for each of its files. -/
structure BatchStep (step : WriteMode → BatchReport × FileTree → Path → BatchReport × FileTree) :
    Prop where
  notes : ∀ mode, NotesOnly (step mode)
  mirrors : ∀ t, Mirrors t (step .apply) (step .dryRun)
  folders : KeepsFolders (step .apply)
  dry : ∀ state path, (step .dryRun state path).2 = state.2

/-- The files of an expression are handled by one step after the other, unless
    its rules are ill formed. -/
theorem runFiles_cases (m : RenameMap) (expression : String) :
    (∃ cause, ∀ files mode t, runFiles m expression files mode t = (.error cause, t)) ∨
      ∃ kind step, BatchStep step ∧ ∀ files mode t, runFiles m expression files mode t =
        Prod.map .ok id
          (files.foldl (step mode) ({ expression, kind, matchedFiles := files.length }, t)) := by
  cases hkind : isReferenceExpression expression with
  | true =>
      refine Or.inr ⟨.reference, migrateFile m, ⟨notesOnly_migrateFile m,
        fun t => mirrors_migrateFile t m, keepsFolders_migrateFile m, migrateFile_dryRun m⟩, ?_⟩
      intro files mode t
      rw [runFiles, hkind, if_pos rfl]
      rfl
  | false =>
      cases hrules : m.rules expression with
      | error cause =>
          refine Or.inl ⟨cause, fun files mode t => ?_⟩
          rw [runFiles, hkind, if_neg Bool.false_ne_true, substitutionBatch, hrules]
      | ok rules =>
          refine Or.inr ⟨.substitution, substituteFile rules, ⟨notesOnly_substituteFile rules,
            fun t => mirrors_substituteFile t rules, keepsFolders_substituteFile rules,
            substituteFile_dryRun rules⟩, ?_⟩
          intro files mode t
          rw [runFiles, hkind, if_neg Bool.false_ne_true, substitutionBatch, hrules]
          rfl

section Files

variable (m : RenameMap) (expression : String) (files : List Path) (t : FileTree)

/-- A batch keeps a tree plain and its folders as they are. -/
theorem runFiles_plain (ht : t.IsPlain) :
    (runFiles m expression files .apply t).2.IsPlain ∧
      SameFolders t (runFiles m expression files .apply t).2 := by
  rcases runFiles_cases m expression with ⟨cause, hfails⟩ | ⟨kind, step, hstep, hruns⟩
  · rw [hfails]
    exact ⟨ht, SameFolders.refl t⟩
  · rw [hruns]
    exact hstep.folders.foldl files (_, t) ht

/-- A dry batch is well if a real one is, and says what it is about. -/
theorem runFiles_dryRun_ok (files' : List Path) (t' after : FileTree) (b : BatchReport)
    (hreal : runFiles m expression files' .apply t' = (.ok b, after)) :
    ∃ b', runFiles m expression files .dryRun t = (.ok b', t) ∧
      b.expression = expression ∧ b'.expression = expression ∧ b'.kind = b.kind := by
  rcases runFiles_cases m expression with ⟨cause, hfails⟩ | ⟨kind, step, hstep, hruns⟩
  · rw [hfails] at hreal
    cases hreal
  · rw [hruns] at hreal
    obtain ⟨hb, -⟩ := Prod.mk.inj hreal
    rw [← Except.ok.inj hb]
    have hdry := foldl_tree (step .dryRun) hstep.dry files
      ({ expression, kind, matchedFiles := files.length }, t)
    obtain ⟨hexpression, hkind, -⟩ := (hstep.notes .apply).foldl files'
      ({ expression, kind, matchedFiles := files'.length }, t')
    obtain ⟨hexpression', hkind', -⟩ := (hstep.notes .dryRun).foldl files
      ({ expression, kind, matchedFiles := files.length }, t)
    refine ⟨_, ?_, hexpression, hexpression', hkind'.trans hkind.symm⟩
    rw [hruns]
    exact Prod.ext rfl hdry

/-- A dry batch foretells a real one, if each file has the content it had at the
    start when its turn comes, and no write fails. -/
theorem runFiles_planned (t' after : FileTree) (b : BatchReport)
    (hreal : runFiles m expression files .apply t' = (.ok b, after))
    (hfiles : ∀ p ∈ files, t.isFile p = true)
    (hturns : ∀ done p rest, files = done ++ p :: rest →
      (runFiles m expression done .apply t').2.entryAt? true p = t.entryAt? true p)
    (hwritten : b.AllWritten) :
    runFiles m expression files .dryRun t = (.ok b.planned, t) := by
  rcases runFiles_cases m expression with ⟨cause, hfails⟩ | ⟨kind, step, hstep, hruns⟩
  · rw [hfails] at hreal
    cases hreal
  · rw [hruns] at hreal
    obtain ⟨hb, -⟩ := Prod.mk.inj hreal
    have hb := Except.ok.inj hb
    rw [← hb] at hwritten ⊢
    rw [hruns]
    have hplanned := foldl_planned (hstep.notes .apply) (hstep.mirrors t) files hfiles
      { expression, kind, matchedFiles := files.length } t' (fun done p rest hsplit => by
        have hturn := hturns done p rest hsplit
        rw [hruns] at hturn
        rw [← hturn]
        -- The number of files in the report makes no difference to the tree.
        exact congrArg (·.entryAt? true p) ((hstep.notes .apply).foldl_tree done _ _ t'))
      hwritten
    rw [show (BatchReport.planned { expression, kind, matchedFiles := files.length }) =
      { expression, kind, matchedFiles := files.length } from rfl] at hplanned
    rw [hplanned]
    rfl

end Files

end SchemaRename
