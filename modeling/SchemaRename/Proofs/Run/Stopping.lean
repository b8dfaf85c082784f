import SchemaRename.Proofs.Cleanup.Tied
import SchemaRename.Proofs.FileTree.Overlaying
import SchemaRename.Proofs.Run.DryRun

/-!
# Where a Run Stops

What a run that fails has done by then.

A run has no way back: what a stage has written stays written when a later
stage fails. But a run stops between its stages. It checks before it starts;
an expression is expanded and its rules are built before any of its files is
touched; the cleanup notes its failures and goes on. So a failed run leaves
what a shorter run would have left that ends well, and only the copy of the
overlay can stop halfway, with some files laid over the project and nothing
taken away.

## Main definitions

* `RunOptions.upTo`, `RunOptions.withoutOverlay`: Shorter runs.
* `ExpressionFails`: An expression that cannot be worked through.
* `Stops`: The ways in which a run fails, and what each of them leaves.

## Theorems

* `deleteDeprecated_ok`: A cleanup does not fail.
* `runExpressions_error`: The expressions before one that fails are complete.
* `countFilesUpTo_ok`: Counting does not fail.
* `run_error_keeps_stages`: What a failed run leaves.
* `run_error_writes`: That is not always what was there before.
-/

namespace SchemaRename

open SchemaRename.FileTree

section Cleanup

/-- The patterns of a cleanup are well formed. -/
theorem listEntries_ok (t : FileTree) (p : Path) (hp : p.text ≠ "") (n : Nat) :
    ∃ paths, listEntries t (Glob.escape p.text ++ String.ofList (Glob.stars (n + 1))) =
      .ok paths := by
  rw [listEntries, Glob.find, Glob.search_escape p hp n]
  exact ⟨_, rfl⟩

variable (root : Path) (deprecated : String) (mode : WriteMode)

/-- The sweep of some entries does not fail, if that of the folders among them
    does not. -/
theorem sweepEntries_ok
    (deep : Path → CleanupReport → FileTree → Except Cause CleanupReport × FileTree)
    (hdeep : ∀ path : Path, path.text ≠ "" → ∀ report t,
      ∃ report' t', deep path report t = (.ok report', t'))
    (paths : List Path) (report : CleanupReport) (t : FileTree) :
    ∃ report' t', sweepEntries root deprecated mode deep paths report t = (.ok report', t') := by
  induction paths generalizing report t with
  | nil => exact ⟨report, t, rfl⟩
  | cons path paths ih =>
      rw [sweepEntries]
      cases hjudge : judge t root path deprecated with
      | keep => exact ih _ t
      | remove => exact ih _ _
      | descend =>
          have hfolder := ((judge_eq_descend_iff t root path deprecated).mp hjudge).2
          obtain ⟨report', t', heq⟩ :=
            hdeep path (t.text_ne_empty_of_isFolder path hfolder) report.scan t
          simp only [heq]
          exact ih report' t'

theorem sweepFolder_ok (depth : Nat) (folder : Path) (hfolder : folder.text ≠ "")
    (report : CleanupReport) (t : FileTree) :
    ∃ report' t', sweepFolder root deprecated mode depth folder report t = (.ok report', t') := by
  induction depth generalizing folder report t with
  | zero => exact ⟨report, t, rfl⟩
  | succ depth ih =>
      obtain ⟨paths, hlist⟩ := listEntries_ok t folder hfolder 0
      rw [sweepFolder, childrenPattern_eq, hlist]
      exact sweepEntries_ok root deprecated mode _ ih paths report t

/-- A cleanup with a prefix does not fail. -/
theorem deleteDeprecated_ok (hroot : root.text ≠ "") (hdeprecated : deprecated ≠ "")
    (t : FileTree) :
    ∃ report after, deleteDeprecated t root deprecated mode = (.ok report, after) := by
  obtain ⟨paths, hlist⟩ := listEntries_ok t root hroot 1
  rw [deleteDeprecated, String.isEmpty_eq_false_iff.mpr hdeprecated, if_neg Bool.false_ne_true,
    candidatesPattern_eq, hlist]
  exact sweepEntries_ok root deprecated mode _
    (sweepFolder_ok root deprecated mode maxPathSize) paths {} t

end Cleanup

theorem RenameMap.ne_empty_of_validate (m : RenameMap) (deprecated : String)
    (h : m.validate = .ok ()) (hdeprecated : m.deletedPrefix = some deprecated) :
    deprecated ≠ "" := by
  rintro rfl
  rw [validate, hdeprecated] at h
  cases hobjects : checkObjects 0 m.objects <;>
    simp [hobjects, bind, Except.bind, throw, throwThe, MonadExceptOf.throw] at h

/-- The cleanup of a run with a valid map does not fail. -/
theorem runCleanup_ok (m : RenameMap) (hvalid : m.validate = .ok ()) (options : RunOptions)
    (input : Path) (hinput : input.text ≠ "") (mode : WriteMode) (t : FileTree) :
    ∃ report after, runCleanup m options input mode t = (.ok report, after) := by
  rw [runCleanup]
  split
  · next deprecated hdeprecated _ =>
      obtain ⟨report, after, heq⟩ := deleteDeprecated_ok input deprecated mode hinput
        (m.ne_empty_of_validate deprecated hvalid hdeprecated) t
      rw [heq]
      exact ⟨some report, after, rfl⟩
  · exact ⟨none, t, rfl⟩

section Expressions

/-- An expression that cannot be worked through: its pattern is ill formed, or
    its rules are. -/
def ExpressionFails (m : RenameMap) (input : Path) (expression : String) (t : FileTree)
    (cause : Cause) : Prop :=
  expandExpression t input expression = .error cause ∨
    isReferenceExpression expression = false ∧ m.rules expression = .error cause

variable (m : RenameMap) (input : Path) (mode : WriteMode)

/-- An expression fails before any of its files is touched. -/
theorem runExpression_error (expression : String) (t : FileTree) (cause : Cause)
    (after : FileTree) (h : runExpression m input mode expression t = (.error cause, after)) :
    after = t ∧ ExpressionFails m input expression t cause := by
  rw [runExpression] at h
  split at h
  · next hexpand =>
      cases h
      exact ⟨rfl, Or.inl hexpand⟩
  · split at h
    · cases h
    · next hkind =>
        rw [substitutionBatch] at h
        split at h
        · next hrules =>
            cases h
            exact ⟨rfl, Or.inr ⟨by simpa using hkind, hrules⟩⟩
        · cases h

/-- The expressions before one that fails are complete. -/
theorem runExpressions_error (expressions : List String) (t : FileTree) (cause : Cause)
    (after : FileTree) (h : runExpressions m input mode expressions t = (.error cause, after)) :
    ∃ done expression rest batches, expressions = done ++ expression :: rest ∧
      runExpressions m input mode done t = (.ok batches, after) ∧
      ExpressionFails m input expression after cause := by
  induction expressions generalizing t with
  | nil => cases h
  | cons first expressions ih =>
      rw [runExpressions] at h
      split at h
      · next heq =>
          cases h
          obtain ⟨rfl, hfails⟩ := runExpression_error m input mode first t cause after heq
          exact ⟨[], first, expressions, [], rfl, rfl, hfails⟩
      · next batch t' heq =>
          split at h
          · next heq' =>
              cases h
              obtain ⟨done, expression, rest, batches, hsplit, hdone, hfails⟩ := ih t' heq'
              refine ⟨first :: done, expression, rest, batch :: batches, ?_, ?_, hfails⟩
              · rw [hsplit, List.cons_append]
              · rw [runExpressions, heq]
                simp only [hdone]
          · cases h

end Expressions

section Counting

variable (t : FileTree)

/-- Names that can be counted one by one can be counted together. -/
theorem foldlM_ok (count : Nat → String → Except Error Nat)
    (hcount : ∀ total name, ∃ n, count total name = .ok n) (names : List String) (total : Nat) :
    ∃ n, names.foldlM count total = .ok n := by
  induction names generalizing total with
  | nil => exact ⟨total, rfl⟩
  | cons name names ih =>
      obtain ⟨n, hn⟩ := hcount total name
      rw [List.foldlM_cons, hn]
      exact ih n

/-- Counting the files below a folder does not fail. -/
theorem countFilesUpTo_ok (depth : Nat) (folder : Path) (h : t.isFolder folder = true) :
    ∃ n, countFilesUpTo depth t folder = .ok n := by
  induction depth generalizing folder with
  | zero => exact ⟨0, rfl⟩
  | succ depth ih =>
      obtain ⟨names, hlist⟩ := list_ok_of_isFolder t folder h
      rw [countFilesUpTo, hlist]
      refine foldlM_ok _ ?_ names 0
      intro total name
      simp only
      split
      · next hfolder =>
          obtain ⟨n, hn⟩ := ih (folder.join name) hfolder
          rw [hn]
          exact ⟨_, rfl⟩
      · exact ⟨_, rfl⟩

end Counting

/-- The same run with fewer expressions, and nothing behind them. -/
def RunOptions.upTo (options : RunOptions) (done : List String) : RunOptions :=
  { options with expressions := done, deleteFiles := false, copyProject := false }

/-- The same run without its overlay. -/
def RunOptions.withoutOverlay (options : RunOptions) : RunOptions :=
  { options with copyProject := false }

/-- The ways in which a run fails, each with its error and with the tree that it
    leaves. -/
inductive Stops (m : RenameMap) (home : String) (options : RunOptions) (t : FileTree) :
    Error → FileTree → Prop where
  /-- There is no project. -/
  | missing (hinput : t.isFolder (options.input home) = false) :
    Stops m home options t (.of (missingInput (options.input home))) t
  /-- The map is refused. -/
  | refused (cause : Cause) (hmap : m.validate = .error cause) :
    Stops m home options t (.of cause) t
  /-- An expression fails. The run of the expressions before it ends well. -/
  | expression (done rest : List String) (expression : String) (cause : Cause)
    (report : RunReport) (after : FileTree)
    (hsplit : options.expressions = done ++ expression :: rest)
    (hdone : run m home (options.upTo done) t = (.ok report, after))
    (hfails : ExpressionFails m (options.input home) expression after cause) :
    Stops m home options t (.of cause) after
  /-- There is no overlay. The run without it ends well. -/
  | noOverlay (source : Path) (report : RunReport) (after : FileTree)
    (hasked : options.copyProject = true) (hsource : m.overlayFolder? home = some source)
    (hdone : run m home options.withoutOverlay t = (.ok report, after))
    (hmissing : after.isFolder source = false) :
    Stops m home options t (.of (missingOverlay source)) after
  /-- The overlay is copied in part, over what the run without it leaves. -/
  | copying (source : Path) (report : RunReport) (before : FileTree) (e : Error)
    (after : FileTree) (happly : options.dryRun = false)
    (hasked : options.copyProject = true) (hsource : m.overlayFolder? home = some source)
    (hdone : run m home options.withoutOverlay t = (.ok report, before))
    (hcopy : before.copyFolder source (options.input home) = (.error e, after))
    (hover : Overlaid before after) :
    Stops m home options t e after

section Run

variable (m : RenameMap) (home : String) (options : RunOptions) (t : FileTree)

/-- A run whose stages end well ends well. -/
theorem run_of_stages (batches : List BatchReport) (cleanup : Option CleanupReport)
    (overlay : Option OverlayReport) (t₁ t₂ t₃ : FileTree)
    (hinput : t.isFolder (options.input home) = true) (hmap : m.validate = .ok ())
    (hexpressions : runExpressions m (options.input home) options.mode options.expressions t =
      (.ok batches, t₁))
    (hcleanup : runCleanup m options (options.input home) options.mode t₁ = (.ok cleanup, t₂))
    (hoverlay : runOverlay m home options (options.input home) options.mode t₂ =
      (.ok overlay, t₃)) :
    run m home options t =
      (.ok ⟨options.input home, options.dryRun, batches, cleanup, overlay⟩, t₃) := by
  rw [run]
  simp only [hinput, hmap, hexpressions, hcleanup, hoverlay, Bool.not_true, Bool.false_eq_true,
    if_false]

/-- The run of some expressions that end well. -/
theorem run_upTo (done : List String) (batches : List BatchReport) (after : FileTree)
    (hinput : t.isFolder (options.input home) = true) (hmap : m.validate = .ok ())
    (hdone : runExpressions m (options.input home) options.mode done t = (.ok batches, after)) :
    ∃ report, run m home (options.upTo done) t = (.ok report, after) := by
  have hcleanup : runCleanup m (options.upTo done) (options.input home) options.mode after =
      (.ok none, after) := by
    rw [runCleanup, RunOptions.upTo]
    cases m.deletedPrefix <;> rfl
  have hoverlay : runOverlay m home (options.upTo done) (options.input home) options.mode after =
      (.ok none, after) := by
    rw [runOverlay, RunOptions.upTo]
    cases m.overlayFolder? home <;> rfl
  exact ⟨_, run_of_stages m home (options.upTo done) t batches none none after after after
    hinput hmap hdone hcleanup hoverlay⟩

/-- The run without its overlay, if what comes before it ends well. -/
theorem run_withoutOverlay (batches : List BatchReport) (cleanup : Option CleanupReport)
    (t₁ after : FileTree) (hinput : t.isFolder (options.input home) = true)
    (hmap : m.validate = .ok ())
    (hexpressions : runExpressions m (options.input home) options.mode options.expressions t =
      (.ok batches, t₁))
    (hcleanup : runCleanup m options (options.input home) options.mode t₁ =
      (.ok cleanup, after)) :
    ∃ report, run m home options.withoutOverlay t = (.ok report, after) := by
  have hoverlay : runOverlay m home options.withoutOverlay (options.input home) options.mode after =
      (.ok none, after) := by
    rw [runOverlay, RunOptions.withoutOverlay]
    cases m.overlayFolder? home <;> rfl
  exact ⟨_, run_of_stages m home options.withoutOverlay t batches cleanup none t₁ after after
    hinput hmap hexpressions hcleanup hoverlay⟩

/-- An overlay fails for want of its folder, or while it is copied. -/
theorem runOverlay_error (input : Path) (mode : WriteMode) (e : Error) (after : FileTree)
    (h : runOverlay m home options input mode t = (.error e, after)) :
    ∃ source, m.overlayFolder? home = some source ∧ options.copyProject = true ∧
      ((t.isFolder source = false ∧ e = .of (missingOverlay source) ∧ after = t) ∨
        (mode.writes = true ∧ t.copyFolder source input = (.error e, after))) := by
  rw [runOverlay] at h
  split at h
  · next source hsource hasked =>
      refine ⟨source, hsource, hasked, ?_⟩
      split at h
      · cases h
      · next heq =>
          cases h
          rw [copyOverlay] at heq
          split at heq
          · next hfolder =>
              cases heq
              exact Or.inl ⟨by simpa using hfolder, rfl, rfl⟩
          · next hfolder =>
              split at heq
              · next hwrites =>
                  split at heq
                  · cases heq
                  · next hcopy =>
                      cases heq
                      exact Or.inr ⟨hwrites, hcopy⟩
              · -- On a dry run the files are counted, and that does not fail.
                obtain ⟨n, hn⟩ := countFilesUpTo_ok t (maxPathSize + 1) source
                  (by simpa using hfolder)
                rw [countFiles, hn] at heq
                cases heq
  · cases h

/-- The stages that a run fails in: before the first one, in the expressions or
    in the overlay. -/
theorem run_error_cases (e : Error) (after : FileTree)
    (h : run m home options t = (.error e, after)) :
    (t.isFolder (options.input home) = false ∧
        e = .of (missingInput (options.input home)) ∧ after = t) ∨
      (∃ cause, m.validate = .error cause ∧ e = .of cause ∧ after = t) ∨
      (t.isFolder (options.input home) = true ∧ m.validate = .ok () ∧
        ((∃ cause, runExpressions m (options.input home) options.mode options.expressions t =
            (.error cause, after) ∧ e = .of cause) ∨
          ∃ batches t₁ cleanup t₂,
            runExpressions m (options.input home) options.mode options.expressions t =
              (.ok batches, t₁) ∧
            runCleanup m options (options.input home) options.mode t₁ = (.ok cleanup, t₂) ∧
            runOverlay m home options (options.input home) options.mode t₂ =
              (.error e, after))) := by
  rw [run] at h
  split at h
  · next hinput =>
      cases h
      exact Or.inl ⟨by simpa using hinput, rfl, rfl⟩
  · next hinput =>
      have hinput : t.isFolder (options.input home) = true := by simpa using hinput
      split at h
      · next cause hmap =>
          cases h
          exact Or.inr (Or.inl ⟨cause, hmap, rfl, rfl⟩)
      · next hmap =>
          refine Or.inr (Or.inr ⟨hinput, hmap, ?_⟩)
          split at h
          · next cause _ heq =>
              cases h
              exact Or.inl ⟨cause, heq, rfl⟩
          · next batches t₁ heq =>
              -- The cleanup cannot be what has failed.
              obtain ⟨cleanup, t₂, hcleanup⟩ := runCleanup_ok m hmap options (options.input home)
                (t.text_ne_empty_of_isFolder _ hinput) options.mode t₁
              refine Or.inr ⟨batches, t₁, cleanup, t₂, heq, hcleanup, ?_⟩
              simp only [hcleanup] at h
              split at h
              · next hoverlay =>
                  cases h
                  exact hoverlay
              · cases h

/-- Every failed run stops in one of the ways. -/
theorem stops_of_run_error (e : Error) (after : FileTree)
    (h : run m home options t = (.error e, after)) : Stops m home options t e after := by
  rcases run_error_cases m home options t e after h with
    ⟨hinput, rfl, rfl⟩ | ⟨cause, hmap, rfl, rfl⟩ | ⟨hinput, hmap, ⟨cause, hexpressions, rfl⟩ |
      ⟨batches, t₁, cleanup, t₂, hexpressions, hcleanup, hoverlay⟩⟩
  · exact .missing hinput
  · exact .refused cause hmap
  · obtain ⟨done, expression, rest, batches, hsplit, hdone, hfails⟩ :=
      runExpressions_error m _ _ _ t cause after hexpressions
    obtain ⟨report, hrun⟩ := run_upTo m home options t done batches after hinput hmap hdone
    exact .expression done rest expression cause report after hsplit hrun hfails
  · obtain ⟨report, hrun⟩ :=
      run_withoutOverlay m home options t batches cleanup t₁ t₂ hinput hmap hexpressions hcleanup
    obtain ⟨source, hsource, hasked, ⟨hfolder, rfl, rfl⟩ | ⟨hwrites, hcopy⟩⟩ :=
      runOverlay_error m home options t₂ _ _ e after hoverlay
    · exact .noOverlay source report after hasked hsource hrun hfolder
    · have happly : options.dryRun = false := by
        cases hdry : options.dryRun with
        | false => rfl
        | true =>
            rw [RunOptions.mode, hdry] at hwrites
            cases hwrites
      have hover := overlaid_copyFolderUpTo (maxPathSize + 1) t₂ source (options.input home)
      rw [← copyFolder, hcopy] at hover
      exact .copying source report t₂ e after happly hasked hsource hrun hcopy hover

/-- A dry run that fails leaves the tree as it was. -/
theorem run_error_dryRun (e : Error) (after : FileTree)
    (h : run m home options t = (.error e, after)) (hdry : options.dryRun = true) :
    after = t := by
  have hmode : options.mode = .dryRun := by
    rw [RunOptions.mode, hdry]
    rfl
  have hfirst := runExpressions_dryRun m (options.input home) options.expressions t
  rcases run_error_cases m home options t e after h with
    ⟨-, -, hafter⟩ | ⟨-, -, -, hafter⟩ | ⟨-, -, ⟨cause, hexpressions, -⟩ |
      ⟨batches, t₁, cleanup, t₂, hexpressions, hcleanup, hoverlay⟩⟩
  · exact hafter
  · exact hafter
  · rw [← hmode, hexpressions] at hfirst
    exact hfirst
  · have hsecond := runCleanup_dryRun m options (options.input home) t₁
    have hthird := runOverlay_dryRun m home options (options.input home) t₂
    rw [← hmode, hexpressions] at hfirst
    rw [← hmode, hcleanup] at hsecond
    rw [← hmode, hoverlay] at hthird
    exact hthird.trans (hsecond.trans hfirst)

end Run

/-- A failed run leaves the project as the stages before the failure have left
    it, each of them complete; a copy of the overlay that stops halfway has laid
    files over that and taken nothing away. A dry run leaves it as it was. -/
theorem run_error_keeps_stages (m : RenameMap) (home : String) (options : RunOptions)
    (t : FileTree) (e : Error) (after : FileTree)
    (h : run m home options t = (.error e, after)) :
    Stops m home options t e after ∧ (options.dryRun = true → after = t) :=
  ⟨stops_of_run_error m home options t e after h, run_error_dryRun m home options t e after h⟩

/-- A project with one class. -/
def classProject : FileTree :=
  { entries := [(["p"], .folder), (["p", "classes"], .folder),
      (["p", "classes", "A.cls"], .file (.text "new Legacy__c();"))] }

/-- A map with one rename. -/
def classRenames : RenameMap :=
  { objects := [{ previousObject := "Legacy__c", newObject := "Account" }] }

/-- Two expressions, the second of which is no pattern. -/
def brokenExpressions : RunOptions :=
  { inputFolder := "p", expressions := ["./classes/*.cls", "./triggers/["] }

theorem run_brokenExpressions :
    ∃ e after, run classRenames "" brokenExpressions classProject = (.error e, after) ∧
      after.get? ["p", "classes", "A.cls"] = some (.file (.text "new Account();")) := by
  have hfailed : (run classRenames "" brokenExpressions classProject).1.toOption = none := by
    decide +kernel
  have hwritten : (run classRenames "" brokenExpressions classProject).2.get?
      ["p", "classes", "A.cls"] = some (.file (.text "new Account();")) := by
    decide +kernel
  cases hrun : run classRenames "" brokenExpressions classProject with
  | mk outcome after =>
      rw [hrun] at hfailed hwritten
      cases outcome with
      | ok report => cases hfailed
      | error e => exact ⟨e, after, rfl, hwritten⟩

theorem run_error_keeps_stages_broken :
    ∃ e after, run classRenames "" brokenExpressions classProject = (.error e, after) ∧
      after.get? ["p", "classes", "A.cls"] = some (.file (.text "new Account();")) ∧
      Stops classRenames "" brokenExpressions classProject e after := by
  obtain ⟨e, after, hrun, hwritten⟩ := run_brokenExpressions
  exact ⟨e, after, hrun, hwritten, (run_error_keeps_stages _ _ _ _ e after hrun).1⟩

/-- It is not so that a failed run leaves everything as it was. -/
theorem run_error_writes :
    ¬ ∀ (m : RenameMap) (home : String) (options : RunOptions) (t : FileTree) (e : Error)
      (after : FileTree), t.IsPlain → run m home options t = (.error e, after) → after = t := by
  intro h
  obtain ⟨e, after, hrun, hwritten⟩ := run_brokenExpressions
  rw [h _ _ _ _ e after (isPlain_of_check classProject (by decide +kernel)) hrun] at hwritten
  exact absurd hwritten (by decide)

end SchemaRename
