import SchemaRename.Run

/-!
# Dry Runs

A dry run changes nothing, stage by stage.

Every stage of a run asks for its mode before it writes, and the trees that
the stages hand on are otherwise the ones they were given. That holds of one
file and one entry, so it holds of a batch and of a sweep, and of the list of
expressions.

## Theorems

* `substituteFile_dryRun`, `migrateFile_dryRun`: One file of a batch.
* `sweepEntries_dryRun`: The entries of a sweep.
* `runExpressions_dryRun`: The expressions of a run.
* `runCleanup_dryRun`, `runOverlay_dryRun`: The stages behind them.
* `run_keeps_tree`: The whole run, whether it ends well or not.
-/

namespace SchemaRename

theorem applyRules_dryRun (t : FileTree) (path : Path) (rules : List Rule) :
    (applyRules t path rules .dryRun).2 = t := by
  rw [applyRules]
  split
  · rfl
  · split
    · rfl
    · simp only [WriteMode.writes, Bool.false_eq_true, if_false]
      split <;> rfl

theorem substituteFile_dryRun (rules : List Rule) (state : BatchReport × FileTree)
    (path : Path) : (substituteFile rules .dryRun state path).2 = state.2 := by
  rw [substituteFile]
  simp only
  split
  · rfl
  · exact applyRules_dryRun _ _ _

theorem migrateFile_dryRun (m : RenameMap) (state : BatchReport × FileTree) (path : Path) :
    (migrateFile m .dryRun state path).2 = state.2 := by
  rw [migrateFile]
  simp only [migrateReference]
  split
  · rfl
  · rfl

/-- A batch leaves the tree as it is if each of its files does. -/
theorem foldl_tree (step : BatchReport × FileTree → Path → BatchReport × FileTree)
    (hstep : ∀ state path, (step state path).2 = state.2) (files : List Path)
    (state : BatchReport × FileTree) : (files.foldl step state).2 = state.2 := by
  induction files generalizing state with
  | nil => rfl
  | cons path files ih => rw [List.foldl_cons, ih, hstep]

theorem runExpression_dryRun (m : RenameMap) (input : Path) (expression : String)
    (t : FileTree) : (runExpression m input .dryRun expression t).2 = t := by
  rw [runExpression]
  split
  · rfl
  · next files _ =>
      split
      · exact foldl_tree _ (migrateFile_dryRun m) files _
      · rw [substitutionBatch]
        split
        · rfl
        · next rules _ => exact foldl_tree _ (substituteFile_dryRun rules) files _

/-- A dry run of some expressions leaves the tree as it is. -/
theorem runExpressions_dryRun (m : RenameMap) (input : Path) (expressions : List String)
    (t : FileTree) : (runExpressions m input .dryRun expressions t).2 = t := by
  induction expressions generalizing t with
  | nil => rfl
  | cons expression expressions ih =>
      have hfirst := runExpression_dryRun m input expression t
      rw [runExpressions]
      split
      · next heq =>
          rw [heq] at hfirst
          exact hfirst
      · next t' heq =>
          rw [heq] at hfirst
          have hrest := ih t'
          split <;>
            · next heq' =>
                rw [heq'] at hrest
                exact hrest.trans hfirst

/-- A dry sweep of some entries leaves the tree as it is, if that of the folders
    among them does. -/
theorem sweepEntries_dryRun (root : Path) (deprecated : String)
    (deep : Path → CleanupReport → FileTree → Except Cause CleanupReport × FileTree)
    (hdeep : ∀ path report t, (deep path report t).2 = t) (paths : List Path)
    (report : CleanupReport) (t : FileTree) :
    (sweepEntries root deprecated .dryRun deep paths report t).2 = t := by
  induction paths generalizing report t with
  | nil => rfl
  | cons path paths ih =>
      rw [sweepEntries]
      split
      · exact ih _ t
      · -- An entry that would be removed is only noted.
        exact ih _ t
      · have hfolder := hdeep path report.scan t
        split
        · next heq =>
            rw [heq] at hfolder
            exact hfolder
        · next t' heq =>
            rw [heq] at hfolder
            exact (ih _ t').trans hfolder

theorem sweepFolder_dryRun (root : Path) (deprecated : String) (depth : Nat) (folder : Path)
    (report : CleanupReport) (t : FileTree) :
    (sweepFolder root deprecated .dryRun depth folder report t).2 = t := by
  induction depth generalizing folder report t with
  | zero => rfl
  | succ depth ih =>
      rw [sweepFolder]
      split
      · rfl
      · exact sweepEntries_dryRun root deprecated _ ih _ report t

theorem deleteDeprecated_dryRun (t : FileTree) (root : Path) (deprecated : String) :
    (deleteDeprecated t root deprecated .dryRun).2 = t := by
  rw [deleteDeprecated]
  split
  · rfl
  · split
    · rfl
    · exact sweepEntries_dryRun root deprecated _ (sweepFolder_dryRun root deprecated _) _ _ t

/-- A dry run of the cleanup leaves the tree as it is. -/
theorem runCleanup_dryRun (m : RenameMap) (options : RunOptions) (input : Path) (t : FileTree) :
    (runCleanup m options input .dryRun t).2 = t := by
  rw [runCleanup]
  split
  · next deprecated _ _ =>
      have h := deleteDeprecated_dryRun t input deprecated
      split <;>
        · next heq =>
            rw [heq] at h
            exact h
  · rfl

theorem copyOverlay_dryRun (t : FileTree) (source input : Path) :
    (copyOverlay t source input .dryRun).2 = t := by
  rw [copyOverlay]
  simp only [WriteMode.writes, Bool.false_eq_true, if_false]
  split
  · rfl
  · split <;> rfl

/-- A dry run of the overlay leaves the tree as it is. -/
theorem runOverlay_dryRun (m : RenameMap) (home : String) (options : RunOptions) (input : Path)
    (t : FileTree) : (runOverlay m home options input .dryRun t).2 = t := by
  rw [runOverlay]
  split
  · next source _ _ =>
      have h := copyOverlay_dryRun t source input
      split <;>
        · next heq =>
            rw [heq] at h
            exact h
  · rfl

/-- A dry run leaves every file and every folder as it is, whether it ends well
    or not. -/
theorem run_keeps_tree (m : RenameMap) (home : String) (options : RunOptions) (t : FileTree)
    (hdry : options.dryRun = true) : (run m home options t).2 = t := by
  have hmode : options.mode = .dryRun := by
    unfold RunOptions.mode
    rw [hdry]
    rfl
  have hexpressions := runExpressions_dryRun m (options.input home) options.expressions t
  unfold run
  simp only [hmode]
  split
  · rfl
  · split
    · rfl
    · -- Each stage finds the tree of the start, so it can only hand on that tree.
      split
      · next heq =>
          rw [heq] at hexpressions
          exact hexpressions
      · next t₁ heq =>
          rw [heq] at hexpressions
          obtain rfl : t₁ = t := hexpressions
          have hcleanup := runCleanup_dryRun m options (options.input home) t₁
          split
          · next heq' =>
              rw [heq'] at hcleanup
              exact hcleanup
          · next t₂ heq' =>
              rw [heq'] at hcleanup
              obtain rfl : t₂ = t₁ := hcleanup
              have hoverlay := runOverlay_dryRun m home options (options.input home) t₂
              split <;>
                · next heq'' =>
                    rw [heq''] at hoverlay
                    exact hoverlay

/-- A project with work for every stage: a class and a lookup field that use an
    old name, an entry with a prefix that has gone out of use, and a folder to
    lay over the result. -/
def staleProject : FileTree :=
  { entries := [(["o"], .folder), (["o", "README"], .file (.text "")),
      (["p"], .folder), (["p", "classes"], .folder),
      (["p", "classes", "A.cls"], .file (.text "new Legacy__c();")),
      (["p", "classes", "OLD_B.cls"], .file (.text "")),
      (["p", "objects"], .folder), (["p", "objects", "fields"], .folder),
      (["p", "objects", "fields", "L.xml"],
        .file (.text "<a><referenceTo>Legacy__c</referenceTo></a>"))] }

/-- The map of that project. -/
def staleRenames : RenameMap :=
  { objects := [{ previousObject := "Legacy__c", newObject := "Account" }]
    deletedPrefix := some "OLD_"
    projectFolder := some "o" }

/-- A run on that project with a batch of either kind. -/
def staleRun (dryRun : Bool) : RunOptions :=
  { inputFolder := "p", expressions := ["classes/*.cls", "objects/fields/*.xml"], dryRun }

theorem run_keeps_tree_stale :
    (run staleRenames "" (staleRun true) staleProject).2 = staleProject ∧
      (run staleRenames "" (staleRun false) staleProject).2 ≠ staleProject := by
  refine ⟨run_keeps_tree _ _ _ _ rfl, fun h => ?_⟩
  have hgone : (run staleRenames "" (staleRun false) staleProject).2.get?
      ["p", "classes", "OLD_B.cls"] = none := by
    decide +kernel
  rw [h] at hgone
  exact absurd hgone (by decide)

end SchemaRename
