import SchemaRename.Proofs.Cleanup.StartedFrom
import SchemaRename.Proofs.FileTree.Counting
import SchemaRename.Proofs.Run.Rewriting
import SchemaRename.Proofs.Run.Stopping

/-!
# What a Dry Run Foretells

How far the report of a dry run is the report of the real one.

A dry run ends well whenever the real run does, and speaks of the same
expressions, the same cleanup and the same overlay. But it does every stage
on the project as it is at the start, and the real run does a stage on what
the stages before it have left. So the two agree on a stage if what it looks
at was left alone: the files of a batch, the entries of a cleanup with what
ties them, and the entries of the overlay. For batches that can be seen before
the run: if all of them substitute and no file is selected twice, none gets in
the way of another. A file that two expressions select is changed by the first
and no longer by the second, and the dry run reports it twice.

What fails in the real run is beyond a dry run as well: a write, or a removal.

## Main definitions

* `Undisturbed`: An expression that finds its files as they were.
* `Foretells`: What a dry run says about the real one.

## Theorems

* `runExpressions_foretold`, `runCleanup_foretold`, `runOverlay_foretold`: The
  stages of a run.
* `undisturbed_of_apart`, `runExpressions_apart`: Expressions that rewrite every
  file at most once.
* `run_foretold`: What a dry run foretells.
* `run_unforetold`: That is not everything.
-/

namespace SchemaRename

open SchemaRename.FileTree

section Expressions

/-- Whether a pattern is well formed does not depend on the tree. -/
theorem expandExpression_error (t t' : FileTree) (input : Path) (expression : String)
    (cause : Cause) (h : expandExpression t input expression = .error cause) :
    expandExpression t' input expression = .error cause := by
  unfold expandExpression Glob.find at h ⊢
  cases hsearch : Glob.search (expressionPattern input expression) with
  | error fault =>
      rw [hsearch] at h
      exact h
  | ok search =>
      rw [hsearch] at h
      cases h

/-- An expression selects files. -/
theorem isFile_of_mem_expandExpression (t : FileTree) (input : Path) (expression : String)
    (files : List Path) (h : expandExpression t input expression = .ok files) (p : Path)
    (hp : p ∈ files) : t.isFile p = true := by
  unfold expandExpression at h
  split at h
  · cases h
    exact (List.mem_filter.mp ((inOrder_perm _ _).mem_iff.mp hp)).2
  · cases h

/-- An expression that finds its files in one tree as they are in another: it
    selects the same, and each file has the same content when its turn comes. -/
structure Undisturbed (m : RenameMap) (input : Path) (expression : String) (t t' : FileTree) :
    Prop where
  files : expandExpression t' input expression = expandExpression t input expression
  turns : ∀ done p rest, expandExpression t input expression = .ok (done ++ p :: rest) →
    (runFiles m expression done .apply t').2.entryAt? true p = t.entryAt? true p

variable (m : RenameMap) (input : Path)

/-- A dry run of an expression, given that a real one ends well in some tree. -/
theorem runExpression_foretold (expression : String) (t t' after : FileTree) (b : BatchReport)
    (hreal : runExpression m input .apply expression t' = (.ok b, after)) :
    ∃ b', runExpression m input .dryRun expression t = (.ok b', t) ∧
      b.expression = expression ∧ b'.expression = expression ∧ b'.kind = b.kind ∧
      (Undisturbed m input expression t t' → b.AllWritten → b' = b.planned) := by
  rw [runExpression_eq] at hreal ⊢
  cases hexpand' : expandExpression t' input expression with
  | error cause =>
      rw [hexpand'] at hreal
      cases hreal
  | ok files' =>
      rw [hexpand'] at hreal
      simp only at hreal
      cases hexpand : expandExpression t input expression with
      | error cause =>
          rw [expandExpression_error t t' input expression cause hexpand] at hexpand'
          cases hexpand'
      | ok files =>
          obtain ⟨b', hdry, hb, hb', hkind⟩ :=
            runFiles_dryRun_ok m expression files t files' t' after b hreal
          refine ⟨b', hdry, hb, hb', hkind, ?_⟩
          intro hundisturbed hwritten
          have hsame : files' = files := by
            have := hundisturbed.files
            rw [hexpand, hexpand'] at this
            exact Except.ok.inj this
          subst hsame
          have hplanned := runFiles_planned m expression files' t t' after b hreal
            (isFile_of_mem_expandExpression t input expression files' hexpand)
            (fun done p rest hsplit => hundisturbed.turns done p rest (by rw [hexpand, hsplit]))
            hwritten
          rw [hplanned] at hdry
          exact (Except.ok.inj (Prod.mk.inj hdry).1).symm

variable (mode : WriteMode)

/-- The batches of a run, one for each expression, each on what the ones before
    it have left. -/
theorem runExpressions_getElem? (expressions : List String) (t : FileTree)
    (batches : List BatchReport) (after : FileTree)
    (h : runExpressions m input mode expressions t = (.ok batches, after)) :
    batches.length = expressions.length ∧
      ∀ i b, batches[i]? = some b → ∃ expression done before next,
        expressions[i]? = some expression ∧
        runExpressions m input mode (expressions.take i) t = (.ok done, before) ∧
        runExpression m input mode expression before = (.ok b, next) := by
  induction expressions generalizing t batches with
  | nil =>
      cases h
      exact ⟨rfl, fun i b hb => by simp at hb⟩
  | cons expression expressions ih =>
      rw [runExpressions] at h
      split at h
      · cases h
      · next batch t' heq =>
          split at h
          · cases h
          · next rest t'' heq' =>
              cases h
              obtain ⟨hlength, hall⟩ := ih t' rest heq'
              refine ⟨by simp [hlength], ?_⟩
              intro i b hb
              cases i with
              | zero =>
                  cases hb
                  exact ⟨expression, [], t, t', rfl, rfl, heq⟩
              | succ i =>
                  obtain ⟨x, done, before, next, hx, hdone, hrun⟩ := hall i b hb
                  refine ⟨x, batch :: done, before, next, hx, ?_, hrun⟩
                  rw [List.take_succ_cons, runExpressions, heq]
                  simp only [hdone]

/-- The expressions of a run keep a tree plain and its folders as they are. -/
theorem runExpressions_plain (expressions : List String) (t : FileTree) (ht : t.IsPlain) :
    (runExpressions m input .apply expressions t).2.IsPlain ∧
      SameFolders t (runExpressions m input .apply expressions t).2 := by
  induction expressions generalizing t with
  | nil => exact ⟨ht, SameFolders.refl t⟩
  | cons expression expressions ih =>
      have hfirst : (runExpression m input .apply expression t).2.IsPlain ∧
          SameFolders t (runExpression m input .apply expression t).2 := by
        rw [runExpression_eq]
        split
        · exact ⟨ht, SameFolders.refl t⟩
        · exact runFiles_plain m expression _ t ht
      rw [runExpressions]
      split
      · next heq =>
          rw [heq] at hfirst
          exact hfirst
      · next batch t' heq =>
          rw [heq] at hfirst
          obtain ⟨hplain, hfolders⟩ := ih t' hfirst.1
          split <;>
            · next heq' =>
                rw [heq'] at hplain hfolders
                exact ⟨hplain, hfirst.2.trans hfolders⟩

/-- Dry runs of some expressions, one after the other, are dry runs of each. -/
theorem runExpressions_dryRun_ok (expressions : List String) (t : FileTree)
    (h : ∀ x ∈ expressions, ∃ b, runExpression m input .dryRun x t = (.ok b, t)) :
    ∃ batches, runExpressions m input .dryRun expressions t = (.ok batches, t) := by
  induction expressions with
  | nil => exact ⟨[], rfl⟩
  | cons expression expressions ih =>
      obtain ⟨b, hb⟩ := h expression List.mem_cons_self
      obtain ⟨batches, hbatches⟩ := ih fun x hx => h x (List.mem_cons_of_mem _ hx)
      refine ⟨b :: batches, ?_⟩
      rw [runExpressions, hb]
      simp only [hbatches]

/-- The batches of a dry run, beside those of a real one. -/
theorem runExpressions_foretold (expressions : List String) (t : FileTree)
    (batches : List BatchReport) (after : FileTree)
    (hreal : runExpressions m input .apply expressions t = (.ok batches, after)) :
    ∃ batches', runExpressions m input .dryRun expressions t = (.ok batches', t) ∧
      batches'.length = batches.length ∧
      ∀ i b b', batches[i]? = some b → batches'[i]? = some b' →
        expressions[i]? = some b.expression ∧ b'.expression = b.expression ∧ b'.kind = b.kind ∧
        (Undisturbed m input b.expression t
            (runExpressions m input .apply (expressions.take i) t).2 →
          b.AllWritten → b' = b.planned) := by
  obtain ⟨hlength, hall⟩ :=
    runExpressions_getElem? m input .apply expressions t batches after hreal
  obtain ⟨batches', hdry⟩ := runExpressions_dryRun_ok m input expressions t (by
    intro x hx
    obtain ⟨i, hi, rfl⟩ := List.mem_iff_getElem.mp hx
    have hb := List.getElem?_eq_getElem (l := batches) (i := i) (by omega)
    obtain ⟨x, done, before, next, hx, -, hrun⟩ := hall i _ hb
    rw [List.getElem?_eq_getElem hi, Option.some.injEq] at hx
    obtain ⟨b', hb', -⟩ := runExpression_foretold m input x t before next _ hrun
    rw [hx]
    exact ⟨b', hb'⟩)
  obtain ⟨hlength', hall'⟩ := runExpressions_getElem? m input .dryRun expressions t batches' t hdry
  refine ⟨batches', hdry, hlength'.trans hlength.symm, ?_⟩
  intro i b b' hb hb'
  obtain ⟨x, done, before, next, hx, hdone, hrun⟩ := hall i b hb
  obtain ⟨x', done', before', next', hx', hdone', hrun'⟩ := hall' i b' hb'
  obtain rfl : x = x' := Option.some.inj (hx.symm.trans hx')
  -- A dry run comes to each expression with the tree of the start.
  obtain rfl : before' = t := by
    have := runExpressions_dryRun m input (expressions.take i) t
    rwa [hdone'] at this
  obtain ⟨b'', hb'', rfl, hexpression, hkind, hsame⟩ :=
    runExpression_foretold m input x before' before next b hrun
  obtain rfl : b' = b'' := by
    rw [hb''] at hrun'
    exact (Except.ok.inj (Prod.mk.inj hrun').1).symm
  rw [hdone]
  exact ⟨hx, hexpression, hkind, hsame⟩

/-- Expressions that rewrite every file at most once find their files as they
    were, whatever stands before them. -/
theorem undisturbed_of_apart (expressions : List String) (t : FileTree) (ht : t.IsPlain)
    (h : RewritesApart t input expressions) (i : Nat) (expression : String)
    (hi : expressions[i]? = some expression) :
    Undisturbed m input expression t
      (runExpressions m input .apply (expressions.take i) t).2 := by
  have hbefore := runExpressions_rewritten m input (expressions.take i)
    (fun x hx => h.substitutes x (List.mem_of_mem_take hx)) t ht h.noTemporaries
  refine ⟨expandExpression_sameShape ht hbefore.plain hbefore.toSameShape input expression, ?_⟩
  intro done p rest hfiles
  have hkind := h.substitutes expression (List.mem_of_getElem? hi)
  have hdone := runFiles_rewritten m expression hkind done _ hbefore.plain
    (hbefore.noTemporaries h.noTemporaries)
  rw [funext (place?_of_sameFolders ht hbefore.plain hbefore.toSameFolders)] at hdone
  have hall := hbefore.trans hdone
  rw [entryAt?_eq hall.plain, entryAt?_eq ht,
    place?_of_sameFolders ht hall.plain hall.toSameFolders]
  cases hplace : t.place? p with
  | none => rfl
  | some l =>
      refine hall.frame l fun hl => ?_
      -- The file would be selected twice: here, and before.
      obtain ⟨hi, hget⟩ := List.getElem?_eq_some_iff.mp hi
      have hnodup := h.nodup
      rw [← List.take_append_drop i expressions, List.drop_eq_getElem_cons hi, hget,
        List.flatMap_append, List.flatMap_cons, selectedPlaces, hfiles] at hnodup
      simp only [List.filterMap_append, List.filterMap_cons, hplace] at hnodup
      rw [← List.append_assoc, ← List.append_assoc] at hnodup
      exact List.disjoint_of_nodup_append (List.nodup_append.mp hnodup).1 hl List.mem_cons_self

/-- All the batches of a run that rewrites every file at most once are foretold,
    if no write fails. -/
theorem runExpressions_apart (expressions : List String) (t : FileTree) (ht : t.IsPlain)
    (h : RewritesApart t input expressions) (batches batches' : List BatchReport)
    (after : FileTree)
    (hreal : runExpressions m input .apply expressions t = (.ok batches, after))
    (hdry : runExpressions m input .dryRun expressions t = (.ok batches', t))
    (hwritten : ∀ b ∈ batches, b.AllWritten) : batches' = batches.map BatchReport.planned := by
  obtain ⟨batches'', hdry', hlength, hbatch⟩ :=
    runExpressions_foretold m input expressions t batches after hreal
  rw [hdry] at hdry'
  cases hdry'
  refine List.ext_getElem (by rw [hlength, List.length_map]) fun i hi hi' => ?_
  rw [List.length_map] at hi'
  rw [List.getElem_map]
  obtain ⟨hexpression, -, -, hsame⟩ := hbatch i batches[i] batches'[i]
    (List.getElem?_eq_getElem hi') (List.getElem?_eq_getElem hi)
  exact hsame (undisturbed_of_apart m input expressions t ht h i _ hexpression)
    (hwritten _ (List.getElem_mem hi'))

end Expressions

section Stages

variable (m : RenameMap) (options : RunOptions) (input : Path)

/-- What shrinking keeps, the cleanup of a run keeps. -/
theorem Shrinks.runCleanup {R : FileTree → FileTree → Prop} (hR : Shrinks R) (mode : WriteMode)
    (t : FileTree) : R t (runCleanup m options input mode t).2 := by
  rw [SchemaRename.runCleanup]
  split
  · next deprecated _ _ =>
      have h := hR.deleteDeprecated input deprecated mode t
      split <;>
        · next heq =>
            rw [heq] at h
            exact h
  · exact hR.refl t

/-- Files that are no definitions of fields or layouts can be rewritten without
    a cleanup taking note of it. -/
theorem alike_of_rewritten (deprecated : String) {t t' : FileTree} {ls : List Location}
    (h : Rewritten t t' ls)
    (hnames : ∀ l ∈ ls, ∀ name, l.getLast? = some name →
      ¬ EndsIn name fieldFileSuffix ∧ ¬ EndsIn name layoutFileSuffix) (l : Location) :
    Alike deprecated t t' l := by
  refine ⟨fun m _ => h.present m, fun m _ => h.folder_iff m, fun m _ => ?_⟩
  by_cases hm : m ∈ ls
  · have hfree : ∀ u : FileTree, ¬ TiedAt u deprecated m := by
      rintro u ⟨name, content, hlast, -, document, -, ⟨hfield, -⟩ | ⟨hlayout, -⟩⟩
      · exact (hnames m hm name hlast).1 hfield
      · exact (hnames m hm name hlast).2 hlayout
    exact iff_of_false (hfree t') (hfree t)
  · unfold TiedAt
    rw [h.frame m hm]

/-- The cleanup of a dry run, beside that of a real one in another tree. -/
theorem runCleanup_foretold (hvalid : m.validate = .ok ()) {t t' : FileTree} (ht : t.IsPlain)
    (ht' : t'.IsPlain) (hfolders : SameFolders t t') (hinput : t.isFolder input = true)
    (cleanup : Option CleanupReport) (after : FileTree)
    (hreal : runCleanup m options input .apply t' = (.ok cleanup, after)) :
    ∃ cleanup', runCleanup m options input .dryRun t = (.ok cleanup', t) ∧
      cleanup'.isSome = cleanup.isSome ∧
      ∀ report deprecated, cleanup = some report → m.deletedPrefix = some deprecated →
        report.failures = [] → ".." ∉ input.steps →
        Alike deprecated t t' (t.location input) → cleanup' = some report := by
  cases hdeprecated : m.deletedPrefix with
  | none =>
      simp only [runCleanup, hdeprecated] at hreal
      cases hreal
      refine ⟨none, by simp only [runCleanup, hdeprecated], rfl, ?_⟩
      intro report deprecated hreport
      cases hreport
  | some deprecated =>
      cases hdelete : options.deleteFiles with
      | false =>
          simp only [runCleanup, hdeprecated, hdelete] at hreal
          cases hreal
          refine ⟨none, by simp only [runCleanup, hdeprecated, hdelete], rfl, ?_⟩
          intro report deprecated hreport
          cases hreport
      | true =>
          -- Neither cleanup can fail: there is a folder to clean, and a prefix.
          have hne := m.ne_empty_of_validate deprecated hvalid hdeprecated
          have htext := t.text_ne_empty_of_isFolder input hinput
          obtain ⟨report, after₁, heq⟩ := deleteDeprecated_ok input deprecated .apply htext hne t'
          obtain ⟨report', after', heq'⟩ := deleteDeprecated_ok input deprecated .dryRun htext hne t
          have hstays := deleteDeprecated_dryRun t input deprecated
          rw [heq'] at hstays
          obtain rfl : after' = t := hstays
          simp only [runCleanup, hdeprecated, hdelete, heq] at hreal
          cases hreal
          refine ⟨some report', by simp only [runCleanup, hdeprecated, hdelete, heq'], rfl, ?_⟩
          intro report₁ deprecated₁ hreport hprefix hnone hdots halike
          cases hreport
          cases hprefix
          obtain ⟨report₂, after₂, hreal₂, hsame⟩ := deleteDeprecated_foretold ht ht' hfolders input
            deprecated hne hinput hdots halike
          rw [heq] at hreal₂
          cases hreal₂
          rw [hsame hnone] at heq'
          cases heq'
          rfl

variable (home : String)

/-- An overlay, as if nothing had been written. -/
def OverlayReport.planned (o : OverlayReport) : OverlayReport :=
  { o with written := false }

/-- The overlay of a dry run, beside that of a real one in another tree, whose
    folders are folders here too. -/
theorem runOverlay_foretold {t t' : FileTree} (ht : t.IsPlain) (ht' : t'.Linkless)
    (hwork : t.workingFolder = t'.workingFolder)
    (hfolders : ∀ l, t'.get? l = some .folder → t.get? l = some .folder)
    (overlay : Option OverlayReport) (after : FileTree)
    (hreal : runOverlay m home options input .apply t' = (.ok overlay, after)) :
    ∃ overlay', runOverlay m home options input .dryRun t = (.ok overlay', t) ∧
      overlay'.map (·.source) = overlay.map (·.source) ∧
      ∀ report, overlay = some report → SameView t t' report.source →
        SameView t after report.source → overlay' = some report.planned := by
  cases hsource : m.overlayFolder? home with
  | none =>
      simp only [runOverlay, hsource] at hreal
      cases hreal
      refine ⟨none, by simp only [runOverlay, hsource], rfl, ?_⟩
      intro report hreport
      cases hreport
  | some source =>
      cases hcopy : options.copyProject with
      | false =>
          simp only [runOverlay, hsource, hcopy] at hreal
          cases hreal
          refine ⟨none, by simp only [runOverlay, hsource, hcopy], rfl, ?_⟩
          intro report hreport
          cases hreport
      | true =>
          simp only [runOverlay, hsource, hcopy, copyOverlay, WriteMode.writes, if_true] at hreal
          cases hfolder' : t'.isFolder source with
          | false =>
              simp only [hfolder', Bool.not_false, if_true] at hreal
              cases hreal
          | true =>
              simp only [hfolder', Bool.not_true, Bool.false_eq_true, if_false] at hreal
              rcases hdone : t'.copyFolder source input with ⟨outcome, after₁⟩
              rw [hdone] at hreal
              cases outcome with
              | error e => cases hreal
              | ok n =>
                  cases hreal
                  -- What is a folder by then is one at the start, so it can be counted.
                  have hfolder := isFolder_of_folders ht' hfolders hwork source hfolder'
                  obtain ⟨n', hn'⟩ := countFilesUpTo_ok t (maxPathSize + 1) source hfolder
                  have hcount : t.countFiles source = .ok n' := hn'
                  refine ⟨some ⟨source, n', false⟩, ?_, rfl, ?_⟩
                  · simp only [runOverlay, hsource, hcopy, copyOverlay, hfolder, WriteMode.writes,
                      hcount, Bool.not_true, Bool.false_eq_true, if_false]
                  · intro report hreport hbefore hafter
                    cases hreport
                    rw [countFiles_of_copy t t' after source input n ht.toIsOrderly ht' hdone
                      hbefore hafter] at hcount
                    cases hcount
                    rfl

end Stages

/-- What a dry run says about the real run, which has reported `r` and left
    `after`: it speaks of the same expressions in the same order, of a cleanup
    and of an overlay if the real run does. On top of that it foretells
    * a batch that finds its files as they were at the start, if no write fails,
    * so all batches of a run that rewrites every file at most once,
    * the cleanup, if no removal fails and the project looks to it as it did at
      the start,
    * the overlay, if its folder looks the same at the start, when it is copied
      and at the end. -/
structure Foretells (m : RenameMap) (home : String) (options : RunOptions) (t : FileTree)
    (r : RunReport) (after : FileTree) (r' : RunReport) : Prop where
  input : r'.inputFolder = r.inputFolder
  dryRun : r'.dryRun = true
  length : r'.batches.length = r.batches.length
  batch : ∀ i b b', r.batches[i]? = some b → r'.batches[i]? = some b' →
    b'.expression = b.expression ∧ b'.kind = b.kind ∧
    (Undisturbed m (options.input home) b.expression t
        (run m home (options.upTo (options.expressions.take i)) t).2 →
      b.AllWritten → b' = b.planned)
  batches : RewritesApart t (options.input home) options.expressions →
    (∀ b ∈ r.batches, b.AllWritten) → r'.batches = r.batches.map BatchReport.planned
  cleanup_isSome : r'.cleanup.isSome = r.cleanup.isSome
  cleanup : ∀ report deprecated, r.cleanup = some report → m.deletedPrefix = some deprecated →
    report.failures = [] → ".." ∉ (options.input home).steps →
    Alike deprecated t (run m home (options.upTo options.expressions) t).2
      (t.location (options.input home)) →
    r'.cleanup = some report
  overlay_source : r'.overlay.map (·.source) = r.overlay.map (·.source)
  overlay : ∀ report, r.overlay = some report →
    SameView t (run m home options.withoutOverlay t).2 report.source →
    SameView t after report.source → r'.overlay = some report.planned

/-- The stages of a run that ends well. -/
theorem stages_of_run_ok (m : RenameMap) (home : String) (options : RunOptions) (t : FileTree)
    (r : RunReport) (after : FileTree) (h : run m home options t = (.ok r, after)) :
    t.isFolder (options.input home) = true ∧ m.validate = .ok () ∧
      ∃ batches t₁ cleanup t₂ overlay,
        runExpressions m (options.input home) options.mode options.expressions t =
          (.ok batches, t₁) ∧
        runCleanup m options (options.input home) options.mode t₁ = (.ok cleanup, t₂) ∧
        runOverlay m home options (options.input home) options.mode t₂ = (.ok overlay, after) ∧
        r = ⟨options.input home, options.dryRun, batches, cleanup, overlay⟩ := by
  unfold run at h
  simp only at h
  split at h
  · cases h
  · next hinput =>
      split at h
      · cases h
      · next hmap =>
          split at h
          · cases h
          · next batches t₁ hexpressions =>
              split at h
              · cases h
              · next cleanup t₂ hcleanup =>
                  split at h
                  · cases h
                  · next overlay t₃ hoverlay =>
                      cases h
                      exact ⟨by simpa using hinput, hmap, batches, t₁, cleanup, t₂, overlay,
                        hexpressions, hcleanup, hoverlay, rfl⟩

/-- A tree from which entries have been taken, seen from the same working
    folder. -/
theorem shrinks_linkless : Shrinks fun t t' =>
    Thinned t t' ∧ t'.workingFolder = t.workingFolder ∧ (t.Linkless → t'.Linkless) where
  refl t := ⟨Thinned.refl t, rfl, id⟩
  trans h h' := ⟨h.1.trans h'.1, h'.2.1.trans h.2.1, h'.2.2 ∘ h.2.2⟩
  erase t l := ⟨thinned_erase t l, rfl, fun ht => ⟨nodup_filter t _ ht.nodup, fun m target hm => by
    rcases thinned_erase t l m with hsame | hnone
    · exact ht.unlinked m target (hsame.symm.trans hm)
    · rw [hnone] at hm
      cases hm⟩⟩
  eraseBelow t l := ⟨thinned_eraseBelow t l, rfl, fun ht =>
    ⟨nodup_filter t _ ht.nodup, fun m target hm => by
      rcases thinned_eraseBelow t l m with hsame | hnone
      · exact ht.unlinked m target (hsame.symm.trans hm)
      · rw [hnone] at hm
        cases hm⟩⟩

/-- A dry run ends well whenever the real run does, on every project of plain
    files and folders, and foretells the stages that find what they look at as
    it was at the start. -/
theorem run_foretold (m : RenameMap) (home : String) (options : RunOptions) (t : FileTree)
    (ht : t.IsPlain) (hreal : options.dryRun = false) (r : RunReport) (after : FileTree)
    (h : run m home options t = (.ok r, after)) :
    ∃ r', run m home { options with dryRun := true } t = (.ok r', t) ∧
      Foretells m home options t r after r' := by
  obtain ⟨hinput, hmap, batches, t₁, cleanup, t₂, overlay, hexpressions, hcleanup, hoverlay, rfl⟩ :=
    stages_of_run_ok m home options t r after h
  have hmode : options.mode = .apply := by
    unfold RunOptions.mode
    rw [hreal]
    rfl
  have hpart : ∀ done batches after,
      runExpressions m (options.input home) options.mode done t = (.ok batches, after) →
      (run m home (options.upTo done) t).2 = after := by
    intro done batches after hdone
    obtain ⟨report, heq⟩ := run_upTo m home options t done batches after hinput hmap hdone
    rw [heq]
  have hwhole := hpart _ _ _ hexpressions
  obtain ⟨report, hwithout⟩ :=
    run_withoutOverlay m home options t batches cleanup t₁ t₂ hinput hmap hexpressions hcleanup
  rw [hmode] at hpart hexpressions hcleanup hoverlay
  -- Each stage is set beside the dry one, which comes to it with the tree of the start.
  obtain ⟨batches', hdry, hlength, hbatch⟩ :=
    runExpressions_foretold m (options.input home) options.expressions t batches t₁ hexpressions
  obtain ⟨ht₁, hfolders₁⟩ :=
    runExpressions_plain m (options.input home) options.expressions t ht
  rw [hexpressions] at ht₁ hfolders₁
  obtain ⟨cleanup', hdryCleanup, hsome, hcleaned⟩ := runCleanup_foretold m options
    (options.input home) hmap ht ht₁ hfolders₁ hinput cleanup t₂ hcleanup
  have hshrunk := Shrinks.runCleanup m options (options.input home) shrinks_linkless .apply t₁
  rw [hcleanup] at hshrunk
  obtain ⟨hthinned, hwork, hlinkless⟩ := hshrunk
  obtain ⟨overlay', hdryOverlay, hsource, hlaid⟩ := runOverlay_foretold m options
    (options.input home) home ht (hlinkless ht₁.linkless)
    (hfolders₁.working.symm.trans hwork.symm)
    (fun l hl => by
      rcases hthinned l with hsame | hnone
      · exact (hfolders₁.folder_iff l).mp (hsame.symm.trans hl)
      · rw [hnone] at hl
        cases hl)
    overlay after hoverlay
  refine ⟨⟨options.input home, true, batches', cleanup', overlay'⟩, ?_, ?_⟩
  · exact run_of_stages m home { options with dryRun := true } t batches' cleanup' overlay' t t t
      hinput hmap hdry hdryCleanup hdryOverlay
  · refine ⟨rfl, rfl, hlength, ?_, ?_, hsome, ?_, hsource, ?_⟩
    · intro i b b' hb hb'
      obtain ⟨x, done, before, next, -, hdone, -⟩ :=
        (runExpressions_getElem? m (options.input home) .apply options.expressions t batches t₁
          hexpressions).2 i b hb
      have hbefore := hpart _ _ _ hdone
      have hsame := (hbatch i b b' hb hb').2
      rw [hdone] at hsame
      rw [hbefore]
      exact hsame
    · intro hapart hwritten
      exact runExpressions_apart m (options.input home) options.expressions t ht hapart batches
        batches' t₁ hexpressions hdry hwritten
    · rw [hwhole]
      exact hcleaned
    · rw [hwithout]
      exact hlaid

/-- A run with two expressions that select a class each, and a cleanup behind
    them. -/
def classRun : RunOptions :=
  { inputFolder := "p", expressions := ["classes/A*.cls", "classes/OLD_*.cls"],
    copyProject := false }

theorem run_foretold_classes :
    ∃ r after r', run staleRenames "" classRun staleProject = (.ok r, after) ∧
      run staleRenames "" { classRun with dryRun := true } staleProject = (.ok r', staleProject) ∧
      r'.batches = r.batches.map BatchReport.planned ∧ r'.cleanup = r.cleanup ∧
      r'.overlay = r.overlay := by
  have ht : staleProject.IsPlain := isPlain_of_check _ (by decide +kernel)
  have hclean : staleProject.HasNoTemporaries := hasNoTemporaries_of_check _ (by decide +kernel)
  have hkind : ∀ x ∈ classRun.expressions, isReferenceExpression x = false := by decide +kernel
  have hplaces : classRun.expressions.flatMap (selectedPlaces staleProject (classRun.input "")) =
      [["p", "classes", "A.cls"], ["p", "classes", "OLD_B.cls"]] := by
    decide +kernel
  have hgood : (run staleRenames "" classRun staleProject).1.toOption.any (fun r =>
      r.batches.all (·.skipped.isEmpty) && r.cleanup.any (·.failures.isEmpty) &&
        r.overlay.isNone) = true := by
    decide +kernel
  rcases hrun : run staleRenames "" classRun staleProject with ⟨outcome, after⟩
  rw [hrun] at hgood
  cases outcome with
  | error e => cases hgood
  | ok r =>
      simp only [Except.toOption, Option.any_some, Bool.and_eq_true, List.all_eq_true,
        List.isEmpty_iff, Option.isNone_iff_eq_none] at hgood
      obtain ⟨⟨hskipped, hfailures⟩, hoverlay⟩ := hgood
      obtain ⟨report, hreport, hfailures⟩ := (Option.any_eq_true ..).mp hfailures
      obtain ⟨r', hdry, hforetells⟩ :=
        run_foretold staleRenames "" classRun staleProject ht rfl r after hrun
      have hbatches := hforetells.batches ⟨hclean, hkind, by rw [hplaces]; decide⟩
        fun b hb s hs => by
          rw [hskipped b hb] at hs
          cases hs
      refine ⟨r, after, r', rfl, hdry, hbatches, ?_, ?_⟩
      · have hrewritten := runExpressions_rewritten staleRenames (classRun.input "") _ hkind
          staleProject ht hclean
        rw [hplaces] at hrewritten
        have hupTo : (run staleRenames "" (classRun.upTo classRun.expressions) staleProject).2 =
            (runExpressions staleRenames (classRun.input "") .apply classRun.expressions
              staleProject).2 := by
          obtain ⟨hinput, hmap, batches, t₁, -, -, -, hexpressions, -⟩ :=
            stages_of_run_ok _ _ _ _ r after hrun
          obtain ⟨part, hpart⟩ := run_upTo _ _ _ _ _ batches t₁ hinput hmap hexpressions
          rw [hpart]
          exact (congrArg Prod.snd hexpressions).symm
        rw [hreport]
        refine hforetells.cleanup report "OLD_" hreport rfl (List.isEmpty_iff.mp hfailures)
          (by decide) ?_
        rw [hupTo]
        refine alike_of_rewritten "OLD_" hrewritten ?_ _
        -- No class is the definition of a field or a layout.
        intro l hl name hname
        unfold EndsIn
        rcases List.mem_pair.mp hl with rfl | rfl <;>
          · obtain rfl := Option.some.inj hname
            decide +kernel
      · have hsource := hforetells.overlay_source
        rw [hoverlay] at hsource ⊢
        exact Option.map_eq_none_iff.mp hsource

/-- Two expressions that select the same files. -/
def repeatedRun : RunOptions :=
  { inputFolder := "p", expressions := ["./classes/*.cls", "./classes/*.cls"] }

/-- It is not so that a dry run foretells everything. -/
theorem run_unforetold :
    ¬ ∀ (m : RenameMap) (home : String) (options : RunOptions) (t : FileTree) (r : RunReport)
      (after : FileTree), t.IsPlain → t.HasNoTemporaries → options.dryRun = false →
      run m home options t = (.ok r, after) →
      ∃ r', (run m home { options with dryRun := true } t).1 = .ok r' ∧
        r'.batches = r.batches.map BatchReport.planned ∧ r'.cleanup = r.cleanup ∧
        r'.overlay.map (·.files) = r.overlay.map (·.files) := by
  intro h
  -- The second batch finds nothing left to change, unless nothing has been written.
  have hreal : (run classRenames "" repeatedRun classProject).1.toOption.map
      (·.batches.map (·.changed.length)) = some [1, 0] := by
    decide +kernel
  have hdry : (run classRenames "" { repeatedRun with dryRun := true }
      classProject).1.toOption.map (·.batches.map (·.changed.length)) = some [1, 1] := by
    decide +kernel
  rcases hrun : run classRenames "" repeatedRun classProject with ⟨outcome, after⟩
  rw [hrun] at hreal
  cases outcome with
  | error e => cases hreal
  | ok r =>
      obtain ⟨r', hrun', hbatches, -⟩ := h _ _ repeatedRun _ r after
        (isPlain_of_check classProject (by decide +kernel))
        (hasNoTemporaries_of_check classProject (by decide +kernel)) rfl hrun
      rw [hrun'] at hdry
      simp only [Except.toOption, Option.map_some, Option.some.injEq] at hreal hdry
      have hsame : r'.batches.map (·.changed.length) = r.batches.map (·.changed.length) := by
        rw [hbatches, List.map_map]
        refine List.map_congr_left fun b _ => ?_
        exact List.length_map ..
      rw [hsame, hreal] at hdry
      exact absurd hdry (by decide)

end SchemaRename
