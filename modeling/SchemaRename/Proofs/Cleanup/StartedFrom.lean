import SchemaRename.Proofs.Cleanup.Foretold

/-!
# Where a Cleanup Is Started From

A cleanup of an absolute path does not depend on the working folder.

The working folder can be inside the project, and a cleanup can remove it. The
tree that is left is no file system any more as far as relative paths go, but
absolute paths do not notice. So such a cleanup is the same from the root,
which nothing removes.

With that the dry cleanup is known to foretell the real one for every project
folder that is given without double dots. With them it is not so: the path
may go through a folder that is removed on the way.

## Main definitions

* `FileTree.rebase`: A tree with another working folder.

## Theorems

* `Shrinks.sweepEntries`, `Shrinks.deleteDeprecated`: A cleanup takes entries
  away and does nothing else, in any tree.
* `judge_rebase`, `listEntries_rebase`, `delete_rebase`: Absolute paths do not
  depend on the working folder.
* `deleteDeprecated_rebase`: Neither does a cleanup of one.
* `deleteDeprecated_foretold`: What a dry cleanup foretells.
-/

namespace SchemaRename

open SchemaRename.FileTree

section Shrinks

variable {R : FileTree → FileTree → Prop} (hR : Shrinks R) (root : Path) (deprecated : String)
  (mode : WriteMode)
include hR

theorem FileTree.Shrinks.removeEntry (p : Path) (report : CleanupReport) (t : FileTree) :
    R t (removeEntry mode p report t).2 := by
  rw [SchemaRename.removeEntry]
  split
  · have hdelete := hR.delete t p ("remove " ++ p.text)
    split <;>
      · next heq =>
          rw [heq] at hdelete
          exact hdelete
  · exact hR.refl t

/-- What shrinking keeps, the sweep of a list keeps, if the sweeps of folders
    do. -/
theorem FileTree.Shrinks.sweepEntries
    (deep : Path → CleanupReport → FileTree → Except Cause CleanupReport × FileTree)
    (hdeep : ∀ p report t, R t (deep p report t).2) (paths : List Path) (report : CleanupReport)
    (t : FileTree) : R t (sweepEntries root deprecated mode deep paths report t).2 := by
  induction paths generalizing report t with
  | nil => exact hR.refl t
  | cons p paths ih =>
      rw [SchemaRename.sweepEntries]
      split
      · exact ih _ t
      · exact hR.trans (hR.removeEntry mode p report.scan t) (ih _ _)
      · have hfolder := hdeep p report.scan t
        split
        · next heq =>
            rw [heq] at hfolder
            exact hfolder
        · next t' heq =>
            rw [heq] at hfolder
            exact hR.trans hfolder (ih _ t')

theorem FileTree.Shrinks.sweepFolder (depth : Nat) (p : Path) (report : CleanupReport)
    (t : FileTree) : R t (sweepFolder root deprecated mode depth p report t).2 := by
  induction depth generalizing p report t with
  | zero => exact hR.refl t
  | succ depth ih =>
      rw [SchemaRename.sweepFolder]
      split
      · exact hR.refl t
      · exact hR.sweepEntries root deprecated mode _ ih _ report t

/-- What shrinking keeps, a cleanup keeps. -/
theorem FileTree.Shrinks.deleteDeprecated (t : FileTree) :
    R t (deleteDeprecated t root deprecated mode).2 := by
  rw [SchemaRename.deleteDeprecated]
  split
  · exact hR.refl t
  · split
    · exact hR.refl t
    · exact hR.sweepEntries root deprecated mode _ (hR.sweepFolder root deprecated mode _) _ _ t

end Shrinks

namespace FileTree

/-- A tree with another working folder. -/
def rebase (work : Location) (t : FileTree) : FileTree :=
  { t with workingFolder := work }

section Rebase

variable (work : Location) (t : FileTree)

theorem get?_rebase (l : Location) : (t.rebase work).get? l = t.get? l :=
  rfl

theorem walkTo_rebase (follow : Bool) (jump : Location → List String → Except OsError Place)
    (here : Location) (names : List String) :
    (t.rebase work).walkTo follow jump here names = t.walkTo follow jump here names := by
  induction names generalizing here with
  | nil => rw [walkTo, walkTo]
  | cons name rest ih =>
      rw [walkTo, walkTo]
      simp only [get?_rebase, ih]

theorem walk_rebase (follow : Bool) (links : Nat) :
    (t.rebase work).walk follow links = t.walk follow links := by
  induction links with
  | zero =>
      funext here names
      exact walkTo_rebase work t follow _ here names
  | succ links ih =>
      funext here names
      rw [walk, walk, ih]
      exact walkTo_rebase work t follow _ here names

variable (p : Path) (hp : p.isAbsolute = true)
include hp

theorem resolveSteps_rebase (follow : Bool) (names : List String) :
    (t.rebase work).resolveSteps follow p names = t.resolveSteps follow p names := by
  rw [resolveSteps, resolveSteps, walk_rebase, hp]
  rfl

theorem locate_rebase (follow : Bool) : (t.rebase work).locate follow p = t.locate follow p := by
  rw [locate, locate, resolve, resolve, resolveSteps_rebase work t p hp]

theorem entryAt?_rebase (follow : Bool) :
    (t.rebase work).entryAt? follow p = t.entryAt? follow p := by
  rw [entryAt?, entryAt?, locate_rebase work t p hp]
  rfl

theorem isFolder_rebase : (t.rebase work).isFolder p = t.isFolder p := by
  rw [isFolder, isFolder, entryAt?_rebase work t p hp]

theorem isPresent_rebase : (t.rebase work).isPresent p = t.isPresent p := by
  rw [isPresent, isPresent, exists?, exists?, entryAt?_rebase work t p hp,
    entryAt?_rebase work t p hp]

theorem readText_rebase : (t.rebase work).readText p = t.readText p := by
  rw [readText, readText, readContent, readContent, locate_rebase work t p hp]
  rfl

theorem namesIn_rebase : Glob.namesIn (t.rebase work) p = Glob.namesIn t p := by
  rw [Glob.namesIn, Glob.namesIn, isFolder_rebase work t p hp, list, list,
    locate_rebase work t p hp]
  rfl

theorem removeEmptyFolder_rebase :
    (t.rebase work).removeEmptyFolder p = (t.removeEmptyFolder p).map (rebase work) := by
  rw [removeEmptyFolder, removeEmptyFolder, locate_rebase work t p hp,
    resolveSteps_rebase work t p hp]
  split
  · rfl
  · rfl
  · cases t.locate false p <;> rfl
  · cases t.resolveSteps false p p.steps with
    | error e => rfl
    | ok place =>
        cases place with
        | missing folder n => rfl
        | found l =>
            simp only [bind, Except.bind, get?_rebase]
            split <;> rfl

theorem removeFolder_rebase :
    (t.rebase work).removeFolder p = ((t.removeFolder p).1, (t.removeFolder p).2.rebase work) := by
  rw [removeFolder, removeFolder, locate_rebase work t p hp]
  cases t.locate false p with
  | error e => rfl
  | ok l =>
      have hempty := removeEmptyFolder_rebase work (t.eraseBelow l) p hp
      have herase : (t.rebase work).eraseBelow l = (t.eraseBelow l).rebase work := rfl
      simp only [get?_rebase, herase, hempty]
      split
      · cases (t.eraseBelow l).removeEmptyFolder p with
        | ok t' => rfl
        | error e => cases e <;> rfl
      · rfl

theorem removeFile_rebase :
    (t.rebase work).removeFile p = (t.removeFile p).map (rebase work) := by
  rw [removeFile, removeFile, locate_rebase work t p hp]
  cases t.locate false p with
  | error e => rfl
  | ok l =>
      simp only [bind, Except.bind, get?_rebase]
      split <;> rfl

/-- A removal by an absolute path. -/
theorem delete_rebase (operation : String) :
    (t.rebase work).delete p operation =
      ((t.delete p operation).1, (t.delete p operation).2.rebase work) := by
  have hremove : (t.rebase work).remove p = ((t.remove p).1, (t.remove p).2.rebase work) := by
    rw [remove, remove, isFolder_rebase work t p hp]
    split
    · exact removeFolder_rebase work t p hp
    · rw [removeFile_rebase work t p hp]
      cases t.removeFile p <;> rfl
  rw [delete, delete, hremove]

end Rebase

end FileTree

section Absolute

variable (work : Location) (t : FileTree)

theorem isAbsolute_inFolder (folder : Path) (hfolder : folder.isAbsolute = true) (name : String)
    (hname : '/' ∉ name.toList) : (Glob.inFolder folder name).isAbsolute = true := by
  rcases Glob.inFolder_cases folder name hname with heq | ⟨rfl, -⟩
  · rw [heq, Path.isAbsolute_join folder name hname, hfolder]
  · exact absurd hfolder (by decide)

theorem isAbsolute_descend (folder : Path) (hfolder : folder.isAbsolute = true)
    (names : List String) (hnames : ∀ n ∈ names, '/' ∉ n.toList) :
    (Glob.descend folder names).isAbsolute = true := by
  induction names generalizing folder with
  | nil => exact hfolder
  | cons name names ih =>
      exact ih _ (isAbsolute_inFolder folder hfolder name (hnames name List.mem_cons_self))
        fun n hn => hnames n (List.mem_cons_of_mem _ hn)

theorem isAbsolute_spelled (p : Path) (hp : p.isAbsolute = true) :
    (Glob.spelled p).isAbsolute = true := by
  refine isAbsolute_descend _ ?_ _ (Glob.noSlash_of_mem_piecesBehind p)
  rw [Glob.startOf, hp]
  decide

variable (hnamed : ∀ l, (t.get? l).isSome → ∀ n ∈ l, isEntryName n = true)

include hnamed in
theorem namesAt_rebase (n : Nat) (folder : Path) (hfolder : folder.isAbsolute = true) :
    Glob.namesAt (t.rebase work) n folder = Glob.namesAt t n folder := by
  induction n generalizing folder with
  | zero => rfl
  | succ n ih =>
      rw [Glob.namesAt, Glob.namesAt, namesIn_rebase work t folder hfolder]
      refine List.flatMap_congr fun name hname => ?_
      have hfile := Glob.isFileName_of_mem_namesIn hnamed folder name hname
      rw [ih _ (isAbsolute_inFolder folder hfolder name hfile.noSlash)]

theorem ways_rebase (folder : Path) (hfolder : folder.isAbsolute = true) (pieces : List String)
    (hpieces : ∀ s ∈ pieces, '/' ∉ s.toList) :
    Glob.ways (t.rebase work) folder pieces = Glob.ways t folder pieces := by
  induction pieces generalizing folder with
  | nil => rfl
  | cons piece pieces ih =>
      have hnext := isAbsolute_inFolder folder hfolder piece (hpieces piece List.mem_cons_self)
      have hfirst : Glob.waysOf (t.rebase work) folder piece = Glob.waysOf t folder piece := by
        unfold Glob.waysOf
        rw [isFolder_rebase work t folder hfolder, isPresent_rebase work t _ hnext,
          namesIn_rebase work t folder hfolder]
      rw [Glob.ways, Glob.ways, hfirst,
        ih _ hnext fun s hs => hpieces s (List.mem_cons_of_mem _ hs)]

include hnamed

/-- The entries below an absolute path, and that they have absolute paths. -/
theorem listEntries_rebase (p : Path) (hp : p.isAbsolute = true) (n : Nat) :
    ∃ paths, (∀ q ∈ paths, q.isAbsolute = true) ∧
      listEntries t (Glob.escape p.text ++ String.ofList (Glob.stars (n + 1))) = .ok paths ∧
      listEntries (t.rebase work) (Glob.escape p.text ++ String.ofList (Glob.stars (n + 1))) =
        .ok paths := by
  have hne : p.text ≠ "" := (Path.undotted_of_isAbsolute p hp).ne_empty
  have hspelled := isAbsolute_spelled p hp
  have hstart : (Glob.startOf p).isAbsolute = true := by
    rw [Glob.startOf, hp]
    decide
  refine ⟨_, ?_, by rw [listEntries, Glob.find_escape hnamed p hne n], ?_⟩
  · intro q hq
    obtain ⟨names, hnames, rfl⟩ := Glob.exists_of_mem_find hnamed p hne n _
      (Glob.find_escape hnamed p hne n) q hq
    obtain ⟨-, hfile⟩ := Glob.mem_namesAt_names hnamed _ _ _ hnames
    exact isAbsolute_descend _ hspelled names fun n hn => (hfile n hn).noSlash
  · rw [listEntries, Glob.find_escape (t := t.rebase work) hnamed p hne n,
      ways_rebase work t _ hstart _ (Glob.noSlash_of_mem_piecesBehind p),
      namesAt_rebase work t hnamed _ _ hspelled]

end Absolute

section Rebase

variable (root : Path) (deprecated : String) (mode : WriteMode) (work : Location)

theorem judge_rebase (t : FileTree) (p : Path) (hp : p.isAbsolute = true) :
    judge (t.rebase work) root p deprecated = judge t root p deprecated := by
  rw [judge, judge]
  simp only [judgeContent, isFolder_rebase work t p hp, readText_rebase work t p hp]

theorem removeEntry_rebase (t : FileTree) (p : Path) (hp : p.isAbsolute = true)
    (report : CleanupReport) :
    removeEntry mode p report (t.rebase work) =
      ((removeEntry mode p report t).1, (removeEntry mode p report t).2.rebase work) := by
  rw [removeEntry, removeEntry, delete_rebase work t p hp]
  split
  · rcases t.delete p ("remove " ++ p.text) with ⟨outcome, t'⟩
    cases outcome <;> rfl
  · rfl

/-- The sweep of absolute paths, given that of the folders among them. -/
theorem sweepEntries_rebase
    (deep : Path → CleanupReport → FileTree → Except Cause CleanupReport × FileTree)
    (hthinned : ∀ p report t, Thinned t (deep p report t).2)
    (hdeep : ∀ p : Path, p.isAbsolute = true → ∀ (report : CleanupReport) (t : FileTree),
      (∀ l, (t.get? l).isSome → ∀ n ∈ l, isEntryName n = true) →
      deep p report (t.rebase work) = ((deep p report t).1, (deep p report t).2.rebase work))
    (paths : List Path) (hpaths : ∀ p ∈ paths, p.isAbsolute = true) (report : CleanupReport)
    (t : FileTree) (hnamed : ∀ l, (t.get? l).isSome → ∀ n ∈ l, isEntryName n = true) :
    sweepEntries root deprecated mode deep paths report (t.rebase work) =
      ((sweepEntries root deprecated mode deep paths report t).1,
        (sweepEntries root deprecated mode deep paths report t).2.rebase work) := by
  induction paths generalizing report t with
  | nil => rfl
  | cons p paths ih =>
      have hp := hpaths p List.mem_cons_self
      have htail := ih fun q hq => hpaths q (List.mem_cons_of_mem _ hq)
      rw [sweepEntries, sweepEntries, judge_rebase root deprecated work t p hp]
      cases judge t root p deprecated with
      | keep => exact htail _ t hnamed
      | remove =>
          simp only
          rw [removeEntry_rebase mode work t p hp]
          have hless := shrinks_thinned.removeEntry mode p report.scan t
          exact htail _ _ fun l hl => hnamed l (hless.isSome l hl)
      | descend =>
          simp only
          rw [hdeep p hp report.scan t hnamed]
          have hless := hthinned p report.scan t
          rcases hfolder : deep p report.scan t with ⟨outcome, t'⟩
          rw [hfolder] at hless
          cases outcome with
          | error cause => rfl
          | ok report' => exact htail report' t' fun l hl => hnamed l (hless.isSome l hl)

theorem sweepFolder_rebase (depth : Nat) (p : Path) (hp : p.isAbsolute = true)
    (report : CleanupReport) (t : FileTree)
    (hnamed : ∀ l, (t.get? l).isSome → ∀ n ∈ l, isEntryName n = true) :
    sweepFolder root deprecated mode depth p report (t.rebase work) =
      ((sweepFolder root deprecated mode depth p report t).1,
        (sweepFolder root deprecated mode depth p report t).2.rebase work) := by
  induction depth generalizing p report t with
  | zero => rfl
  | succ depth ih =>
      obtain ⟨paths, habsolute, hlist, hlist'⟩ := listEntries_rebase work t hnamed p hp 0
      rw [sweepFolder, sweepFolder, childrenPattern_eq, hlist, hlist']
      exact sweepEntries_rebase root deprecated mode work _
        (shrinks_thinned.sweepFolder root deprecated mode depth) ih paths habsolute report t hnamed

/-- A cleanup of an absolute path is the same wherever it is started from. -/
theorem deleteDeprecated_rebase (hroot : root.isAbsolute = true) (t : FileTree)
    (hnamed : ∀ l, (t.get? l).isSome → ∀ n ∈ l, isEntryName n = true) :
    deleteDeprecated (t.rebase work) root deprecated mode =
      ((deleteDeprecated t root deprecated mode).1,
        (deleteDeprecated t root deprecated mode).2.rebase work) := by
  obtain ⟨paths, habsolute, hlist, hlist'⟩ := listEntries_rebase work t hnamed root hroot 1
  rw [deleteDeprecated, deleteDeprecated, candidatesPattern_eq, hlist, hlist']
  split
  · rfl
  · exact sweepEntries_rebase root deprecated mode work _
      (shrinks_thinned.sweepFolder root deprecated mode _)
      (sweepFolder_rebase root deprecated mode work _) paths habsolute {} t hnamed

end Rebase

/-- A dry cleanup of one tree reports what a real cleanup of another does, if
    the two look alike and no removal fails. -/
theorem deleteDeprecated_foretold {t t₁ : FileTree} (ht : t.IsPlain) (ht₁ : t₁.IsPlain)
    (hfolders : SameFolders t t₁) (root : Path) (deprecated : String)
    (hdeprecated : deprecated ≠ "") (hroot : t.isFolder root = true) (hdots : ".." ∉ root.steps)
    (halike : Alike deprecated t t₁ (t.location root)) :
    ∃ report after, deleteDeprecated t₁ root deprecated .apply = (.ok report, after) ∧
      (report.failures = [] → deleteDeprecated t root deprecated .dryRun = (.ok report, t)) := by
  cases habsolute : root.isAbsolute with
  | false =>
      refine deleteDeprecated_alike ht root ht₁ hfolders deprecated hdeprecated hroot hdots
        halike ?_
      rw [location, origin, habsolute, if_neg Bool.false_ne_true]
      exact List.prefix_append _ _
  | true =>
      -- From the root, the working folder is not among what can be removed.
      have hplain : ∀ u : FileTree, u.IsPlain → (u.rebase []).IsPlain := fun u hu =>
        ⟨⟨hu.nodup, hu.named, hu.housed, get?_root u⟩, hu.unlinked⟩
      have hlocation : (t.rebase []).location root = t.location root := by
        rw [location, location, origin, origin, habsolute]
        rfl
      obtain ⟨report, after, hreal, hdry⟩ := deleteDeprecated_alike (hplain t ht) root
        (hplain t₁ ht₁) ⟨rfl, hfolders.folder_iff⟩ deprecated hdeprecated
        (by rw [isFolder_rebase [] t root habsolute]; exact hroot) hdots
        (by rw [hlocation]; exact ⟨halike.present, halike.folder, halike.tied⟩) List.nil_prefix
      rw [deleteDeprecated_rebase root deprecated .apply [] habsolute t₁ ht₁.named] at hreal
      rw [deleteDeprecated_rebase root deprecated .dryRun [] habsolute t ht.named] at hdry
      refine ⟨report, (deleteDeprecated t₁ root deprecated .apply).2,
        Prod.ext (Prod.mk.inj hreal).1 rfl, fun hnone => ?_⟩
      exact Prod.ext (Prod.mk.inj (hdry hnone)).1 (deleteDeprecated_dryRun t root deprecated)

end SchemaRename
