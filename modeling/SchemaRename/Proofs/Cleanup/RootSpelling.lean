import SchemaRename.Proofs.Cleanup.Tied
import SchemaRename.Proofs.FileTree.Thinning
import SchemaRename.Proofs.Glob.Listing

/-!
# How a Project Folder Is Spelled

Which part of a path a cleanup looks at.

The search spells the paths it finds in its own way, and drops a dot in front
of the project folder. What is below the folder is then found by comparing
components, so doubled slashes, a slash at the end and dots inside the path
make no difference, in any tree, with links or without. The project folder
may also be the working folder, given as a dot: nothing of the dot is left in
the paths, and all of a path is below it.

Nor do slashes make a difference to what is found, unless they follow the dot
of the working folder. Two spellings that differ in their slashes only give
the same report and leave the same tree. And nothing leaves the tree but what
has been reported, and what was below it.

A dot in front of anything else is another matter. The components do not
agree then, and the whole path is searched, the name of the project folder
with it. A project folder with the prefix in its name loses everything that
way.

## Main definitions

* `siteOf`: The path that all entries of a project folder are spelled behind.
* `RemovedBelow`: A path that is removed for what is below the project folder.
* `SlashesApart`: Spellings that differ in their slashes only.

## Theorems

* `searchedPart_siteOf`: What is searched are the names below the folder.
* `sweepEntries_below`, `sweepFolder_below`: What a sweep reports.
* `deleteDeprecated_slashesApart`: Slashes make no difference.
* `deleteDeprecated_below`: What a cleanup reports and what it takes away.
* `deleteDeprecated_dotted_root`: What it reports with a dot in front.
-/

namespace SchemaRename

open SchemaRename.FileTree

/-- The path that all entries of a project folder are spelled behind. -/
def siteOf (root : Path) : Path :=
  if root.components = [.current] then ⟨""⟩ else root.tidy

/-- A project folder that is not given with a dot in front of a name. -/
structure PlainlySpelled (root : Path) : Prop where
  ne_empty : root.text ≠ ""
  undotted : ∀ c cs, root.components ≠ .current :: c :: cs

section

variable {root : Path} (hroot : PlainlySpelled root)
include hroot

/-- A project folder is the working folder or its path starts with no dot. -/
theorem PlainlySpelled.cases : root.components = [.current] ∨ root.Undotted := by
  by_cases hdot : root.pieces.head? = some "."
  · left
    have habsolute : root.isAbsolute = false := by
      refine Path.isAbsolute_eq_false_of_pieces root fun piece rest hpieces => ?_
      rw [hpieces] at hdot
      simp at hdot
    have hcomponents : root.components =
        .current :: root.steps.filterMap Component.ofPiece? := by
      rw [Path.components_eq, Path.lead, habsolute, if_neg Bool.false_ne_true, if_pos hdot]
      rfl
    cases hrest : root.steps.filterMap Component.ofPiece? with
    | nil => rw [hcomponents, hrest]
    | cons c cs => exact absurd (by rw [hcomponents, hrest]) (hroot.undotted c cs)
  · exact Or.inr ⟨hroot.ne_empty, hdot⟩

omit hroot in
theorem current_notMem_of_undotted (h : root.Undotted) : Component.current ∉ root.components := by
  rw [Path.components_eq, List.mem_append, not_or]
  constructor
  · rw [Path.lead, if_neg h.ne_dot]
    split <;> simp
  · exact fun hmem => (Path.ne_of_mem_filterMap_ofPiece? _ _ hmem).2 rfl

omit hroot in
theorem filter_current_of_undotted (h : root.Undotted) :
    root.components.filter (· != .current) = root.components := by
  rw [List.filter_eq_self]
  intro c hc
  have hne : c ≠ .current := fun heq => current_notMem_of_undotted h (heq ▸ hc)
  simpa using hne

omit hroot in
theorem siteOf_of_undotted (h : root.Undotted) : siteOf root = root.tidy := by
  rw [siteOf, if_neg]
  intro hcurrent
  exact current_notMem_of_undotted h (by rw [hcurrent]; exact List.mem_singleton_self _)

omit hroot in
theorem siteOf_tidy : (siteOf root).tidy = siteOf root := by
  rw [siteOf]
  split
  · rfl
  · simpa using Path.tidy_tidy_extend root [] (by simp)

theorem components_siteOf (below : List String) (hbelow : ∀ n ∈ below, IsFileName n) :
    ((siteOf root).extend below).components =
      root.components.filter (· != .current) ++ below.map .name := by
  rw [Path.components_extend _ _ hbelow]
  congr 1
  rcases hroot.cases with hcurrent | hundotted
  · rw [siteOf, if_pos hcurrent, hcurrent]
    decide
  · rw [siteOf_of_undotted hundotted, Path.components_tidy root hundotted,
      filter_current_of_undotted hundotted]

/-- What is searched of a path are the names below the project folder. -/
theorem searchedPart_siteOf (below : List String) (hbelow : ∀ n ∈ below, IsFileName n)
    (hne : below ≠ []) :
    searchedPart root ((siteOf root).extend below) = "/".intercalate below := by
  have hcomponents := components_siteOf hroot below hbelow
  rw [searchedPart, Path.relativeTo?, hcomponents]
  rcases hroot.cases with hcurrent | hundotted
  · -- No path starts with the dot, and the whole path is below it.
    obtain ⟨name, rest, rfl⟩ := List.exists_cons_of_ne_nil hne
    have hnone : Path.stepsAfter? root.components
        (root.components.filter (· != .current) ++ (name :: rest).map .name) = none := by
      rw [hcurrent]
      rfl
    have hextend : (Path.mk "").extend (name :: rest) =
        Path.ofComponents ((name :: rest).map .name) := by
      rw [Path.ofComponents, List.foldl_map]
      rfl
    rw [hnone, siteOf, if_pos hcurrent, hextend]
    exact Path.text_ofComponents_names _ hbelow
  · rw [filter_current_of_undotted hundotted, Path.stepsAfter?_append, Option.map_some,
      Option.getD_some]
    exact Path.text_ofComponents_names _ hbelow

theorem undotted_siteOf_extend (below : List String) (hbelow : ∀ n ∈ below, IsFileName n)
    (hne : below ≠ []) : ((siteOf root).extend below).Undotted := by
  have hslash : ∀ n ∈ below, '/' ∉ n.toList := fun n hn => (hbelow n hn).noSlash
  rw [siteOf]
  split
  · obtain ⟨name, rest, rfl⟩ := List.exists_cons_of_ne_nil hne
    have hname := hbelow name List.mem_cons_self
    rw [Path.extend_cons, Path.empty_join name hname.noSlash]
    exact (Path.undotted_of_isFileName name hname).extend rest
      fun n hn => hslash n (List.mem_cons_of_mem _ hn)
  · next h =>
      exact Path.Undotted.extend (hroot.cases.resolve_left h).tidy below hslash

omit hroot in
/-- Pieces that say nothing lead nowhere. -/
theorem descend_dots (pieces : List String)
    (hpieces : ∀ piece ∈ pieces, piece = "." ∨ piece = "") (folder : Path)
    (hfolder : folder = ⟨"."⟩ ∨ folder = ⟨""⟩) :
    Glob.descend folder pieces = ⟨"."⟩ ∨ Glob.descend folder pieces = ⟨""⟩ := by
  induction pieces generalizing folder with
  | nil => exact hfolder
  | cons piece pieces ih =>
      refine ih (fun p hp => hpieces p (List.mem_cons_of_mem _ hp)) _ ?_
      rcases hpieces piece List.mem_cons_self with rfl | rfl <;>
        rcases hfolder with rfl | rfl <;> decide

omit hroot in
/-- The search spells the working folder as a dot, or finds nothing in it. -/
theorem spelled_of_current (hcurrent : root.components = [.current]) :
    Glob.spelled root = ⟨"."⟩ ∨ Glob.spelled root = ⟨""⟩ := by
  have hlead : root.isAbsolute = false ∧ root.steps.filterMap Component.ofPiece? = [] := by
    rw [Path.components_eq, Path.lead] at hcurrent
    split at hcurrent
    · cases hcurrent
    · next habsolute =>
        split at hcurrent
        · exact ⟨by simpa using habsolute, by simpa using hcurrent⟩
        · have hmem : Component.current ∈ root.steps.filterMap Component.ofPiece? := by
            rw [← List.nil_append (root.steps.filterMap _), hcurrent]
            exact List.mem_singleton_self _
          exact absurd rfl (Path.ne_of_mem_filterMap_ofPiece? _ _ hmem).2
  have hpieces : ∀ piece ∈ root.pieces, piece = "." ∨ piece = "" := by
    intro piece hpiece
    by_contra hother
    rw [not_or] at hother
    have hmem : piece ∈ root.steps := List.mem_filter.mpr ⟨hpiece, by simpa using hother.2⟩
    have hnone := List.filterMap_eq_nil_iff.mp hlead.2 piece hmem
    rw [Component.ofPiece?, if_neg (by simp [hother])] at hnone
    split at hnone <;> cases hnone
  rw [Glob.spelled, Glob.startOf, Glob.piecesBehind, hlead.1]
  exact descend_dots _ hpieces _ (Or.inl rfl)

/-- What is found two levels below the project folder is spelled behind it. -/
theorem exists_of_mem_candidates {t : FileTree}
    (hnamed : ∀ l, (t.get? l).isSome → ∀ n ∈ l, isEntryName n = true) :
    ∃ paths, listEntries t (candidatesPattern root) = .ok paths ∧
      ∀ p ∈ paths, ∃ below, (∀ n ∈ below, IsFileName n) ∧ below.length = 2 ∧
        p = (siteOf root).extend below := by
  have hfind := Glob.find_escape hnamed root hroot.ne_empty 1
  refine ⟨_, by rw [listEntries]; simp only [candidatesPattern_eq, hfind]; rfl, ?_⟩
  intro p hp
  obtain ⟨below, hbelow, rfl⟩ := Glob.exists_of_mem_find hnamed root hroot.ne_empty 1 _ hfind p hp
  obtain ⟨hlength, hfile⟩ := Glob.mem_namesAt_names hnamed _ _ _ hbelow
  have hslash : ∀ n ∈ below, '/' ∉ n.toList := fun n hn => (hfile n hn).noSlash
  have hne : below ≠ [] := List.ne_nil_of_length_pos (by omega)
  refine ⟨below, hfile, hlength, ?_⟩
  rcases hroot.cases with hcurrent | hundotted
  · -- The first name stands alone, and the others behind it.
    obtain ⟨name, rest, rfl⟩ := List.exists_cons_of_ne_nil hne
    have hname := hfile name List.mem_cons_self
    rcases spelled_of_current hcurrent with hspelled | hspelled
    · rw [hspelled, siteOf, if_pos hcurrent, Path.extend_cons, Path.empty_join name hname.noSlash,
        ← Glob.descend_of_undotted _ (Path.undotted_of_isFileName name hname) rest
          fun n hn => hslash n (List.mem_cons_of_mem _ hn)]
      rfl
    · -- Nothing is found in a folder without a name.
      rw [hspelled, Glob.namesAt, Glob.namesIn,
        if_neg fun h => t.text_ne_empty_of_isFolder _ h rfl] at hbelow
      simp at hbelow
  · rw [siteOf_of_undotted hundotted, Glob.descend_spelled root hundotted below hne hslash]

/-- What is found in a folder below the project folder is spelled behind it
    too. -/
theorem exists_of_mem_children {t : FileTree}
    (hnamed : ∀ l, (t.get? l).isSome → ∀ n ∈ l, isEntryName n = true) (front : List String)
    (hfront : ∀ n ∈ front, IsFileName n) (hne : front ≠ []) :
    ∃ paths, listEntries t (childrenPattern ((siteOf root).extend front)) = .ok paths ∧
      ∀ p ∈ paths, ∃ name, IsFileName name ∧ p = (siteOf root).extend (front ++ [name]) := by
  have hundotted := undotted_siteOf_extend hroot front hfront hne
  have hfind := Glob.find_escape hnamed _ hundotted.ne_empty 0
  refine ⟨_, by rw [listEntries]; simp only [childrenPattern_eq, hfind]; rfl, ?_⟩
  intro p hp
  obtain ⟨below, hbelow, rfl⟩ :=
    Glob.exists_of_mem_find hnamed _ hundotted.ne_empty 0 _ hfind p hp
  obtain ⟨hlength, hfile⟩ := Glob.mem_namesAt_names hnamed _ _ _ hbelow
  obtain ⟨name, rfl⟩ := List.length_eq_one_iff.mp hlength
  have hname := hfile name List.mem_cons_self
  refine ⟨name, hname, ?_⟩
  have htidy : ((siteOf root).extend front).tidy = (siteOf root).extend front := by
    have h := Path.tidy_tidy_extend (siteOf root) front hfront
    rwa [siteOf_tidy] at h
  rw [Glob.descend_spelled _ hundotted _ (List.cons_ne_nil _ _)
    (fun n hn => (hfile n hn).noSlash), htidy, Path.extend_append]

end

/-- A path that is removed for what is below the project folder: for the names
    there, or for the content of a file. -/
def RemovedBelow (root : Path) (deprecated : String) (t : FileTree) (p : Path) : Prop :=
  ∃ below, (∀ n ∈ below, IsFileName n) ∧ 2 ≤ below.length ∧
    p.components = root.components.filter (· != .current) ++ below.map .name ∧
    (Contains ("/".intercalate below) deprecated ∨
      ∃ t', Thinned t t' ∧ FileTied t' p deprecated)

/-- A sweep so far: entries have been taken away, for what is below the project
    folder, and what is gone has been reported. -/
structure SweptBelow (root : Path) (deprecated : String) (t : FileTree) (report : CleanupReport)
    (t' : FileTree) : Prop where
  working : t'.workingFolder = t.workingFolder
  lost : LostOnly t t' report.removed
  removed : ∀ p ∈ report.removed, RemovedBelow root deprecated t p

section

variable {root : Path} (hroot : PlainlySpelled root) (deprecated : String) (mode : WriteMode)
  {t : FileTree} (hnamed : ∀ l, (t.get? l).isSome → ∀ n ∈ l, isEntryName n = true)
include hroot

/-- One more entry is removed. -/
theorem sweptBelow_removeEntry (below : List String) (hbelow : ∀ n ∈ below, IsFileName n)
    (hlength : 2 ≤ below.length) (report : CleanupReport) (t₁ : FileTree)
    (h : SweptBelow root deprecated t report t₁)
    (hjudge : judge t₁ root ((siteOf root).extend below) deprecated = .remove) :
    SweptBelow root deprecated t
      (removeEntry mode ((siteOf root).extend below) report t₁).1
      (removeEntry mode ((siteOf root).extend below) report t₁).2 := by
  have hne : below ≠ [] := List.ne_nil_of_length_pos (by omega)
  obtain ⟨front, s, -, hs, hsteps, hslash, -⟩ :=
    Path.exists_last_extend (siteOf root) below hbelow hne
  have hremoved : ∀ p ∈ (report.remove ((siteOf root).extend below)).removed,
      RemovedBelow root deprecated t p := by
    intro p hp
    rcases List.mem_append.mp hp with hp | hp
    · exact h.removed p hp
    · rw [List.mem_singleton.mp hp]
      refine ⟨below, hbelow, hlength, components_siteOf hroot below hbelow, ?_⟩
      rw [judge_eq_remove_iff, searchedPart_siteOf hroot below hbelow hne] at hjudge
      exact hjudge.imp id fun htied => ⟨t₁, h.lost.thinned, htied⟩
  rw [removeEntry]
  split
  · have hwork := shrinks_workingFolder.delete t₁ ((siteOf root).extend below)
      ("remove " ++ ((siteOf root).extend below).text)
    rcases delete_lostOnly t₁ _ _ s hsteps hs hslash
        ("remove " ++ ((siteOf root).extend below).text) with
      ⟨t₂, hdelete, hlost⟩ | ⟨e, hdelete⟩
    · rw [hdelete] at hwork ⊢
      exact ⟨hwork.trans h.working, h.lost.append h.working hlost, hremoved⟩
    · -- A removal that fails takes nothing, and is not reported.
      rw [hdelete]
      exact ⟨h.working, h.lost, h.removed⟩
  · exact ⟨h.working, h.lost.mono (List.subset_append_left _ _), hremoved⟩

/-- The sweep of a list of entries, given what it does with the folders among
    them. -/
theorem sweepEntries_below
    (deep : Path → CleanupReport → FileTree → Except Cause CleanupReport × FileTree)
    (hdeep : ∀ below, (∀ n ∈ below, IsFileName n) → 2 ≤ below.length →
      ∀ report t₁, SweptBelow root deprecated t report t₁ →
        ∃ report' t', deep ((siteOf root).extend below) report t₁ = (.ok report', t') ∧
          SweptBelow root deprecated t report' t')
    (paths : List Path)
    (hpaths : ∀ p ∈ paths, ∃ below, (∀ n ∈ below, IsFileName n) ∧ 2 ≤ below.length ∧
      p = (siteOf root).extend below)
    (report : CleanupReport) (t₁ : FileTree) (h : SweptBelow root deprecated t report t₁) :
    ∃ report' t', sweepEntries root deprecated mode deep paths report t₁ = (.ok report', t') ∧
      SweptBelow root deprecated t report' t' := by
  induction paths generalizing report t₁ with
  | nil => exact ⟨report, t₁, rfl, h⟩
  | cons p paths ih =>
      obtain ⟨below, hbelow, hlength, rfl⟩ := hpaths p List.mem_cons_self
      have hrest := ih fun p hp => hpaths p (List.mem_cons_of_mem _ hp)
      have hscan : SweptBelow root deprecated t report.scan t₁ := ⟨h.working, h.lost, h.removed⟩
      rw [sweepEntries]
      cases hjudge : judge t₁ root ((siteOf root).extend below) deprecated with
      | keep => exact hrest report.scan t₁ hscan
      | remove =>
          exact hrest _ _ (sweptBelow_removeEntry hroot deprecated mode below hbelow hlength
            report.scan t₁ hscan hjudge)
      | descend =>
          obtain ⟨report₂, t₂, heq, hdone⟩ := hdeep below hbelow hlength report.scan t₁ hscan
          simp only [heq]
          exact hrest report₂ t₂ hdone

include hnamed

/-- The sweep of a folder. -/
theorem sweepFolder_below (depth : Nat) (below : List String)
    (hbelow : ∀ n ∈ below, IsFileName n) (hlength : 2 ≤ below.length) (report : CleanupReport)
    (t₁ : FileTree) (h : SweptBelow root deprecated t report t₁) :
    ∃ report' t', sweepFolder root deprecated mode depth ((siteOf root).extend below) report t₁ =
        (.ok report', t') ∧
      SweptBelow root deprecated t report' t' := by
  induction depth generalizing below report t₁ with
  | zero => exact ⟨report, t₁, rfl, h⟩
  | succ depth ih =>
      have hne : below ≠ [] := List.ne_nil_of_length_pos (by omega)
      have hnamed₁ : ∀ l, (t₁.get? l).isSome → ∀ n ∈ l, isEntryName n = true := fun l hsome =>
        hnamed l (h.lost.thinned.isSome l hsome)
      obtain ⟨paths, hlist, hpaths⟩ := exists_of_mem_children hroot hnamed₁ below hbelow hne
      rw [sweepFolder, hlist]
      refine sweepEntries_below hroot deprecated mode _ ih paths ?_ report t₁ h
      intro p hp
      obtain ⟨name, hname, rfl⟩ := hpaths p hp
      refine ⟨below ++ [name], ?_, by simp; omega, rfl⟩
      rw [List.forall_mem_append, List.forall_mem_singleton]
      exact ⟨hbelow, hname⟩

end

section Slashes

variable {root root' : Path} (hcomponents : root'.components = root.components)
include hcomponents

/-- A verdict depends on what the project folder's path says. -/
theorem judge_same (t : FileTree) (p : Path) (deprecated : String) :
    judge t root' p deprecated = judge t root p deprecated := by
  rw [judge, judge, searchedPart, searchedPart, Path.relativeTo?, Path.relativeTo?, hcomponents]

theorem sweepEntries_same (deprecated : String) (mode : WriteMode)
    (deep : Path → CleanupReport → FileTree → Except Cause CleanupReport × FileTree)
    (paths : List Path) (report : CleanupReport) (t : FileTree) :
    sweepEntries root' deprecated mode deep paths report t =
      sweepEntries root deprecated mode deep paths report t := by
  induction paths generalizing report t with
  | nil => rfl
  | cons p paths ih =>
      rw [sweepEntries, sweepEntries, judge_same hcomponents]
      simp only [ih]

theorem sweepFolder_same (deprecated : String) (mode : WriteMode) (depth : Nat) :
    sweepFolder root' deprecated mode depth = sweepFolder root deprecated mode depth := by
  induction depth with
  | zero => rfl
  | succ depth ih =>
      funext p report t
      rw [sweepFolder, sweepFolder, ih]
      simp only [sweepEntries_same hcomponents]

end Slashes

/-- Spellings of a project folder that differ in their slashes only. -/
structure SlashesApart (root root' : Path) : Prop where
  absolute : root'.isAbsolute = root.isAbsolute
  steps : root'.steps = root.steps

theorem SlashesApart.tidy {root root' : Path} (h : SlashesApart root root') :
    root'.tidy = root.tidy := by
  rw [Path.tidy, Path.tidy, h.absolute, h.steps]

/-- A spelling that differs in its slashes has no dot in front either. -/
theorem SlashesApart.undotted {root root' : Path} (h : SlashesApart root root')
    (hroot : root.Undotted) : root'.Undotted := by
  cases habsolute : root.isAbsolute with
  | true => exact Path.undotted_of_isAbsolute root' (h.absolute.trans habsolute)
  | false =>
      -- Neither path starts with a slash, so the first step is the first piece.
      obtain ⟨first, rest, hpieces, hne, hdot, -⟩ := hroot.pieces habsolute
      have hsteps : root'.steps = first :: rest.filter (· != "") := by
        rw [h.steps, Path.steps, hpieces, List.filter_cons_of_pos (by simpa using hne)]
      constructor
      · intro hempty
        rw [show root' = ⟨""⟩ from congrArg Path.mk hempty, show (Path.mk "").steps = [] by decide]
          at hsteps
        cases hsteps
      · intro hhead
        obtain ⟨others, hothers⟩ := List.head?_eq_some_iff.mp hhead
        rw [Path.steps, hothers, List.filter_cons_of_pos (by decide)] at hsteps
        exact hdot (List.cons.inj hsteps).1.symm

/-- How many slashes a project folder is spelled with makes no difference. -/
theorem deleteDeprecated_slashesApart {t : FileTree} (ht : t.IsOrderly) {root root' : Path}
    (hroot : root.Undotted) (h : SlashesApart root root') (deprecated : String)
    (mode : WriteMode) :
    deleteDeprecated t root' deprecated mode = deleteDeprecated t root deprecated mode := by
  have hroot' := h.undotted hroot
  have hcomponents : root'.components = root.components := by
    rw [← Path.components_tidy root' hroot', h.tidy, Path.components_tidy root hroot]
  -- Both searches list what is below the tidy path, and the sweeps look at components.
  rw [deleteDeprecated, deleteDeprecated, candidatesPattern_eq, candidatesPattern_eq,
    listEntries_stars ht root' hroot' 1, listEntries_stars ht root hroot 1,
    Glob.namesAt_spelled ht root' hroot' 0, Glob.namesAt_spelled ht root hroot 0, h.tidy]
  simp only [sweep, sweepFolder_same hcomponents, sweepEntries_same hcomponents]

/-- The text of the project folder's own path causes no removal, as long as
    there is no dot in front of it: what a cleanup reports as removed is
    spelled with names below the project folder, and these names hold the
    prefix, or it is a file that is tied by its content. Nothing else goes, and
    the slashes in the project folder's path make no difference. -/
theorem deleteDeprecated_below (t : FileTree) (ht : t.IsOrderly) (root : Path)
    (hroot : root.text ≠ "") (hdot : ∀ c cs, root.components ≠ .current :: c :: cs)
    (deprecated : String) (hdeprecated : deprecated ≠ "") (mode : WriteMode) :
    ∃ report after, deleteDeprecated t root deprecated mode = (.ok report, after) ∧
      Thinned t after ∧ LostOnly t after report.removed ∧
      (∀ p ∈ report.removed, RemovedBelow root deprecated t p) ∧
      (root.components ≠ [.current] → ∀ root', SlashesApart root root' →
        deleteDeprecated t root' deprecated mode = (.ok report, after)) := by
  have hspelled : PlainlySpelled root := ⟨hroot, hdot⟩
  obtain ⟨paths, hlist, hpaths⟩ := exists_of_mem_candidates hspelled ht.named
  have hempty : deprecated.isEmpty = false := by
    rw [String.isEmpty_eq_false_iff]
    exact hdeprecated
  obtain ⟨report, after, heq, hswept⟩ := sweepEntries_below hspelled deprecated mode
    (sweepFolder root deprecated mode maxPathSize)
    (fun below hbelow hlength report t₁ h =>
      sweepFolder_below hspelled deprecated mode ht.named maxPathSize below hbelow hlength report
        t₁ h)
    paths (fun p hp => by
      obtain ⟨below, hbelow, hlength, rfl⟩ := hpaths p hp
      exact ⟨below, hbelow, by omega, rfl⟩)
    {} t ⟨rfl, LostOnly.refl t [], by simp⟩
  have hrun : deleteDeprecated t root deprecated mode = (.ok report, after) := by
    rw [deleteDeprecated, hempty, if_neg Bool.false_ne_true, hlist]
    exact heq
  refine ⟨report, after, hrun, hswept.lost.thinned, hswept.lost, hswept.removed, ?_⟩
  intro hcurrent root' hslashes
  rw [deleteDeprecated_slashesApart ht (hspelled.cases.resolve_left hcurrent) hslashes, hrun]

/-- A project folder with a prefix in its name. -/
def deprecatedProject : FileTree :=
  { entries := [(["OLD_p"], .folder), (["OLD_p", "c"], .folder),
      (["OLD_p", "c", "K"], .file (.text "")), (["OLD_p", "c", "OLD_"], .file (.text ""))] }

/-- One of its files has no prefix in its name, and is no metadata. -/
theorem not_fileTied_deprecatedProject (t : FileTree) :
    ¬ FileTied t ⟨"OLD_p/c/K"⟩ "OLD_" := by
  rintro ⟨name, content, hname, -, document, -, hends⟩
  rw [show (Path.mk "OLD_p/c/K").fileName? = some "K" by decide +kernel] at hname
  cases hname
  rcases hends with ⟨hfield, -⟩ | ⟨hlayout, -⟩
  · exact absurd hfield (by unfold EndsIn; decide +kernel)
  · exact absurd hlayout (by unfold EndsIn; decide +kernel)

theorem deleteDeprecated_below_deprecated_root :
    deprecatedProject.IsOrderly ∧ (Path.mk "OLD_p/").text ≠ "" ∧
      (∀ c cs, (Path.mk "OLD_p/").components ≠ .current :: c :: cs) ∧
      ∃ report after, deleteDeprecated deprecatedProject ⟨"OLD_p/"⟩ "OLD_" .apply =
          (.ok report, after) ∧
        deleteDeprecated deprecatedProject ⟨"OLD_p"⟩ "OLD_" .apply = (.ok report, after) ∧
        ⟨"OLD_p/c/K"⟩ ∉ report.removed := by
  have horderly : deprecatedProject.IsOrderly :=
    (isPlain_of_check deprecatedProject (by decide +kernel)).toIsOrderly
  have hcomponents : (Path.mk "OLD_p/").components = [.name "OLD_p"] := by decide +kernel
  have hdot : ∀ c cs, (Path.mk "OLD_p/").components ≠ .current :: c :: cs := by
    rw [hcomponents]
    simp
  obtain ⟨report, after, heq, -, -, hremoved, hslashes⟩ := deleteDeprecated_below
    deprecatedProject horderly ⟨"OLD_p/"⟩ (by decide) hdot "OLD_" (by decide) .apply
  refine ⟨horderly, by decide, hdot, report, after, heq,
    hslashes (by rw [hcomponents]; simp) ⟨"OLD_p"⟩ ⟨by decide, by decide +kernel⟩, ?_⟩
  intro hmem
  obtain ⟨below, -, -, hpath, htied⟩ := hremoved _ hmem
  have hbelow : below = ["c", "K"] := by
    rw [hcomponents, show (Path.mk "OLD_p/c/K").components =
      [.name "OLD_p"] ++ ["c", "K"].map .name by decide +kernel] at hpath
    have hnames := List.append_cancel_left hpath
    exact (List.map_injective_iff.mpr (fun _ _ h => Component.name.inj h) hnames).symm
  subst hbelow
  rcases htied with hnames | ⟨t', -, hfile⟩
  · exact absurd hnames (by unfold Contains; decide)
  · exact not_fileTied_deprecatedProject t' hfile

/-- A dot in front of the project folder makes its own name count: it is not so
    that entries go for the names below the project folder only. -/
theorem deleteDeprecated_dotted_root :
    ¬ ∀ (t : FileTree) (root : Path) (deprecated : String), t.IsPlain → t.isFolder root = true →
      deprecated ≠ "" → ∀ report after,
        deleteDeprecated t root deprecated .apply = (.ok report, after) →
        ∀ p ∈ report.removed, ∀ below, t.location p = t.location root ++ below →
          Contains ("/".intercalate below) deprecated ∨ FileTied t p deprecated := by
  intro h
  have hremoved : ((deleteDeprecated deprecatedProject ⟨"./OLD_p"⟩ "OLD_" .apply).1.toOption.map
      (·.removed)) = some [⟨"OLD_p/c/K"⟩, ⟨"OLD_p/c/OLD_"⟩] := by
    decide +kernel
  cases hrun : deleteDeprecated deprecatedProject ⟨"./OLD_p"⟩ "OLD_" .apply with
  | mk outcome after =>
      rw [hrun] at hremoved
      cases outcome with
      | error cause => simp [Except.toOption] at hremoved
      | ok report =>
          simp only [Except.toOption, Option.map_some, Option.some.injEq] at hremoved
          rcases h deprecatedProject ⟨"./OLD_p"⟩ "OLD_"
            (isPlain_of_check deprecatedProject (by decide +kernel)) (by decide +kernel) (by decide)
            report after hrun ⟨"OLD_p/c/K"⟩ (by rw [hremoved]; exact List.mem_cons_self) ["c", "K"]
            (by decide +kernel) with hnames | hfile
          · exact absurd hnames (by unfold Contains; decide)
          · exact not_fileTied_deprecatedProject _ hfile

end SchemaRename
