import SchemaRename.Proofs.FileTree.Overlaying
import SchemaRename.Proofs.FileTree.Removing
import SchemaRename.Proofs.Glob.Listing

/-!
# What a Copy Counts

A copy counts the files it copies, and that can be known before.

A folder can be counted without being copied. The count agrees with what a
copy of it reports, as long as the copy does not come across its own work:
the folder it is copied into may be the folder itself or one inside it. A
copy only adds entries, so if what is seen below the folder is the same
before and after, it is the same at every moment in between, and each step of
the copy meets the entry that the count met.

None of this needs the working folder to be there, so trees without links are
enough.

## Main definitions

* `FileTree.Linkless`: Trees without links.
* `FileTree.Grown`: A tree that has been copied into.
* `FileTree.SameView`: Trees that look the same below a path.

## Theorems

* `WalksTo.of_folders`, `locate_of_folders`: A path leads to the same folder as
  long as the folders on its way stay.
* `SameView.between`: What looks the same at both ends of a copy looks the
  same in between.
* `countFilesUpTo_of_copy`, `countFiles_of_copy`: What a copy reports is the
  count.
-/

namespace SchemaRename.FileTree

open SchemaRename.Glob (namesIn namesIn_of_locate)

/-- A tree without links, in which every entry has a location of its own. -/
structure Linkless (t : FileTree) : Prop where
  nodup : (t.entries.map Prod.fst).Nodup
  unlinked : ∀ l target, t.get? l ≠ some (.link target)

theorem IsPlain.linkless {t : FileTree} (ht : t.IsPlain) : t.Linkless :=
  ⟨ht.nodup, ht.unlinked⟩

section Folders

variable {t t' : FileTree} (ht : t.Linkless)
  (hfolders : ∀ l, t.get? l = some .folder → t'.get? l = some .folder)
include ht hfolders

/-- A walk to a folder passes folders only, and so it can be gone in every tree
    that has them. -/
theorem WalksTo.of_folders {follow : Bool} {links : Nat} {here : Location} {names : List String}
    {l : Location} (h : WalksTo t follow links here names (.found l))
    (hl : t.get? l = some .folder) : WalksTo t' follow links here names (.found l) := by
  generalize hplace : Place.found l = place at h
  induction h with
  | stop links here => exact .stop links here
  | stay hhere h ih => exact .stay (hfolders _ hhere) (ih hplace)
  | up hhere h ih => exact .up (hfolders _ hhere) (ih hplace)
  | down hhere hname hthere h ih =>
      exact .down (hfolders _ hhere) hname (hfolders _ hthere) (ih hplace)
  | file hhere hname hthere =>
      -- A walk that ends at a file does not end at a folder.
      cases hplace
      rw [hthere] at hl
      cases hl
  | missing => cases hplace
  | link hfollow hhere hname hthere => exact absurd hthere (ht.unlinked _ _)
  | jump hfollow hhere hname hthere => exact absurd hthere (ht.unlinked _ _)

variable (hwork : t'.workingFolder = t.workingFolder)
include hwork

/-- A path leads to the same folder as long as the folders on its way stay. -/
theorem locate_of_folders (p : Path) (l : Location) (hlocate : t.locate true p = .ok l)
    (hl : t.get? l = some .folder) : t'.locate true p = .ok l := by
  have horigin : t'.origin p = t.origin p := by rw [origin, origin, hwork]
  obtain ⟨hne, hsize, hwalks, -⟩ := (locate_folder_iff p l).mp ⟨hlocate, hl⟩
  refine ((locate_folder_iff p l).mpr ⟨hne, hsize, ?_, hfolders l hl⟩).1
  rw [horigin]
  exact hwalks.of_folders ht hfolders hl

theorem isFolder_of_folders (p : Path) (h : t.isFolder p = true) : t'.isFolder p = true := by
  obtain ⟨l, hlocate, hl⟩ := exists_of_isFolder t p h
  rw [isFolder_iff_locate]
  exact ⟨l, locate_of_folders ht hfolders hwork p l hlocate hl, hfolders l hl⟩

end Folders

/-- A tree that has been copied into: things are laid over it, and it has no
    links if it had none. -/
structure Grown (t t' : FileTree) : Prop extends Overlaid t t' where
  working : t'.workingFolder = t.workingFolder
  linkless : t.Linkless → t'.Linkless

theorem Grown.refl (t : FileTree) : Grown t t :=
  ⟨Overlaid.refl t, rfl, id⟩

theorem Grown.trans {t t' t'' : FileTree} (h : Grown t t') (h' : Grown t' t'') : Grown t t'' :=
  ⟨h.toOverlaid.trans h'.toOverlaid, h'.working.trans h.working, h'.linkless ∘ h.linkless⟩

theorem linkless_insert (t : FileTree) (l : Location) (hl : l ≠ []) (e : Entry)
    (he : ∀ target, e ≠ .link target) (ht : t.Linkless) : (t.insert l e).Linkless := by
  refine ⟨nodup_insert t l e ht.nodup, ?_⟩
  intro m target hm
  by_cases hml : m = l
  · rw [hml, get?_insert_self t hl, Option.some.injEq] at hm
    exact he target hm
  · rw [get?_insert_of_ne t hml] at hm
    exact ht.unlinked m target hm

theorem grows_grown : Grows Grown where
  refl := Grown.refl
  trans := Grown.trans
  folder t l hl := ⟨overlaid_insert_folder t l hl, insert_workingFolder t l _,
    linkless_insert t l (ne_nil_of_get?_ne t (by simp [hl])) _ (by simp)⟩
  file t l hl c hc := ⟨overlaid_insert_file t l hl c hc, insert_workingFolder t l _,
    linkless_insert t l (ne_nil_of_get?_ne t hl) _ (by simp)⟩

theorem grown_createFolders (t : FileTree) (p : Path) : Grown t (t.createFolders p).2 :=
  grows_grown.along.createFoldersUpTo _ t p

theorem grown_copyEntry (depth : Nat) (t : FileTree) (here there : Path) :
    Grown t (copyEntry (copyFolderUpTo depth) t here there).2 :=
  grows_grown.along.copyEntry _ (grows_grown.along.copyFolderUpTo depth) t here there

theorem grown_copyEntries (depth : Nat) (source target : Path) (names : List String)
    (t : FileTree) : Grown t (copyEntries (copyFolderUpTo depth) source target names t).2 :=
  grows_grown.along.copyEntries _ (grows_grown.along.copyFolderUpTo depth) source target names t

/-- Two trees look the same below a path: the same names lead to folders there,
    and these have the same names in them. -/
def SameView (t t' : FileTree) (p : Path) : Prop :=
  ∀ below : List String, (∀ n ∈ below, IsFileName n) →
    t'.isFolder (p.extend below) = t.isFolder (p.extend below) ∧
      namesIn t' (p.extend below) = namesIn t (p.extend below)

theorem SameView.here {t t' : FileTree} {p : Path} (h : SameView t t' p) :
    t'.isFolder p = t.isFolder p ∧ namesIn t' p = namesIn t p :=
  h [] (by simp)

theorem SameView.join {t t' : FileTree} {p : Path} (h : SameView t t' p) (name : String)
    (hname : IsFileName name) : SameView t t' (p.join name) :=
  fun below hbelow => h (name :: below) (List.forall_mem_cons.mpr ⟨hname, hbelow⟩)

theorem SameView.trans {t t' t'' : FileTree} {p : Path} (h : SameView t t' p)
    (h' : SameView t' t'' p) : SameView t t'' p :=
  fun below hbelow => ⟨(h' below hbelow).1.trans (h below hbelow).1,
    (h' below hbelow).2.trans (h below hbelow).2⟩

theorem SameView.symm {t t' : FileTree} {p : Path} (h : SameView t t' p) : SameView t' t p :=
  fun below hbelow => ⟨(h below hbelow).1.symm, (h below hbelow).2.symm⟩

/-- What looks the same at both ends of a copy looks the same in between. -/
theorem SameView.between {t t₁ t' : FileTree} {p : Path} (ht : t.Linkless) (hfirst : Grown t t₁)
    (hrest : Grown t₁ t') (h : SameView t t' p) : SameView t t₁ p := by
  have ht₁ := hfirst.linkless ht
  intro below hbelow
  obtain ⟨hfolder, hnames⟩ := h below hbelow
  cases hthen : t.isFolder (p.extend below) with
  | false =>
      have hnow : t₁.isFolder (p.extend below) = false := by
        rw [← Bool.not_eq_true]
        intro hnow
        rw [isFolder_of_folders ht₁ hrest.folder hrest.working _ hnow, hthen] at hfolder
        cases hfolder
      refine ⟨hnow, ?_⟩
      rw [namesIn, namesIn, hthen, hnow]
      rfl
  | true =>
      -- The folder is at the same location all the time, and no name goes.
      obtain ⟨l, hlocate, hl⟩ := exists_of_isFolder t _ hthen
      have hlocate₁ := locate_of_folders ht hfirst.folder hfirst.working _ l hlocate hl
      have hl₁ := hfirst.folder l hl
      have hlocate' := locate_of_folders ht₁ hrest.folder hrest.working _ l hlocate₁ hl₁
      have hlist := namesIn_of_locate _ l hlocate hl
      rw [hlist, namesIn_of_locate _ l hlocate' (hrest.folder l hl₁)] at hnames
      refine ⟨(isFolder_iff_locate _).mpr ⟨l, hlocate₁, hl₁⟩, ?_⟩
      rw [hlist, namesIn_of_locate _ l hlocate₁ hl₁]
      refine children_eq t t₁ ht.nodup ht₁.nodup l l fun n => ⟨?_, hfirst.present _⟩
      intro hsome
      have hmem : n ∈ t'.children l := (mem_children t' l n).mpr (hrest.present _ hsome)
      rw [hnames] at hmem
      exact (mem_children t l n).mp hmem

section Copy

variable (t : FileTree) (depth : Nat)
  (ih : ∀ (t₁ t₂ : FileTree) (source target : Path) (n : Nat),
    copyFolderUpTo depth t₁ source target = (.ok n, t₂) →
    (∀ t', Grown t₁ t' → Grown t' t₂ → SameView t t' source) →
    countFilesUpTo depth t source = .ok n)
include ih

/-- What copying an entry reports is what counting it adds. -/
theorem countEntry_of_copy (t₁ t₂ : FileTree) (source target : Path) (name : String)
    (hname : IsFileName name) (n : Nat)
    (hcopy : copyEntry (copyFolderUpTo depth) t₁ (source.join name) target = (.ok n, t₂))
    (hview : ∀ t', Grown t₁ t' → Grown t' t₂ → SameView t t' source) (total : Nat) :
    (if t.isFolder (source.join name) then
        (countFilesUpTo depth t (source.join name)).map (total + ·)
      else .ok (total + 1)) = .ok (total + n) := by
  have hgrown : Grown t₁ t₂ := by
    have h := grown_copyEntry depth t₁ (source.join name) target
    rwa [hcopy] at h
  have hsame := ((hview t₁ (Grown.refl t₁) hgrown).join name hname).here.1
  rcases copyEntry_ok _ t₁ _ _ n t₂ hcopy with ⟨hfolder, hdeep⟩ | ⟨hfolder, -, rfl⟩
  · rw [← hsame, hfolder, if_pos rfl,
      ih t₁ t₂ _ target n hdeep fun t' h h' => (hview t' h h').join name hname]
    rfl
  · rw [← hsame, hfolder, if_neg Bool.false_ne_true]

/-- What copying some entries reports is what counting them adds. -/
theorem countEntries_of_copy (t₁ t₂ : FileTree) (source target : Path) (names : List String)
    (hnames : ∀ n ∈ names, IsFileName n) (n : Nat)
    (hcopy : copyEntries (copyFolderUpTo depth) source target names t₁ = (.ok n, t₂))
    (hview : ∀ t', Grown t₁ t' → Grown t' t₂ → SameView t t' source) (total : Nat) :
    names.foldlM (fun total name =>
      if t.isFolder (source.join name) then
        (countFilesUpTo depth t (source.join name)).map (total + ·)
      else .ok (total + 1)) total = .ok (total + n) := by
  induction names generalizing t₁ n total with
  | nil =>
      cases hcopy
      rfl
  | cons name names ihnames =>
      obtain ⟨a, t', b, hentry, hentries, rfl⟩ :=
        copyEntries_cons_ok _ source target name names t₁ n t₂ hcopy
      have hfirst := grown_copyEntry depth t₁ (source.join name) (target.join name)
      have hrest := grown_copyEntries depth source target names t'
      rw [hentry] at hfirst
      rw [hentries] at hrest
      rw [List.foldlM_cons, countEntry_of_copy t depth ih t₁ t' source _ name
        (hnames name List.mem_cons_self) a hentry
        (fun y h h' => hview y h (h'.trans hrest)) total]
      rw [← Nat.add_assoc]
      exact ihnames t' (fun n hn => hnames n (List.mem_cons_of_mem _ hn)) b hentries
        (fun y h h' => hview y (hfirst.trans h) h') (total + a)

end Copy

/-- What copying a folder reports is the number of its files, if the folder
    looks the same all the time. -/
theorem countFilesUpTo_of_copy (t : FileTree) (ht : t.IsOrderly) (depth : Nat)
    (t₁ t₂ : FileTree) (source target : Path) (n : Nat)
    (hcopy : copyFolderUpTo depth t₁ source target = (.ok n, t₂))
    (hview : ∀ t', Grown t₁ t' → Grown t' t₂ → SameView t t' source) :
    countFilesUpTo depth t source = .ok n := by
  induction depth generalizing t₁ t₂ source target n with
  | zero => cases hcopy
  | succ depth ih =>
      obtain ⟨t', names, hfolders, hlist, hentries⟩ :=
        copyFolderUpTo_ok depth t₁ source target n t₂ hcopy
      have hcreate := grown_createFolders t₁ target
      have hrest := grown_copyEntries depth source target names t'
      rw [hfolders] at hcreate
      rw [hentries] at hrest
      have hnames : t.list source = .ok names := by
        have hfolder := isFolder_of_list t' source names hlist
        obtain ⟨hfolder', hnames⟩ := (hview t' hcreate hrest).here
        rw [hfolder] at hfolder'
        obtain ⟨names', hlist'⟩ := list_ok_of_isFolder t source hfolder'.symm
        rw [namesIn, namesIn, if_pos hfolder, if_pos hfolder'.symm, hlist, hlist'] at hnames
        rw [hlist']
        exact congrArg Except.ok hnames.symm
      have hfile : ∀ n ∈ names, IsFileName n := by
        intro n hn
        refine Glob.isFileName_of_mem_namesIn ht.named source n ?_
        rw [namesIn, if_pos (isFolder_of_list t source names hnames), hnames]
        exact hn
      rw [countFilesUpTo, hnames]
      have hcount := countEntries_of_copy t depth ih t' t₂ source target names hfile n hentries
        (fun y h h' => hview y (hcreate.trans h) h') 0
      rwa [Nat.zero_add] at hcount

/-- What a copy reports is the number of files in the folder, counted in any
    tree in which the folder looks as it does before the copy and after it. -/
theorem countFiles_of_copy (t t₁ t₂ : FileTree) (source target : Path) (n : Nat)
    (ht : t.IsOrderly) (ht₁ : t₁.Linkless) (hcopy : t₁.copyFolder source target = (.ok n, t₂))
    (hbefore : SameView t t₁ source) (hafter : SameView t t₂ source) :
    t.countFiles source = .ok n := by
  have hends : SameView t₁ t₂ source := hbefore.symm.trans hafter
  refine countFilesUpTo_of_copy t ht _ t₁ t₂ source target n hcopy fun t' h h' => ?_
  exact hbefore.trans (hends.between ht₁ h h')

end SchemaRename.FileTree
