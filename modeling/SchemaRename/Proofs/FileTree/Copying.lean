import SchemaRename.Proofs.FileTree.Counting
import SchemaRename.Proofs.FileTree.Descending

/-!
# A Folder Laid over Another One

Where the entries of a folder are after a copy of it has succeeded.

A copy reads and writes in one tree, so what it reads may be what it has
written. It puts entries at the same names below the target that they have
below the source. As long as none of these places lies in the source, the
source stays as it is and every entry arrives: the files and folders of the
source are below the target, with the same contents, and nothing else has
changed. The entries of a folder have different names, so their copies do not
meet either.

A target inside the source is never finished with. The copy finds the target
as an entry, and the copy of this entry has its own target inside it. A copy
onto itself is finished, and every file is empty then: a file is emptied
before it is read. In between is a source inside the target. It can be
overwritten before it is read if it has an entry at the names that lead to it
from the target.

## Main definitions

* `FileTree.copied`: What becomes of an entry.
* `FileTree.LaidOver`: A tree with a part of a folder laid over another one.
* `FileTree.Clear`: Folders whose copy does not touch what is read.

## Theorems

* `copyFile_ok`: What copying a file does.
* `LaidOver.trans`: One part of a folder after the other.
* `laidOver_copyEntry`, `laidOver_copyEntries`, `laidOver_copyFolderUpTo`: What
  a copy lays over its target.
* `copyFolderUpTo_inside`: A copy into its own source does not succeed.
* `sameView_of_laidOver`: What a copy sees of its source stays the same.
* `copyFolder_faithful`: What a copy leaves if its source is out of the way.
* `copyFolder_onto_itself`: What a copy onto itself leaves.
-/

namespace SchemaRename.FileTree

open SchemaRename.Glob (namesIn)

/-- An entry with its content lost. -/
def emptied : Entry → Entry
  | .file _ => .file (.text "")
  | e => e

/-- What becomes of an entry that is copied from one location to another. -/
def copied (source target : Location) (e : Entry) : Entry :=
  if source = target then emptied e else e

/-- A tree with a part of a folder laid over another one: the entries of this
    part are at the same names below the target, and where there are none,
    nothing has changed. -/
structure LaidOver (t t' : FileTree) (source target : Location) (part : Location → Prop) :
    Prop where
  placed : ∀ rel, part rel → ∀ e, t.get? (source ++ rel) = some e →
    t'.get? (target ++ rel) = some (copied source target e)
  kept : ∀ m, (∀ rel, part rel → m = target ++ rel → t.get? (source ++ rel) = none) →
    t'.get? m = t.get? m

/-- A copy of one location to the other does not touch what is still to be
    read: no entry goes to a place in the source, or each goes to its own. -/
def Clear (t : FileTree) (source target : Location) : Prop :=
  source = target ∨ ∀ rel, (t.get? (source ++ rel)).isSome → ¬ source <+: target ++ rel

theorem copied_folder (source target : Location) : copied source target .folder = .folder := by
  rw [copied]
  split <;> rfl

theorem copied_concat (source target : Location) (name : String) :
    copied (source ++ [name]) (target ++ [name]) = copied source target := by
  funext e
  simp only [copied, List.append_left_inj]

theorem Clear.concat {t : FileTree} {source target : Location} (h : Clear t source target)
    (name : String) : Clear t (source ++ [name]) (target ++ [name]) := by
  rcases h with rfl | h
  · exact Or.inl rfl
  · refine Or.inr fun rel hsome hfront => h (name :: rel) (by simpa using hsome) ?_
    rw [List.append_assoc] at hfront
    exact (List.prefix_append source [name]).trans hfront

namespace LaidOver

variable {t t₁ t' : FileTree} {source target : Location} {part part' : Location → Prop}

/-- The source is still there, apart from what was put onto itself. -/
theorem source_kept (h : LaidOver t t' source target part) (hclear : Clear t source target)
    (rel : Location) (hrel : source = target → ¬ part rel) :
    t'.get? (source ++ rel) = t.get? (source ++ rel) := by
  refine h.kept _ fun r hr heq => ?_
  rcases hclear with rfl | hclear
  · cases List.append_cancel_left heq
    exact absurd hr (hrel rfl)
  · by_contra hsome
    exact hclear r (Option.isSome_iff_ne_none.mpr hsome) ⟨rel, heq⟩

theorem clear (h : LaidOver t t' source target part) (hclear : Clear t source target) :
    Clear t' source target := by
  by_cases heq : source = target
  · exact Or.inl heq
  · refine Or.inr fun rel hsome => ?_
    rw [h.source_kept hclear rel fun h => absurd h heq] at hsome
    exact (hclear.resolve_left heq) rel hsome

/-- One part after the other. -/
theorem trans (h : LaidOver t t₁ source target part) (h' : LaidOver t₁ t' source target part')
    (hclear : Clear t source target) (hdisjoint : ∀ rel, part rel → ¬ part' rel) :
    LaidOver t t' source target fun rel => part rel ∨ part' rel := by
  -- What the second part reads is still what it was at the start.
  have hsource : ∀ rel, part' rel → t₁.get? (source ++ rel) = t.get? (source ++ rel) :=
    fun rel hrel => h.source_kept hclear rel fun _ hpart => hdisjoint rel hpart hrel
  constructor
  · rintro rel (hrel | hrel) e he
    · -- And what the first part has put somewhere stays there.
      rw [h'.kept _ fun r hr heq => ?_]
      · exact h.placed rel hrel e he
      · cases List.append_cancel_left heq
        exact absurd hr (hdisjoint rel hrel)
    · exact h'.placed rel hrel e (by rw [hsource rel hrel, he])
  · intro m hm
    rw [h'.kept m fun rel hrel heq => ?_, h.kept m fun rel hrel => hm rel (Or.inl hrel)]
    rw [hsource rel hrel]
    exact hm rel (Or.inr hrel) heq

/-- A part that has all entries is everything. -/
theorem whole (h : LaidOver t t' source target part)
    (hpart : ∀ rel, (t.get? (source ++ rel)).isSome → part rel) :
    LaidOver t t' source target fun _ => True := by
  constructor
  · intro rel _ e he
    exact h.placed rel (hpart rel (by rw [he]; rfl)) e he
  · intro m hm
    exact h.kept m fun rel _ heq => hm rel trivial heq

/-- An entry that is laid over another one is a part of its folder. -/
theorem below {name : String}
    (h : LaidOver t t' (source ++ [name]) (target ++ [name]) fun _ => True) :
    LaidOver t t' source target fun rel => [name] <+: rel := by
  constructor
  · rintro rel ⟨rest, rfl⟩ e he
    rw [← List.append_assoc] at he ⊢
    rw [h.placed rest trivial e he, copied_concat]
  · intro m hm
    refine h.kept m fun rest _ heq => ?_
    rw [List.append_assoc] at heq ⊢
    exact hm _ ⟨rest, rfl⟩ heq

/-- What is laid over itself has lost its contents. -/
theorem get?_emptied (h : LaidOver t t' source source fun _ => True) (m : Location) :
    t'.get? m = if source <+: m then (t.get? m).map emptied else t.get? m := by
  split
  · next hfront =>
      obtain ⟨rel, rfl⟩ := hfront
      cases hentry : t.get? (source ++ rel) with
      | some e => simp [h.placed rel trivial e hentry, copied]
      | none =>
          rw [h.kept _ fun r _ heq => ?_, hentry]
          · rfl
          · rwa [← heq]
  · next hfront => exact h.kept m fun rel _ heq => absurd ⟨rel, heq.symm⟩ hfront

end LaidOver

/-- Copies keep a tree plain, finished or not. -/
theorem growsAlong_isPlain : GrowsAlong fun t t' => t.IsPlain → t'.IsPlain where
  refl _ := id
  trans h h' := h' ∘ h
  folder t p folder n h ht := by
    have hnone := get?_of_resolveSteps_missing t false p _ folder n h
    obtain ⟨-, -, hwalk⟩ := (resolveSteps_eq_ok_iff t false p _ _).mp h
    obtain ⟨hfolder, hmem, hdot, hdots, hsize⟩ := missing_of_walk ht _ _ _ _ _ _ hwalk
    obtain ⟨hne, hslash⟩ := Path.mem_steps p n hmem
    have hn := (isEntryName_iff n).mpr ⟨⟨hslash, hne, hdot, hdots⟩, hsize⟩
    exact (isPlain_insert_folder ht folder n hfolder hn hnone).1
  file t p l hplace hl c _ ht := (isPlain_insert ht p l c hplace hl).1

section

variable {t : FileTree} (ht : t.IsPlain)
include ht

/-- What the copy of an entry leaves for the next one. -/
theorem grown_of_copyEntry (depth : Nat) (here there : Path) (outcome : Except Error Nat)
    (t₁ : FileTree) (h : copyEntry (copyFolderUpTo depth) t here there = (outcome, t₁)) :
    t₁.IsPlain ∧ Grown t t₁ := by
  have hplain := growsAlong_isPlain.copyEntry _ (growsAlong_isPlain.copyFolderUpTo depth) t here
    there ht
  have hgrown := grown_copyEntry depth t here there
  rw [h] at hplain hgrown
  exact ⟨hplain, hgrown⟩

/-- What a copy that succeeds has opened and listed. -/
theorem copyFolderUpTo_opened (depth : Nat) (source target : Path) (here : Location)
    (hsource : LeadsTo t source here) (n : Nat) (t' : FileTree)
    (h : copyFolderUpTo (depth + 1) t source target = (.ok n, t')) :
    ∃ t₁, t.createFolders target = (.ok (), t₁) ∧ t₁.IsPlain ∧ Grown t t₁ ∧
      LeadsTo t₁ source here ∧
      copyEntries (copyFolderUpTo depth) source target (t₁.children here) t₁ = (.ok n, t') := by
  obtain ⟨t₁, names, hcreate, hlist, hentries⟩ := copyFolderUpTo_ok depth t source target n t' h
  have hplain := growsAlong_isPlain.createFoldersUpTo target.components.length t target ht
  have hgrown := grown_createFolders t target
  rw [← createFolders, hcreate] at hplain
  rw [hcreate] at hgrown
  have hsource₁ := hsource.mono ht hplain hgrown.folder hgrown.working
  cases (hsource₁.list hplain).symm.trans hlist
  exact ⟨t₁, hcreate, hplain, hgrown, hsource₁, hentries⟩

/-- What copying a file does. -/
theorem copyFile_ok (source target : Path) (t' : FileTree)
    (h : t.copyFile source target = .ok t') :
    ∃ here there content, t.place? source = some here ∧ t.get? here = some (.file content) ∧
      t.place? target = some there ∧
      ∀ m, t'.get? m =
        if m = there then some (copied here there (.file content)) else t.get? m := by
  obtain ⟨_, content', ⟨content, hread⟩, hempty, hreread, hwrite⟩ :=
    copyFile_steps t source target t' h
  obtain ⟨here, hhere, hfile⟩ := (readContent_eq_ok_iff ht source content).mp hread
  obtain ⟨there, hthere, hfolder, rfl⟩ := (write_eq_ok_iff t target _ _).mp hempty
  -- The tree has an empty file at the target now, and is otherwise the same.
  have hne := ne_nil_of_get?_ne t hfolder
  have hself := get?_insert_self t hne (.file (.text ""))
  obtain ⟨hplain, hsame⟩ := isPlain_insert ht target there (.text "") hthere hfolder
  have hplaces := place?_of_sameFolders ht hplain hsame
  obtain ⟨l, hl, hfile'⟩ := (readContent_eq_ok_iff hplain source content').mp hreread
  cases hhere.symm.trans ((hplaces source).symm.trans hl)
  obtain ⟨l', hl', -, rfl⟩ := (write_eq_ok_iff _ target _ _).mp hwrite
  cases hthere.symm.trans ((hplaces target).symm.trans hl')
  have hcontent : Entry.file content' = copied here there (.file content) := by
    rw [copied]
    by_cases heq : here = there
    · rw [heq, hself] at hfile'
      cases hfile'
      rw [if_pos heq]
      rfl
    · rw [get?_insert_of_ne t heq, hfile] at hfile'
      cases hfile'
      rw [if_neg heq]
  refine ⟨here, there, content, hhere, hfile, hthere, fun m => ?_⟩
  by_cases hm : m = there
  · rw [if_pos hm, hm, get?_insert_self _ hne, hcontent]
  · rw [if_neg hm, get?_insert_of_ne _ hm, get?_insert_of_ne t hm]

/-- A file is laid over another one when it is copied there. -/
theorem laidOver_copyFile (source target : Path) (t' : FileTree)
    (h : t.copyFile source target = .ok t') :
    ∃ here there, t.place? source = some here ∧ t.place? target = some there ∧
      LaidOver t t' here there fun _ => True := by
  obtain ⟨here, there, content, hhere, hfile, hthere, hget⟩ := copyFile_ok ht source target t' h
  refine ⟨here, there, hhere, hthere, ?_, ?_⟩
  · intro rel _ e he
    -- There is nothing below a file.
    by_cases hnil : rel = []
    · rw [hnil, List.append_nil, hfile] at he
      cases he
      rw [hget, if_pos (by rw [hnil, List.append_nil])]
    · have hfolder := ht.folder_of_prefix here rel hnil (by rw [he]; rfl)
      rw [hfile] at hfolder
      cases hfolder
  · intro m hm
    rw [hget, if_neg]
    rintro rfl
    have hnone := hm [] trivial (List.append_nil _).symm
    rw [List.append_nil, hfile] at hnone
    cases hnone

end

section Copy

variable (depth : Nat)
  (ih : ∀ (t : FileTree) (source target : Path) (here there : Location) (n : Nat) (t' : FileTree),
    t.IsPlain → LeadsTo t source here → Opens t target there → Clear t here there →
    copyFolderUpTo depth t source target = (.ok n, t') → LaidOver t t' here there fun _ => True)
  (source target : Path) (here there : Location)
include ih

/-- What copying an entry lays over the target. -/
theorem laidOver_copyEntry (t : FileTree) (ht : t.IsPlain) (hsource : LeadsTo t source here)
    (htarget : LeadsTo t target there) (hclear : Clear t here there) (name : String)
    (hname : IsFileName name) (n : Nat) (t' : FileTree)
    (h : copyEntry (copyFolderUpTo depth) t (source.join name) (target.join name) = (.ok n, t')) :
    LaidOver t t' here there fun rel => [name] <+: rel := by
  refine LaidOver.below ?_
  rcases copyEntry_ok _ t _ _ n t' h with ⟨hfolder, hdeep⟩ | ⟨-, hfile, -⟩
  · obtain ⟨m, hm⟩ := (isFolder_iff_leadsTo ht _).mp hfolder
    obtain rfl := hsource.place_join ht name hname m hm.place
    exact ih t _ _ _ _ n t' ht hm (htarget.opens_join ht name hname) (hclear.concat name) hdeep
  · obtain ⟨l, l', hl, hl', hlaid⟩ := laidOver_copyFile ht _ _ t' hfile
    rwa [hsource.place_join ht name hname l hl, htarget.place_join ht name hname l' hl'] at hlaid

/-- What copying some entries lays over the target. -/
theorem laidOver_copyEntries (names : List String) (hnodup : names.Nodup)
    (hnames : ∀ name ∈ names, IsFileName name) (t : FileTree) (ht : t.IsPlain)
    (hsource : LeadsTo t source here) (htarget : LeadsTo t target there)
    (hclear : Clear t here there) (n : Nat) (t' : FileTree)
    (h : copyEntries (copyFolderUpTo depth) source target names t = (.ok n, t')) :
    LaidOver t t' here there fun rel => ∃ name ∈ names, [name] <+: rel := by
  induction names generalizing t n with
  | nil =>
      cases h
      exact ⟨by simp, fun _ _ => rfl⟩
  | cons name names ihnames =>
      obtain ⟨hnot, hrest⟩ := List.nodup_cons.mp hnodup
      obtain ⟨a, t₁, b, hentry, hentries, -⟩ :=
        copyEntries_cons_ok _ source target name names t n t' h
      obtain ⟨ht₁, hgrown⟩ := grown_of_copyEntry ht depth _ _ _ t₁ hentry
      have hfirst := laidOver_copyEntry depth ih source target here there t ht hsource htarget
        hclear name (hnames name List.mem_cons_self) a t₁ hentry
      have hothers := ihnames hrest (fun k hk => hnames k (List.mem_cons_of_mem _ hk)) t₁ ht₁
        (hsource.mono ht ht₁ hgrown.folder hgrown.working)
        (htarget.mono ht ht₁ hgrown.folder hgrown.working) (hfirst.clear hclear) b hentries
      -- The other entries have other names.
      have hall := hfirst.trans hothers hclear (by
        rintro rel ⟨rest, rfl⟩ ⟨other, hmem, rest', heq⟩
        cases heq
        exact hnot hmem)
      simpa only [List.mem_cons, exists_eq_or_imp] using hall

end Copy

/-- A folder that is opened for a copy is the copy of the folder itself. -/
theorem laidOver_createFolders {t t₁ : FileTree} {target : Path} {here there : Location}
    (hhere : t.get? here = some .folder) (htarget : Opens t target there)
    (h : t.createFolders target = (.ok (), t₁)) : LaidOver t t₁ here there (· = []) := by
  obtain ⟨hopen, hsame⟩ := htarget t₁ h
  constructor
  · rintro rel rfl e he
    rw [List.append_nil, hhere] at he
    cases he
    rw [List.append_nil, hopen.folder, copied_folder]
  · intro m hm
    rcases hsame with rfl | ⟨-, rfl⟩
    · rfl
    · refine get?_insert_of_ne t ?_ _
      rintro rfl
      have hnone := hm [] rfl (List.append_nil _).symm
      rw [List.append_nil, hhere] at hnone
      cases hnone

/-- What copying a folder lays over the target. -/
theorem laidOver_copyFolderUpTo (depth : Nat) (t : FileTree) (source target : Path)
    (here there : Location) (n : Nat) (t' : FileTree) (ht : t.IsPlain)
    (hsource : LeadsTo t source here) (htarget : Opens t target there)
    (hclear : Clear t here there) (h : copyFolderUpTo depth t source target = (.ok n, t')) :
    LaidOver t t' here there fun _ => True := by
  induction depth generalizing t source target here there n t' with
  | zero => cases h
  | succ depth ih =>
      obtain ⟨t₁, hcreate, ht₁, hgrown, hsource₁, hentries⟩ :=
        copyFolderUpTo_opened ht depth source target here hsource n t' h
      have hopened := laidOver_createFolders hsource.folder htarget hcreate
      have hfile : ∀ name ∈ t₁.children here, IsFileName name := fun name hname =>
        isFileName_of_isEntryName
          (ht₁.named _ ((mem_children t₁ here name).mp hname) name (by simp))
      have hrest := laidOver_copyEntries depth ih source target here there _
        (nodup_children t₁ ht₁.nodup here) hfile t₁ ht₁ hsource₁ (htarget t₁ hcreate).1
        (hopened.clear hclear) n t' hentries
      refine (hopened.trans hrest hclear ?_).whole ?_
      · rintro rel rfl ⟨name, -, hfront⟩
        exact absurd (List.prefix_nil.mp hfront) (List.cons_ne_nil _ _)
      · -- Every entry but the folder itself starts with one of the names.
        intro rel hsome
        cases rel with
        | nil => exact Or.inl rfl
        | cons name rest =>
            refine Or.inr ⟨name, (mem_children t₁ here name).mpr ?_, rest, rfl⟩
            refine ht₁.isSome_of_prefix (here ++ [name]) rest ?_
            rw [List.append_assoc]
            exact hgrown.present _ hsome

/-- A copy that succeeds comes to every one of its names. -/
theorem copyEntries_reaches (depth : Nat) (source target : Path) (names : List String)
    (name : String) (hname : name ∈ names) (t : FileTree) (ht : t.IsPlain) (n : Nat)
    (t' : FileTree)
    (h : copyEntries (copyFolderUpTo depth) source target names t = (.ok n, t')) :
    ∃ t₁ a t₂, t₁.IsPlain ∧ Grown t t₁ ∧
      copyEntry (copyFolderUpTo depth) t₁ (source.join name) (target.join name) = (.ok a, t₂) := by
  induction names generalizing t n with
  | nil => cases hname
  | cons first names ih =>
      obtain ⟨a, t₁, b, hentry, hentries, -⟩ :=
        copyEntries_cons_ok _ source target first names t n t' h
      rcases List.mem_cons.mp hname with rfl | hmem
      · exact ⟨t, a, t₁, ht, Grown.refl t, hentry⟩
      · obtain ⟨ht₁, hgrown⟩ := grown_of_copyEntry ht depth _ _ _ t₁ hentry
        obtain ⟨t₂, c, t₃, ht₂, hgrown₂, hcopy⟩ := ih hmem t₁ ht₁ b hentries
        exact ⟨t₂, c, t₃, ht₂, hgrown.trans hgrown₂, hcopy⟩

/-- A copy into its own source does not succeed: it comes to the folder that
    the target is in, and the copy of this folder has its own target in it. -/
theorem copyFolderUpTo_inside (depth : Nat) (t : FileTree) (ht : t.IsPlain) (source target : Path)
    (here : Location) (name : String) (rest : Location) (hsource : LeadsTo t source here)
    (htarget : Opens t target (here ++ name :: rest)) (n : Nat) (t' : FileTree) :
    copyFolderUpTo depth t source target ≠ (.ok n, t') := by
  induction depth generalizing t source target here name rest n t' with
  | zero =>
      intro h
      cases h
  | succ depth ih =>
      intro h
      obtain ⟨t₁, hcreate, ht₁, -, hsource₁, hentries⟩ :=
        copyFolderUpTo_opened ht depth source target here hsource n t' h
      have htarget₁ := (htarget t₁ hcreate).1
      have hthere : t₁.get? (here ++ [name] ++ rest) = some .folder := by
        rw [List.append_assoc]
        exact htarget₁.folder
      have hnext : t₁.get? (here ++ [name]) = some .folder := by
        cases rest with
        | nil => rwa [List.append_nil] at hthere
        | cons second rest =>
            exact ht₁.folder_of_prefix _ _ (List.cons_ne_nil _ _) (by rw [hthere]; rfl)
      have hmem : name ∈ t₁.children here := (mem_children t₁ here name).mpr (by rw [hnext]; rfl)
      have hname := isFileName_of_isEntryName (ht₁.named _ (by rw [hnext]; rfl) name (by simp))
      -- The copy comes to the folder on the way to its target.
      obtain ⟨t₂, a, t₃, ht₂, hgrown, hentry⟩ :=
        copyEntries_reaches depth source target _ name hmem t₁ ht₁ n t' hentries
      have hsource₂ := hsource₁.mono ht₁ ht₂ hgrown.folder hgrown.working
      have htarget₂ := htarget₁.mono ht₁ ht₂ hgrown.folder hgrown.working
      rcases copyEntry_ok _ t₂ _ _ a t₃ hentry with ⟨hfolder, hdeep⟩ | ⟨-, hfile, -⟩
      · obtain ⟨m, hm⟩ := (isFolder_iff_leadsTo ht₂ _).mp hfolder
        obtain rfl := hsource₂.place_join ht₂ name hname m hm.place
        -- Its copy goes to the same name behind the target, which is further down.
        obtain ⟨next, back, hback⟩ := List.exists_cons_of_ne_nil
          (List.append_ne_nil_of_right_ne_nil rest (List.cons_ne_nil name []))
        have hopens := htarget₂.opens_join ht₂ name hname
        rw [List.append_assoc, List.cons_append, hback, List.append_cons] at hopens
        exact ih t₂ ht₂ _ _ _ next back hm hopens a t₃ hdeep
      · obtain ⟨l, -, content, hl, hcontent, -⟩ := copyFile_ok ht₂ _ _ t₃ hfile
        rw [hsource₂.place_join ht₂ name hname l hl, hgrown.folder _ hnext] at hcontent
        cases hcontent

section Finished

variable {t : FileTree} (ht : t.IsPlain) {source target : Path} {here there : Location}
  (hsource : LeadsTo t source here)
include ht hsource

/-- What a copy sees of its source stays the same. -/
theorem sameView_of_laidOver {t' : FileTree} (ht' : t'.IsPlain) (hgrown : Grown t t')
    (hclear : Clear t here there) (h : LaidOver t t' here there fun _ => True) :
    SameView t t' source := by
  have hsource' := hsource.mono ht ht' hgrown.folder hgrown.working
  -- Contents may be lost, but every entry is what it was.
  have hkinds : ∀ rel,
      (t'.get? (here ++ rel) = some .folder ↔ t.get? (here ++ rel) = some .folder) ∧
        ((t'.get? (here ++ rel)).isSome ↔ (t.get? (here ++ rel)).isSome) := by
    intro rel
    by_cases hsame : here = there
    · subst hsame
      rw [h.get?_emptied, if_pos (List.prefix_append here rel), Option.isSome_map]
      refine ⟨?_, Iff.rfl⟩
      cases t.get? (here ++ rel) with
      | none => simp
      | some e => cases e <;> simp [emptied]
    · rw [h.source_kept hclear rel fun heq => absurd heq hsame]
      exact ⟨Iff.rfl, Iff.rfl⟩
  intro below hbelow
  have hfolder : t'.isFolder (source.extend below) = t.isFolder (source.extend below) := by
    rw [Bool.eq_iff_iff, isFolder_iff_leadsTo ht', isFolder_iff_leadsTo ht]
    simp only [leadsTo_extend_iff ht' hsource' below hbelow,
      leadsTo_extend_iff ht hsource below hbelow, (hkinds below).1]
  refine ⟨hfolder, ?_⟩
  rw [namesIn, namesIn, hfolder]
  split
  · next hthere =>
      obtain ⟨m, hm⟩ := (isFolder_iff_leadsTo ht _).mp hthere
      obtain ⟨rfl, -⟩ := (leadsTo_extend_iff ht hsource below hbelow m).mp hm
      rw [hm.list ht, (hm.mono ht ht' hgrown.folder hgrown.working).list ht']
      refine congrArg (fun names => (Except.ok names).toOption.getD []) ?_
      refine children_eq t t' ht.nodup ht'.nodup _ _ fun n => ?_
      rw [List.append_assoc]
      exact (hkinds (below ++ [n])).2
  · rfl

variable (htarget : LeadsTo t target there) {n : Nat} {t' : FileTree}
  (h : t.copyFolder source target = (.ok n, t'))
include htarget h

/-- A copy that touches nothing it reads lays its source over its target and
    counts it. -/
theorem copyFolder_clear (hclear : Clear t here there) :
    t.countFiles source = .ok n ∧ LaidOver t t' here there fun _ => True := by
  have hlaid := laidOver_copyFolderUpTo _ t source target here there n t' ht hsource
    (htarget.opens ht) hclear h
  have ht' := growsAlong_isPlain.copyFolderUpTo (maxPathSize + 1) t source target ht
  have hgrown := grows_grown.along.copyFolderUpTo (maxPathSize + 1) t source target
  rw [← copyFolder, h] at ht' hgrown
  refine ⟨?_, hlaid⟩
  exact countFiles_of_copy t t t' source target n ht.toIsOrderly ht.linkless h
    (fun _ _ => ⟨rfl, rfl⟩) (sameView_of_laidOver ht hsource ht' hgrown hclear hlaid)

/-- A copy that succeeds touches nothing it reads, unless its source is in the
    target and has something at the names that lead to it from there. -/
theorem clear_of_copyFolder
    (hfree : ∀ rel, here = there ++ rel → t.get? (here ++ rel) = none) : Clear t here there := by
  refine Or.inr fun rel hsome hfront => ?_
  rcases List.prefix_or_prefix_of_prefix hfront (List.prefix_append there rel) with
    ⟨back, rfl⟩ | ⟨back, rfl⟩
  · -- The target is the source or inside it.
    cases back with
    | nil =>
        have hnone := hfree [] (by simp)
        rw [List.append_nil, hsource.folder] at hnone
        cases hnone
    | cons name back =>
        exact copyFolderUpTo_inside _ t ht source target here name back hsource
          (htarget.opens ht) n t' h
  · -- The source is inside the target, and an entry of it goes into the source.
    obtain ⟨rest, rfl⟩ := (List.prefix_append_right_inj there).mp hfront
    rw [← List.append_assoc] at hsome
    have hsome' := ht.isSome_of_prefix _ rest hsome
    rw [hfree back rfl] at hsome'
    cases hsome'

end Finished

/-- Files stay files. -/
theorem grows_files : Grows fun t t' =>
    ∀ m c, t.get? m = some (.file c) → ∃ c', t'.get? m = some (.file c') where
  refl _ _ c h := ⟨c, h⟩
  trans h h' m c hm := by
    obtain ⟨c', hm'⟩ := h m c hm
    exact h' m c' hm'
  folder t l hl m c hm := by
    refine ⟨c, ?_⟩
    rwa [get?_insert_of_ne t fun heq => by rw [heq, hl] at hm; cases hm]
  file t l hl c _ m d hm := by
    by_cases hml : m = l
    · exact ⟨c, by rw [hml, get?_insert_self t (ne_nil_of_get?_ne t hl)]⟩
    · exact ⟨d, by rwa [get?_insert_of_ne t hml]⟩

/-- A copy reports the number of files in its source and puts every entry of
    the source below the target, with the content that it had. All other files
    keep their content, and where the source has nothing, nothing changes. That
    is so unless the source is in the target and has something at the names
    that lead to it from there. -/
theorem copyFolder_faithful (t : FileTree) (ht : t.IsPlain) (source target : Path)
    (here there : Location) (hsource : LeadsTo t source here) (htarget : LeadsTo t target there)
    (hfree : ∀ rel, here = there ++ rel → t.get? (here ++ rel) = none) (n : Nat) (t' : FileTree)
    (h : t.copyFolder source target = (.ok n, t')) :
    t.countFiles source = .ok n ∧
      (∀ rel e, t.get? (here ++ rel) = some e → t'.get? (there ++ rel) = some e) ∧
      (∀ m c, t.get? m = some (.file c) →
        (∀ rel d, m = there ++ rel → t.get? (here ++ rel) ≠ some (.file d)) →
        t'.get? m = some (.file c)) ∧
      ∀ m, (∀ rel, m = there ++ rel → t.get? (here ++ rel) = none) → t'.get? m = t.get? m := by
  obtain ⟨hcount, hlaid⟩ := copyFolder_clear ht hsource htarget h
    (clear_of_copyFolder ht hsource htarget h hfree)
  have hne : here ≠ there := by
    rintro rfl
    have hnone := hfree [] (List.append_nil _).symm
    rw [List.append_nil, hsource.folder] at hnone
    cases hnone
  have hplaced : ∀ rel e, t.get? (here ++ rel) = some e → t'.get? (there ++ rel) = some e := by
    intro rel e he
    rw [hlaid.placed rel trivial e he, copied, if_neg hne]
  have hkept : ∀ m, (∀ rel, m = there ++ rel → t.get? (here ++ rel) = none) →
      t'.get? m = t.get? m := fun m hm => hlaid.kept m fun rel _ => hm rel
  refine ⟨hcount, hplaced, fun m c hm hfile => ?_, hkept⟩
  rw [hkept m fun rel heq => ?_, hm]
  -- A folder of the source cannot have been put onto a file.
  cases hentry : t.get? (here ++ rel) with
  | none => rfl
  | some e =>
      cases e with
      | folder =>
          have hstays := grows_files.along.copyFolderUpTo (maxPathSize + 1) t source target m c hm
          rw [← copyFolder, h, heq, hplaced rel .folder hentry] at hstays
          obtain ⟨c', hc'⟩ := hstays
          cases hc'
      | file d => exact absurd hentry (hfile rel d heq)
      | link goal => exact absurd hentry (ht.unlinked _ _)

/-- A project and a folder that is kept by hand. -/
def handKept : FileTree :=
  { entries := [(["hand"], .folder), (["hand", "classes"], .folder),
      (["hand", "classes", "A.cls"], .file (.text "new")), (["p"], .folder),
      (["p", "classes"], .folder), (["p", "classes", "A.cls"], .file (.text "old")),
      (["p", "classes", "B.cls"], .file (.text "other"))] }

theorem copyFolder_faithful_handKept :
    handKept.IsPlain ∧ ∃ t', handKept.copyFolder ⟨"hand"⟩ ⟨"p"⟩ = (.ok 1, t') ∧
      handKept.countFiles ⟨"hand"⟩ = .ok 1 ∧
      t'.get? ["p", "classes", "A.cls"] = some (.file (.text "new")) ∧
      t'.get? ["p", "classes", "B.cls"] = some (.file (.text "other")) := by
  have hplain : handKept.IsPlain := isPlain_of_check _ (by decide +kernel)
  have hok : (handKept.copyFolder ⟨"hand"⟩ ⟨"p"⟩).1 = .ok 1 := by decide +kernel
  obtain ⟨hcount, hplaced, hfiles, -⟩ := copyFolder_faithful handKept hplain ⟨"hand"⟩ ⟨"p"⟩
    ["hand"] ["p"] ⟨by decide +kernel, by decide +kernel⟩ ⟨by decide +kernel, by decide +kernel⟩
    (fun rel heq => by simp at heq) 1 _ (Prod.ext hok rfl)
  refine ⟨hplain, _, Prod.ext hok rfl, hcount, hplaced ["classes", "A.cls"] _ (by decide +kernel),
    hfiles ["p", "classes", "B.cls"] _ (by decide +kernel) fun rel d heq => ?_⟩
  cases heq
  have hnone : handKept.get? ["hand", "classes", "B.cls"] = none := by decide +kernel
  simp [hnone]

/-- A copy of a folder onto itself reports the number of its files, and all of
    them are empty afterwards. -/
theorem copyFolder_onto_itself (t : FileTree) (ht : t.IsPlain) (source target : Path)
    (here : Location) (hsource : LeadsTo t source here) (htarget : LeadsTo t target here) (n : Nat)
    (t' : FileTree) (h : t.copyFolder source target = (.ok n, t')) :
    t.countFiles source = .ok n ∧
      ∀ m, t'.get? m = if here <+: m then (t.get? m).map emptied else t.get? m := by
  obtain ⟨hcount, hlaid⟩ := copyFolder_clear ht hsource htarget h (Or.inl rfl)
  exact ⟨hcount, hlaid.get?_emptied⟩

/-- The files of a folder lose their contents when it is copied onto itself: it
    is not so that every copy puts the contents of before below its target. -/
theorem copyFolder_loses_content :
    ¬ ∀ (t : FileTree) (source target : Path) (here there : Location) (n : Nat) (t' : FileTree),
      t.IsPlain → LeadsTo t source here → LeadsTo t target there →
      t.copyFolder source target = (.ok n, t') →
      t.countFiles source = .ok n ∧
        (∀ rel c, t.get? (here ++ rel) = some (.file c) →
          t'.get? (there ++ rel) = some (.file c)) ∧
        (∀ rel, t.get? (here ++ rel) = some .folder → t'.get? (there ++ rel) = some .folder) ∧
        ∀ m c, t.get? m = some (.file c) →
          (∀ rel d, m = there ++ rel → t.get? (here ++ rel) ≠ some (.file d)) →
          t'.get? m = some (.file c) := by
  intro h
  have hplain : handKept.IsPlain := isPlain_of_check _ (by decide +kernel)
  have hleads : LeadsTo handKept ⟨"hand"⟩ ["hand"] := ⟨by decide +kernel, by decide +kernel⟩
  have hok : (handKept.copyFolder ⟨"hand"⟩ ⟨"hand"⟩).1 = .ok 1 := by decide +kernel
  obtain ⟨-, hfiles, -⟩ := h handKept ⟨"hand"⟩ ⟨"hand"⟩ ["hand"] ["hand"] 1 _ hplain hleads hleads
    (Prod.ext hok rfl)
  obtain ⟨-, hlost⟩ := copyFolder_onto_itself handKept hplain ⟨"hand"⟩ ⟨"hand"⟩ ["hand"] hleads
    hleads 1 _ (Prod.ext hok rfl)
  have hsame := hfiles ["classes", "A.cls"] (.text "new") (by decide +kernel)
  exact absurd (hsame.symm.trans (hlost _)) (by decide +kernel)

end SchemaRename.FileTree
