import SchemaRename.FileTree.Copy
import SchemaRename.Proofs.FileTree.Places

/-!
# What a Copy Leaves

What the target of a copy still has, wherever the copy stops.

A copy creates folders where nothing is and writes files where no folder is,
so nothing goes away, in any tree, with links or without. What it writes it
has read from the tree, apart from the empty text that a file is emptied
with. None of this depends on how far the copy gets.

## Main definitions

* `FileTree.Overlaid`: A tree with files and folders laid over it.
* `FileTree.Grows`, `FileTree.GrowsAlong`: What all copies keep.

## Theorems

* `GrowsAlong.createFoldersUpTo`, `GrowsAlong.copyFile`: The two steps of a
  copy.
* `GrowsAlong.copyEntry`, `GrowsAlong.copyEntries`: The entries of a folder.
* `GrowsAlong.copyFolderUpTo`, `overlaid_copyFolderUpTo`: A whole copy,
  finished or not.
* `copyFile_steps`, `copyEntry_ok`, `copyEntries_cons_ok`, `copyFolderUpTo_ok`:
  What a copy that succeeds has done.
-/

namespace SchemaRename.FileTree

/-- A tree with files and folders laid over it: what was there is still there,
    folders are folders, and no content is made up. -/
structure Overlaid (t t' : FileTree) : Prop where
  folder : ∀ l, t.get? l = some .folder → t'.get? l = some .folder
  present : ∀ l, (t.get? l).isSome → (t'.get? l).isSome
  content : ∀ l c, t'.get? l = some (.file c) →
    c = .text "" ∨ ∃ m, t.get? m = some (.file c)

/-- A relation that holds between a tree and what any copies make of it: a
    folder where nothing was, or a file where no folder was, with a content that
    is there already. -/
structure Grows (R : FileTree → FileTree → Prop) : Prop where
  refl : ∀ t, R t t
  trans : ∀ {t t' t''}, R t t' → R t' t'' → R t t''
  folder : ∀ t l, t.get? l = none → R t (t.insert l .folder)
  file : ∀ t l, t.get? l ≠ some .folder → ∀ c, (c = .text "" ∨ ∃ m, t.get? m = some (.file c)) →
    R t (t.insert l (.file c))

/-- The same, for a relation that needs to know that the folder or the file is
    put where a path leads. -/
structure GrowsAlong (R : FileTree → FileTree → Prop) : Prop where
  refl : ∀ t, R t t
  trans : ∀ {t t' t''}, R t t' → R t' t'' → R t t''
  folder : ∀ t p folder n, t.resolveSteps false p p.steps = .ok (.missing folder n) →
    R t (t.insert (folder ++ [n]) .folder)
  file : ∀ t p l, t.place? p = some l → t.get? l ≠ some .folder →
    ∀ c, (c = .text "" ∨ ∃ m, t.get? m = some (.file c)) → R t (t.insert l (.file c))

theorem Grows.along {R : FileTree → FileTree → Prop} (hR : Grows R) : GrowsAlong R where
  refl := hR.refl
  trans := hR.trans
  folder t p folder n h := hR.folder t _ (get?_of_resolveSteps_missing t false p _ folder n h)
  file t _ l _ := hR.file t l

theorem Overlaid.refl (t : FileTree) : Overlaid t t :=
  ⟨fun _ h => h, fun _ h => h, fun l _ h => Or.inr ⟨l, h⟩⟩

theorem Overlaid.trans {t t' t'' : FileTree} (h : Overlaid t t') (h' : Overlaid t' t'') :
    Overlaid t t'' := by
  refine ⟨fun l hl => h'.folder l (h.folder l hl), fun l hl => h'.present l (h.present l hl), ?_⟩
  intro l c hc
  rcases h'.content l c hc with hempty | ⟨m, hm⟩
  · exact Or.inl hempty
  · exact h.content m c hm

theorem overlaid_insert_folder (t : FileTree) (l : Location) (hl : t.get? l = none) :
    Overlaid t (t.insert l .folder) := by
  have hne := ne_nil_of_get?_ne t (l := l) (by simp [hl])
  refine ⟨?_, ?_, ?_⟩
  · intro m hm
    have hml : m ≠ l := fun h => by simp [h, hl] at hm
    rwa [get?_insert_of_ne t hml]
  · intro m hm
    have hml : m ≠ l := fun h => by simp [h, hl] at hm
    rwa [get?_insert_of_ne t hml]
  · intro m c hc
    by_cases hml : m = l
    · rw [hml, get?_insert_self t hne] at hc
      cases hc
    · rw [get?_insert_of_ne t hml] at hc
      exact Or.inr ⟨m, hc⟩

theorem overlaid_insert_file (t : FileTree) (l : Location) (hl : t.get? l ≠ some .folder)
    (c : Content) (hc : c = .text "" ∨ ∃ m, t.get? m = some (.file c)) :
    Overlaid t (t.insert l (.file c)) := by
  have hne := ne_nil_of_get?_ne t hl
  refine ⟨?_, ?_, ?_⟩
  · intro m hm
    have hml : m ≠ l := fun h => hl (h ▸ hm)
    rwa [get?_insert_of_ne t hml]
  · intro m hm
    by_cases hml : m = l
    · rw [hml, get?_insert_self t hne]
      rfl
    · rwa [get?_insert_of_ne t hml]
  · intro m d hd
    by_cases hml : m = l
    · rw [hml, get?_insert_self t hne] at hd
      cases hd
      exact hc
    · rw [get?_insert_of_ne t hml] at hd
      exact Or.inr ⟨m, hd⟩

theorem grows_overlaid : Grows Overlaid :=
  ⟨Overlaid.refl, Overlaid.trans, overlaid_insert_folder, overlaid_insert_file⟩

/-- What is read is in the tree. -/
theorem get?_of_readContent (t : FileTree) (p : Path) (c : Content)
    (h : t.readContent p = .ok c) : ∃ l, t.get? l = some (.file c) := by
  rw [readContent] at h
  cases hlocate : t.locate true p with
  | error e => simp [hlocate, bind, Except.bind] at h
  | ok l =>
      simp only [hlocate, bind, Except.bind] at h
      split at h
      · next content hcontent =>
          cases h
          exact ⟨l, hcontent⟩
      · cases h
      · cases h

/-- What a copy of a file that succeeds has done. -/
theorem copyFile_steps (t : FileTree) (source target : Path) (t' : FileTree)
    (h : t.copyFile source target = .ok t') :
    ∃ emptied content, (∃ old, t.readContent source = .ok old) ∧
      t.write target (.text "") = .ok emptied ∧ emptied.readContent source = .ok content ∧
      emptied.write target content = .ok t' := by
  rw [copyFile] at h
  cases hread : t.readContent source with
  | error e => simp [hread, bind, Except.bind] at h
  | ok old =>
      simp only [hread, bind, Except.bind] at h
      cases hempty : t.write target (.text "") with
      | error e => simp [hempty] at h
      | ok emptied =>
          simp only [hempty] at h
          cases hreread : emptied.readContent source with
          | error e => simp [hreread] at h
          | ok content =>
              simp only [hreread] at h
              exact ⟨emptied, content, ⟨old, rfl⟩, rfl, hreread, h⟩

section GrowsAlong

variable {R : FileTree → FileTree → Prop} (hR : GrowsAlong R)
include hR

theorem GrowsAlong.createFolder (t : FileTree) (p : Path) (t' : FileTree)
    (h : t.createFolder p = .ok t') : R t t' := by
  rw [FileTree.createFolder] at h
  cases hplace : t.resolveSteps false p p.steps with
  | error e => simp [hplace, bind, Except.bind] at h
  | ok place =>
      cases place with
      | found l =>
          simp [hplace, bind, Except.bind, throw, throwThe, MonadExceptOf.throw] at h
      | missing folder n =>
          simp only [hplace, bind, Except.bind, pure, Except.pure, Except.ok.injEq] at h
          rw [← h]
          exact hR.folder t p folder n hplace

/-- Creating folders, as far as it gets. -/
theorem GrowsAlong.createFoldersUpTo (levels : Nat) (t : FileTree) (p : Path) :
    R t (createFoldersUpTo levels t p).2 := by
  fun_induction FileTree.createFoldersUpTo levels t p with
  | case1 => exact hR.refl _
  | case2 levels t p _ t' heq => exact hR.createFolder t p t' heq
  | case3 t p _ _ levels parent _ e t' heq ih =>
      rw [heq] at ih
      exact ih
  | case4 t p _ _ levels parent _ t' heq t'' hagain ih =>
      -- The folders above are there now, and this one comes on top of them.
      rw [heq] at ih
      exact hR.trans ih (hR.createFolder t' p t'' hagain)
  | case5 t p _ _ levels parent _ t' heq e _ ih =>
      rw [heq] at ih
      exact ih
  | case6 => exact hR.refl _
  | case7 => exact hR.refl _

/-- Copying a file. -/
theorem GrowsAlong.copyFile (t : FileTree) (source target : Path) (t' : FileTree)
    (h : t.copyFile source target = .ok t') : R t t' := by
  obtain ⟨emptied, content, -, hempty, hreread, hwrite⟩ := copyFile_steps t source target t' h
  obtain ⟨l, hplace, hl, rfl⟩ := (write_eq_ok_iff t target _ _).mp hempty
  obtain ⟨l', hplace', hl', rfl⟩ := (write_eq_ok_iff _ target _ _).mp hwrite
  exact hR.trans (hR.file t target l hplace hl _ (Or.inl rfl))
    (hR.file _ target l' hplace' hl' _
      (Or.inr (get?_of_readContent _ source content hreread)))

/-- Copying an entry, given what copying a folder does. -/
theorem GrowsAlong.copyEntry (copySubfolder : FileTree → Path → Path → Except Error Nat × FileTree)
    (hdeep : ∀ t source target, R t (copySubfolder t source target).2) (t : FileTree)
    (here there : Path) : R t (copyEntry copySubfolder t here there).2 := by
  rw [FileTree.copyEntry]
  split
  · exact hdeep t here there
  · split
    · next t' heq => exact hR.copyFile t here there t' heq
    · exact hR.refl t

/-- Copying the entries of a folder, as far as it gets. -/
theorem GrowsAlong.copyEntries
    (copySubfolder : FileTree → Path → Path → Except Error Nat × FileTree)
    (hdeep : ∀ t source target, R t (copySubfolder t source target).2) (source target : Path)
    (names : List String) (t : FileTree) :
    R t (copyEntries copySubfolder source target names t).2 := by
  induction names generalizing t with
  | nil => exact hR.refl t
  | cons name names ih =>
      have hentry := hR.copyEntry copySubfolder hdeep t (source.join name) (target.join name)
      rw [FileTree.copyEntries]
      split
      · next heq =>
          rw [heq] at hentry
          exact hentry
      · next t' heq =>
          rw [heq] at hentry
          have hrest := hR.trans hentry (ih t')
          split <;>
            · next heq' =>
                rw [heq'] at hrest
                exact hrest

/-- Copying a folder, finished or not. -/
theorem GrowsAlong.copyFolderUpTo (depth : Nat) (t : FileTree) (source target : Path) :
    R t (copyFolderUpTo depth t source target).2 := by
  induction depth generalizing t source target with
  | zero => exact hR.refl t
  | succ depth ih =>
      have hcreate : R t (t.createFolders target).2 :=
        hR.createFoldersUpTo target.components.length t target
      rw [FileTree.copyFolderUpTo]
      split
      · next heq =>
          rw [heq] at hcreate
          exact hcreate
      · next t' heq =>
          rw [heq] at hcreate
          split
          · exact hcreate
          · next names _ => exact hR.trans hcreate (hR.copyEntries _ ih source target names t')

end GrowsAlong

/-- What a copy of an entry that succeeds has done. -/
theorem copyEntry_ok (copySubfolder : FileTree → Path → Path → Except Error Nat × FileTree)
    (t : FileTree) (here there : Path) (n : Nat) (t' : FileTree)
    (h : copyEntry copySubfolder t here there = (.ok n, t')) :
    (t.isFolder here = true ∧ copySubfolder t here there = (.ok n, t')) ∨
      (t.isFolder here = false ∧ t.copyFile here there = .ok t' ∧ n = 1) := by
  rw [copyEntry] at h
  cases hfolder : t.isFolder here with
  | true =>
      rw [hfolder, if_pos rfl] at h
      exact Or.inl ⟨rfl, h⟩
  | false =>
      rw [hfolder, if_neg Bool.false_ne_true] at h
      split at h
      · next heq =>
          cases h
          exact Or.inr ⟨rfl, heq, rfl⟩
      · cases h

/-- What a copy of some entries that succeeds has done with the first one. -/
theorem copyEntries_cons_ok
    (copySubfolder : FileTree → Path → Path → Except Error Nat × FileTree)
    (source target : Path) (name : String) (names : List String) (t : FileTree) (n : Nat)
    (t' : FileTree)
    (h : copyEntries copySubfolder source target (name :: names) t = (.ok n, t')) :
    ∃ a t₁ b, copyEntry copySubfolder t (source.join name) (target.join name) = (.ok a, t₁) ∧
      copyEntries copySubfolder source target names t₁ = (.ok b, t') ∧ n = a + b := by
  rw [copyEntries] at h
  split at h
  · cases h
  · next a t₁ hfirst =>
      split at h
      · next b t₂ hrest =>
          cases h
          exact ⟨a, t₁, b, hfirst, hrest, rfl⟩
      · cases h

/-- What a copy of a folder that succeeds has done. -/
theorem copyFolderUpTo_ok (depth : Nat) (t : FileTree) (source target : Path) (n : Nat)
    (t' : FileTree) (h : copyFolderUpTo (depth + 1) t source target = (.ok n, t')) :
    ∃ t₁ names, t.createFolders target = (.ok (), t₁) ∧ t₁.list source = .ok names ∧
      copyEntries (copyFolderUpTo depth) source target names t₁ = (.ok n, t') := by
  rw [copyFolderUpTo] at h
  split at h
  · cases h
  · next t₁ hcreate =>
      split at h
      · cases h
      · next names hlist => exact ⟨t₁, names, hcreate, hlist, h⟩

/-- Copying a folder lays it over a tree, finished or not. -/
theorem overlaid_copyFolderUpTo (depth : Nat) (t : FileTree) (source target : Path) :
    Overlaid t (copyFolderUpTo depth t source target).2 :=
  grows_overlaid.along.copyFolderUpTo depth t source target

end SchemaRename.FileTree
