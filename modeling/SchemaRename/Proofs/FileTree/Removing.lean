import SchemaRename.FileTree.AtomicWrite
import SchemaRename.Proofs.FileTree.Places

/-!
# What Removing an Entry Leaves

The tree after an entry of a plain tree has been removed, or could not be.

A folder goes with all that is in it, and a file has nothing in it, so either
way the location is gone with everything below, and nothing else has changed.
A removal fails only if there is nothing to remove, or if the path is too
long to lead there, and then it changes nothing.

With links a removal is harder to describe, but it takes entries away and
does nothing else.

## Main definitions

* `FileTree.Thinned`: A tree from which entries may have been taken.
* `FileTree.Shrinks`: What all removals keep.
* `FileTree.Removed`: A tree without a location and all that was below it.

## Theorems

* `Shrinks.delete`: Removals take entries away, in any tree.
* `removed_of_get?`: What a removal has to show.
* `place?_of_isSome`, `readText_iff_location`: What a path that ends in a name
  leads to.
* `removeFolder_of_get?`, `removeFile_of_get?`: The two kinds of entries.
* `delete_cases`: What a removal does.
-/

namespace SchemaRename.FileTree

/-- A tree from which entries may have been taken, and that is the same
    otherwise. -/
def Thinned (t t' : FileTree) : Prop :=
  ∀ l, t'.get? l = t.get? l ∨ t'.get? l = none

/-- A relation that holds between a tree and what any removals leave of it. -/
structure Shrinks (R : FileTree → FileTree → Prop) : Prop where
  refl : ∀ t, R t t
  trans : ∀ {t t' t''}, R t t' → R t' t'' → R t t''
  erase : ∀ t l, R t (t.erase l)
  eraseBelow : ∀ t l, R t (t.eraseBelow l)

theorem Thinned.refl (t : FileTree) : Thinned t t :=
  fun _ => Or.inl rfl

theorem Thinned.trans {t t' t'' : FileTree} (h : Thinned t t') (h' : Thinned t' t'') :
    Thinned t t'' := by
  intro l
  rcases h' l with hsame | hnone
  · rw [hsame]
    exact h l
  · exact Or.inr hnone

theorem Thinned.isSome {t t' : FileTree} (h : Thinned t t') (l : Location)
    (hsome : (t'.get? l).isSome) : (t.get? l).isSome := by
  rcases h l with hsame | hnone
  · rwa [← hsame]
  · rw [hnone] at hsome
    cases hsome

theorem Thinned.get?_eq_some {t t' : FileTree} (h : Thinned t t') {l : Location} {e : Entry}
    (hl : t'.get? l = some e) : t.get? l = some e := by
  rcases h l with hsame | hnone
  · rwa [← hsame]
  · rw [hnone] at hl
    cases hl

theorem thinned_erase (t : FileTree) (l : Location) : Thinned t (t.erase l) := by
  intro m
  by_cases hm : m = l
  · by_cases hl : l = []
    · left
      rw [hm, hl, get?_root, get?_root]
    · right
      rw [hm]
      exact get?_erase_self t hl
  · exact Or.inl (get?_erase_of_ne t hm)

theorem thinned_eraseBelow (t : FileTree) (l : Location) : Thinned t (t.eraseBelow l) := by
  intro m
  rw [get?_eraseBelow]
  split
  · exact Or.inr rfl
  · exact Or.inl rfl

theorem shrinks_thinned : Shrinks Thinned :=
  ⟨Thinned.refl, Thinned.trans, thinned_erase, thinned_eraseBelow⟩

/-- What is removed as a file is taken away where the path leads. -/
theorem exists_of_removeFile (t : FileTree) (p : Path) (t' : FileTree)
    (h : t.removeFile p = .ok t') : ∃ l, t.locate false p = .ok l ∧ t' = t.erase l := by
  rw [removeFile] at h
  cases hlocate : t.locate false p with
  | error e => simp [hlocate, bind, Except.bind] at h
  | ok l =>
      simp only [hlocate, bind, Except.bind] at h
      split at h
      · cases h
      · cases h
        exact ⟨l, rfl, rfl⟩

section Shrinks

variable {R : FileTree → FileTree → Prop} (hR : Shrinks R) (t : FileTree) (p : Path)
include hR

theorem Shrinks.removeEmptyFolder (t' : FileTree) (h : t.removeEmptyFolder p = .ok t') :
    R t t' := by
  rw [FileTree.removeEmptyFolder] at h
  split at h
  · cases h
  · cases h
  · simp only [bind, Except.bind] at h
    split at h <;> cases h
  · simp only [bind, Except.bind] at h
    split at h
    · cases h
    · split at h
      · cases h
      · split at h
        · cases h
          exact hR.erase t _
        · cases h

theorem Shrinks.removeFolder : R t (t.removeFolder p).2 := by
  rw [FileTree.removeFolder]
  cases t.locate false p with
  | error e => exact hR.refl t
  | ok l =>
      simp only
      split
      · cases hremove : (t.eraseBelow l).removeEmptyFolder p with
        | ok t' => exact hR.trans (hR.eraseBelow t l) (hR.removeEmptyFolder _ p t' hremove)
        | error e => cases e <;> exact hR.eraseBelow t l
      · exact hR.erase t l

theorem Shrinks.removeFile (t' : FileTree) (h : t.removeFile p = .ok t') : R t t' := by
  obtain ⟨l, -, rfl⟩ := exists_of_removeFile t p t' h
  exact hR.erase t l

/-- What shrinking keeps, a removal keeps, in any tree. -/
theorem Shrinks.delete (operation : String) : R t (t.delete p operation).2 := by
  have hremove : R t (t.remove p).2 := by
    rw [FileTree.remove]
    split
    · exact hR.removeFolder t p
    · cases hfile : t.removeFile p with
      | ok t' => exact hR.removeFile t p t' hfile
      | error e => exact hR.refl t
  exact hremove

end Shrinks

/-- A tree without a location and all that was below it. -/
structure Removed (t t' : FileTree) (l : Location) : Prop where
  plain : t'.IsPlain
  working : t'.workingFolder = t.workingFolder
  gone : ∀ m, l <+: m → t'.get? m = none
  frame : ∀ m, ¬ l <+: m → t'.get? m = t.get? m

/-- A tree that shows nothing at a location and below it, and everything else
    as it was. -/
theorem removed_of_get? {t t' : FileTree} (ht : t.IsPlain) (l : Location)
    (hkept : ¬ l <+: t.workingFolder) (hnodup : (t'.entries.map Prod.fst).Nodup)
    (hwork : t'.workingFolder = t.workingFolder)
    (hget : ∀ m, t'.get? m = if l <+: m then none else t.get? m) : Removed t t' l := by
  have hgone : ∀ m, l <+: m → t'.get? m = none := fun m hm => by rw [hget, if_pos hm]
  have hframe : ∀ m, ¬ l <+: m → t'.get? m = t.get? m := fun m hm => by rw [hget, if_neg hm]
  refine ⟨ht.of_cut (fun m => l <+: m) hnodup hwork ?_ hkept hgone hframe, hwork, hgone, hframe⟩
  exact fun m n hm => hm.trans (List.prefix_append m [n])

/-- An emptied folder leaves a tree plain. -/
theorem isPlain_eraseBelow {t : FileTree} (ht : t.IsPlain) (l : Location)
    (hkept : ¬ l <+: t.workingFolder) : (t.eraseBelow l).IsPlain := by
  refine ht.of_cut (fun m => l <+: m ∧ m ≠ l) (nodup_filter t _ ht.nodup) rfl ?_
    (fun h => hkept h.1) ?_ ?_
  · rintro m n ⟨hm, -⟩
    refine ⟨hm.trans (List.prefix_append m [n]), ?_⟩
    intro heq
    have := hm.length_le
    rw [← heq, List.length_append, List.length_singleton] at this
    omega
  · intro m hm
    rw [get?_eraseBelow, if_pos hm]
  · intro m hm
    rw [get?_eraseBelow, if_neg hm]

section

variable {t : FileTree} (ht : t.IsPlain) (p : Path) (front : List String) (s : String)
  (hsteps : p.steps = front ++ [s]) (hs : IsFileName s) (hslash : p.endsInSlash = false)
  (hdots : ".." ∉ p.steps) (hkept : ¬ t.location p <+: t.workingFolder)
include ht hsteps hs hslash hdots

/-- An entry whose path is not too long is found at its location. -/
theorem place?_of_isSome (hsize : p.text.utf8ByteSize ≤ maxPathSize)
    (hsome : (t.get? (t.location p)).isSome) : t.place? p = some (t.location p) := by
  obtain ⟨entry, hentry⟩ := Option.isSome_iff_exists.mp hsome
  refine place?_of_get? ht p hdots ?_ hsize entry hentry (Or.inr ⟨hslash, ?_⟩)
  · intro hempty
    have hnil : p.steps = [] := by
      rw [show p = ⟨""⟩ from congrArg Path.mk hempty]
      rfl
    rw [hsteps] at hnil
    simp at hnil
  · rw [hsteps, List.getLast?_concat]
    exact fun heq => hs.ne_dot (Option.some.inj heq)

/-- What is read at a path that ends in a name. -/
theorem readText_iff_location (content : String) :
    t.readText p = .ok content ↔ p.text.utf8ByteSize ≤ maxPathSize ∧
      t.get? (t.location p) = some (.file (.text content)) := by
  rw [readText_eq_ok_iff ht]
  constructor
  · rintro ⟨l, hplace, hfile⟩
    have hsize := ((place?_eq_some_iff_walk t _ l).mp hplace).2.1
    rw [place?_eq_location ht _ hdots l hplace] at hfile
    exact ⟨hsize, hfile⟩
  · rintro ⟨hsize, hfile⟩
    exact ⟨_, place?_of_isSome ht p front s hsteps hs hslash hdots hsize (by rw [hfile]; rfl),
      hfile⟩

include hkept

/-- A folder is removed with all that is in it. -/
theorem removeFolder_of_get? (hsize : p.text.utf8ByteSize ≤ maxPathSize)
    (hfolder : t.get? (t.location p) = some .folder) :
    ∃ t', t.removeFolder p = (.ok (), t') ∧ Removed t t' (t.location p) := by
  have hplace := place?_of_isSome ht p front s hsteps hs hslash hdots hsize (by rw [hfolder]; rfl)
  have hlocate := (locate_eq_ok_iff ht false p _).mpr ⟨hplace, by rw [hfolder]; rfl⟩
  generalize hl : t.location p = l at hplace hlocate hfolder hkept
  have hne : l ≠ [] := by
    rintro rfl
    exact hkept List.nil_prefix
  -- The folder is empty and still there when it is removed itself.
  have hemptied := isPlain_eraseBelow ht l hkept
  have hlocation : (t.eraseBelow l).location p = l := hl
  have hstill : (t.eraseBelow l).get? l = some .folder := by
    rw [get?_eraseBelow, if_neg (fun h => h.2 rfl), hfolder]
  have hplace' := place?_of_isSome hemptied p front s hsteps hs hslash hdots hsize
    (by rw [hlocation, hstill]; rfl)
  rw [hlocation] at hplace'
  have hresolve : (t.eraseBelow l).resolveSteps false p p.steps = .ok (.found l) := by
    rcases (place?_eq_some_iff _ p l).mp hplace' with hfound | ⟨folder, n, heq, hmissing⟩
    · rw [resolve, Path.stepsToFolder, hslash, if_neg Bool.false_ne_true, List.append_nil,
        ← resolveSteps_follow hemptied false] at hfound
      exact hfound
    · have hnone := get?_of_resolveSteps_missing _ true p _ folder n hmissing
      rw [← heq, hstill] at hnone
      cases hnone
  have hremove : (t.eraseBelow l).removeEmptyFolder p = .ok ((t.eraseBelow l).erase l) := by
    rw [removeEmptyFolder, hresolve, hsteps, List.getLast?_concat]
    split
    · next h => cases h
    · next h => exact absurd (Option.some.inj h) hs.ne_dot
    · next h => exact absurd (Option.some.inj h) hs.ne_dots
    · simp [bind, Except.bind, hstill, pure, Except.pure]
  have hget : ∀ m, ((t.eraseBelow l).erase l).get? m = if l <+: m then none else t.get? m := by
    intro m
    by_cases hm : m = l
    · rw [hm, get?_erase_self _ hne, if_pos (List.prefix_refl l)]
    · rw [get?_erase_of_ne _ hm, get?_eraseBelow]
      simp [hm]
  exact ⟨(t.eraseBelow l).erase l, by simp [removeFolder, hlocate, hfolder, hremove],
    removed_of_get? ht l hkept (nodup_filter _ _ (nodup_filter t _ ht.nodup)) rfl hget⟩

/-- A file is removed alone. -/
theorem removeFile_of_get? (hsize : p.text.utf8ByteSize ≤ maxPathSize) (content : Content)
    (hfile : t.get? (t.location p) = some (.file content)) :
    ∃ t', t.removeFile p = .ok t' ∧ Removed t t' (t.location p) := by
  have hplace := place?_of_isSome ht p front s hsteps hs hslash hdots hsize (by rw [hfile]; rfl)
  have hlocate := (locate_eq_ok_iff ht false p _).mpr ⟨hplace, by rw [hfile]; rfl⟩
  generalize t.location p = l at hplace hlocate hfile hkept
  have hne : l ≠ [] := by
    rintro rfl
    exact hkept List.nil_prefix
  have hget : ∀ m, (t.erase l).get? m = if l <+: m then none else t.get? m := by
    intro m
    by_cases hm : m = l
    · rw [hm, get?_erase_self _ hne, if_pos (List.prefix_refl l)]
    · rw [get?_erase_of_ne _ hm]
      split
      · next hbelow =>
          -- There is nothing below a file.
          obtain ⟨rest, rfl⟩ := hbelow
          have hrest : rest ≠ [] := by
            rintro rfl
            exact hm (List.append_nil l)
          by_contra hsome
          have := ht.folder_of_prefix l rest hrest (Option.isSome_iff_ne_none.mpr hsome)
          rw [hfile] at this
          cases this
      · rfl
  exact ⟨t.erase l, by simp [removeFile, hlocate, bind, Except.bind, hfile, pure, Except.pure],
    removed_of_get? ht l hkept (nodup_filter t _ ht.nodup) rfl hget⟩

/-- What a removal does: it leaves nothing at the location of its path, or
    there is nothing to remove. -/
theorem delete_cases (operation : String) :
    (∃ t', t.delete p operation = (.ok (), t') ∧ Removed t t' (t.location p)) ∨
      ((∃ e, t.delete p operation = (.error e, t)) ∧
        (p.text.utf8ByteSize ≤ maxPathSize → t.get? (t.location p) = none)) := by
  by_cases hthere : p.text.utf8ByteSize ≤ maxPathSize ∧ (t.get? (t.location p)).isSome
  · left
    obtain ⟨hsize, hsome⟩ := hthere
    have hplace := place?_of_isSome ht p front s hsteps hs hslash hdots hsize hsome
    obtain ⟨entry, hentry⟩ := Option.isSome_iff_exists.mp hsome
    cases entry with
    | folder =>
        obtain ⟨t', heq, hremoved⟩ :=
          removeFolder_of_get? ht p front s hsteps hs hslash hdots hkept hsize hentry
        have hfolder : t.isFolder p = true := (isFolder_iff ht p).mpr ⟨_, hplace, hentry⟩
        exact ⟨t', by simp [delete, remove, hfolder, heq, Except.mapError], hremoved⟩
    | file content =>
        obtain ⟨t', heq, hremoved⟩ :=
          removeFile_of_get? ht p front s hsteps hs hslash hdots hkept hsize content hentry
        have hfolder : t.isFolder p = false := by
          rw [← Bool.not_eq_true, isFolder_iff ht p]
          rintro ⟨l, hl, hget⟩
          rw [hplace, Option.some.injEq] at hl
          rw [← hl, hentry] at hget
          cases hget
        exact ⟨t', by simp [delete, remove, hfolder, heq, Except.mapError], hremoved⟩
    | link target => exact absurd hentry (ht.unlinked _ _)
  · -- Either way no walk along the path ends at an entry.
    right
    have hnothing : ∀ l, t.place? p = some l → t.get? l = none := by
      intro l hl
      by_contra hsome
      have hsize := ((place?_eq_some_iff_walk t p l).mp hl).2.1
      rw [place?_eq_location ht p hdots l hl] at hsome
      exact hthere ⟨hsize, Option.isSome_iff_ne_none.mpr hsome⟩
    have hfolder : t.isFolder p = false := by
      rw [← Bool.not_eq_true, isFolder_iff ht p]
      rintro ⟨l, hl, hget⟩
      rw [hnothing l hl] at hget
      cases hget
    refine ⟨?_, fun hsize => ?_⟩
    · cases hlocate : t.locate false p with
      | error e =>
          exact ⟨e.toError operation, by simp [delete, remove, hfolder, removeFile, hlocate, bind,
            Except.bind, Except.mapError]⟩
      | ok l =>
          obtain ⟨hl, hsome⟩ := (locate_eq_ok_iff ht false p l).mp hlocate
          rw [hnothing l hl] at hsome
          cases hsome
    · by_contra hsome
      exact hthere ⟨hsize, Option.isSome_iff_ne_none.mpr hsome⟩

end

end SchemaRename.FileTree
