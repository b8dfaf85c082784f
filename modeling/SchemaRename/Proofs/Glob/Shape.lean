import SchemaRename.Proofs.FileTree.Places
import SchemaRename.Fetch

/-!
# Trees of One Shape

What a search finds depends on which entries there are, and not on what is in
them.

A search looks into folders, asks whether a path is there, and never opens a
file. So two trees with the same entries, the same of them folders, are the
same to every pattern, and an expression selects the same files in both. That
holds of all patterns, wherever their double dots and their stars lead.

## Main definitions

* `FileTree.SameShape`: Trees that differ in the content of their files only.

## Theorems

* `list_sameShape`, `isPresent_sameShape`: What a search asks of a tree.
* `Glob.find_sameShape`: What it finds.
* `expandExpression_sameShape`: The files of an expression.
-/

namespace SchemaRename

namespace FileTree

/-- Trees with the same entries, the same of them folders. -/
structure SameShape (t t' : FileTree) : Prop extends SameFolders t t' where
  present : ∀ m, (t'.get? m).isSome ↔ (t.get? m).isSome

theorem SameShape.refl (t : FileTree) : SameShape t t :=
  ⟨SameFolders.refl t, fun _ => Iff.rfl⟩

theorem SameShape.trans {t t' t'' : FileTree} (h : SameShape t t') (h' : SameShape t' t'') :
    SameShape t t'' :=
  ⟨h.toSameFolders.trans h'.toSameFolders, fun m => (h'.present m).trans (h.present m)⟩

section

variable {t t' : FileTree} (ht : t.IsPlain) (ht' : t'.IsPlain) (h : SameShape t t') (p : Path)
include ht ht' h

theorem isPresent_sameShape : t'.isPresent p = t.isPresent p := by
  have hsame : ∀ follow, (t'.entryAt? follow p).isSome = (t.entryAt? follow p).isSome := by
    intro follow
    rw [entryAt?_eq ht', entryAt?_eq ht, place?_of_sameFolders ht ht' h.toSameFolders]
    cases t.place? p with
    | none => rfl
    | some l => exact Bool.eq_iff_iff.mpr (h.present l)
  rw [isPresent, isPresent, exists?, exists?, hsame, hsame]

theorem isFile_sameShape : t'.isFile p = t.isFile p := by
  -- In a plain tree a file is an entry that is no folder.
  have hfile : ∀ {u : FileTree}, u.IsPlain →
      (u.isFile p = true ↔ ∃ l, u.place? p = some l ∧ (u.get? l).isSome ∧
        u.get? l ≠ some .folder) := by
    intro u hu
    rw [isFile_iff hu]
    refine exists_congr fun l => and_congr_right fun _ => ?_
    cases hl : u.get? l with
    | none => simp
    | some entry =>
        cases entry with
        | folder => simp
        | file content => simp
        | link target => exact absurd hl (hu.unlinked l target)
  rw [Bool.eq_iff_iff, hfile ht', hfile ht, place?_of_sameFolders ht ht' h.toSameFolders]
  simp only [h.present, ne_eq, h.folder_iff]

theorem list_sameShape (hfolder : t.isFolder p = true) : t'.list p = t.list p := by
  obtain ⟨l, hlocate, hl⟩ := exists_of_isFolder t p hfolder
  have hlocate' : t'.locate true p = .ok l := by
    rw [locate_eq_ok_iff ht', place?_of_sameFolders ht ht' h.toSameFolders, h.present]
    exact (locate_eq_ok_iff ht true p l).mp hlocate
  have hchildren : t'.children l = t.children l :=
    children_eq t t' ht.nodup ht'.nodup l l fun n => h.present (l ++ [n])
  simp only [list, hlocate, hlocate', bind, Except.bind, hl, (h.folder_iff l).mpr hl, hchildren]

end

end FileTree

open FileTree

section

variable {t t' : FileTree} (ht : t.IsPlain) (ht' : t'.IsPlain) (h : SameShape t t')
include ht ht' h

namespace Glob

/-- The three searches with the same fuel, which call each other with less. -/
theorem search_sameShape (foldersOnly : Bool) (fuel : Nat) (steps : List Step) (p : Path) :
    below t' foldersOnly fuel steps p = below t foldersOnly fuel steps p ∧
      reached t' foldersOnly fuel steps p = reached t foldersOnly fuel steps p ∧
      tried t' foldersOnly fuel steps p = tried t foldersOnly fuel steps p := by
  have hfolder : ∀ p, t'.isFolder p = t.isFolder p :=
    isFolder_sameFolders ht ht' h.toSameFolders
  have hpresent : ∀ p, t'.isPresent p = t.isPresent p := isPresent_sameShape ht ht' h
  induction fuel generalizing steps p with
  | zero =>
      cases steps with
      | nil => simp only [below, reached, tried, hfolder, and_self]
      | cons step steps => simp only [below, reached, tried, and_self]
  | succ fuel ih =>
      have hbelow := fun steps p => (ih steps p).1
      have hreached := fun steps p => (ih steps p).2.1
      have htried := fun steps p => (ih steps p).2.2
      cases steps with
      | nil => simp only [below, reached, tried, hfolder, and_self]
      | cons step steps =>
          refine ⟨?_, ?_, ?_⟩
          · simp only [below, hfolder, hpresent, hreached, htried]
            -- A path is listed only if it leads to a folder, and then it leads to the same one.
            cases hp : t.isFolder p with
            | false => rfl
            | true => rw [list_sameShape ht ht' h p hp]
          · simp only [reached, hbelow]
          · simp only [tried, hfolder, hbelow, hreached]

/-- A pattern finds the same paths in trees of one shape. -/
theorem find_sameShape (pattern : String) : find t' pattern = find t pattern := by
  unfold find
  cases search pattern with
  | error fault => rfl
  | ok s => exact congrArg Except.ok (search_sameShape ht ht' h _ _ _ _).1

end Glob

/-- An expression selects the same files in trees of one shape. -/
theorem expandExpression_sameShape (input : Path) (expression : String) :
    expandExpression t' input expression = expandExpression t input expression := by
  have hfile : t'.isFile = t.isFile := funext (isFile_sameShape ht ht' h)
  unfold expandExpression
  rw [Glob.find_sameShape ht ht' h, hfile]

end

end SchemaRename
