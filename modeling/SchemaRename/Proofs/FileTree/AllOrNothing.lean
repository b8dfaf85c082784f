import SchemaRename.Proofs.FileTree.Siblings

/-!
# A File Changes or Nothing Does

What a replacement leaves, location by location.

A replacement is meant to change a file and nothing else, or nothing at all,
and it nearly does. The temporary file is written under a name that is not
looked at before, so a file that has this name is overwritten, and it is gone
afterwards: moved away with the new content if the replacement succeeds,
removed as a leftover if it fails. A folder under the temporary name stops the
replacement and stays.

That is the only exception. Which location it is about can be told from the
place of the path: it is the sibling under the longer name.

## Main definitions

* `FileTree.withoutFile`: What a tree holds without the file at some place.
* `FileTree.withoutTemporary`: The same, for the place of the temporary file.
* `crowdedFolder`, `crowdedFiles`, `crowdedByFolder`: Folders where the
  temporary name is taken.

## Theorems

* `get?_erase_insert`: A temporary file that comes and goes.
* `replaceThrough_error`, `replaceThrough_ok`: The two ways a replacement ends.
* `writeAtomic_all_or_nothing`: What a replacement leaves.
* `writeAtomic_loses_sibling`: A file that is lost.
-/

namespace SchemaRename.FileTree

/-- Whether a location has a file. -/
def holdsFile (t : FileTree) (m : Location) : Bool :=
  match t.get? m with
  | some (.file _) => true
  | _ => false

/-- What is at a location once the file at some place, if there is one, is
    gone. -/
def withoutFile (t : FileTree) (place : Option Location) (m : Location) : Option Entry :=
  if place = some m ∧ t.holdsFile m then none else t.get? m

/-- What is at a location once the file under the temporary name of a
    replacement, if there is one, is gone. -/
def withoutTemporary (t : FileTree) (p : Path) (m : Location) : Option Entry :=
  t.withoutFile (t.temporaryPlace? p) m

section

variable {t : FileTree} (ht : t.IsPlain)
include ht

omit ht in
theorem withoutFile_of_folder (place : Option Location)
    (h : ∀ l, place = some l → t.get? l = some .folder) (m : Location) :
    t.withoutFile place m = t.get? m := by
  rw [withoutFile, if_neg]
  rintro ⟨hplace, hfile⟩
  rw [holdsFile, h m hplace] at hfile
  cases hfile

/-- A temporary file that was written and is gone again takes along the file
    that was there. -/
theorem get?_erase_insert (l : Location) (hl : t.get? l ≠ some .folder) (content : Content)
    (m : Location) :
    ((t.insert l (.file content)).erase l).get? m = t.withoutFile (some l) m := by
  have hne := ne_nil_of_get?_ne t hl
  rw [withoutFile]
  by_cases hm : m = l
  · subst hm
    rw [get?_erase_self _ hne]
    cases hentry : t.get? m with
    | none => simp
    | some entry =>
        cases entry with
        | folder => exact absurd hentry hl
        | file c => simp [holdsFile, hentry]
        | link target => exact absurd hentry (ht.unlinked m target)
  · rw [get?_erase_of_ne _ hm, get?_insert_of_ne t hm, if_neg]
    exact fun h => hm (Option.some.inj h.1).symm

/-- A replacement that fails leaves everything but the file under the temporary
    name. -/
theorem replaceThrough_error (temporary target : Path) (text operation : String) (e : Error)
    (t' : FileTree) (h : t.replaceThrough temporary target text operation = (.error e, t'))
    (m : Location) : t'.get? m = t.withoutFile (t.place? temporary) m := by
  rcases replaceThrough_shapes ht temporary target text operation with
    ⟨e', heq, hfolder⟩ | ⟨l, hplace, hl, ⟨e', heq⟩ | ⟨goal, -, -, heq⟩⟩
  · cases heq.symm.trans h
    exact (withoutFile_of_folder _ hfolder m).symm
  · cases heq.symm.trans h
    rw [hplace]
    exact get?_erase_insert ht l hl _ m
  · cases heq.symm.trans h

/-- A replacement that succeeds puts the text at the place of the target, and
    leaves everything else but the file under the temporary name. -/
theorem replaceThrough_ok (temporary target : Path) (text operation : String) (t' : FileTree)
    (h : t.replaceThrough temporary target text operation = (.ok (), t')) :
    ∃ l, t.place? target = some l ∧ t.get? l ≠ some .folder ∧
      ∀ m, t'.get? m =
        if m = l then some (.file (.text text)) else t.withoutFile (t.place? temporary) m := by
  rcases replaceThrough_shapes ht temporary target text operation with
    ⟨e, heq, -⟩ | ⟨l, hplace, hl, ⟨e, heq⟩ | ⟨goal, hgoal, hgoalfolder, heq⟩⟩
  · cases heq.symm.trans h
  · cases heq.symm.trans h
  · cases heq.symm.trans h
    refine ⟨goal, hgoal, hgoalfolder, fun m => ?_⟩
    by_cases hm : m = goal
    · rw [if_pos hm, hm, get?_insert_self _ (ne_nil_of_get?_ne t hgoalfolder)]
    · rw [if_neg hm, get?_insert_of_ne _ hm, hplace]
      exact get?_erase_insert ht l hl _ m

theorem writeAtomic_error (p : Path) (text operation : String) (e : Error) (t' : FileTree)
    (h : t.writeAtomic p text operation = (.error e, t')) (m : Location) :
    t'.get? m = t.withoutTemporary p m := by
  rw [writeAtomic_eq] at h
  rw [withoutTemporary, temporaryPlace?]
  cases htemporary : t.temporaryPath? p with
  | none =>
      rw [htemporary] at h
      cases h
      exact (withoutFile_of_folder _ (by simp) m).symm
  | some temporary =>
      rw [htemporary] at h
      exact replaceThrough_error ht temporary _ text operation e t' h m

theorem writeAtomic_done (p : Path) (text operation : String) (t' : FileTree)
    (h : t.writeAtomic p text operation = (.ok (), t')) :
    ∃ folder name, t.place? p = some (folder ++ [name]) ∧
      ∀ m, t'.get? m =
        if m = folder ++ [name] then some (.file (.text text)) else t.withoutTemporary p m := by
  rw [writeAtomic_eq] at h
  cases htemporary : t.temporaryPath? p with
  | none =>
      rw [htemporary] at h
      cases h
  | some temporary =>
      rw [htemporary] at h
      obtain ⟨l, hl, hfolder, hget⟩ := replaceThrough_ok ht temporary _ text operation t' h
      have hplace := place?_writeTarget ht p l hl
      obtain ⟨folder, name, rfl, -⟩ := exists_of_place? ht p l hplace hfolder
      refine ⟨folder, name, hplace, fun m => ?_⟩
      rw [withoutTemporary, temporaryPlace?, htemporary]
      exact hget m

end

/-- A replacement that fails changes nothing and one that succeeds changes the
    file, except that a file with the name of the temporary file is gone. A
    folder with that name stays, and nothing is replaced. -/
theorem writeAtomic_all_or_nothing (t : FileTree) (ht : t.IsPlain) (p : Path)
    (text operation : String) :
    (∀ e t', t.writeAtomic p text operation = (.error e, t') →
      ∀ m, t'.get? m = t.withoutTemporary p m) ∧
    (∀ t', t.writeAtomic p text operation = (.ok (), t') →
      t'.readText p = .ok text ∧ ∃ folder name, t.place? p = some (folder ++ [name]) ∧
        ∀ m, m ≠ folder ++ [name] → t'.get? m = t.withoutTemporary p m) ∧
    (∀ m, t.temporaryPlace? p = some m → t.get? m = some .folder →
      ∃ e, t.writeAtomic p text operation = (.error e, t)) ∧
    ∀ folder name, t.place? p = some (folder ++ [name]) →
      (t.get? (folder ++ [name ++ temporarySuffix]) = some .folder →
        ∃ e, t.writeAtomic p text operation = (.error e, t)) ∧
      ∀ m, m ≠ folder ++ [name ++ temporarySuffix] → t.withoutTemporary p m = t.get? m := by
  refine ⟨fun e t' h => writeAtomic_error ht p text operation e t' h, fun t' h => ?_,
    fun m hm hfolder => ?_, fun folder name hplace => ⟨fun hfolder => ?_, fun m hm => ?_⟩⟩
  · obtain ⟨folder, name, hplace, hget⟩ := writeAtomic_done ht p text operation t' h
    refine ⟨?_, folder, name, hplace, fun m hm => by rw [hget, if_neg hm]⟩
    rcases writeAtomic_cases ht p text operation with ⟨e, t'', heq, -⟩ | ⟨l, t'', heq, hl, hdone⟩
    · cases heq.symm.trans h
    · cases heq.symm.trans h
      rw [readText_eq_ok_iff hdone.plain, place?_of_sameFolders ht hdone.plain hdone.folders]
      exact ⟨l, hl, hdone.holds⟩
  · refine writeAtomic_blocked ht p text operation fun m' hm' => ?_
    rwa [← Option.some.inj (hm.symm.trans hm')]
  · refine writeAtomic_blocked ht p text operation fun m hm => ?_
    rwa [eq_sibling_of_temporaryPlace? ht p folder name hplace m hm]
  · rw [withoutTemporary, withoutFile, if_neg]
    exact fun h => hm (eq_sibling_of_temporaryPlace? ht p folder name hplace m h.1)

/-- A folder in which an entry and its temporary name are both taken. -/
def crowdedFolder (entry sibling : Entry) : FileTree :=
  { entries := [(["A.cls"], entry), (["A.cls.tmp"], sibling),
      (["B.cls"], .file (.text "other"))] }

/-- The folder with two files under these names. -/
def crowdedFiles : FileTree :=
  crowdedFolder (.file (.text "old")) (.file (.text "keep"))

/-- The folder with a folder under the temporary name. -/
def crowdedByFolder : FileTree :=
  crowdedFolder (.file (.text "old")) .folder

theorem writeAtomic_all_or_nothing_crowded :
    crowdedFiles.IsPlain ∧ crowdedByFolder.IsPlain ∧
      (∃ t', crowdedFiles.writeAtomic ⟨"A.cls"⟩ "new" "write" = (.ok (), t') ∧
        t'.readText ⟨"A.cls"⟩ = .ok "new" ∧
        ∀ m, m ≠ ["A.cls"] → m ≠ ["A.cls.tmp"] → t'.get? m = crowdedFiles.get? m) ∧
      ∃ e, crowdedByFolder.writeAtomic ⟨"A.cls"⟩ "new" "write" = (.error e, crowdedByFolder) := by
  have hplain : crowdedFiles.IsPlain := isPlain_of_check _ (by decide +kernel)
  have hplain' : crowdedByFolder.IsPlain := isPlain_of_check _ (by decide +kernel)
  have hplace : crowdedFiles.place? ⟨"A.cls"⟩ = some ([] ++ ["A.cls"]) := by decide +kernel
  have hplace' : crowdedByFolder.place? ⟨"A.cls"⟩ = some ([] ++ ["A.cls"]) := by decide +kernel
  have hok : (crowdedFiles.writeAtomic ⟨"A.cls"⟩ "new" "write").1 = .ok () := by decide +kernel
  obtain ⟨-, hdone, -, hfiles⟩ := writeAtomic_all_or_nothing _ hplain ⟨"A.cls"⟩ "new" "write"
  obtain ⟨-, -, -, hfolder⟩ := writeAtomic_all_or_nothing _ hplain' ⟨"A.cls"⟩ "new" "write"
  obtain ⟨hread, folder, name, hfound, hframe⟩ := hdone _ (Prod.ext hok rfl)
  refine ⟨hplain, hplain', ⟨_, Prod.ext hok rfl, hread, fun m hm htemporary => ?_⟩, ?_⟩
  · rw [hframe m (Option.some.inj (hplace.symm.trans hfound) ▸ hm)]
    exact (hfiles [] "A.cls" hplace).2 m htemporary
  · exact (hfolder [] "A.cls" hplace').1 (by decide +kernel)

/-- A file with the temporary name is gone when the replacement fails, too. -/
example : ((crowdedFolder .folder (.file (.text "keep"))).writeAtomic ⟨"A.cls"⟩ "new"
    "write").2.get? ["A.cls.tmp"] = none := by
  decide +kernel

/-- The sibling with the temporary name is lost: it is not so that a
    replacement changes its file and nothing else, or nothing. -/
theorem writeAtomic_loses_sibling :
    ¬ ∀ (t : FileTree) (p : Path) (text operation : String), t.IsPlain →
      (∀ t', t.writeAtomic p text operation = (.ok (), t') →
        t'.readText p = .ok text ∧ ∃ l, t.place? p = some l ∧
          ∀ m, m ≠ l → t'.get? m = t.get? m) ∧
      (∀ e t', t.writeAtomic p text operation = (.error e, t') → ∀ m, t'.get? m = t.get? m) := by
  intro h
  have hok : (crowdedFiles.writeAtomic ⟨"A.cls"⟩ "new" "write").1 = .ok () := by decide +kernel
  obtain ⟨hdone, -⟩ := h _ ⟨"A.cls"⟩ "new" "write"
    (isPlain_of_check crowdedFiles (by decide +kernel))
  obtain ⟨-, l, hl, hframe⟩ := hdone _ (Prod.ext hok rfl)
  have hplace : crowdedFiles.place? ⟨"A.cls"⟩ = some ["A.cls"] := by decide +kernel
  obtain rfl : ["A.cls"] = l := Option.some.inj (hplace.symm.trans hl)
  exact absurd (hframe ["A.cls.tmp"] (by decide)) (by decide +kernel)

end SchemaRename.FileTree
