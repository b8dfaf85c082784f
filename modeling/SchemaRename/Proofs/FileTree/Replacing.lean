import SchemaRename.FileTree.AtomicWrite
import SchemaRename.Proofs.FileTree.Places

/-!
# What Replacing a File Leaves

The tree after a file has been replaced, or could not be.

The content goes to a temporary file first, and the temporary file is gone at
the end, whatever happens. So a replacement that succeeds puts the content at
the place of its path, one that fails puts nothing anywhere, and neither
changes anything else, with one exception: a file that had the temporary name
before is lost.

Folders stay what they are. A path that led to a place before leads there
afterwards, and replacements can be looked at one after the other.

## Main definitions

* `FileTree.IsTemporary`: Locations with a temporary name.
* `FileTree.temporaryPath?`, `FileTree.temporaryPlace?`: The temporary file of a
  replacement, and where it goes.
* `FileTree.Tidied`: A tree in which some temporary files may be gone.
* `FileTree.Replaced`: A tree in which a location holds a text now.

## Theorems

* `rename_ok`: What moving an entry does.
* `replaceThrough_shapes`: The trees that a replacement can leave.
* `replaceThrough_cases`, `writeAtomic_cases`: What a replacement does.
-/

namespace SchemaRename

namespace Path

theorem steps_path (l : Location) (h : ∀ n ∈ l, IsFileName n) : l.path.steps = l := by
  have hslash : l.path.steps = (Path.mk ("/".intercalate l)).steps := by
    have hsplit := steps_slash "" ("/".intercalate l)
    rw [String.empty_append, steps_of_noSlash "" (by simp)] at hsplit
    exact hsplit
  rw [hslash, steps, pieces, String.toList_intercalate]
  by_cases hnil : l = []
  · subst hnil
    rfl
  · have hsplit : (['/'].intercalate (l.map String.toList)).splitOn '/' = l.map String.toList := by
      refine List.splitOn_intercalate '/' ?_ (by simpa using hnil)
      intro s hs
      obtain ⟨n, hn, rfl⟩ := List.mem_map.mp hs
      exact (h n hn).noSlash
    rw [show ("/" : String).toList = ['/'] from rfl, hsplit, List.map_map]
    simp only [Function.comp_def, String.ofList_toList, List.map_id']
    rw [List.filter_eq_self]
    intro n hn
    simpa using (h n hn).ne_empty

theorem isAbsolute_path (l : Location) : l.path.isAbsolute = true := by
  rw [isAbsolute, Location.path]
  simp [String.toList_append]

theorem isFileName_of_fileName? (p : Path) (name : String) (h : p.fileName? = some name) :
    IsFileName name := by
  rw [fileName?] at h
  split at h
  · next s hlast =>
      cases h
      exact isFileName_of_mem_components p name (List.mem_of_getLast? hlast)
  · cases h

end Path

/-- The name of a temporary file is a name like any other. -/
theorem isFileName_temporary (name : String) (h : IsFileName name) :
    IsFileName (name ++ temporarySuffix) :=
  isFileName_append h.noSlash (by decide) (by decide)

namespace FileTree

/-- A location with a temporary name. -/
def IsTemporary (l : Location) : Prop :=
  ∃ folder name, l = folder ++ [name ++ temporarySuffix]

/-- The temporary file that a replacement goes through. -/
def temporaryPath? (t : FileTree) (p : Path) : Option Path :=
  match (t.writeTarget p).parent?, (t.writeTarget p).fileName? with
  | some parent, some name => some (parent.join (name ++ temporarySuffix))
  | _, _ => none

/-- The place of the temporary file that a replacement goes through. -/
def temporaryPlace? (t : FileTree) (p : Path) : Option Location :=
  (t.temporaryPath? p).bind t.place?

/-- A replacement goes through its temporary file, if its path has a name. -/
theorem writeAtomic_eq (t : FileTree) (p : Path) (text operation : String) :
    t.writeAtomic p text operation =
      match t.temporaryPath? p with
      | some temporary => t.replaceThrough temporary (t.writeTarget p) text operation
      | none =>
        (.error (.of (.io ("Invalid path: " ++ (t.writeTarget p).text) (some operation))), t) := by
  rw [writeAtomic, temporaryPath?]
  cases (t.writeTarget p).parent? with
  | none => rfl
  | some parent => cases (t.writeTarget p).fileName? <;> rfl

/-- A tree in which some temporary files may be gone, and nothing else has
    changed. -/
structure Tidied (t t' : FileTree) : Prop where
  plain : t'.IsPlain
  folders : SameFolders t t'
  frame : ∀ m, t'.get? m = t.get? m ∨ (IsTemporary m ∧ t'.get? m = none)

/-- A tree in which a location holds a text now and some temporary files may be
    gone. -/
structure Replaced (t t' : FileTree) (l : Location) (text : String) : Prop where
  plain : t'.IsPlain
  folders : SameFolders t t'
  holds : t'.get? l = some (.file (.text text))
  frame : ∀ m, m ≠ l → t'.get? m = t.get? m ∨ (IsTemporary m ∧ t'.get? m = none)

section

variable {t : FileTree} (ht : t.IsPlain)
include ht

/-- The place that a write goes to is the place of its path. -/
theorem place?_writeTarget (p : Path) (l : Location)
    (h : t.place? (t.writeTarget p) = some l) : t.place? p = some l := by
  rw [writeTarget, canonical?] at h
  cases hlocate : t.locate true p with
  | error e =>
      rw [hlocate] at h
      exact h
  | ok found =>
      rw [hlocate] at h
      simp only [Except.toOption] at h
      obtain ⟨hplace, hsome⟩ := (locate_eq_ok_iff ht true p found).mp hlocate
      have hnames : ∀ n ∈ found, IsFileName n := fun n hn =>
        isFileName_of_isEntryName (ht.named found hsome n hn)
      have hsteps := Path.steps_path found hnames
      have hdots : ".." ∉ found.path.steps := by
        rw [hsteps]
        exact fun hmem => (hnames _ hmem).ne_dots rfl
      have hl := place?_eq_location ht found.path hdots l h
      rw [location, origin, Path.isAbsolute_path, if_pos rfl, hsteps, List.nil_append,
        List.filter_eq_self.mpr (fun n hn => by simpa using (hnames n hn).ne_dot)] at hl
      rw [hplace, hl]

/-- What moving an entry does. -/
theorem rename_ok (source target : Path) (t' : FileTree)
    (h : t.rename source target = .ok t') :
    ∃ here entry l, t.place? source = some here ∧ t.get? here = some entry ∧
      t.place? target = some l ∧ t.get? l ≠ some .folder ∧
      t' = (t.erase here).insert l entry := by
  rw [rename] at h
  cases hlocate : t.locate false source with
  | error e => simp [hlocate, bind, Except.bind] at h
  | ok here =>
      obtain ⟨hplace, -⟩ := (locate_eq_ok_iff ht false source here).mp hlocate
      simp only [hlocate, bind, Except.bind] at h
      cases hentry : t.get? here with
      | none => simp [hentry, throw, throwThe, MonadExceptOf.throw] at h
      | some entry =>
          simp only [hentry] at h
          cases hres : t.resolveSteps false target target.steps with
          | error e => simp [hres] at h
          | ok place =>
              simp only [hres] at h
              cases hslash : target.endsInSlash with
              | true =>
                  cases place <;> simp [hslash, throw, throwThe, MonadExceptOf.throw] at h
              | false =>
                  -- Without a slash at its end, a path is walked as it is read.
                  have hresolve : t.resolve true target = .ok place := by
                    rw [resolve, Path.stepsToFolder, hslash, if_neg Bool.false_ne_true,
                      List.append_nil, ← resolveSteps_follow ht false]
                    exact hres
                  simp only [hslash, Bool.false_eq_true, if_false] at h
                  cases place with
                  | missing folder n =>
                      have hnone := get?_of_resolveSteps_missing t true target _ folder n hresolve
                      refine ⟨here, entry, folder ++ [n], hplace, hentry,
                        (place?_eq_some_iff t target _).mpr (Or.inr ⟨folder, n, rfl, hresolve⟩),
                        by simp [hnone], ?_⟩
                      simpa [pure, Except.pure] using h.symm
                  | found l =>
                      have hne : t.get? l ≠ some .folder := by
                        intro hfolder
                        simp [hfolder, throw, throwThe, MonadExceptOf.throw] at h
                      refine ⟨here, entry, l, hplace, hentry,
                        (place?_eq_some_iff t target l).mpr (Or.inl hresolve), hne, ?_⟩
                      cases hl : t.get? l with
                      | none => simpa [hl, pure, Except.pure] using h.symm
                      | some other =>
                          cases other with
                          | folder => exact absurd hl hne
                          | file content => simpa [hl, pure, Except.pure] using h.symm
                          | link goal => simpa [hl, pure, Except.pure] using h.symm

/-- A plain tree with one more file, or with another one in its place. -/
theorem isPlain_insert (p : Path) (l : Location) (content : Content)
    (hplace : t.place? p = some l) (hl : t.get? l ≠ some .folder) :
    (t.insert l (.file content)).IsPlain ∧ SameFolders t (t.insert l (.file content)) := by
  have hne := ne_nil_of_get?_ne t hl
  have hself := get?_insert_self t hne (.file content)
  have hsame : SameFolders t (t.insert l (.file content)) := by
    refine ⟨insert_workingFolder t l _, ?_⟩
    intro m
    by_cases hm : m = l
    · rw [hm, hself]
      simp [hl]
    · rw [get?_insert_of_ne t hm]
  refine ⟨ht.of_files hsame (nodup_insert t l _ ht.nodup) ?_, hsame⟩
  intro m
  by_cases hm : m = l
  · rw [hm]
    exact Or.inr (Or.inr ⟨⟨content, hself⟩, exists_of_place? ht p l hplace hl⟩)
  · exact Or.inl (get?_insert_of_ne t hm _)

/-- A plain tree without a file. -/
theorem isPlain_erase (l : Location) (hl : t.get? l ≠ some .folder) :
    (t.erase l).IsPlain ∧ SameFolders t (t.erase l) := by
  have hne := ne_nil_of_get?_ne t hl
  have hself := get?_erase_self t hne
  have hsame : SameFolders t (t.erase l) := by
    refine ⟨rfl, ?_⟩
    intro m
    by_cases hm : m = l
    · rw [hm, hself]
      simp [hl]
    · rw [get?_erase_of_ne t hm]
  refine ⟨ht.of_files hsame (nodup_filter t _ ht.nodup) ?_, hsame⟩
  intro m
  by_cases hm : m = l
  · rw [hm]
    exact Or.inr (Or.inl hself)
  · exact Or.inl (get?_erase_of_ne t hm)

/-- A temporary file that was written and removed again. -/
theorem tidied_erase_insert (p : Path) (temporary : Location) (content : Content)
    (hplace : t.place? p = some temporary) (hfolder : t.get? temporary ≠ some .folder)
    (htemporary : IsTemporary temporary) :
    Tidied t ((t.insert temporary (.file content)).erase temporary) := by
  have hne := ne_nil_of_get?_ne t hfolder
  obtain ⟨hplain, hsame⟩ := isPlain_insert ht p temporary content hplace hfolder
  obtain ⟨hplain', hsame'⟩ := isPlain_erase hplain temporary
    (by rw [get?_insert_self t hne]; simp)
  refine ⟨hplain', hsame.trans hsame', ?_⟩
  intro m
  by_cases hm : m = temporary
  · rw [hm]
    exact Or.inr ⟨htemporary, get?_erase_self _ hne⟩
  · rw [get?_erase_of_ne _ hm, get?_insert_of_ne _ hm]
    exact Or.inl rfl

/-- A temporary file is only removed again once it was written. -/
theorem replaceThrough_of_write_error (temporary target : Path) (text operation : String)
    (e : OsError) (h : t.write temporary (.text text) = .error e) :
    t.replaceThrough temporary target text operation =
      (.error (e.toError (operation ++ " (write temp)")), t) := by
  have hfile : t.isFile temporary = false := by
    rw [← Bool.not_eq_true]
    intro hfile
    obtain ⟨l, hplace, content, hl⟩ := (isFile_iff ht temporary).mp hfile
    have hok := (write_eq_ok_iff t temporary (.text text) _).mpr
      ⟨l, hplace, by simp [hl], rfl⟩
    rw [h] at hok
    simp at hok
  rw [replaceThrough, h, hfile]
  rfl

/-- A file that was just written can be removed again. -/
theorem removeFile_of_insert (p : Path) (l : Location) (content : Content)
    (hplace : t.place? p = some l) (hfolder : t.get? l ≠ some .folder) :
    (t.insert l (.file content)).removeFile p = .ok ((t.insert l (.file content)).erase l) := by
  obtain ⟨hplain, hsame⟩ := isPlain_insert ht p l content hplace hfolder
  have hself := get?_insert_self t (ne_nil_of_get?_ne t hfolder) (.file content)
  have hlocate := (locate_eq_ok_iff hplain false p l).mpr
    ⟨(place?_of_sameFolders ht hplain hsame p).trans hplace, by rw [hself]; rfl⟩
  simp only [removeFile, hlocate, bind, Except.bind, hself, pure, Except.pure]

/-- The trees that a temporary file and the move of it can leave: the same tree
    if the temporary file cannot be written, one without the temporary file if
    it cannot be moved, and else one with the text at the place of the target. -/
theorem replaceThrough_shapes (temporary target : Path) (text operation : String) :
    (∃ e, t.replaceThrough temporary target text operation = (.error e, t) ∧
        ∀ l, t.place? temporary = some l → t.get? l = some .folder) ∨
      ∃ l, t.place? temporary = some l ∧ t.get? l ≠ some .folder ∧
        ((∃ e, t.replaceThrough temporary target text operation =
            (.error e, (t.insert l (.file (.text text))).erase l)) ∨
          ∃ goal, t.place? target = some goal ∧ t.get? goal ≠ some .folder ∧
            t.replaceThrough temporary target text operation =
              (.ok (), ((t.insert l (.file (.text text))).erase l).insert goal
                (.file (.text text)))) := by
  cases hwrite : t.write temporary (.text text) with
  | error e =>
      refine Or.inl ⟨_, replaceThrough_of_write_error ht temporary target text operation e hwrite,
        fun l hl => ?_⟩
      by_contra hfolder
      have hok := (write_eq_ok_iff t temporary (.text text) _).mpr ⟨l, hl, hfolder, rfl⟩
      rw [hwrite] at hok
      cases hok
  | ok written =>
      obtain ⟨l, hplace, hfolder, rfl⟩ := (write_eq_ok_iff t temporary (.text text) written).mp
        hwrite
      refine Or.inr ⟨l, hplace, hfolder, ?_⟩
      obtain ⟨hplain, hsame⟩ := isPlain_insert ht temporary l (.text text) hplace hfolder
      cases hrename : (t.insert l (.file (.text text))).rename temporary target with
      | error e =>
          refine Or.inl ⟨e.toError (operation ++ " (rename)"), ?_⟩
          simp only [replaceThrough, hwrite, hrename,
            removeFile_of_insert ht temporary l (.text text) hplace hfolder]
          rfl
      | ok moved =>
          obtain ⟨here, entry, goal, hhere, hentry, hgoal, hgoalfolder, rfl⟩ :=
            rename_ok hplain temporary target moved hrename
          -- The temporary file is a file more, so every path leads where it led,
          -- and what is moved is the file that was written.
          have hplaces := place?_of_sameFolders ht hplain hsame
          rw [hplaces, hplace, Option.some.injEq] at hhere
          subst hhere
          rw [get?_insert_self t (ne_nil_of_get?_ne t hfolder), Option.some.injEq] at hentry
          subst hentry
          refine Or.inr ⟨goal, (hplaces target).symm.trans hgoal,
            fun h => hgoalfolder ((hsame.folder_iff goal).mpr h), ?_⟩
          rw [replaceThrough, hwrite]
          simp only [hrename]

/-- What a temporary file and the move of it leave: the text at the place of
    the target, or nothing. -/
theorem replaceThrough_cases (temporary target : Path) (text operation : String)
    (htemporary : ∀ l, t.place? temporary = some l → IsTemporary l) :
    (∃ e t', t.replaceThrough temporary target text operation = (.error e, t') ∧ Tidied t t') ∨
      (∃ l t', t.replaceThrough temporary target text operation = (.ok (), t') ∧
        t.place? target = some l ∧ Replaced t t' l text) := by
  rcases replaceThrough_shapes ht temporary target text operation with
    ⟨e, heq, -⟩ | ⟨l, hplace, hfolder, hrest⟩
  · exact Or.inl ⟨e, t, heq, ht, SameFolders.refl t, fun m => Or.inl rfl⟩
  · have htidied := tidied_erase_insert ht temporary l (.text text) hplace hfolder
      (htemporary l hplace)
    rcases hrest with ⟨e, heq⟩ | ⟨goal, hgoal, hgoalfolder, heq⟩
    · exact Or.inl ⟨e, _, heq, htidied⟩
    · obtain ⟨hplain, hsame⟩ := isPlain_insert htidied.plain target goal (.text text)
        ((place?_of_sameFolders ht htidied.plain htidied.folders target).trans hgoal)
        (fun h => hgoalfolder ((htidied.folders.folder_iff goal).mp h))
      refine Or.inr ⟨goal, _, heq, hgoal, hplain, htidied.folders.trans hsame,
        get?_insert_self _ (ne_nil_of_get?_ne t hgoalfolder) _, fun m hm => ?_⟩
      rw [get?_insert_of_ne _ hm]
      exact htidied.frame m

/-- The temporary file has a temporary name. -/
theorem isTemporary_of_temporaryPlace? (p : Path) (m : Location)
    (h : t.temporaryPlace? p = some m) : IsTemporary m := by
  rw [temporaryPlace?, temporaryPath?] at h
  cases hparent : (t.writeTarget p).parent? with
  | none =>
      rw [hparent] at h
      cases h
  | some parent =>
      cases hname : (t.writeTarget p).fileName? with
      | none =>
          rw [hparent, hname] at h
          cases h
      | some name =>
          rw [hparent, hname] at h
          have hs := isFileName_temporary name (Path.isFileName_of_fileName? _ name hname)
          obtain ⟨folder, rfl⟩ := exists_of_place?_steps ht _ _ _
            (Path.steps_join_name parent _ hs) hs
            (Path.endsInSlash_join parent _ hs.noSlash hs.ne_empty) m h
          exact ⟨folder, name, rfl⟩

/-- What a replacement leaves: the text at the place of its path, or
    nothing. -/
theorem writeAtomic_cases (p : Path) (text operation : String) :
    (∃ e t', t.writeAtomic p text operation = (.error e, t') ∧ Tidied t t') ∨
      (∃ l t', t.writeAtomic p text operation = (.ok (), t') ∧ t.place? p = some l ∧
        Replaced t t' l text) := by
  rw [writeAtomic_eq]
  cases htemp : t.temporaryPath? p with
  | none => exact Or.inl ⟨_, t, rfl, ht, SameFolders.refl t, fun m => Or.inl rfl⟩
  | some temporary =>
      have htemporary : ∀ l, t.place? temporary = some l → IsTemporary l := fun l hl =>
        isTemporary_of_temporaryPlace? ht p l (by rw [temporaryPlace?, htemp]; exact hl)
      rcases replaceThrough_cases ht temporary (t.writeTarget p) text operation htemporary with
        hfail | ⟨l, t', hok, hl, hdone⟩
      · exact Or.inl hfail
      · exact Or.inr ⟨l, t', hok, place?_writeTarget ht p l hl, hdone⟩

end

end FileTree

end SchemaRename
