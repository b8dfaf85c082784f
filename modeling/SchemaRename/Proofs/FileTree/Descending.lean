import Mathlib.Data.List.Induction
import SchemaRename.Proofs.FileTree.Siblings

/-!
# Going Down from a Folder

Names put behind a path that leads to a folder.

A program that works its way through a folder has a path to it and puts names
behind the path. Such a path leads to the location that the names lead to from
the folder, or it is too long and leads nowhere. Nothing else can happen, so
what the program meets below its path is what the tree has below the folder.

Creating a folder by such a path adds at most one entry.

## Main definitions

* `FileTree.LeadsTo`: Paths to folders.
* `FileTree.fits`: Names that the system takes behind a path.
* `FileTree.Opens`: Paths that can lead to one folder only, once it is created.

## Theorems

* `leadsTo_iff_walk`: A path to a folder, with or without a slash at its end.
* `place?_join_iff`: The place of a path with a name behind it.
* `leadsTo_extend_iff`: The folders below a folder.
* `LeadsTo.opens`, `LeadsTo.opens_join`: Creating a folder that is there, or one
  more.
* `isPlain_insert_folder`: A plain tree with one more folder.
-/

namespace SchemaRename

theorem Path.text_extend_ne_empty (p : Path) (names : List String)
    (h : ∀ n ∈ names, IsFileName n) (hp : p.text ≠ "") : (p.extend names).text ≠ "" := by
  induction names generalizing p with
  | nil => exact hp
  | cons name names ih =>
      have hname := h name List.mem_cons_self
      exact ih _ (fun n hn => h n (List.mem_cons_of_mem _ hn))
        (Path.text_join_ne_empty p name hname.noSlash hname.ne_empty)

namespace FileTree

/-- A path leads to a folder. -/
structure LeadsTo (t : FileTree) (p : Path) (l : Location) : Prop where
  place : t.place? p = some l
  folder : t.get? l = some .folder

/-- A name behind a path is not too long for the system, and neither is the
    path. -/
def fits (p : Path) (name : String) : Bool :=
  decide ((p.join name).text.utf8ByteSize ≤ maxPathSize) &&
    decide (name.utf8ByteSize ≤ maxNameSize)

theorem fits_iff (p : Path) (name : String) :
    fits p name = true ↔ (p.join name).text.utf8ByteSize ≤ maxPathSize ∧
      name.utf8ByteSize ≤ maxNameSize := by
  simp [fits]

/-- Once the folder of a path is created, the path leads to a given location,
    and nothing but this location is new. -/
def Opens (t : FileTree) (p : Path) (l : Location) : Prop :=
  ∀ t₁, t.createFolders p = (.ok (), t₁) →
    LeadsTo t₁ p l ∧ (t₁ = t ∨ (t.get? l = none ∧ t₁ = t.insert l .folder))

/-- Creating folders creates one or finds one, unless folders above are
    missing. -/
theorem createFolders_ok (t : FileTree) (p : Path) (hp : p.text ≠ "")
    (hfound : t.createFolder p ≠ .error .notFound) (t₁ : FileTree)
    (h : t.createFolders p = (.ok (), t₁)) :
    t.createFolder p = .ok t₁ ∨ (t₁ = t ∧ t.isFolder p = true) := by
  rw [createFolders] at h
  unfold createFoldersUpTo at h
  rw [if_neg (by simpa using hp)] at h
  cases hcreate : t.createFolder p with
  | ok t₂ =>
      simp only [hcreate] at h
      cases h
      exact Or.inl rfl
  | error e =>
      have hcases : (if t.isFolder p then .ok () else .error e, t) =
          ((.ok (), t₁) : Except OsError Unit × FileTree) := by
        rw [← h, hcreate]
        cases e with
        | notFound => exact absurd hcreate hfound
        | _ => rfl
      rw [Prod.mk.injEq] at hcases
      refine Or.inr ⟨hcases.2.symm, ?_⟩
      by_contra hfolder
      rw [if_neg hfolder] at hcases
      cases hcases.1

theorem LeadsTo.text_ne_empty {t : FileTree} {p : Path} {l : Location} (h : LeadsTo t p l) :
    p.text ≠ "" :=
  ((place?_eq_some_iff_walk t p l).mp h.place).1

section

variable {t : FileTree} (ht : t.IsPlain)
include ht

theorem isFolder_iff_leadsTo (p : Path) : t.isFolder p = true ↔ ∃ l, LeadsTo t p l := by
  rw [isFolder_iff ht]
  exact exists_congr fun l => ⟨fun ⟨hplace, hl⟩ => ⟨hplace, hl⟩, fun h => ⟨h.place, h.folder⟩⟩

theorem LeadsTo.mono {t' : FileTree} (ht' : t'.IsPlain)
    (hfolders : ∀ l, t.get? l = some .folder → t'.get? l = some .folder)
    (hwork : t'.workingFolder = t.workingFolder) {p : Path} {l : Location} (h : LeadsTo t p l) :
    LeadsTo t' p l :=
  ⟨place?_mono ht ht' hfolders hwork p l h.place, hfolders l h.folder⟩

/-- A path leads to a folder if its names do. A slash at the end changes
    nothing. -/
theorem leadsTo_iff_walk (p : Path) (l : Location) :
    LeadsTo t p l ↔ p.text ≠ "" ∧ p.text.utf8ByteSize ≤ maxPathSize ∧
      t.walk true maxLinks (t.origin p) p.steps = .ok (.found l) ∧
      t.get? l = some .folder := by
  rw [walk_eq_ok_iff, ← locate_folder_iff, locate_eq_ok_iff ht]
  constructor
  · rintro ⟨hplace, hl⟩
    exact ⟨⟨hplace, by rw [hl]; rfl⟩, hl⟩
  · rintro ⟨⟨hplace, -⟩, hl⟩
    exact ⟨hplace, hl⟩

/-- The place of a path with a name behind it. -/
theorem place?_join_iff (p : Path) (hp : p.text ≠ "") (name : String) (hname : IsFileName name)
    (m : Location) :
    t.place? (p.join name) = some m ↔
      ∃ l, LeadsTo t p l ∧ m = l ++ [name] ∧ fits p name = true := by
  have hsteps : (p.join name).stepsToFolder = p.steps ++ [name] := by
    rw [Path.stepsToFolder, Path.endsInSlash_join p name hname.noSlash hname.ne_empty,
      if_neg Bool.false_ne_true, List.append_nil, Path.steps_join_name p name hname]
  have horigin : t.origin (p.join name) = t.origin p := by
    rw [origin, origin, Path.isAbsolute_join p name hname.noSlash]
  simp only [place?_eq_some_iff_walk, hsteps, horigin, fits_iff, leadsTo_iff_walk ht]
  constructor
  · rintro ⟨-, hsize, place, hwalk, rfl⟩
    obtain ⟨l, hl, hfolder, hrest⟩ := exists_of_walk_append ht true maxLinks _ _ [name]
      (List.cons_ne_nil _ _) _ hwalk
    rw [walk_name ht _ _ l hfolder name hname] at hrest
    refine ⟨l, ⟨hp, Nat.le_trans (Path.size_le_join p name hname.noSlash) hsize, hl, hfolder⟩, ?_⟩
    split at hrest
    · cases hrest
    · next hlong =>
        refine ⟨?_, hsize, Nat.not_lt.mp hlong⟩
        split at hrest <;>
          · cases hrest
            rfl
  · rintro ⟨l, ⟨-, -, hl, hfolder⟩, rfl, hsize, hlong⟩
    refine ⟨Path.text_join_ne_empty p name hname.noSlash hname.ne_empty, hsize, ?_⟩
    rw [walk_append ht true maxLinks _ _ [name] l hfolder hl, walk_name ht _ _ l hfolder name hname,
      if_neg (Nat.not_lt.mpr hlong)]
    split
    · exact ⟨_, rfl, rfl⟩
    · exact ⟨_, rfl, rfl⟩

/-- A plain tree with one more folder. -/
theorem isPlain_insert_folder (folder : Location) (n : String)
    (hfolder : t.get? folder = some .folder) (hn : isEntryName n = true)
    (hnone : t.get? (folder ++ [n]) = none) :
    (t.insert (folder ++ [n]) .folder).IsPlain ∧
      ∀ m, t.get? m = some .folder →
        (t.insert (folder ++ [n]) .folder).get? m = some .folder := by
  have hself := get?_insert_self t (l := folder ++ [n]) (by simp) .folder
  have hother : ∀ m, m ≠ folder ++ [n] → (t.insert (folder ++ [n]) .folder).get? m = t.get? m :=
    fun m hm => get?_insert_of_ne t hm _
  have hkept : ∀ m, t.get? m = some .folder →
      (t.insert (folder ++ [n]) .folder).get? m = some .folder := by
    intro m hm
    rwa [hother m fun heq => by rw [heq, hnone] at hm; cases hm]
  refine ⟨⟨⟨nodup_insert t _ _ ht.nodup, ?_, ?_, ?_⟩, ?_⟩, hkept⟩
  · intro m hm k hk
    by_cases heq : m = folder ++ [n]
    · rw [heq, List.mem_append, List.mem_singleton] at hk
      rcases hk with hk | rfl
      · exact ht.named folder (by rw [hfolder]; rfl) k hk
      · exact hn
    · rw [hother m heq] at hm
      exact ht.named m hm k hk
  · intro m k hm
    by_cases heq : m ++ [k] = folder ++ [n]
    · rw [(List.append_inj' heq rfl).1]
      exact hkept folder hfolder
    · rw [hother _ heq] at hm
      exact hkept m (ht.housed m k hm)
  · rw [insert_workingFolder]
    exact hkept _ ht.working
  · intro m target hm
    by_cases heq : m = folder ++ [n]
    · rw [heq, hself] at hm
      cases hm
    · rw [hother m heq] at hm
      exact ht.unlinked m target hm

section Folder

variable {p : Path} {l : Location} (h : LeadsTo t p l)
include h

/-- A name behind the path leads to the name in the folder, or nowhere. -/
theorem LeadsTo.place_join (name : String) (hname : IsFileName name) (m : Location)
    (hm : t.place? (p.join name) = some m) : m = l ++ [name] := by
  obtain ⟨l', hl', rfl, -⟩ := (place?_join_iff ht p h.text_ne_empty name hname m).mp hm
  cases h.place.symm.trans hl'.place
  rfl

/-- The names in the folder. -/
theorem LeadsTo.list : t.list p = .ok (t.children l) := by
  have hlocate := (locate_eq_ok_iff ht true p l).mpr ⟨h.place, by rw [h.folder]; rfl⟩
  simp only [FileTree.list, hlocate, bind, Except.bind, h.folder]
  rfl

/-- The folders below a folder. -/
theorem leadsTo_extend_iff (names : List String) (hnames : ∀ n ∈ names, IsFileName n)
    (m : Location) :
    LeadsTo t (p.extend names) m ↔ m = l ++ names ∧
      (p.extend names).text.utf8ByteSize ≤ maxPathSize ∧
      t.get? (l ++ names) = some .folder := by
  -- From the last name to the first: a path that is short enough is so without
  -- its last name, and what is above a folder is a folder.
  induction names using List.reverseRecOn generalizing m with
  | nil =>
      rw [Path.extend_nil, List.append_nil]
      constructor
      · intro hm
        cases h.place.symm.trans hm.place
        exact ⟨rfl, ((place?_eq_some_iff_walk t p _).mp h.place).2.1, h.folder⟩
      · rintro ⟨rfl, -⟩
        exact h
  | append_singleton names n ih =>
      have hfront : ∀ k ∈ names, IsFileName k := fun k hk => hnames k (List.mem_append_left _ hk)
      have hn : IsFileName n := hnames n (by simp)
      have hne := Path.text_extend_ne_empty p names hfront h.text_ne_empty
      rw [Path.extend_concat, ← List.append_assoc]
      constructor
      · rintro ⟨hplace, hm⟩
        obtain ⟨k, hk, rfl, hfits⟩ := (place?_join_iff ht _ hne n hn m).mp hplace
        obtain ⟨rfl, -, -⟩ := (ih hfront k).mp hk
        exact ⟨rfl, ((fits_iff _ n).mp hfits).1, hm⟩
      · rintro ⟨rfl, hsize, hm⟩
        have hsome : (t.get? (l ++ names ++ [n])).isSome := by rw [hm]; rfl
        have hfolder := (ih hfront (l ++ names)).mpr
          ⟨rfl, Nat.le_trans (Path.size_le_join _ n hn.noSlash) hsize, ht.housed _ n hsome⟩
        refine ⟨(place?_join_iff ht _ hne n hn _).mpr ⟨_, hfolder, rfl, ?_⟩, hm⟩
        exact (fits_iff _ n).mpr
          ⟨hsize, size_le_of_isEntryName (ht.named _ hsome n (by simp))⟩

/-- A folder that is there can be opened. -/
theorem LeadsTo.opens : Opens t p l := by
  obtain ⟨hne, hsize, hwalk, -⟩ := (leadsTo_iff_walk ht p l).mp h
  have hthere : t.createFolder p = .error .alreadyExists := by
    have hresolve : t.resolveSteps false p p.steps = .ok (.found l) := by
      rw [resolveSteps_follow ht, resolveSteps_eq_ok_iff]
      exact ⟨hne, hsize, hwalk⟩
    rw [createFolder, hresolve]
    rfl
  intro t₁ hcreate
  rcases createFolders_ok t p hne (by simp [hthere]) t₁ hcreate with hnew | ⟨rfl, -⟩
  · rw [hthere] at hnew
    cases hnew
  · exact ⟨h, Or.inl rfl⟩

/-- Creating a name in the folder. -/
theorem LeadsTo.createFolder_join (name : String) (hname : IsFileName name) :
    t.createFolder (p.join name) =
      if fits p name then
        if t.get? (l ++ [name]) = none then .ok (t.insert (l ++ [name]) .folder)
        else .error .alreadyExists
      else .error .nameTooLong := by
  obtain ⟨-, -, hwalk, hfolder⟩ := (leadsTo_iff_walk ht p l).mp h
  have hne := Path.text_join_ne_empty p name hname.noSlash hname.ne_empty
  have hdown : t.walk true maxLinks (t.origin (p.join name)) (p.join name).steps =
      t.walk true maxLinks l [name] := by
    rw [origin, Path.isAbsolute_join p name hname.noSlash, ← origin,
      Path.steps_join_name p name hname, walk_append ht true maxLinks _ _ [name] l hfolder hwalk]
  rw [createFolder, resolveSteps_follow ht, resolveSteps, if_neg (by simpa using hne), ← origin,
    hdown, walk_name ht _ _ l hfolder name hname]
  by_cases hpath : (p.join name).text.utf8ByteSize ≤ maxPathSize
  · rw [if_neg (Nat.not_lt.mpr hpath)]
    by_cases hlong : name.utf8ByteSize ≤ maxNameSize
    · rw [if_neg (Nat.not_lt.mpr hlong), if_pos ((fits_iff p name).mpr ⟨hpath, hlong⟩)]
      split <;> rfl
    · rw [if_pos (Nat.not_le.mp hlong), if_neg fun hfits => hlong ((fits_iff p name).mp hfits).2]
      rfl
  · rw [if_pos (Nat.not_le.mp hpath), if_neg fun hfits => hpath ((fits_iff p name).mp hfits).1]
    rfl

/-- A name in the folder can be opened. -/
theorem LeadsTo.opens_join (name : String) (hname : IsFileName name) :
    Opens t (p.join name) (l ++ [name]) := by
  have hne := Path.text_join_ne_empty p name hname.noSlash hname.ne_empty
  have hcreate := h.createFolder_join ht name hname
  have hfound : t.createFolder (p.join name) ≠ .error .notFound := by
    rw [hcreate]
    split
    · split <;> simp
    · simp
  intro t₁ hok
  rcases createFolders_ok t _ hne hfound t₁ hok with hnew | ⟨rfl, hold⟩
  · -- The folder is new, and all paths lead where they led.
    rw [hcreate] at hnew
    split at hnew
    · next hfits =>
        split at hnew
        · next hnone =>
            cases hnew
            have hentry := (isEntryName_iff name).mpr ⟨hname, ((fits_iff p name).mp hfits).2⟩
            obtain ⟨hplain, hkept⟩ := isPlain_insert_folder ht l name h.folder hentry hnone
            exact ⟨⟨place?_mono ht hplain hkept (insert_workingFolder t _ _) _ _
              ((place?_join_iff ht p h.text_ne_empty name hname _).mpr ⟨l, h, rfl, hfits⟩),
              get?_insert_self t (by simp) _⟩, Or.inr ⟨hnone, rfl⟩⟩
        · cases hnew
    · cases hnew
  · -- The folder was there before.
    obtain ⟨m, hm⟩ := (isFolder_iff_leadsTo ht _).mp hold
    obtain rfl := h.place_join ht name hname m hm.place
    exact ⟨hm, Or.inl rfl⟩

end Folder

end

end FileTree

end SchemaRename
