import SchemaRename.Proofs.FileTree.Replacing

/-!
# Temporary Siblings

Which locations a replacement touches, and when it succeeds.

A replacement writes to two locations: the place of its path and the place of
the temporary file beside it. Everything else stays, other temporary files
included. The temporary file is the sibling of the place under the longer
name, whether the path is followed to what is there first or there is nothing
and the path is taken as it is.

Nothing can go wrong then but the length of a name. A name that the system
just takes is too long with the temporary ending behind it, and so is a path.

## Main definitions

* `FileTree.HasRoom`: Locations whose temporary sibling can be named.

## Theorems

* `place?_path`: The place of a location's own path.
* `writeAtomic_frame`: Everything but two locations stays.
* `eq_sibling_of_temporaryPlace?`: The place of the temporary file.
* `writeAtomic_ok`, `writeAtomic_noRoom`, `writeAtomic_blocked`: When a
  replacement succeeds.
-/

namespace SchemaRename

namespace Path

/-- The names of a location behind the root are its path. -/
theorem extend_root (l : Location) (h : ∀ n ∈ l, IsFileName n) :
    (Path.mk "/").extend l = l.path := by
  cases l with
  | nil => rfl
  | cons name names =>
      have hname := h name List.mem_cons_self
      have hjoin : (Path.mk "/").join name = ⟨"/" ++ name⟩ := by
        rcases join_cases ⟨"/"⟩ name hname.noSlash with ⟨hnil, -⟩ | ⟨q, hq, hj⟩ | ⟨-, hslash, -⟩
        · simp at hnil
        · rw [hj, ← hq]
        · simp [endsInSlash] at hslash
      rw [extend_cons, hjoin]
      cases names with
      | nil => rw [extend_nil, Location.path, String.intercalate_singleton]
      | cons second names =>
          have htext := text_extend ⟨"/" ++ name⟩ (second :: names)
            (fun n hn => h n (List.mem_cons_of_mem name hn)) (by simp)
            (endsInSlash_append "/" name hname.noSlash hname.ne_empty) (List.cons_ne_nil _ _)
          have hpath : ("/" ++ "/".intercalate (name :: second :: names)) =
              "/" ++ name ++ "/" ++ "/".intercalate (second :: names) := by
            rw [String.intercalate_cons_cons]
            simp only [String.append_assoc]
          rw [Location.path, hpath, ← htext]

theorem join_path (folder : Location) (name : String)
    (h : ∀ n ∈ folder ++ [name], IsFileName n) :
    folder.path.join name = Location.path (folder ++ [name]) := by
  rw [← extend_root _ h, extend_concat,
    extend_root folder fun n hn => h n (List.mem_append_left _ hn)]

theorem components_path (l : Location) (h : ∀ n ∈ l, IsFileName n) :
    l.path.components = .root :: l.map .name := by
  rw [← extend_root l h, components_extend _ l h]
  rfl

theorem endsInSlash_path (folder : Location) (name : String)
    (h : ∀ n ∈ folder ++ [name], IsFileName n) :
    (Location.path (folder ++ [name])).endsInSlash = false := by
  have hname := h name (by simp)
  rw [← join_path folder name h]
  exact endsInSlash_join _ name hname.noSlash hname.ne_empty

/-- The folder and the name of a location are those of its path. -/
theorem parts_path (folder : Location) (name : String)
    (h : ∀ n ∈ folder ++ [name], IsFileName n) :
    (Location.path (folder ++ [name])).parent? = some folder.path ∧
      (Location.path (folder ++ [name])).fileName? = some name := by
  have hcomponents : (Location.path (folder ++ [name])).components =
      (Component.root :: folder.map .name) ++ [.name name] := by
    rw [components_path _ h, List.map_append]
    rfl
  have hfolder : ofComponents (Component.root :: folder.map .name) = folder.path := by
    rw [← extend_root folder fun n hn => h n (List.mem_append_left _ hn), ofComponents,
      List.foldl_cons, List.foldl_map]
    rfl
  constructor
  · rw [parent?, hcomponents, List.getLast?_concat, List.dropLast_concat, hfolder]
  · rw [fileName?, hcomponents, List.getLast?_concat]

theorem isFileName_sibling {folder : Location} {name : String}
    (h : ∀ n ∈ folder ++ [name], IsFileName n) :
    ∀ n ∈ folder ++ [name ++ temporarySuffix], IsFileName n := by
  intro n hn
  rcases List.mem_append.mp hn with hn | hn
  · exact h n (List.mem_append_left _ hn)
  · rw [List.mem_singleton.mp hn]
    exact isFileName_temporary name (h name (by simp))

/-- The path of a sibling is longer by the temporary ending. -/
theorem size_sibling (folder : Location) (name : String)
    (h : ∀ n ∈ folder ++ [name], IsFileName n) :
    (Location.path (folder ++ [name ++ temporarySuffix])).text.utf8ByteSize =
      (Location.path (folder ++ [name])).text.utf8ByteSize + temporarySuffix.utf8ByteSize := by
  have hsibling := isFileName_sibling h
  have hfolder : folder.path.text ≠ "" := by simp [Location.path]
  rw [← join_path folder name h, ← join_path folder _ hsibling,
    size_join _ _ (h name (by simp)).noSlash hfolder,
    size_join _ _ (hsibling (name ++ temporarySuffix) (by simp)).noSlash hfolder,
    String.utf8ByteSize_append]
  omega

end Path

namespace FileTree

/-- The temporary sibling of a location can be named: neither the name nor the
    path is too long for the system. -/
def HasRoom (folder : Location) (name : String) : Prop :=
  (name ++ temporarySuffix).utf8ByteSize ≤ maxNameSize ∧
    (Location.path (folder ++ [name ++ temporarySuffix])).text.utf8ByteSize ≤ maxPathSize

instance (folder : Location) (name : String) : Decidable (HasRoom folder name) :=
  inferInstanceAs (Decidable (_ ∧ _))

section

variable {t : FileTree} (ht : t.IsPlain)
include ht

/-- The path of a location in a folder leads there, whether or not there is
    something. -/
theorem place?_path (folder : Location) (name : String)
    (hfolder : t.get? folder = some .folder) (hname : isEntryName name = true)
    (hsize : (Location.path (folder ++ [name])).text.utf8ByteSize ≤ maxPathSize) :
    t.place? (Location.path (folder ++ [name])) = some (folder ++ [name]) := by
  have hnames : ∀ n ∈ folder, IsFileName n := fun n hn =>
    isFileName_of_isEntryName (ht.named folder (by rw [hfolder]; rfl) n hn)
  have hn := isFileName_of_isEntryName hname
  have hall : ∀ n ∈ folder ++ [name], IsFileName n := by
    intro n hmem
    rcases List.mem_append.mp hmem with hmem | hmem
    · exact hnames n hmem
    · rw [List.mem_singleton.mp hmem]
      exact hn
  have hdown : t.walk true maxLinks [] folder = .ok (.found folder) := by
    have hfilter : folder.filter (· != ".") = folder :=
      List.filter_eq_self.mpr fun n hn => by simpa using (hnames n hn).ne_dot
    have hwalk := walk_of_get? ht true maxLinks [] folder .folder
      (fun hmem => (hnames _ hmem).ne_dots rfl) (by rwa [List.nil_append, hfilter]) (Or.inl rfl)
    rwa [List.nil_append, hfilter] at hwalk
  have hstep : ∃ place, t.walk true maxLinks folder [name] = .ok place ∧
      place.location = folder ++ [name] := by
    rw [walk_name ht true maxLinks folder hfolder name hn,
      if_neg (Nat.not_lt.mpr (size_le_of_isEntryName hname))]
    split
    · exact ⟨_, rfl, rfl⟩
    · exact ⟨_, rfl, rfl⟩
  obtain ⟨place, hplace, hlocation⟩ := hstep
  rw [place?_eq_some_iff_walk]
  refine ⟨by simp [Location.path], hsize, place, ?_, hlocation⟩
  rw [origin, Path.isAbsolute_path, if_pos rfl, Path.stepsToFolder,
    Path.endsInSlash_path folder name hall, if_neg Bool.false_ne_true, List.append_nil,
    Path.steps_path _ hall,
    walk_append ht true maxLinks [] folder [name] folder hfolder hdown]
  exact hplace

/-- An entry takes the place of a file. -/
theorem rename_of_file (source target : Path) (here l : Location) (entry : Entry)
    (content : Content) (hhere : t.place? source = some here) (hentry : t.get? here = some entry)
    (hl : t.place? target = some l) (hfile : t.get? l = some (.file content))
    (hslash : target.endsInSlash = false) :
    t.rename source target = .ok ((t.erase here).insert l entry) := by
  have hlocate := (locate_eq_ok_iff ht false source here).mpr ⟨hhere, by rw [hentry]; rfl⟩
  have hresolve : t.resolveSteps false target target.steps = .ok (.found l) := by
    rw [resolveSteps_follow ht false]
    rcases (place?_eq_some_iff t target l).mp hl with hfound | ⟨folder, n, rfl, hmissing⟩
    · rwa [resolve, Path.stepsToFolder, hslash, if_neg Bool.false_ne_true,
        List.append_nil] at hfound
    · rw [get?_of_resolveSteps_missing t true target _ folder n hmissing] at hfile
      cases hfile
  simp only [rename, hlocate, bind, Except.bind, hentry, hresolve, hslash, Bool.false_eq_true,
    if_false, hfile, pure, Except.pure]

/-- A replacement changes the places of its two paths and nothing else. -/
theorem replaceThrough_frame (temporary target : Path) (text operation : String) (m : Location)
    (htemporary : t.place? temporary ≠ some m) (htarget : t.place? target ≠ some m) :
    (t.replaceThrough temporary target text operation).2.get? m = t.get? m := by
  rcases replaceThrough_shapes ht temporary target text operation with
    ⟨e, heq, -⟩ | ⟨l, hplace, -, ⟨e, heq⟩ | ⟨goal, hgoal, -, heq⟩⟩
  · rw [heq]
  all_goals
    have hm : m ≠ l := fun hml => htemporary (hml ▸ hplace)
    rw [heq]
  · exact (get?_erase_of_ne _ hm).trans (get?_insert_of_ne t hm _)
  · have hmgoal : m ≠ goal := fun hml => htarget (hml ▸ hgoal)
    rw [get?_insert_of_ne _ hmgoal, get?_erase_of_ne _ hm, get?_insert_of_ne t hm]

theorem writeAtomic_frame (p : Path) (text operation : String) (m : Location)
    (hplace : t.place? p ≠ some m)
    (htemporary : t.temporaryPlace? p ≠ some m) :
    (t.writeAtomic p text operation).2.get? m = t.get? m := by
  rw [writeAtomic_eq]
  cases htemp : t.temporaryPath? p with
  | none => rfl
  | some temporary =>
      rw [temporaryPlace?, htemp] at htemporary
      exact replaceThrough_frame ht temporary _ text operation m htemporary
        fun h => hplace (place?_writeTarget ht p m h)

/-- A replacement stops at a folder under the temporary name, and wherever else
    the temporary file cannot go. -/
theorem writeAtomic_blocked (p : Path) (text operation : String)
    (h : ∀ m, t.temporaryPlace? p = some m → t.get? m = some .folder) :
    ∃ e, t.writeAtomic p text operation = (.error e, t) := by
  rw [writeAtomic_eq]
  cases htemp : t.temporaryPath? p with
  | none => exact ⟨_, rfl⟩
  | some temporary =>
      rcases replaceThrough_shapes ht temporary (t.writeTarget p) text operation with
        ⟨e, heq, -⟩ | ⟨l, hplace, hl, -⟩
      · exact ⟨e, heq⟩
      · exact absurd (h l (by rw [temporaryPlace?, htemp]; exact hplace)) hl

section Entry

variable (p : Path) (folder : Location) (name : String)
  (hplace : t.place? p = some (folder ++ [name])) (hsome : (t.get? (folder ++ [name])).isSome)
include hplace hsome

omit hplace in
theorem isFileName_of_isSome : ∀ n ∈ folder ++ [name], IsFileName n := fun n hn =>
  isFileName_of_isEntryName (ht.named _ hsome n hn)

theorem writeTarget_of_isSome : t.writeTarget p = Location.path (folder ++ [name]) := by
  have hlocate := (locate_eq_ok_iff ht true p _).mpr ⟨hplace, hsome⟩
  rw [writeTarget, canonical?, hlocate]
  rfl

/-- The temporary file of an entry that is there is its sibling. -/
theorem temporaryPath?_of_isSome :
    t.temporaryPath? p = some (Location.path (folder ++ [name ++ temporarySuffix])) := by
  have hnames := isFileName_of_isSome ht folder name hsome
  obtain ⟨hparent, hname⟩ := Path.parts_path folder name hnames
  rw [temporaryPath?, writeTarget_of_isSome ht p folder name hplace hsome, hparent, hname]
  simp only
  rw [Path.join_path folder _ (Path.isFileName_sibling hnames)]

end Entry

/-- A write to what is not there goes to the path itself. -/
theorem writeTarget_of_none (p : Path) (hnone : ∀ l, t.place? p = some l → t.get? l = none) :
    t.writeTarget p = p := by
  cases hlocate : t.locate true p with
  | error e =>
      rw [writeTarget, canonical?, hlocate]
      rfl
  | ok l =>
      obtain ⟨hplace, hsome⟩ := (locate_eq_ok_iff ht true p l).mp hlocate
      rw [hnone l hplace] at hsome
      cases hsome

/-- The temporary file goes to the sibling or nowhere. -/
theorem eq_sibling_of_temporaryPlace? (p : Path) (folder : Location) (name : String)
    (hplace : t.place? p = some (folder ++ [name])) (m : Location)
    (h : t.temporaryPlace? p = some m) : m = folder ++ [name ++ temporarySuffix] := by
  rw [temporaryPlace?] at h
  cases hentry : t.get? (folder ++ [name]) with
  | some entry =>
      -- The path of the sibling starts at the root and has no double dots.
      have hsome : (t.get? (folder ++ [name])).isSome := by rw [hentry]; rfl
      have hnames := Path.isFileName_sibling (isFileName_of_isSome ht folder name hsome)
      rw [temporaryPath?_of_isSome ht p folder name hplace hsome, Option.bind_some] at h
      have hdots : ".." ∉ (Location.path (folder ++ [name ++ temporarySuffix])).steps := by
        rw [Path.steps_path _ hnames]
        exact fun hmem => (hnames _ hmem).ne_dots rfl
      rw [place?_eq_location ht _ hdots m h, location, origin, Path.isAbsolute_path, if_pos rfl,
        Path.steps_path _ hnames, List.nil_append]
      exact List.filter_eq_self.mpr fun n hn => by simpa using (hnames n hn).ne_dot
  | none =>
      -- Both paths go on from the parent by their last names.
      obtain ⟨front, folder', n, hsteps, hl, hn, hslash⟩ :=
        steps_of_place? ht p _ hplace (by simp [hentry])
      obtain ⟨rfl, hname⟩ := List.append_inj' hl rfl
      cases hname
      rw [temporaryPath?, writeTarget_of_none ht p fun l hl => by
        rwa [← Option.some.inj (hplace.symm.trans hl)]] at h
      cases hparent : p.parent? with
      | none =>
          rw [hparent] at h
          cases h
      | some parent =>
          have hlast := Path.fileName?_of_steps p front name hsteps hn
          rw [hparent, hlast] at h
          obtain ⟨mid, hmid, -, hm⟩ :=
            place?_behind_join ht parent _ (isFileName_temporary name hn) m h
          obtain ⟨mid', hmid', -, hfolder⟩ := place?_behind ht p parent front name
            (Path.components_of_parent? p parent name hparent hlast) hsteps hn hslash _ hplace
          cases hmid.symm.trans hmid'
          rw [hm, (List.append_inj' hfolder rfl).1]

section File

variable (p : Path) (folder : Location) (name : String)
  (hplace : t.place? p = some (folder ++ [name])) (content : Content)
  (hfile : t.get? (folder ++ [name]) = some (.file content))
include hplace hfile

/-- The content of a file is replaced if its temporary sibling can be named and
    is not there. -/
theorem writeAtomic_ok (text operation : String)
    (hfree : t.get? (folder ++ [name ++ temporarySuffix]) = none) (hroom : HasRoom folder name) :
    (t.writeAtomic p text operation).1 = .ok () := by
  have hsome : (t.get? (folder ++ [name])).isSome := by rw [hfile]; rfl
  have hnames := isFileName_of_isSome ht folder name hsome
  have hfolder := ht.housed folder name hsome
  have hname := (isEntryName_iff (name ++ temporarySuffix)).mpr
    ⟨isFileName_temporary name (hnames name (by simp)), hroom.1⟩
  have hsibling := place?_path ht folder _ hfolder hname hroom.2
  -- The sibling is written first.
  have hnone : t.get? (folder ++ [name ++ temporarySuffix]) ≠ some .folder := by simp [hfree]
  have hwrite := (write_eq_ok_iff t _ (.text text) _).mpr ⟨_, hsibling, hnone, rfl⟩
  obtain ⟨hplain, hsame⟩ := isPlain_insert ht _ _ (.text text) hsibling hnone
  have hplaces := place?_of_sameFolders ht hplain hsame
  -- Then it takes the place of the file, which is still what it was.
  have htarget : t.place? (Location.path (folder ++ [name])) = some (folder ++ [name]) := by
    refine place?_path ht folder name hfolder (ht.named _ hsome name (by simp)) ?_
    have hsize := hroom.2
    rw [Path.size_sibling folder name hnames] at hsize
    omega
  have hkept := get?_insert_of_ne t (fun heq => by rw [heq, hfree] at hfile; cases hfile)
    (.file (.text text)) (m := folder ++ [name]) (l := folder ++ [name ++ temporarySuffix])
  have hrename := rename_of_file hplain _ _ _ _ _ content ((hplaces _).trans hsibling)
    (get?_insert_self t (ne_nil_of_get?_ne t hnone) _) ((hplaces _).trans htarget)
    (hkept.trans hfile) (Path.endsInSlash_path folder name hnames)
  rw [writeAtomic_eq, temporaryPath?_of_isSome ht p folder name hplace hsome,
    writeTarget_of_isSome ht p folder name hplace hsome]
  simp only [replaceThrough, hwrite, hrename]

/-- Without room for the temporary sibling nothing happens. -/
theorem writeAtomic_noRoom (text operation : String)
    (hfree : t.get? (folder ++ [name ++ temporarySuffix]) = none) (hroom : ¬ HasRoom folder name) :
    ∃ e, t.writeAtomic p text operation = (.error e, t) := by
  have hsome : (t.get? (folder ++ [name])).isSome := by rw [hfile]; rfl
  have htemporary := temporaryPath?_of_isSome ht p folder name hplace hsome
  have hnowhere : t.place? (Location.path (folder ++ [name ++ temporarySuffix])) = none := by
    rw [Option.eq_none_iff_forall_ne_some]
    intro m hm
    have heq := eq_sibling_of_temporaryPlace? ht p folder name hplace m
      (by rw [temporaryPlace?, htemporary]; exact hm)
    obtain ⟨-, hsize, -⟩ := (place?_eq_some_iff_walk t _ m).mp hm
    obtain ⟨folder', n, hm', -, hentry⟩ := exists_of_place? ht _ m hm (by simp [heq, hfree])
    obtain rfl : n = name ++ temporarySuffix :=
      List.singleton_inj.mp (List.append_inj' (hm'.symm.trans heq) rfl).2
    exact hroom ⟨size_le_of_isEntryName hentry, hsize⟩
  refine writeAtomic_blocked ht p text operation fun m hm => ?_
  rw [temporaryPlace?, htemporary, Option.bind_some, hnowhere] at hm
  cases hm

end File

end

end FileTree

end SchemaRename
