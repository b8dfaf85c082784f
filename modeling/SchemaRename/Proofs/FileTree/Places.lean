import SchemaRename.FileTree.Change
import SchemaRename.Proofs.FileTree.Walking

/-!
# The Places of Paths

Where a path leads in a plain tree, and what is found there.

The place of a path can be spoken of before anything stands there, and it
stays the same while files come and go. What an operation finds at a path is
the entry at its place, so that everything about a path is said by its place
and the view `get?`.

A path without double dots goes down only. Its place is its names put behind
the location it starts from, with the dots left out.

## Main definitions

* `FileTree.place?`: The location that a path leads to.
* `FileTree.location`: The location that a path without double dots names.

## Theorems

* `locate_eq_ok_iff_walksTo`, `isFolder_iff_walksTo`: What a path leads to in
  any tree.
* `isFolder_of_join`: On the way to a folder are folders.
* `locate_eq_ok_iff`, `isFolder_iff`, `readContent_eq_ok_iff`: What is found at
  a path is what stands at its place.
* `write_eq_ok_iff`: What is written at a path goes to its place.
* `exists_of_place?`: The folder and the name of a place.
* `place?_mono`, `place?_of_sameFolders`: Places depend on folders only.
* `steps_of_place?`, `exists_of_place?_steps`: The last name of a path is the
  last name of its place.
* `place?_behind`: The place of a path that goes on from another one.
* `place?_eq_location`, `place?_of_get?`: The place of a path without double
  dots.
-/

namespace SchemaRename.FileTree

/-- The location that a path leads to. Only its last name may be missing. -/
def place? (t : FileTree) (p : Path) : Option Location :=
  (t.resolve true p).toOption.map Place.location

/-- The folder that a path starts from. -/
def origin (t : FileTree) (p : Path) : Location :=
  if p.isAbsolute then [] else t.workingFolder

/-- The location that a path names if it has no double dots. -/
def location (t : FileTree) (p : Path) : Location :=
  t.origin p ++ p.steps.filter (· != ".")

theorem IsOrderly.origin_folder {t : FileTree} (ht : t.IsOrderly) (p : Path) :
    t.get? (t.origin p) = some .folder := by
  rw [origin]
  split
  · exact get?_root t
  · exact ht.working

/-- The location of a path with a piece behind it. -/
theorem location_join (t : FileTree) (p : Path) (s : String) (hs : '/' ∉ s.toList) :
    t.location (p.join s) = t.location p ++ [s].filter (fun n => n != "." && n != "") := by
  rw [location, location, origin, origin, Path.isAbsolute_join p s hs, Path.steps_join p s hs,
    List.filter_append, List.append_assoc, List.filter_filter]

theorem resolveSteps_eq_ok_iff (t : FileTree) (follow : Bool) (p : Path) (names : List String)
    (place : Place) : t.resolveSteps follow p names = .ok place ↔
      p.text ≠ "" ∧ p.text.utf8ByteSize ≤ maxPathSize ∧
        t.walk follow maxLinks (t.origin p) names = .ok place := by
  rw [resolveSteps]
  by_cases hempty : p.text = ""
  · simp [hempty]
  · rw [if_neg (by simpa using hempty)]
    by_cases hsize : maxPathSize < p.text.utf8ByteSize
    · rw [if_pos hsize]
      constructor
      · intro h
        simp at h
      · rintro ⟨-, hle, -⟩
        omega
    · rw [if_neg hsize]
      constructor
      · intro h
        exact ⟨hempty, by omega, h⟩
      · exact fun h => h.2.2

/-- The two ways of leading to a location. -/
theorem place?_eq_some_iff (t : FileTree) (p : Path) (l : Location) :
    t.place? p = some l ↔ t.resolve true p = .ok (.found l) ∨
      ∃ folder n, l = folder ++ [n] ∧ t.resolve true p = .ok (.missing folder n) := by
  rw [place?]
  cases h : t.resolve true p with
  | error e => simp [Except.toOption]
  | ok place =>
      cases place with
      | found k => simp [Except.toOption, Place.location]
      | missing folder n =>
          simp only [Except.toOption, Option.map_some, Place.location, Option.some.injEq,
            Except.ok.injEq, reduceCtorEq, Place.missing.injEq, false_or]
          constructor
          · rintro rfl
            exact ⟨folder, n, rfl, rfl, rfl⟩
          · rintro ⟨folder', n', rfl, rfl, rfl⟩
            rfl

/-- A path leads to a location if it is a proper path and its walk ends
    there. -/
theorem place?_eq_some_iff_walk (t : FileTree) (p : Path) (l : Location) :
    t.place? p = some l ↔ p.text ≠ "" ∧ p.text.utf8ByteSize ≤ maxPathSize ∧
      ∃ place, t.walk true maxLinks (t.origin p) p.stepsToFolder = .ok place ∧
        place.location = l := by
  have hresolve : t.place? p = some l ↔ ∃ place, t.resolve true p = .ok place ∧
      place.location = l := by
    rw [place?]
    cases t.resolve true p with
    | error e => simp [Except.toOption]
    | ok place => simp [Except.toOption]
  rw [hresolve]
  simp only [resolve, resolveSteps_eq_ok_iff]
  constructor
  · rintro ⟨place, ⟨hne, hsize, hwalk⟩, hl⟩
    exact ⟨hne, hsize, place, hwalk, hl⟩
  · rintro ⟨hne, hsize, place, hwalk, hl⟩
    exact ⟨place, ⟨hne, hsize, hwalk⟩, hl⟩

/-- What a path leads to as missing is missing, in any tree. -/
theorem get?_of_resolveSteps_missing (t : FileTree) (follow : Bool) (p : Path)
    (names : List String) (folder : Location) (n : String)
    (h : t.resolveSteps follow p names = .ok (.missing folder n)) :
    t.get? (folder ++ [n]) = none := by
  rw [resolveSteps_eq_ok_iff] at h
  exact get?_of_walk_missing t follow _ _ _ folder n h.2.2

/-- What is written at a path goes to its place, unless a folder is there. -/
theorem write_eq_ok_iff (t : FileTree) (p : Path) (content : Content) (t' : FileTree) :
    t.write p content = .ok t' ↔ ∃ l, t.place? p = some l ∧ t.get? l ≠ some .folder ∧
      t' = t.insert l (.file content) := by
  rw [write]
  simp only [place?_eq_some_iff]
  cases h : t.resolve true p with
  | error e => simp [bind, Except.bind]
  | ok place =>
      cases place with
      | found l =>
          simp only [bind, Except.bind, Except.ok.injEq, Place.found.injEq, reduceCtorEq,
            and_false, exists_false, or_false, exists_eq_left']
          cases hl : t.get? l with
          | none => simp [pure, Except.pure, eq_comm]
          | some entry =>
              cases entry <;>
                simp [pure, Except.pure, throw, throwThe, MonadExceptOf.throw, eq_comm]
      | missing folder n =>
          have hnone := get?_of_resolveSteps_missing t true p _ folder n h
          simp only [bind, Except.bind, pure, Except.pure, Except.ok.injEq, reduceCtorEq,
            Place.missing.injEq, false_or]
          constructor
          · rintro rfl
            exact ⟨folder ++ [n], ⟨folder, n, rfl, rfl, rfl⟩, by simp [hnone], rfl⟩
          · rintro ⟨l, ⟨folder', n', rfl, rfl, rfl⟩, -, rfl⟩
            rfl

/-- The empty path leads to no folder. -/
theorem text_ne_empty_of_isFolder (t : FileTree) (p : Path)
    (h : t.isFolder p = true) : p.text ≠ "" := by
  intro hempty
  simp [isFolder, entryAt?, locate, resolve, resolveSteps, hempty, bind, Except.bind] at h

theorem exists_of_isFolder (t : FileTree) (p : Path) (h : t.isFolder p = true) :
    ∃ l, t.locate true p = .ok l ∧ t.get? l = some .folder := by
  rw [isFolder, entryAt?] at h
  cases hlocate : t.locate true p with
  | error e => simp [hlocate] at h
  | ok l =>
      simp only [hlocate] at h
      split at h
      · next hfolder => exact ⟨l, rfl, hfolder⟩
      · cases h

/-- The names in a folder can be listed. -/
theorem list_ok_of_isFolder (t : FileTree) (p : Path) (h : t.isFolder p = true) :
    ∃ names, t.list p = .ok names := by
  obtain ⟨l, hlocate, hfolder⟩ := exists_of_isFolder t p h
  refine ⟨t.children l, ?_⟩
  simp only [list, hlocate, bind, Except.bind, hfolder]
  rfl

theorem isFolder_of_list (t : FileTree) (p : Path) (names : List String)
    (h : t.list p = .ok names) : t.isFolder p = true := by
  rw [list] at h
  rw [isFolder, entryAt?]
  cases hlocate : t.locate true p with
  | error e => simp [hlocate, bind, Except.bind] at h
  | ok l =>
      simp only [hlocate, bind, Except.bind] at h
      split at h
      · next hfolder => simp only [hfolder]
      · cases h

section

variable {t : FileTree}

theorem locate_eq_ok_iff_walksTo (follow : Bool) (p : Path) (l : Location) :
    t.locate follow p = .ok l ↔ p.text ≠ "" ∧ p.text.utf8ByteSize ≤ maxPathSize ∧
      WalksTo t follow maxLinks (t.origin p) p.stepsToFolder (.found l) := by
  rw [← walk_eq_ok_iff, ← resolveSteps_eq_ok_iff, locate, resolve]
  cases t.resolveSteps follow p p.stepsToFolder with
  | error e => simp [bind, Except.bind]
  | ok place =>
      cases place <;>
        simp [bind, Except.bind, pure, Except.pure, throw, throwThe, MonadExceptOf.throw]

/-- What leads to a folder, whatever slashes it ends in. -/
theorem locate_folder_iff (p : Path) (l : Location) :
    t.locate true p = .ok l ∧ t.get? l = some .folder ↔
      p.text ≠ "" ∧ p.text.utf8ByteSize ≤ maxPathSize ∧
        WalksTo t true maxLinks (t.origin p) p.steps (.found l) ∧ t.get? l = some .folder := by
  rw [locate_eq_ok_iff_walksTo, Path.stepsToFolder]
  split
  · constructor
    · rintro ⟨⟨hne, hsize, h⟩, hl⟩
      exact ⟨hne, hsize, h.of_dot⟩
    · rintro ⟨hne, hsize, h, hl⟩
      exact ⟨⟨hne, hsize, h.dot hl⟩, hl⟩
  · rw [List.append_nil]
    tauto

theorem isFolder_iff_locate (p : Path) :
    t.isFolder p = true ↔ ∃ l, t.locate true p = .ok l ∧ t.get? l = some .folder := by
  refine ⟨exists_of_isFolder t p, ?_⟩
  rintro ⟨l, hlocate, hl⟩
  rw [isFolder, entryAt?, hlocate]
  simp only [hl]

theorem isFolder_iff_walksTo (p : Path) :
    t.isFolder p = true ↔ p.text ≠ "" ∧ p.text.utf8ByteSize ≤ maxPathSize ∧
      ∃ l, WalksTo t true maxLinks (t.origin p) p.steps (.found l) ∧ t.get? l = some .folder := by
  simp only [isFolder_iff_locate, locate_folder_iff, exists_and_left]

/-- On the way to a folder there are folders. -/
theorem isFolder_of_join (p : Path) (hp : p.text ≠ "") (s : String) (hs : '/' ∉ s.toList)
    (h : t.isFolder (p.join s) = true) : t.isFolder p = true := by
  obtain ⟨-, hsize, l, hwalks, hl⟩ := (isFolder_iff_walksTo _).mp h
  rw [isFolder_iff_walksTo]
  refine ⟨hp, Nat.le_trans (Path.size_le_join p s hs) hsize, ?_⟩
  rw [origin, Path.isAbsolute_join p s hs, ← origin, Path.steps_join p s hs] at hwalks
  by_cases hnil : [s].filter (· != "") = []
  · rw [hnil, List.append_nil] at hwalks
    exact ⟨l, hwalks, hl⟩
  · obtain ⟨mid, -, hfront, hmid, -⟩ := hwalks.exists_mid hnil
    exact ⟨mid, hfront, hmid⟩

end

section Place

variable {t : FileTree} (ht : t.IsPlain)
include ht

theorem resolveSteps_follow (follow : Bool) (p : Path) (names : List String) :
    t.resolveSteps follow p names = t.resolveSteps true p names := by
  simp only [resolveSteps]
  rw [walk_follow ht follow]

theorem resolve_follow (follow : Bool) (p : Path) : t.resolve follow p = t.resolve true p :=
  resolveSteps_follow ht follow p _

theorem isSome_of_resolve (p : Path) (l : Location) (h : t.resolve true p = .ok (.found l)) :
    (t.get? l).isSome := by
  rw [resolve, resolveSteps_eq_ok_iff] at h
  exact isSome_of_walk ht _ _ _ _ _ (by rw [ht.origin_folder]; rfl) h.2.2

/-- A location that a path leads to and that is no folder stands in a folder
    under a proper name. -/
theorem exists_of_place? (p : Path) (l : Location) (h : t.place? p = some l)
    (hl : t.get? l ≠ some .folder) :
    ∃ folder n, l = folder ++ [n] ∧ t.get? folder = some .folder ∧ isEntryName n = true := by
  rcases (place?_eq_some_iff t p l).mp h with hfound | ⟨folder, n, rfl, hmissing⟩
  · have hsome := isSome_of_resolve ht p l hfound
    have hne := ne_nil_of_get?_ne t hl
    rw [← List.dropLast_append_getLast hne] at hsome
    refine ⟨l.dropLast, l.getLast hne, (List.dropLast_append_getLast hne).symm,
      ht.housed _ _ hsome, ht.named _ hsome _ (by simp)⟩
  · rw [resolve, resolveSteps_eq_ok_iff] at hmissing
    obtain ⟨hfolder, hmem, hdot, hdots, hsize⟩ := missing_of_walk ht _ _ _ _ _ _ hmissing.2.2
    have hstep := Path.mem_steps p n (Path.mem_steps_of_mem_stepsToFolder p n hmem hdot)
    exact ⟨folder, n, rfl, hfolder,
      (isEntryName_iff n).mpr ⟨⟨hstep.2, hstep.1, hdot, hdots⟩, hsize⟩⟩

theorem locate_eq_ok_iff (follow : Bool) (p : Path) (l : Location) :
    t.locate follow p = .ok l ↔ t.place? p = some l ∧ (t.get? l).isSome := by
  rw [locate, resolve_follow ht follow p, place?_eq_some_iff]
  cases h : t.resolve true p with
  | error e => simp [bind, Except.bind]
  | ok place =>
      cases place with
      | found k =>
          have hsome := isSome_of_resolve ht p k h
          simp only [bind, Except.bind, pure, Except.pure, Except.ok.injEq, Place.found.injEq,
            reduceCtorEq, and_false, exists_false, or_false]
          exact ⟨fun hkl => ⟨hkl, hkl ▸ hsome⟩, fun hkl => hkl.1⟩
      | missing folder n =>
          have hnone := get?_of_resolveSteps_missing t true p _ folder n h
          simp only [bind, Except.bind, throw, throwThe, MonadExceptOf.throw, reduceCtorEq,
            Except.ok.injEq, Place.missing.injEq, false_or, false_iff]
          rintro ⟨⟨folder', n', rfl, rfl, rfl⟩, hsome⟩
          rw [hnone] at hsome
          simp at hsome

/-- What is found at a path is what stands at its place. -/
theorem entryAt?_eq (follow : Bool) (p : Path) :
    t.entryAt? follow p = (t.place? p).bind t.get? := by
  rw [entryAt?]
  cases h : t.locate follow p with
  | ok l =>
      have hplace := (locate_eq_ok_iff ht follow p l).mp h
      rw [hplace.1]
      rfl
  | error e =>
      cases hplace : t.place? p with
      | none => rfl
      | some l =>
          cases hl : t.get? l with
          | none => simp [hl]
          | some entry =>
              have hok := (locate_eq_ok_iff ht follow p l).mpr ⟨hplace, by rw [hl]; rfl⟩
              rw [h] at hok
              simp at hok

theorem isFolder_iff (p : Path) :
    t.isFolder p = true ↔ ∃ l, t.place? p = some l ∧ t.get? l = some .folder := by
  rw [← Option.bind_eq_some_iff, ← entryAt?_eq ht true p, isFolder]
  cases t.entryAt? true p with
  | none => simp
  | some entry => cases entry <;> simp

theorem isFile_iff (p : Path) :
    t.isFile p = true ↔ ∃ l, t.place? p = some l ∧ ∃ content, t.get? l = some (.file content) := by
  have hexists : (∃ l, t.place? p = some l ∧ ∃ content, t.get? l = some (.file content)) ↔
      ∃ content, (t.place? p).bind t.get? = some (.file content) := by
    simp only [Option.bind_eq_some_iff]
    exact ⟨fun ⟨l, hl, c, hc⟩ => ⟨c, l, hl, hc⟩, fun ⟨c, l, hl, hc⟩ => ⟨l, hl, c, hc⟩⟩
  rw [hexists, ← entryAt?_eq ht true p, isFile]
  cases t.entryAt? true p with
  | none => simp
  | some entry => cases entry <;> simp

/-- What is read at a path is the content at its place. -/
theorem readContent_eq_ok_iff (p : Path) (content : Content) :
    t.readContent p = .ok content ↔
      ∃ l, t.place? p = some l ∧ t.get? l = some (.file content) := by
  rw [readContent]
  cases h : t.locate true p with
  | error e =>
      simp only [bind, Except.bind, reduceCtorEq, false_iff]
      rintro ⟨l, hl, hfile⟩
      have hok := (locate_eq_ok_iff ht true p l).mpr ⟨hl, by rw [hfile]; rfl⟩
      rw [h] at hok
      simp at hok
  | ok l =>
      have hplace := ((locate_eq_ok_iff ht true p l).mp h).1
      simp only [bind, Except.bind, hplace, Option.some.injEq, exists_eq_left']
      cases hl : t.get? l with
      | none => simp [throw, throwThe, MonadExceptOf.throw]
      | some entry => cases entry <;> simp [pure, Except.pure, throw, throwThe, MonadExceptOf.throw]

/-- What is read at a path as text is the text at its place. -/
theorem readText_eq_ok_iff (p : Path) (s : String) :
    t.readText p = .ok s ↔ ∃ l, t.place? p = some l ∧ t.get? l = some (.file (.text s)) := by
  rw [← readContent_eq_ok_iff ht, readText]
  cases t.readContent p with
  | error e => simp [bind, Except.bind]
  | ok content =>
      cases content <;>
        simp [bind, Except.bind, pure, Except.pure, throw, throwThe, MonadExceptOf.throw]

/-- A path that leads to a place leads there in every tree that has the same
    folders, and maybe more. -/
theorem place?_mono {t' : FileTree} (ht' : t'.IsPlain)
    (h : ∀ l, t.get? l = some .folder → t'.get? l = some .folder)
    (hwork : t'.workingFolder = t.workingFolder) (p : Path) (l : Location)
    (hl : t.place? p = some l) : t'.place? p = some l := by
  obtain ⟨hne, hsize, place, hwalk, rfl⟩ := (place?_eq_some_iff_walk t p l).mp hl
  have horigin : t'.origin p = t.origin p := by rw [origin, origin, hwork]
  obtain ⟨place', hwalk', hlocation⟩ := walk_moreFolders ht ht' h _ _ _ _ _ hwalk
  rw [place?_eq_some_iff_walk, horigin]
  exact ⟨hne, hsize, place', hwalk', hlocation⟩

/-- Places depend on folders only. -/
theorem place?_of_sameFolders {t' : FileTree} (ht' : t'.IsPlain) (h : SameFolders t t')
    (p : Path) : t'.place? p = t.place? p := by
  cases hp : t.place? p with
  | some l => exact place?_mono ht ht' (fun m => (h.folder_iff m).mpr) h.working p l hp
  | none =>
      cases hp' : t'.place? p with
      | none => rfl
      | some l =>
          have := place?_mono ht' ht (fun m => (h.folder_iff m).mp) h.working.symm p l hp'
          rw [hp] at this
          simp at this

/-- The same paths lead to folders in trees with the same folders. -/
theorem isFolder_sameFolders {t' : FileTree} (ht' : t'.IsPlain) (h : SameFolders t t')
    (p : Path) : t'.isFolder p = t.isFolder p := by
  rw [Bool.eq_iff_iff, isFolder_iff ht', isFolder_iff ht, place?_of_sameFolders ht ht' h]
  simp only [h.folder_iff]

/-- A path without double dots leads to the location it names. -/
theorem place?_eq_location (p : Path) (hdots : ".." ∉ p.steps) (l : Location)
    (h : t.place? p = some l) : l = t.location p := by
  obtain ⟨-, -, place, hwalk, rfl⟩ := (place?_eq_some_iff_walk t p l).mp h
  have hmem : ".." ∉ p.stepsToFolder := fun hmem =>
    hdots (Path.mem_steps_of_mem_stepsToFolder p ".." hmem (by decide))
  rw [location_of_walk ht _ _ _ _ _ hmem hwalk, Path.filter_stepsToFolder]
  rfl

/-- The last name of a path is the last name of its place. -/
theorem exists_of_place?_steps (p : Path) (front : List String) (s : String)
    (hsteps : p.steps = front ++ [s]) (hs : IsFileName s) (hslash : p.endsInSlash = false)
    (l : Location) (h : t.place? p = some l) : ∃ folder, l = folder ++ [s] := by
  obtain ⟨-, -, place, hwalk, rfl⟩ := (place?_eq_some_iff_walk t p l).mp h
  rw [Path.stepsToFolder, hslash, if_neg Bool.false_ne_true, List.append_nil, hsteps] at hwalk
  obtain ⟨folder, -, -, hlocation⟩ := location_of_walk_down ht _ _ _ front [s]
    (List.cons_ne_nil _ _) (by simpa using hs) place hwalk
  exact ⟨folder, hlocation⟩

/-- A path that does not lead to a folder ends with the name of its place. -/
theorem steps_of_place? (p : Path) (l : Location) (hplace : t.place? p = some l)
    (hl : t.get? l ≠ some .folder) :
    ∃ front folder n, p.steps = front ++ [n] ∧ l = folder ++ [n] ∧ IsFileName n ∧
      p.endsInSlash = false := by
  obtain ⟨-, -, place, hwalk, rfl⟩ := (place?_eq_some_iff_walk t p l).mp hplace
  obtain ⟨front, folder, n, hsteps, hlocation, hdot, hdots⟩ := last_of_walk ht true maxLinks _ _
    (ht.origin_folder p) place hl hwalk
  rw [Path.stepsToFolder] at hsteps
  cases hslash : p.endsInSlash with
  | true =>
      rw [hslash, if_pos rfl] at hsteps
      exact absurd (List.singleton_inj.mp (List.append_inj' hsteps rfl).2).symm hdot
  | false =>
      rw [hslash, if_neg Bool.false_ne_true, List.append_nil] at hsteps
      obtain ⟨hne, hnoslash⟩ := Path.mem_steps p n (by simp [hsteps])
      exact ⟨front, folder, n, hsteps, hlocation, ⟨hnoslash, hne, hdot, hdots⟩, rfl⟩

/-- A path that ends in a name leads where its steps lead, dots aside. -/
theorem walk_of_place? (p : Path) (front : List String) (s : String)
    (hsteps : p.steps = front ++ [s]) (hs : IsFileName s) (hslash : p.endsInSlash = false)
    (l : Location) (h : t.place? p = some l) :
    ∃ place, t.walk true maxLinks (t.origin p) (p.steps.filter (· != ".")) = .ok place ∧
      place.location = l := by
  obtain ⟨-, -, place, hwalk, hl⟩ := (place?_eq_some_iff_walk t p l).mp h
  have hlast : p.steps.getLast? ≠ some "." := by
    rw [hsteps, List.getLast?_concat]
    exact fun heq => hs.ne_dot (Option.some.inj heq)
  rw [Path.stepsToFolder, hslash, if_neg Bool.false_ne_true, List.append_nil,
    walk_filter_dots ht _ _ _ _ hlast] at hwalk
  exact ⟨place, hwalk, hl⟩

/-- The place of a path that goes on from a folder by a name. -/
theorem place?_behind (p folder : Path) (front : List String) (s : String)
    (hcomponents : p.components = folder.components ++ [.name s])
    (hsteps : p.steps = front ++ [s]) (hs : IsFileName s) (hslash : p.endsInSlash = false)
    (l : Location) (h : t.place? p = some l) :
    ∃ mid, t.walk true maxLinks (t.origin folder) (folder.steps.filter (· != ".")) =
        .ok (.found mid) ∧ t.get? mid = some .folder ∧ l = mid ++ [s] := by
  obtain ⟨place, hwalk, rfl⟩ := walk_of_place? ht p front s hsteps hs hslash l h
  obtain ⟨habsolute, hnames⟩ := Path.steps_of_components_append p folder [s] hcomponents
  rw [hnames, origin, habsolute, ← origin] at hwalk
  exact location_of_walk_down ht _ _ _ _ [s] (List.cons_ne_nil _ _) (by simpa using hs) place hwalk

/-- The place of a name put behind a folder. -/
theorem place?_behind_join (folder : Path) (s : String) (hs : IsFileName s) (l : Location)
    (h : t.place? (folder.join s) = some l) :
    ∃ mid, t.walk true maxLinks (t.origin folder) (folder.steps.filter (· != ".")) =
        .ok (.found mid) ∧ t.get? mid = some .folder ∧ l = mid ++ [s] :=
  place?_behind ht _ folder _ s (Path.components_join folder s hs)
    (Path.steps_join_name folder s hs) hs
    (Path.endsInSlash_join folder s hs.noSlash hs.ne_empty) l h

/-- Paths that say the same and ask for no folder lead to the same location,
    if they are short enough. -/
theorem place?_of_same (p q : Path) (hsame : p.same q = true) (hp : p.endsInSlash = false)
    (hq : q.endsInSlash = false) (hplast : p.steps.getLast? ≠ some ".")
    (hqlast : q.steps.getLast? ≠ some ".") (hne : p.text ≠ "")
    (hsize : p.text.utf8ByteSize ≤ maxPathSize) (l : Location) (h : t.place? q = some l) :
    t.place? p = some l := by
  obtain ⟨-, -, place, hwalk, hl⟩ := (place?_eq_some_iff_walk t q l).mp h
  obtain ⟨habsolute, hsteps⟩ := Path.steps_of_components_eq p q (beq_iff_eq.mp hsame)
  have horigin : t.origin p = t.origin q := by rw [origin, origin, habsolute]
  rw [place?_eq_some_iff_walk]
  refine ⟨hne, hsize, place, ?_, hl⟩
  rw [Path.stepsToFolder, hq, if_neg Bool.false_ne_true, List.append_nil,
    walk_filter_dots ht _ _ _ _ hqlast] at hwalk
  rw [Path.stepsToFolder, hp, if_neg Bool.false_ne_true, List.append_nil,
    walk_filter_dots ht _ _ _ _ hplast, hsteps, horigin]
  exact hwalk

/-- What stands at the location that a path names is found there, if the path
    is short enough and does not ask for a folder where there is a file. -/
theorem place?_of_get? (p : Path) (hdots : ".." ∉ p.steps) (hne : p.text ≠ "")
    (hsize : p.text.utf8ByteSize ≤ maxPathSize) (e : Entry) (h : t.get? (t.location p) = some e)
    (hlast : e = .folder ∨ (p.endsInSlash = false ∧ p.steps.getLast? ≠ some ".")) :
    t.place? p = some (t.location p) := by
  have hmem : ".." ∉ p.stepsToFolder := fun hmem =>
    hdots (Path.mem_steps_of_mem_stepsToFolder p ".." hmem (by decide))
  have hlast' : e = .folder ∨ p.stepsToFolder.getLast? ≠ some "." := by
    rcases hlast with hfolder | ⟨hslash, hdot⟩
    · exact Or.inl hfolder
    · right
      rwa [Path.stepsToFolder, hslash, if_neg Bool.false_ne_true, List.append_nil]
  rw [location, ← Path.filter_stepsToFolder] at h
  have hwalk := walk_of_get? ht true maxLinks (t.origin p) p.stepsToFolder e hmem h hlast'
  rw [place?_eq_some_iff_walk, location, ← Path.filter_stepsToFolder]
  exact ⟨hne, hsize, _, hwalk, rfl⟩

/-- A path without double dots leads to a folder if it is a proper path and
    names one. -/
theorem isFolder_iff_location (p : Path) (hdots : ".." ∉ p.steps) :
    t.isFolder p = true ↔ p.text ≠ "" ∧ p.text.utf8ByteSize ≤ maxPathSize ∧
      t.get? (t.location p) = some .folder := by
  rw [isFolder_iff ht]
  constructor
  · rintro ⟨l, hplace, hfolder⟩
    obtain ⟨hne, hsize, -⟩ := (place?_eq_some_iff_walk t p l).mp hplace
    rw [place?_eq_location ht p hdots l hplace] at hfolder
    exact ⟨hne, hsize, hfolder⟩
  · rintro ⟨hne, hsize, hfolder⟩
    exact ⟨_, place?_of_get? ht p hdots hne hsize .folder hfolder (Or.inl rfl), hfolder⟩

/-- The names in the folder that a path names. -/
theorem list_eq_ok (p : Path) (hdots : ".." ∉ p.steps) (hfolder : t.isFolder p = true) :
    t.list p = .ok (t.children (t.location p)) := by
  obtain ⟨hne, hsize, hget⟩ := (isFolder_iff_location ht p hdots).mp hfolder
  have hplace := place?_of_get? ht p hdots hne hsize .folder hget (Or.inl rfl)
  have hlocate := (locate_eq_ok_iff ht true p _).mpr ⟨hplace, by rw [hget]; rfl⟩
  simp [list, hlocate, bind, Except.bind, hget, pure, Except.pure]

end Place

end SchemaRename.FileTree
