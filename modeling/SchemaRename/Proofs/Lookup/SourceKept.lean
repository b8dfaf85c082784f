import SchemaRename.Proofs.FileTree.Siblings
import SchemaRename.Proofs.Lookup.LastWord

/-!
# The Source of a Migration

When the file that a lookup is read from is still there afterwards.

A migration leaves its source alone, and refuses a destination that is the
source. It compares the two by what their paths say, and that is not all there
is to it: double dots lead to the same file on another way, and the text goes
through a temporary file that may be the source. Where neither is the case the
source stays as it was, whatever else happens.

Both can be seen from the names. A path that goes down from its `fields`
folder and a new name without a slash meet at the same place only if they say
the same, however the path gets to the folder.

## Main definitions

* `IsTemporaryOf`: The location of the temporary file of a path.
* `TellsApart`: A destination that is not the source unless it says so.

## Theorems

* `fileName?_of_file`: The last name of a path to a file is the file's name.
* `writeDestinations_keeps`, `writeDestinations_frame`: What the destinations of
  a text leave alone.
* `steps_behind_fieldsFolder`: What is left of a path behind its folder.
* `tellsApart_of_names`: Names that are enough to tell.
* `migrateReference_keeps_source`: What becomes of the source.
* `migrateReference_overwrites_source`: A source that is lost.
-/

namespace SchemaRename

open SchemaRename.Markup
open SchemaRename.FileTree

namespace FileTree

section

variable {t : FileTree} (ht : t.IsPlain)
include ht

/-- The last name of a path to a file is the file's name. -/
theorem fileName?_of_file (p : Path) (folder : Location) (n : String) (content : Content)
    (hplace : t.place? p = some (folder ++ [n]))
    (hfile : t.get? (folder ++ [n]) = some (.file content)) : p.fileName? = some n := by
  obtain ⟨front, folder', n', hsteps, hl, hn', -⟩ :=
    steps_of_place? ht p _ hplace (by simp [hfile])
  obtain rfl : n = n' := List.singleton_inj.mp (List.append_inj' hl rfl).2
  exact Path.fileName?_of_steps p front n hsteps hn'

end

end FileTree

/-- The temporary file of a destination has the destination's name. -/
theorem IsDestination.name_of_temporary {t : FileTree} (ht : t.IsPlain) {d : Path}
    (hd : IsDestination d) (m : Location) (h : t.temporaryPlace? d = some m) :
    ∃ folder name, d.fileName? = some name ∧ m = folder ++ [name ++ temporarySuffix] := by
  obtain ⟨front, last, hsteps, hname, hslash⟩ := hd.steps
  -- The name is the same, whether the path is followed or not.
  have hlast : (t.writeTarget d).fileName? = some (last ++ fieldFileSuffix) := by
    rw [writeTarget, canonical?]
    cases hlocate : t.locate true d with
    | error e => exact Path.fileName?_of_steps d front _ hsteps hname
    | ok l =>
        obtain ⟨hplace, hsome⟩ := (locate_eq_ok_iff ht true d l).mp hlocate
        obtain ⟨folder, rfl⟩ := exists_of_place?_steps ht d front _ hsteps hname hslash l hplace
        exact (Path.parts_path folder _ fun n hn =>
          isFileName_of_isEntryName (ht.named _ hsome n hn)).2
  rw [temporaryPlace?, temporaryPath?, hlast] at h
  cases hparent : (t.writeTarget d).parent? with
  | none =>
      rw [hparent] at h
      cases h
  | some parent =>
      rw [hparent] at h
      have hs := isFileName_temporary _ hname
      obtain ⟨folder, rfl⟩ := exists_of_place?_steps ht _ _ _ (Path.steps_join_name parent _ hs) hs
        (Path.endsInSlash_join parent _ hs.noSlash hs.ne_empty) m h
      exact ⟨folder, _, Path.fileName?_of_steps d front _ hsteps hname, rfl⟩

/-- The location of the temporary file of a path: the sibling of the place that
    the path leads to. A path that leads nowhere, since it is too long for one,
    may have a temporary file all the same. -/
def IsTemporaryOf (t : FileTree) (p : Path) (m : Location) : Prop :=
  (∃ folder name, t.place? p = some (folder ++ [name]) ∧
      m = folder ++ [name ++ temporarySuffix]) ∨
    (t.place? p = none ∧ t.temporaryPlace? p = some m)

theorem IsTemporaryOf.isTemporary {t : FileTree} (ht : t.IsPlain) {p : Path} {m : Location}
    (h : IsTemporaryOf t p m) : IsTemporary m := by
  rcases h with ⟨folder, name, -, hm⟩ | ⟨-, htemporary⟩
  · exact ⟨folder, name, hm⟩
  · exact isTemporary_of_temporaryPlace? ht p m htemporary

theorem IsTemporaryOf.of_sameFolders {t t' : FileTree} (ht : t.IsPlain) (ht' : t'.IsPlain)
    (hfolders : SameFolders t t') {p : Path} {m : Location} (h : IsTemporaryOf t' p m) :
    IsTemporaryOf t p m := by
  have hplaces := place?_of_sameFolders ht ht' hfolders
  rcases h with ⟨folder, name, hplace, hm⟩ | ⟨hnone, htemporary⟩
  · exact Or.inl ⟨folder, name, (hplaces p).symm.trans hplace, hm⟩
  · -- A path that leads nowhere is taken as it is in both trees.
    have hnone' : t.place? p = none := (hplaces p).symm.trans hnone
    refine Or.inr ⟨hnone', ?_⟩
    rw [temporaryPlace?, temporaryPath?, writeTarget_of_none ht' p (by simp [hnone]),
      show t'.place? = t.place? from funext hplaces] at htemporary
    rwa [temporaryPlace?, temporaryPath?, writeTarget_of_none ht p (by simp [hnone'])]

theorem IsDestination.isTemporaryOf {t : FileTree} (ht : t.IsPlain) {d : Path}
    (hd : IsDestination d) (m : Location) (h : t.temporaryPlace? d = some m) :
    IsTemporaryOf t d m := by
  cases hplace : t.place? d with
  | none => exact Or.inr ⟨hplace, h⟩
  | some l =>
      obtain ⟨front, last, hsteps, hlast, hslash⟩ := hd.steps
      obtain ⟨folder, rfl⟩ := exists_of_place?_steps ht d front _ hsteps hlast hslash l hplace
      exact Or.inl ⟨folder, _, hplace, eq_sibling_of_temporaryPlace? ht d folder _ hplace m h⟩

/-- The temporary file of a destination is named after the destination. -/
theorem IsTemporaryOf.name {t : FileTree} (ht : t.IsPlain) {d : Path} (hd : IsDestination d)
    {m : Location} (h : IsTemporaryOf t d m) :
    ∃ folder name, d.fileName? = some name ∧ m = folder ++ [name ++ temporarySuffix] := by
  rcases h with ⟨folder, name, hplace, hm⟩ | ⟨-, htemporary⟩
  · obtain ⟨front, last, hsteps, hlast, hslash⟩ := hd.steps
    obtain ⟨folder', hl⟩ := exists_of_place?_steps ht d front _ hsteps hlast hslash _ hplace
    obtain rfl : name = last ++ fieldFileSuffix :=
      List.singleton_inj.mp (List.append_inj' hl rfl).2
    exact ⟨folder, _, Path.fileName?_of_steps d front _ hsteps hlast, hm⟩
  · exact hd.name_of_temporary ht m htemporary

/-- What the destinations of a text leave alone: whatever they do not lead to
    and is not the temporary file of one of them. -/
theorem writeDestinations_keeps (text : String) (done destinations : List Path) (t : FileTree)
    (ht : t.IsPlain) (m : Location)
    (hdestinations : ∀ d ∈ destinations, IsDestination d ∧ t.place? d ≠ some m ∧
      ¬ IsTemporaryOf t d m) :
    (writeDestinations text done destinations t).2.get? m = t.get? m := by
  induction destinations generalizing done t with
  | nil => rfl
  | cons destination destinations ih =>
      have htail : ∀ d ∈ destinations, IsDestination d ∧ t.place? d ≠ some m ∧
          ¬ IsTemporaryOf t d m :=
        fun d hd => hdestinations d (List.mem_cons_of_mem _ hd)
      rw [writeDestinations]
      split
      · exact ih done t ht htail
      · obtain ⟨hdestination, hplace, hname⟩ := hdestinations destination List.mem_cons_self
        have hframe := writeAtomic_frame ht destination text ("write " ++ destination.text) m
          hplace fun htemporary => hname (hdestination.isTemporaryOf ht m htemporary)
        rcases writeAtomic_cases ht destination text ("write " ++ destination.text) with
          ⟨e, t₁, heq, -⟩ | ⟨l, t₁, heq, -, hreplaced⟩
        · rw [heq] at hframe ⊢
          exact hframe
        · rw [heq] at hframe ⊢
          refine (ih (destination :: done) t₁ hreplaced.plain fun d hd => ?_).trans hframe
          obtain ⟨hd', hplace', hname'⟩ := htail d hd
          rw [place?_of_sameFolders ht hreplaced.plain hreplaced.folders]
          exact ⟨hd', hplace', fun htemporary =>
            hname' (htemporary.of_sameFolders ht hreplaced.plain hreplaced.folders)⟩

/-- The same for whatever is not even named like the temporary file of one of
    them. -/
theorem writeDestinations_frame (text : String) (done destinations : List Path) (t : FileTree)
    (ht : t.IsPlain) (m : Location)
    (hdestinations : ∀ d ∈ destinations, IsDestination d ∧ t.place? d ≠ some m ∧
      ∀ folder name, d.fileName? = some name → m ≠ folder ++ [name ++ temporarySuffix]) :
    (writeDestinations text done destinations t).2.get? m = t.get? m := by
  refine writeDestinations_keeps text done destinations t ht m fun d hd => ?_
  obtain ⟨hdestination, hplace, hname⟩ := hdestinations d hd
  refine ⟨hdestination, hplace, fun htemporary => ?_⟩
  obtain ⟨folder, name, hlast, hm⟩ := htemporary.name ht hdestination
  exact hname folder name hlast hm

/-- A destination that leads to the source only if it says the same, and whose
    temporary file does not have the name of the source. -/
structure TellsApart (t : FileTree) (source destination : Path) : Prop where
  spelled : ∀ l, t.place? source = some l → t.place? destination = some l →
    destination.same source = true
  named : source.fileName? ≠ destination.fileName?.map (· ++ temporarySuffix)

/-- A path goes on from its `fields` folder. -/
theorem components_fieldsFolder (path folder : Path) (h : path.fieldsFolder? = some folder) :
    ∃ first rest back, folder.components = first :: rest ∧
      path.components = folder.components ++ back := by
  have hsplit : ∀ steps front, stepsToFields? steps = some front →
      front ≠ [] ∧ ∃ back, steps = front ++ back := by
    intro steps
    induction steps with
    | nil => simp [stepsToFields?]
    | cons step steps ih =>
        intro front hfront
        rw [stepsToFields?] at hfront
        split at hfront
        · cases hfront
          exact ⟨List.cons_ne_nil _ _, steps, rfl⟩
        · obtain ⟨front', hfront', rfl⟩ := Option.map_eq_some_iff.mp hfront
          obtain ⟨-, back, rfl⟩ := ih front' hfront'
          exact ⟨List.cons_ne_nil _ _, back, rfl⟩
  obtain ⟨front, hfront, rfl⟩ := Option.map_eq_some_iff.mp h
  obtain ⟨hne, back, hback⟩ := hsplit _ front hfront
  obtain ⟨first, rest, rfl⟩ := List.exists_cons_of_ne_nil hne
  have hcomponents := Path.components_ofComponents path _ back hback
  exact ⟨first, rest, back, hcomponents, by rw [hcomponents, hback]⟩

/-- A path that goes down from its `fields` folder does so by names. -/
theorem steps_behind_fieldsFolder (path folder : Path) (h : path.fieldsFolder? = some folder)
    (hdown : .parent ∉ path.components.drop folder.components.length) :
    ∃ names : List String, path.components = folder.components ++ names.map .name ∧
      (∀ n ∈ names, IsFileName n) ∧ path.isAbsolute = folder.isAbsolute ∧
      path.steps.filter (· != ".") = folder.steps.filter (· != ".") ++ names := by
  obtain ⟨first, rest, back, hfirst, hpath⟩ := components_fieldsFolder path folder h
  have htail := Path.ne_of_mem_tail_components path first (rest ++ back)
    (by rw [hpath, hfirst, List.cons_append])
  rw [hpath, List.drop_left] at hdown
  obtain ⟨names, rfl⟩ : ∃ names : List String, back = names.map .name := by
    refine ⟨back.map Component.text, ?_⟩
    rw [List.map_map, List.map_congr_left (g := id), List.map_id]
    intro c hc
    obtain ⟨hroot, hcurrent⟩ := htail c (List.mem_append_right rest hc)
    cases c with
    | root => exact absurd rfl hroot
    | current => exact absurd rfl hcurrent
    | parent => exact absurd hc hdown
    | name s => rfl
  refine ⟨names, hpath, fun n hn => Path.isFileName_of_mem_components path n ?_,
    Path.steps_of_components_append path folder names hpath⟩
  rw [hpath]
  exact List.mem_append_right _ (List.mem_map_of_mem hn)

/-- A file that a path goes down to from its `fields` folder is told from the
    file of a name in that folder, if the path does not end in the temporary
    name. -/
theorem tellsApart_of_names (t : FileTree) (ht : t.IsPlain) (path folder : Path)
    (hfile : t.isFile path = true) (hfolder : path.fieldsFolder? = some folder)
    (hdown : .parent ∉ path.components.drop folder.components.length)
    (rename : ObjectRename) (hslash : '/' ∉ rename.newObject.toList)
    (hname : path.fileName? ≠ some (rename.newObject ++ fieldFileSuffix ++ temporarySuffix)) :
    TellsApart t path (referenceTo folder rename).destination := by
  have hproper : IsFileName (rename.newObject ++ fieldFileSuffix) :=
    isFileName_append hslash (by decide) (by decide)
  refine ⟨?_, by rwa [referenceTo, Path.fileName?_join _ _ hproper]⟩
  intro l hsource hdestination
  obtain ⟨names, hpath, hnames, habsolute, hsteps⟩ :=
    steps_behind_fieldsFolder path folder hfolder hdown
  obtain ⟨content, hcontent⟩ : ∃ content, t.get? l = some (.file content) := by
    obtain ⟨l', hl', content, hcontent⟩ := (isFile_iff ht path).mp hfile
    cases hsource.symm.trans hl'
    exact ⟨content, hcontent⟩
  -- Both walks go to the folder first, and then down by their names.
  obtain ⟨front, -, n, hpathSteps, -, hn, hpathSlash⟩ :=
    steps_of_place? ht path l hsource (by simp [hcontent])
  obtain ⟨place, hwalk, hplace⟩ :=
    walk_of_place? ht path front n hpathSteps hn hpathSlash l hsource
  rw [hsteps, origin, habsolute, ← origin] at hwalk
  obtain ⟨mid, hmid, hmidFolder, hl⟩ := place?_behind_join ht folder _ hproper l hdestination
  -- Without a name the path would lead to the folder, and it leads to a file.
  have hne : names ≠ [] := by
    rintro rfl
    rw [List.append_nil, hmid] at hwalk
    cases hwalk
    have hfolderThere : t.get? l = some .folder := hplace ▸ hmidFolder
    rw [hcontent] at hfolderThere
    cases hfolderThere
  obtain ⟨mid', hmid', -, hlocation⟩ :=
    location_of_walk_down ht _ _ _ _ names hne hnames place hwalk
  cases hmid.symm.trans hmid'
  have hsame : names = [rename.newObject ++ fieldFileSuffix] := by
    rw [← List.append_cancel_left_eq mid, ← hlocation, hplace, hl]
  rw [Path.same, beq_iff_eq, hpath, hsame]
  exact Path.components_join folder _ hproper

/-- What a planned migration leaves is what its destinations leave. -/
theorem tree_migrateReference (t : FileTree) (path : Path) (candidates : List ObjectRename)
    (references : List RetargetedReference) (text : String)
    (hplan : planMigration t path candidates = .ok (references, text)) :
    (migrateReference t path candidates .apply).2 =
      (writeDestinations text [] (references.map (·.destination)) t).2 := by
  rw [migrateReference, hplan]
  simp only [WriteMode.writes, if_true]
  split <;> next heq => rw [heq]

/-- A migration leaves its source as it was, if it can tell each destination
    from it. -/
theorem migrateReference_keeps_source (t : FileTree) (ht : t.IsPlain) (path : Path)
    (candidates : List ObjectRename) (mode : WriteMode)
    (hapart : ∀ folder, path.fieldsFolder? = some folder →
      ∀ c ∈ candidates, TellsApart t path (referenceTo folder c).destination) :
    (migrateReference t path candidates mode).2.entryAt? true path = t.entryAt? true path := by
  cases mode with
  | dryRun =>
      rw [migrateReference]
      cases planMigration t path candidates <;> rfl
  | apply =>
      cases hplan : planMigration t path candidates with
      | error reason => rw [migrateReference, hplan]
      | ok plan =>
          obtain ⟨references, text⟩ := plan
          obtain ⟨document, folder, hcan, rfl, -⟩ :=
            (planMigration_eq_ok_iff t path candidates references text).mp hplan
          obtain ⟨content, hread, -⟩ := hcan.read
          obtain ⟨l, hplace, hfile⟩ := (readText_eq_ok_iff ht path content).mp hread
          obtain ⟨-, above, n, -, rfl, -⟩ := steps_of_place? ht path l hplace (by simp [hfile])
          have hpathName := fileName?_of_file ht path above n _ hplace hfile
          obtain ⟨hplain, hfolders⟩ := migrateReference_tree t ht path candidates
          rw [entryAt?_eq hplain, entryAt?_eq ht, place?_of_sameFolders ht hplain hfolders, hplace,
            Option.bind_some, Option.bind_some]
          rw [tree_migrateReference t path candidates _ text hplan]
          rw [map_destination_referenceTo]
          refine writeDestinations_frame text [] _ t ht (above ++ [n]) fun d hd => ?_
          have hdiffers := hcan.apart d hd
          obtain ⟨c, hc, rfl⟩ := List.mem_map.mp hd
          obtain ⟨e, -, hfits⟩ := List.mem_filterMap.mp hc
          obtain ⟨hspelled, hnamed⟩ :=
            hapart folder hcan.inFields c (List.mem_of_find?_eq_some hfits)
          refine ⟨isDestination_referenceTo folder c, ?_, ?_⟩
          · -- A destination that says the same as the source is refused.
            intro hsame
            rw [hspelled _ hplace hsame] at hdiffers
            cases hdiffers
          · intro folder' name hname heq
            have hn : n = name ++ temporarySuffix :=
              List.singleton_inj.mp (List.append_inj' heq rfl).2
            exact hnamed (by rw [hpathName, hname, hn]; rfl)

theorem migrateReference_keeps_source_rivals :
    rivalLookups.IsPlain ∧
      (migrateReference rivalLookups ⟨"fields/A.xml"⟩ rivalMap.objects .apply).2.entryAt? true
          ⟨"fields/A.xml"⟩ =
        some (.file (.text "<a><referenceTo>L</referenceTo></a>")) := by
  refine ⟨isPlain_rivalLookups, ?_⟩
  rw [migrateReference_keeps_source rivalLookups isPlain_rivalLookups]
  · decide +kernel
  · intro folder hfolder c hc
    have hfields : (Path.mk "fields/A.xml").fieldsFolder? = some ⟨"fields"⟩ := by decide +kernel
    obtain rfl : folder = ⟨"fields"⟩ := Option.some.inj (hfolder.symm.trans hfields)
    obtain rfl := List.mem_singleton.mp hc
    exact tellsApart_of_names rivalLookups isPlain_rivalLookups _ _ (by decide +kernel)
      hfolder (by decide +kernel) _ (by decide +kernel) (by decide +kernel)

/-- A folder with a lookup of some name. -/
def loneLookup (name : String) : FileTree :=
  { entries := [(["fields"], .folder),
      (["fields", name], .file (.text "<a><referenceTo>L</referenceTo></a>"))] }

/-- A source that is the temporary file of its destination is moved away. -/
example : (migrateReference (loneLookup "N.field-meta.xml.tmp")
    ⟨"fields/N.field-meta.xml.tmp"⟩ rivalMap.objects .apply).2.entryAt? true
      ⟨"fields/N.field-meta.xml.tmp"⟩ = none := by
  decide +kernel

/-- A lookup is lost when its path takes a detour to the destination: it is not
    so that a migration leaves its source as it was. -/
theorem migrateReference_overwrites_source :
    ¬ ∀ (t : FileTree) (path : Path) (candidates : List ObjectRename) (mode : WriteMode),
      t.IsPlain → checkObjects 0 candidates = .ok () →
      ∀ content, t.entryAt? true path = some (.file content) →
        (migrateReference t path candidates mode).2.entryAt? true path =
          some (.file content) := by
  intro h
  have hkept := h (loneLookup "N.field-meta.xml") ⟨"fields/../fields/N.field-meta.xml"⟩
    rivalMap.objects .apply (isPlain_of_check _ (by decide +kernel)) (by decide +kernel)
    (.text "<a><referenceTo>L</referenceTo></a>") (by decide +kernel)
  exact absurd hkept (by decide +kernel)

end SchemaRename
