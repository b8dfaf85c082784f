import SchemaRename.Proofs.FileTree.Replacing
import SchemaRename.Lookup

/-!
# What a Lookup Is Written To

Where the text of a migrated lookup goes, and what that leaves.

A text goes to its destinations one after the other. A destination that says
the same as one before is passed over, and the first write that fails ends it.
What has been written until then stays written, so the places that hold the
text in the end are those that a write has reached, whether or not the lookup
counts as migrated. No other place changes, temporary files apart.

No destination has a temporary name and no folder changes. That is why a text
that was written once is never lost to a later write of the same lookup, and
why every path leads to the same place throughout.

## Main definitions

* `IsDestination`: Paths that end like the files of field definitions.
* `WritesTo`: The places that a text is written to.
* `Delivered`: What writing a text to some destinations leaves.
* `Migratable`: A file that something is planned for.

## Theorems

* `IsDestination.not_isTemporary`: No destination has a temporary name.
* `delivered_writeDestinations`: What is left, step by step.
* `writeDestinations_reaches`: Every destination gets the text if nothing
  fails.
* `planMigration_eq_ok_iff`: What is planned for a file.
* `migrateReference_cases`: What the migration of a file does.
-/

namespace SchemaRename

open SchemaRename.Markup
open SchemaRename.FileTree

/-- The destinations of renames end like the files of field definitions. -/
def IsDestination (p : Path) : Prop :=
  ∃ front, p.text = front ++ fieldFileSuffix

theorem isDestination_referenceTo (folder : Path) (rename : ObjectRename) :
    IsDestination (referenceTo folder rename).destination := by
  rw [IsDestination, referenceTo, Path.join]
  split
  · exact ⟨_, rfl⟩
  · split
    · exact ⟨folder.text ++ rename.newObject, String.append_assoc.symm⟩
    · exact ⟨folder.text ++ "/" ++ rename.newObject, String.append_assoc.symm⟩

/-- The last step of a destination is a proper name with the ending of a field
    definition. -/
theorem IsDestination.steps {p : Path} (h : IsDestination p) :
    ∃ front last, p.steps = front ++ [last ++ fieldFileSuffix] ∧
      IsFileName (last ++ fieldFileSuffix) ∧ p.endsInSlash = false := by
  obtain ⟨text, htext⟩ := h
  obtain ⟨front, last, hsteps, hlast⟩ :=
    Path.steps_append text fieldFileSuffix (by decide) (by decide)
  have hp : p = ⟨text ++ fieldFileSuffix⟩ := congrArg Path.mk htext
  refine ⟨front, last, by rw [hp, hsteps], isFileName_append hlast (by decide) (by decide), ?_⟩
  rw [hp]
  exact Path.endsInSlash_append text fieldFileSuffix (by decide) (by decide)

theorem IsDestination.text_ne_empty {p : Path} (h : IsDestination p) : p.text ≠ "" := by
  obtain ⟨front, hfront⟩ := h
  rw [hfront]
  intro hempty
  have hlength := congrArg (fun s : String => s.toList.length) hempty
  simp [String.toList_append, fieldFileSuffix] at hlength

/-- No destination leads to a temporary name. -/
theorem IsDestination.not_isTemporary {t : FileTree} (ht : t.IsPlain) {p : Path}
    (h : IsDestination p) (l : Location) (hl : t.place? p = some l) : ¬ IsTemporary l := by
  obtain ⟨front, last, hsteps, hname, hslash⟩ := h.steps
  obtain ⟨folder, rfl⟩ := exists_of_place?_steps ht p front _ hsteps hname hslash l hl
  rintro ⟨folder', name, heq⟩
  have hlast : last ++ fieldFileSuffix = name ++ temporarySuffix :=
    (List.append_inj_right' heq rfl |> List.singleton_inj.mp)
  have hend := congrArg (fun s : String => s.toList.reverse.take 1) hlast
  simp [String.toList_append, fieldFileSuffix, temporarySuffix] at hend

/-- Destinations that say the same lead to the same place. -/
theorem IsDestination.place?_of_same {t : FileTree} (ht : t.IsPlain) {p q : Path}
    (hp : IsDestination p) (hq : IsDestination q) (hsame : p.same q = true)
    (hsize : p.text.utf8ByteSize ≤ maxPathSize) (l : Location) (hl : t.place? q = some l) :
    t.place? p = some l := by
  obtain ⟨frontp, lastp, hpsteps, hpname, hpslash⟩ := hp.steps
  obtain ⟨frontq, lastq, hqsteps, hqname, hqslash⟩ := hq.steps
  refine FileTree.place?_of_same ht p q hsame hpslash hqslash ?_ ?_ hp.text_ne_empty hsize l hl
  · rw [hpsteps, List.getLast?_concat]
    exact fun heq => hpname.ne_dot (Option.some.inj heq)
  · rw [hqsteps, List.getLast?_concat]
    exact fun heq => hqname.ne_dot (Option.some.inj heq)

/-- Writing a text to some destinations gets to a place: the write to one of
    them succeeds there. What comes of the destinations behind it does not
    matter, so this also holds if one of them fails. The ones in `done` have the
    text already, and whatever says the same is passed over. -/
inductive WritesTo (text : String) : List Path → List Path → FileTree → Location → Prop where
  | here {done : List Path} {d : Path} {ds : List Path} {t t₁ : FileTree} {l : Location}
      (hnew : done.any d.same = false)
      (hwrite : t.writeAtomic d text ("write " ++ d.text) = (.ok (), t₁))
      (hplace : t.place? d = some l) : WritesTo text done (d :: ds) t l
  | passed {done : List Path} {d : Path} {ds : List Path} {t : FileTree} {l : Location}
      (hdone : done.any d.same = true) (h : WritesTo text done ds t l) :
      WritesTo text done (d :: ds) t l
  | later {done : List Path} {d : Path} {ds : List Path} {t t₁ : FileTree} {l : Location}
      (hnew : done.any d.same = false)
      (hwrite : t.writeAtomic d text ("write " ++ d.text) = (.ok (), t₁))
      (h : WritesTo text (d :: done) ds t₁ l) : WritesTo text done (d :: ds) t l

section WritesTo

variable {text : String} {done : List Path} {d : Path} {ds : List Path} {t t₁ : FileTree}
  {l : Location}

theorem writesTo_cons_passed (hdone : done.any d.same = true) :
    WritesTo text done (d :: ds) t l ↔ WritesTo text done ds t l := by
  refine ⟨fun h => ?_, .passed hdone⟩
  cases h with
  | passed _ h => exact h
  | here hnew => exact absurd hdone (Bool.eq_false_iff.mp hnew)
  | later hnew => exact absurd hdone (Bool.eq_false_iff.mp hnew)

theorem writesTo_cons_written (hnew : done.any d.same = false)
    (hwrite : t.writeAtomic d text ("write " ++ d.text) = (.ok (), t₁)) :
    WritesTo text done (d :: ds) t l ↔ t.place? d = some l ∨ WritesTo text (d :: done) ds t₁ l := by
  refine ⟨fun h => ?_, fun h => h.elim (.here hnew hwrite) (.later hnew hwrite)⟩
  cases h with
  | here _ _ hplace => exact Or.inl hplace
  | passed hdone => exact absurd hdone (Bool.eq_false_iff.mp hnew)
  | later _ hwrite' h =>
      obtain rfl := congrArg Prod.snd (hwrite.symm.trans hwrite')
      exact Or.inr h

theorem not_writesTo_cons_failed {e : Error} (hnew : done.any d.same = false)
    (hfails : t.writeAtomic d text ("write " ++ d.text) = (.error e, t₁)) :
    ¬ WritesTo text done (d :: ds) t l := by
  intro h
  cases h with
  | passed hdone => exact absurd hdone (Bool.eq_false_iff.mp hnew)
  | here _ hwrite => cases hfails.symm.trans hwrite
  | later _ hwrite => cases hfails.symm.trans hwrite

/-- What is written to is the place of a destination. -/
theorem WritesTo.exists_place? (ht : t.IsPlain) (h : WritesTo text done ds t l) :
    ∃ d ∈ ds, t.place? d = some l := by
  induction h with
  | here _ _ hplace => exact ⟨_, List.mem_cons_self, hplace⟩
  | passed _ _ ih =>
      obtain ⟨d, hd, hplace⟩ := ih ht
      exact ⟨d, List.mem_cons_of_mem _ hd, hplace⟩
  | @later _ first _ t _ _ _ hwrite _ ih =>
      rcases writeAtomic_cases ht first text ("write " ++ first.text) with
        ⟨e, t', heq, -⟩ | ⟨m, t', heq, -, hreplaced⟩
      · cases heq.symm.trans hwrite
      · cases heq.symm.trans hwrite
        obtain ⟨d, hd, hplace⟩ := ih hreplaced.plain
        rw [place?_of_sameFolders ht hreplaced.plain hreplaced.folders] at hplace
        exact ⟨d, List.mem_cons_of_mem _ hd, hplace⟩

theorem WritesTo.not_isTemporary (ht : t.IsPlain) (hds : ∀ d ∈ ds, IsDestination d)
    (h : WritesTo text done ds t l) : ¬ IsTemporary l := by
  obtain ⟨d, hd, hplace⟩ := h.exists_place? ht
  exact (hds d hd).not_isTemporary ht l hplace

end WritesTo

/-- What writing a text to some destinations leaves: the text where it has been
    written, and everything else but temporary files as it was. -/
structure Delivered (t t' : FileTree) (text : String) (done destinations : List Path) :
    Prop where
  plain : t'.IsPlain
  folders : SameFolders t t'
  holds : ∀ l, WritesTo text done destinations t l → t'.get? l = some (.file (.text text))
  frame : ∀ l, ¬ WritesTo text done destinations t l →
    t'.get? l = t.get? l ∨ (IsTemporary l ∧ t'.get? l = none)

/-- The first destination is written to, and then the others are. -/
theorem Delivered.cons {t t₁ t' : FileTree} {text : String} {done : List Path} {d : Path}
    {ds : List Path} (ht : t.IsPlain) (l : Location) (hd : IsDestination d)
    (hl : t.place? d = some l) (hnew : done.any d.same = false)
    (hwrite : t.writeAtomic d text ("write " ++ d.text) = (.ok (), t₁))
    (hfirst : Replaced t t₁ l text) (h : Delivered t₁ t' text (d :: done) ds) :
    Delivered t t' text done (d :: ds) := by
  refine ⟨h.plain, hfirst.folders.trans h.folders, fun m hm => ?_, fun m hm => ?_⟩
  · -- The text that was written first is still there, be it written again or not.
    by_cases hagain : WritesTo text (d :: done) ds t₁ m
    · exact h.holds m hagain
    · rcases (writesTo_cons_written hnew hwrite).mp hm with hplace | hlater
      · obtain rfl : l = m := Option.some.inj (hl.symm.trans hplace)
        rcases h.frame l hagain with hsame | ⟨htemporary, -⟩
        · exact hsame.trans hfirst.holds
        · exact absurd htemporary (hd.not_isTemporary ht l hl)
      · exact absurd hlater hagain
  · rw [writesTo_cons_written hnew hwrite, not_or] at hm
    have hne : m ≠ l := fun hml => hm.1 (hml ▸ hl)
    rcases h.frame m hm.2 with hsame | htemporary
    · rcases hfirst.frame m hne with hsame' | ⟨htemporary, hnone⟩
      · exact Or.inl (hsame.trans hsame')
      · exact Or.inr ⟨htemporary, hsame.trans hnone⟩
    · exact Or.inr htemporary

/-- What the destinations of a text get, whether or not all of them do. -/
theorem delivered_writeDestinations (text : String) (done destinations : List Path)
    (t : FileTree) (ht : t.IsPlain) (hdestinations : ∀ d ∈ destinations, IsDestination d) :
    Delivered t (writeDestinations text done destinations t).2 text done destinations := by
  induction destinations generalizing done t with
  | nil => exact ⟨ht, SameFolders.refl t, fun _ h => (nomatch h), fun l _ => Or.inl rfl⟩
  | cons d ds ih =>
      have hhead := hdestinations d List.mem_cons_self
      have htail : ∀ d ∈ ds, IsDestination d := fun d hd =>
        hdestinations d (List.mem_cons_of_mem _ hd)
      rw [writeDestinations]
      cases hany : done.any d.same with
      | true =>
          rw [if_pos rfl]
          have hrest := ih done t ht htail
          refine ⟨hrest.plain, hrest.folders, fun l hl => ?_, fun l hl => ?_⟩
          · exact hrest.holds l ((writesTo_cons_passed hany).mp hl)
          · exact hrest.frame l fun h => hl ((writesTo_cons_passed hany).mpr h)
      | false =>
          rw [if_neg Bool.false_ne_true]
          rcases writeAtomic_cases ht d text ("write " ++ d.text) with
            ⟨e, t₁, heq, htidied⟩ | ⟨l, t₁, heq, hplace, hreplaced⟩
          · rw [heq]
            exact ⟨htidied.plain, htidied.folders,
              fun l hl => absurd hl (not_writesTo_cons_failed hany heq),
              fun l _ => htidied.frame l⟩
          · rw [heq]
            exact (ih (d :: done) t₁ hreplaced.plain htail).cons ht l hhead hplace hany heq
              hreplaced

/-- When nothing fails, every destination has been written to or says the same
    as one that was. -/
theorem writeDestinations_reaches (text : String) (done destinations : List Path)
    (t t' : FileTree) (ht : t.IsPlain)
    (h : writeDestinations text done destinations t = (.ok (), t')) :
    ∀ d ∈ destinations, ∃ d', d.same d' = true ∧ (d' ∈ done ∨ d' ∈ destinations ∧
      ∃ l, t.place? d' = some l ∧ WritesTo text done destinations t l) := by
  induction destinations generalizing done t with
  | nil => intro d hd; cases hd
  | cons first rest ih =>
      rw [writeDestinations] at h
      cases hany : done.any first.same with
      | true =>
          rw [hany, if_pos rfl] at h
          intro d hd
          rcases List.mem_cons.mp hd with rfl | hd
          · obtain ⟨before, hbefore, hsame⟩ := List.any_eq_true.mp hany
            exact ⟨before, hsame, Or.inl hbefore⟩
          · obtain ⟨d', hsame, hd' | ⟨hd', l, hplace, hwrites⟩⟩ := ih done t ht h d hd
            · exact ⟨d', hsame, Or.inl hd'⟩
            · exact ⟨d', hsame, Or.inr ⟨List.mem_cons_of_mem _ hd', l, hplace,
                .passed hany hwrites⟩⟩
      | false =>
          rw [hany, if_neg Bool.false_ne_true] at h
          rcases writeAtomic_cases ht first text ("write " ++ first.text) with
            ⟨e, t₁, heq, -⟩ | ⟨l, t₁, heq, hplace, hreplaced⟩
          · rw [heq] at h
            cases h
          · rw [heq] at h
            have hfirst : ∃ m, t.place? first = some m ∧ WritesTo text done (first :: rest) t m :=
              ⟨l, hplace, .here hany heq hplace⟩
            intro d hd
            rcases List.mem_cons.mp hd with rfl | hd
            · exact ⟨d, by simp [Path.same], Or.inr ⟨List.mem_cons_self, hfirst⟩⟩
            · obtain ⟨d', hsame, hd' | ⟨hd', m, hplace', hwrites⟩⟩ :=
                ih (first :: done) t₁ hreplaced.plain h d hd
              · -- What counts as done may be the destination that was just written.
                rcases List.mem_cons.mp hd' with rfl | hd'
                · exact ⟨d', hsame, Or.inr ⟨List.mem_cons_self, hfirst⟩⟩
                · exact ⟨d', hsame, Or.inl hd'⟩
              · rw [place?_of_sameFolders ht hreplaced.plain hreplaced.folders] at hplace'
                exact ⟨d', hsame, Or.inr ⟨List.mem_cons_of_mem _ hd', m, hplace',
                  .later hany heq hwrites⟩⟩

/-- When nothing fails, the place of every destination that is not too long has
    been written to. -/
theorem writesTo_of_writeDestinations (text : String) (destinations : List Path)
    (t t' : FileTree) (ht : t.IsPlain) (hdestinations : ∀ d ∈ destinations, IsDestination d)
    (h : writeDestinations text [] destinations t = (.ok (), t')) (d : Path)
    (hd : d ∈ destinations) (hsize : d.text.utf8ByteSize ≤ maxPathSize) :
    ∃ l, t.place? d = some l ∧ WritesTo text [] destinations t l := by
  obtain ⟨d', hsame, hd' | ⟨hd', l, hplace, hwrites⟩⟩ :=
    writeDestinations_reaches text [] destinations t t' ht h d hd
  · cases hd'
  · exact ⟨l, (hdestinations d hd).place?_of_same ht (hdestinations d' hd') hsame hsize l hplace,
      hwrites⟩

/-- The destinations that a document's renames have in a folder. -/
def destinationsOf (objects : List ObjectRename) (document : Document) (folder : Path) :
    List Path :=
  (matchedRenames objects document).map fun rename => (referenceTo folder rename).destination

/-- A file that can be migrated: it reads as a document with renames for some
    of its definitions, and goes through a `fields` folder in which it is not
    itself one of the destinations. -/
structure Migratable (t : FileTree) (path : Path) (objects : List ObjectRename)
    (document : Document) (folder : Path) : Prop where
  read : ∃ content, t.readText path = .ok content ∧ Document.parse content = .ok document
  inFields : path.fieldsFolder? = some folder
  matched : matchedRenames objects document ≠ []
  apart : ∀ d ∈ destinationsOf objects document folder, d.same path = false

theorem isDestination_of_mem {objects : List ObjectRename} {document : Document} {folder d : Path}
    (h : d ∈ destinationsOf objects document folder) : IsDestination d := by
  obtain ⟨rename, -, rfl⟩ := List.mem_map.mp h
  exact isDestination_referenceTo folder rename

theorem map_destination_referenceTo (objects : List ObjectRename) (document : Document)
    (folder : Path) :
    ((matchedRenames objects document).map (referenceTo folder)).map (·.destination) =
      destinationsOf objects document folder :=
  List.map_map

/-- A plan is made for the files that can be migrated: a reference for each
    rename, and the document for the new targets. -/
theorem planMigration_eq_ok_iff (t : FileTree) (path : Path) (objects : List ObjectRename)
    (references : List RetargetedReference) (text : String) :
    planMigration t path objects = .ok (references, text) ↔
      ∃ document folder, Migratable t path objects document folder ∧
        references = (matchedRenames objects document).map (referenceTo folder) ∧
        text = (retargetDocument objects document).render := by
  constructor
  · intro h
    rw [planMigration] at h
    cases hread : t.readText path with
    | error e => simp [FileTree.read, hread, Except.mapError, bind, Except.bind] at h
    | ok content =>
        cases hparse : Document.parse content with
        | error e =>
            simp [FileTree.read, hread, hparse, Except.mapError, bind, Except.bind] at h
        | ok document =>
            simp only [FileTree.read, hread, hparse, Except.mapError, bind, Except.bind] at h
            split at h
            · simp [throw, throwThe, MonadExceptOf.throw] at h
            · next hmatched =>
                simp only [pure, Except.pure] at h
                split at h
                · simp [throw, throwThe, MonadExceptOf.throw] at h
                · next folder hfolder =>
                    split at h
                    · simp [throw, throwThe, MonadExceptOf.throw] at h
                    · next hguard =>
                        simp only [Except.ok.injEq, Prod.mk.injEq] at h
                        refine ⟨document, folder, ⟨⟨content, hread, hparse⟩, hfolder, ?_, ?_⟩,
                          h.1.symm, h.2.symm⟩
                        · simpa using hmatched
                        · simpa [destinationsOf] using hguard
  · rintro ⟨document, folder, ⟨⟨content, hread, hparse⟩, hfolder, hmatched, hguard⟩, rfl, rfl⟩
    have hany : ((matchedRenames objects document).map (referenceTo folder)).any
        (fun r => r.destination.same path) = false := by
      simpa [destinationsOf] using hguard
    simp only [planMigration, FileTree.read, hread, hparse, hfolder, hany, Except.mapError, bind,
      Except.bind, pure, Except.pure, List.isEmpty_eq_false_iff.mpr hmatched,
      Bool.false_eq_true, if_false]

/-- What is planned for a file: its document for the new targets, to
    destinations in its `fields` folder. -/
theorem planMigration_ok (t : FileTree) (path : Path) (objects : List ObjectRename)
    (references : List RetargetedReference) (text : String)
    (h : planMigration t path objects = .ok (references, text)) :
    ∃ content document, t.readText path = .ok content ∧
      Document.parse content = .ok document ∧
      text = (retargetDocument objects document).render ∧
      ∀ r ∈ references, IsDestination r.destination := by
  obtain ⟨document, folder, hcan, rfl, rfl⟩ :=
    (planMigration_eq_ok_iff t path objects references text).mp h
  obtain ⟨content, hread, hparse⟩ := hcan.read
  refine ⟨content, document, hread, hparse, rfl, fun r hr => ?_⟩
  obtain ⟨rename, -, rfl⟩ := List.mem_map.mp hr
  exact isDestination_referenceTo folder rename

/-- What the migration of a file does: nothing, if nothing can be planned for
    it, and otherwise what is planned, at least in part. -/
theorem migrateReference_cases (t : FileTree) (ht : t.IsPlain) (path : Path)
    (objects : List ObjectRename) :
    (∃ reason, planMigration t path objects = .error reason ∧
        migrateReference t path objects .apply = (.error reason, t)) ∨
      ∃ references text t', planMigration t path objects = .ok (references, text) ∧
        Delivered t t' text [] (references.map (·.destination)) ∧
        ((∃ reason, migrateReference t path objects .apply = (.error reason, t')) ∨
          (migrateReference t path objects .apply = (.ok ⟨path, references, true⟩, t') ∧
            ∀ r ∈ references, r.destination.text.utf8ByteSize ≤ maxPathSize →
              ∃ l, t.place? r.destination = some l ∧
                WritesTo text [] (references.map (·.destination)) t l)) := by
  rw [migrateReference]
  cases hplan : planMigration t path objects with
  | error reason => exact Or.inl ⟨reason, rfl, rfl⟩
  | ok plan =>
      obtain ⟨references, text⟩ := plan
      obtain ⟨-, -, -, -, -, hreferences⟩ := planMigration_ok t path objects _ _ hplan
      have hdestinations : ∀ d ∈ references.map (·.destination), IsDestination d :=
        List.forall_mem_map.mpr hreferences
      have hdelivered := delivered_writeDestinations text [] _ t ht hdestinations
      refine Or.inr ⟨references, text, _, rfl, hdelivered, ?_⟩
      simp only [WriteMode.writes, if_true]
      cases hwrite : writeDestinations text [] (references.map (·.destination)) t with
      | mk outcome t' =>
          cases outcome with
          | error reason => exact Or.inl ⟨reason, rfl⟩
          | ok _ =>
              refine Or.inr ⟨rfl, fun r hr hsize => ?_⟩
              exact writesTo_of_writeDestinations text _ t t' ht hdestinations hwrite _
                (List.mem_map_of_mem hr) hsize

end SchemaRename
