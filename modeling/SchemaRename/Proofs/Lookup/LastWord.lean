import SchemaRename.Proofs.Lookup.Destinations
import SchemaRename.Run

/-!
# Who Has the Last Word

What a batch of lookup migrations leaves at its destinations.

A destination is named after the new object alone, so two files of a batch
may have the same one, and the destination of one file may be another file of
the batch. Nothing looks for such a clash. The files take their turns in
order, each turn reads its file as the turns before have left it, and the
last turn that writes to a place has the last word there.

A turn writes to its destinations and to temporary files, and to nothing
else; no destination has a temporary name, and no folder changes, so every
path leads to the same place throughout the batch. What the batch does to one
place is then an induction on the turns.

## Main definitions

* `Turn`, `turns`: The files of a batch, each with the tree it finds.
* `Turn.Writes`: What a turn has written to a place, whether or not it has
  written all it had to.
* `Unwritten`, `LastWord`: A place that no turn has written to, and the text
  that the last of them has written there.

## Theorems

* `get?_migrateReference`: What one turn does to one place.
* `get?_treeAfter`: What all turns do to one place.
* `readText_of_treeAfter`, `exists_readText_treeAfter`: The files that are read
  after the turns.
* `referenceBatch_last_word`: What a batch leaves at the destinations it
  reports.
-/

namespace SchemaRename

open SchemaRename.Markup
open SchemaRename.FileTree

/-- A file of a batch and the tree that its turn finds. -/
structure Turn where
  path : Path
  tree : FileTree

namespace Turn

/-- What is reported of a turn. -/
def outcome (turn : Turn) (objects : List ObjectRename) : Except SkippedReason Migrated :=
  (migrateReference turn.tree turn.path objects .apply).1

/-- A turn writes a text to a place: its file, as the turn finds it, is made
    into this text, and the text gets there, also if the turn fails later. -/
def Writes (turn : Turn) (objects : List ObjectRename) (l : Location) (text : String) : Prop :=
  ∃ document folder, Migratable turn.tree turn.path objects document folder ∧
    text = (retargetDocument objects document).render ∧
    WritesTo text [] (destinationsOf objects document folder) turn.tree l

theorem writes_iff (turn : Turn) (objects : List ObjectRename) (l : Location) (text : String) :
    turn.Writes objects l text ↔
      ∃ references, planMigration turn.tree turn.path objects = .ok (references, text) ∧
        WritesTo text [] (references.map (·.destination)) turn.tree l := by
  constructor
  · rintro ⟨document, folder, hcan, rfl, hwrites⟩
    refine ⟨_, (planMigration_eq_ok_iff _ _ _ _ _).mpr ⟨document, folder, hcan, rfl, rfl⟩, ?_⟩
    rwa [map_destination_referenceTo]
  · rintro ⟨references, hplan, hwrites⟩
    obtain ⟨document, folder, hcan, rfl, rfl⟩ := (planMigration_eq_ok_iff _ _ _ _ _).mp hplan
    rw [map_destination_referenceTo] at hwrites
    exact ⟨document, folder, hcan, rfl, hwrites⟩

/-- Nothing is written to a temporary name. -/
theorem Writes.not_isTemporary {turn : Turn} (ht : turn.tree.IsPlain)
    {objects : List ObjectRename} {l : Location} {text : String}
    (h : turn.Writes objects l text) : ¬ IsTemporary l := by
  obtain ⟨references, hplan, hwrites⟩ := (turn.writes_iff objects l text).mp h
  obtain ⟨-, -, -, -, -, hreferences⟩ := planMigration_ok _ _ _ _ _ hplan
  exact hwrites.not_isTemporary ht (List.forall_mem_map.mpr hreferences)

end Turn

/-- The tree that some files leave after their turns. -/
def treeAfter (objects : List ObjectRename) (files : List Path) (t : FileTree) : FileTree :=
  files.foldl (fun t path => (migrateReference t path objects .apply).2) t

/-- The turns of some files. -/
def turns (objects : List ObjectRename) : List Path → FileTree → List Turn
  | [], _ => []
  | path :: files, t =>
    ⟨path, t⟩ :: turns objects files (migrateReference t path objects .apply).2

/-- None of some turns has written to a place. -/
def Unwritten (objects : List ObjectRename) (ts : List Turn) (l : Location) : Prop :=
  ∀ turn ∈ ts, ∀ text, ¬ turn.Writes objects l text

/-- A text that one of some turns has written to a place, and none of the turns
    behind it has written there. -/
def LastWord (objects : List ObjectRename) (ts : List Turn) (l : Location) (text : String) : Prop :=
  ∃ before turn after, ts = before ++ turn :: after ∧ turn.Writes objects l text ∧
    Unwritten objects after l

theorem treeAfter_append (objects : List ObjectRename) (front back : List Path) (t : FileTree) :
    treeAfter objects (front ++ back) t = treeAfter objects back (treeAfter objects front t) :=
  List.foldl_append

theorem turns_append (objects : List ObjectRename) (front back : List Path) (t : FileTree) :
    turns objects (front ++ back) t =
      turns objects front t ++ turns objects back (treeAfter objects front t) := by
  induction front generalizing t with
  | nil => rfl
  | cons path front ih =>
      rw [List.cons_append, turns, turns, ih, List.cons_append]
      rfl

/-- One turn keeps a tree plain and its folders as they are. -/
theorem migrateReference_tree (t : FileTree) (ht : t.IsPlain) (path : Path)
    (objects : List ObjectRename) :
    (migrateReference t path objects .apply).2.IsPlain ∧
      SameFolders t (migrateReference t path objects .apply).2 := by
  rcases migrateReference_cases t ht path objects with
    ⟨reason, -, heq⟩ | ⟨references, text, t', -, hdelivered, ⟨reason, heq⟩ | ⟨heq, -⟩⟩
  · rw [heq]
    exact ⟨ht, SameFolders.refl t⟩
  · rw [heq]
    exact ⟨hdelivered.plain, hdelivered.folders⟩
  · rw [heq]
    exact ⟨hdelivered.plain, hdelivered.folders⟩

/-- All turns keep a tree plain and its folders as they are. -/
theorem treeAfter_plain (objects : List ObjectRename) (files : List Path) (t : FileTree)
    (ht : t.IsPlain) :
    (treeAfter objects files t).IsPlain ∧ SameFolders t (treeAfter objects files t) := by
  induction files generalizing t with
  | nil => exact ⟨ht, SameFolders.refl t⟩
  | cons path files ih =>
      obtain ⟨hplain, hfolders⟩ := migrateReference_tree t ht path objects
      obtain ⟨hplain', hfolders'⟩ := ih _ hplain
      exact ⟨hplain', hfolders.trans hfolders'⟩

/-- What one turn does to a place: it writes a text there, which is there
    afterwards, or it writes nothing there, and the place is as it was or a
    temporary file that is gone. -/
theorem get?_migrateReference (t : FileTree) (ht : t.IsPlain) (path : Path)
    (objects : List ObjectRename) (l : Location) :
    (∃ text, (Turn.mk path t).Writes objects l text ∧
        (migrateReference t path objects .apply).2.get? l = some (.file (.text text))) ∨
      ((∀ text, ¬ (Turn.mk path t).Writes objects l text) ∧
        ((migrateReference t path objects .apply).2.get? l = t.get? l ∨
          (IsTemporary l ∧ (migrateReference t path objects .apply).2.get? l = none))) := by
  simp only [Turn.writes_iff]
  rcases migrateReference_cases t ht path objects with
    ⟨reason, hplan, heq⟩ | ⟨references, text, t', hplan, hdelivered, hend⟩
  · right
    refine ⟨?_, by rw [heq]; exact Or.inl rfl⟩
    rintro text ⟨references, hplan', -⟩
    cases hplan.symm.trans hplan'
  · have htree : (migrateReference t path objects .apply).2 = t' := by
      rcases hend with ⟨reason, heq⟩ | ⟨heq, -⟩ <;> rw [heq]
    rw [htree]
    by_cases hwrites : WritesTo text [] (references.map (·.destination)) t l
    · exact Or.inl ⟨text, ⟨references, hplan, hwrites⟩, hdelivered.holds l hwrites⟩
    · refine Or.inr ⟨?_, hdelivered.frame l hwrites⟩
      rintro text' ⟨references', hplan', hwrites'⟩
      cases hplan.symm.trans hplan'
      exact hwrites hwrites'

/-- What all turns do to a place: one of them has the last word there, or none
    of them has written there, and the place is as it was or a temporary file
    that is gone. -/
theorem get?_treeAfter (objects : List ObjectRename) (files : List Path) (t : FileTree)
    (ht : t.IsPlain) (l : Location) :
    (∃ text, LastWord objects (turns objects files t) l text ∧
        (treeAfter objects files t).get? l = some (.file (.text text))) ∨
      (Unwritten objects (turns objects files t) l ∧
        ((treeAfter objects files t).get? l = t.get? l ∨
          (IsTemporary l ∧ (treeAfter objects files t).get? l = none))) := by
  induction files generalizing t with
  | nil => exact Or.inr ⟨by simp [turns, Unwritten], Or.inl rfl⟩
  | cons path files ih =>
      obtain ⟨hplain, -⟩ := migrateReference_tree t ht path objects
      rw [turns]
      rcases ih _ hplain with
        ⟨text, ⟨before, turn, after, heq, hwrites, hlast⟩, htext⟩ | ⟨hnobody, hrest⟩
      · -- One of the later turns has the last word.
        left
        exact ⟨text, ⟨_ :: before, turn, after, by rw [heq]; rfl, hwrites, hlast⟩, htext⟩
      · rcases get?_migrateReference t ht path objects l with
          ⟨text, hwrites, htext⟩ | ⟨hsilent, hfirst⟩
        · rcases hrest with hsame | ⟨htemporary, -⟩
          · exact Or.inl ⟨text, ⟨[], _, _, rfl, hwrites, hnobody⟩, hsame.trans htext⟩
          · -- What was written is no temporary file, and did not go again.
            exact absurd htemporary (hwrites.not_isTemporary ht)
        · refine Or.inr ⟨List.forall_mem_cons.mpr ⟨hsilent, hnobody⟩, ?_⟩
          rcases hrest with hsame | hgone
          · rcases hfirst with hsame' | ⟨htemporary, hnone⟩
            · exact Or.inl (hsame.trans hsame')
            · exact Or.inr ⟨htemporary, hsame.trans hnone⟩
          · exact Or.inr hgone

/-- A file that is read after some turns is as it was before them, if none of
    them has written there, and else the last word of them. -/
theorem readText_of_treeAfter (objects : List ObjectRename) (files : List Path) (t : FileTree)
    (ht : t.IsPlain) (p : Path) (content : String)
    (h : (treeAfter objects files t).readText p = .ok content) :
    ∃ l, t.place? p = some l ∧
      ((t.readText p = .ok content ∧ Unwritten objects (turns objects files t) l) ∨
        LastWord objects (turns objects files t) l content) := by
  obtain ⟨hplain, hfolders⟩ := treeAfter_plain objects files t ht
  obtain ⟨l, hplace, hfile⟩ := (readText_eq_ok_iff hplain p content).mp h
  rw [place?_of_sameFolders ht hplain hfolders] at hplace
  refine ⟨l, hplace, ?_⟩
  rcases get?_treeAfter objects files t ht l with
    ⟨text, hlast, htext⟩ | ⟨hnobody, hsame | ⟨-, hnone⟩⟩
  · rw [hfile] at htext
    cases htext
    exact Or.inr hlast
  · rw [hfile] at hsame
    exact Or.inl ⟨(readText_eq_ok_iff ht p content).mpr ⟨l, hplace, hsame.symm⟩, hnobody⟩
  · rw [hfile] at hnone
    cases hnone

/-- A file without a temporary name is still there after some turns, with its
    text or with the last word of them. -/
theorem exists_readText_treeAfter (objects : List ObjectRename) (files : List Path)
    (t : FileTree) (ht : t.IsPlain) (p : Path) (l : Location) (content : String)
    (hplace : t.place? p = some l) (hfile : t.get? l = some (.file (.text content)))
    (hname : ¬ IsTemporary l) :
    ∃ text, (treeAfter objects files t).readText p = .ok text ∧
      ((text = content ∧ Unwritten objects (turns objects files t) l) ∨
        LastWord objects (turns objects files t) l text) := by
  obtain ⟨hplain, hfolders⟩ := treeAfter_plain objects files t ht
  have hread : ∀ text, (treeAfter objects files t).get? l = some (.file (.text text)) →
      (treeAfter objects files t).readText p = .ok text := by
    intro text hget
    rw [readText_eq_ok_iff hplain]
    exact ⟨l, (place?_of_sameFolders ht hplain hfolders p).trans hplace, hget⟩
  rcases get?_treeAfter objects files t ht l with
    ⟨text, hlast, htext⟩ | ⟨hnobody, hsame | ⟨htemporary, -⟩⟩
  · exact ⟨text, hread text htext, Or.inr hlast⟩
  · exact ⟨content, hread content (hsame.trans hfile), Or.inl ⟨rfl, hnobody⟩⟩
  · exact absurd htemporary hname

/-- A batch is its turns. -/
theorem foldl_migrateFile (m : RenameMap) (files : List Path) (batch : BatchReport)
    (t : FileTree) :
    (files.foldl (migrateFile m .apply) (batch, t)).2 = treeAfter m.objects files t ∧
      ∀ entry ∈ (files.foldl (migrateFile m .apply) (batch, t)).1.migrated,
        entry ∈ batch.migrated ∨ ∃ front path back, files = front ++ path :: back ∧
          (Turn.mk path (treeAfter m.objects front t)).outcome m.objects = .ok entry := by
  induction files generalizing batch t with
  | nil => exact ⟨rfl, fun entry hentry => Or.inl hentry⟩
  | cons path files ih =>
      obtain ⟨htree, hentries⟩ := ih (migrateFile m .apply (batch, t) path).1
        (migrateReference t path m.objects .apply).2
      refine ⟨htree, ?_⟩
      intro entry hentry
      rcases hentries entry hentry with hbatch | ⟨front, path', back, rfl, houtcome⟩
      · -- The entry was noted at this turn, or before.
        simp only [migrateFile] at hbatch
        rw [BatchReport.noteMigration.eq_def] at hbatch
        split at hbatch
        · next migrated houtcome =>
            simp only [List.mem_append, List.mem_singleton] at hbatch
            rcases hbatch with hbatch | rfl
            · exact Or.inl hbatch
            · exact Or.inr ⟨[], path, files, rfl, houtcome⟩
        · exact Or.inl hbatch
        · exact Or.inl hbatch
      · exact Or.inr ⟨path :: front, path', back, rfl, houtcome⟩

/-- Every migrated entry of a batch has had its turn. The turn has read the
    entry's file as it was when the batch started, if no earlier turn has written
    there, and else as the last word of these turns. It has written what it has
    made of the file to the destinations of the entry, and at the end they hold
    that, if no later turn has written there, and else the last word of these
    turns. -/
theorem referenceBatch_last_word (m : RenameMap) (expression : String) (files : List Path)
    (t : FileTree) (ht : t.IsPlain) (entry : Migrated)
    (hentry : entry ∈ (referenceBatch m expression files .apply t).1.migrated) :
    ∃ earlier turn later content document,
      turns m.objects files t = earlier ++ turn :: later ∧ turn.path = entry.source ∧
      turn.tree.readText entry.source = .ok content ∧
      Document.parse content = .ok document ∧
      (∃ l, t.place? entry.source = some l ∧
        ((t.readText entry.source = .ok content ∧ Unwritten m.objects earlier l) ∨
          LastWord m.objects earlier l content)) ∧
      ∀ r ∈ entry.references, r.destination.text.utf8ByteSize ≤ maxPathSize →
        ∃ l text, t.place? r.destination = some l ∧
          turn.Writes m.objects l (retargetDocument m.objects document).render ∧
          (referenceBatch m expression files .apply t).2.readText r.destination = .ok text ∧
          ((text = (retargetDocument m.objects document).render ∧ Unwritten m.objects later l) ∨
            LastWord m.objects later l text) := by
  obtain ⟨htree, hentries⟩ := foldl_migrateFile m files
    { expression, kind := .reference, matchedFiles := files.length } t
  rcases hentries entry hentry with hnone | ⟨front, path, back, rfl, houtcome⟩
  · simp at hnone
  obtain ⟨hplain, hfolders⟩ := treeAfter_plain m.objects front t ht
  generalize hat : treeAfter m.objects front t = found at houtcome hplain hfolders
  rcases migrateReference_cases found hplain path m.objects with
    ⟨reason, -, heq⟩ | ⟨references, text, t₁, hplan, hdelivered, ⟨reason, heq⟩ | ⟨heq, hall⟩⟩
  · rw [Turn.outcome, heq] at houtcome
    cases houtcome
  · rw [Turn.outcome, heq] at houtcome
    cases houtcome
  rw [Turn.outcome, heq] at houtcome
  cases houtcome
  obtain ⟨content, document, hread, hparse, rfl, -⟩ :=
    planMigration_ok found path m.objects _ _ hplan
  have hsplit : turns m.objects (front ++ path :: back) t =
      turns m.objects front t ++ ⟨path, found⟩ :: turns m.objects back t₁ := by
    rw [turns_append, hat, turns, heq]
  have hfinal : treeAfter m.objects (front ++ path :: back) t = treeAfter m.objects back t₁ := by
    rw [treeAfter_append, hat, treeAfter, List.foldl_cons, heq]
    rfl
  refine ⟨turns m.objects front t, ⟨path, found⟩, turns m.objects back t₁, content, document,
    hsplit, rfl, hread, hparse, ?_, ?_⟩
  · -- What the turn has read.
    exact readText_of_treeAfter m.objects front t ht path content (hat ▸ hread)
  · -- What is at a destination in the end.
    intro r hr hsize
    obtain ⟨l, hplace, hwritesTo⟩ := hall r hr hsize
    have hwrites : (Turn.mk path found).Writes m.objects l
        (retargetDocument m.objects document).render :=
      (Turn.writes_iff _ _ _ _).mpr ⟨references, hplan, hwritesTo⟩
    have hplace' : t₁.place? r.destination = some l := by
      rw [place?_of_sameFolders hplain hdelivered.plain hdelivered.folders, hplace]
    obtain ⟨text, hend, hword⟩ := exists_readText_treeAfter m.objects back t₁ hdelivered.plain
      r.destination l _ hplace' (hdelivered.holds l hwritesTo) (hwrites.not_isTemporary hplain)
    refine ⟨l, text, ?_, hwrites, ?_, hword⟩
    · rw [← place?_of_sameFolders ht hplain hfolders, hplace]
    · rw [referenceBatch, htree, hfinal, hend]

/-- The files of a folder with two lookups. -/
def rivalFiles : List Path :=
  [⟨"fields/A.xml"⟩, ⟨"fields/B.xml"⟩]

/-- The entry that is reported for a file of that folder. -/
def rivalEntry (source : Path) : Migrated :=
  ⟨source, [⟨"L", "N", ⟨"fields/N.field-meta.xml"⟩⟩], true⟩

/-- A folder with two lookups to one object. The second one is in a file with
    another lookup, and the temporary name of that one's destination is taken by
    a folder. -/
def contestedLookups : FileTree :=
  { entries := [(["fields"], .folder),
      (["fields", "A.xml"], .file (.text "<a><referenceTo>L</referenceTo></a>")),
      (["fields", "B.xml"], .file (.text
        "<b><referenceTo>L</referenceTo></b><c><referenceTo>K</referenceTo></c>")),
      (["fields", "M.field-meta.xml.tmp"], .folder)] }

/-- A map that renames both objects. -/
def contestedMap : RenameMap :=
  { objects := [{ previousObject := "L", newObject := "N" },
      { previousObject := "K", newObject := "M" }] }

/-- What the second file is made into. -/
def contestedText : String :=
  "<?xml version=\"1.0\" encoding=\"UTF-8\" standalone=\"yes\"?>\n" ++
    "<b>\n    <referenceTo>N</referenceTo>\n    <fullName>N</fullName>\n</b>\n" ++
    "<c>\n    <referenceTo>M</referenceTo>\n    <fullName>M</fullName>\n</c>\n"

/-- The second file has the last word at the destination of the first one, and
    is skipped for its other lookup. -/
theorem referenceBatch_last_word_rivals :
    contestedLookups.IsPlain ∧
      (referenceBatch contestedMap "" rivalFiles .apply contestedLookups).1.migrated =
        [rivalEntry ⟨"fields/A.xml"⟩] ∧
      (referenceBatch contestedMap "" rivalFiles .apply contestedLookups).2.readText
        ⟨"fields/N.field-meta.xml"⟩ = .ok contestedText ∧
      LastWord contestedMap.objects (turns contestedMap.objects rivalFiles contestedLookups).tail
        ["fields", "N.field-meta.xml"] contestedText := by
  have hplain : contestedLookups.IsPlain := isPlain_of_check contestedLookups (by decide +kernel)
  have hrun : (fun run : BatchReport × FileTree =>
        (run.1.migrated, run.2.readText ⟨"fields/N.field-meta.xml"⟩))
      (referenceBatch contestedMap "" rivalFiles .apply contestedLookups) =
        ([rivalEntry ⟨"fields/A.xml"⟩], .ok contestedText) := by
    decide +kernel
  obtain ⟨hmigrated, hread⟩ := Prod.mk.inj hrun
  refine ⟨hplain, hmigrated, hread, ?_⟩
  obtain ⟨earlier, turn, later, content, document, hturns, hpath, hcontent, hparse, -, hends⟩ :=
    referenceBatch_last_word contestedMap "" rivalFiles contestedLookups hplain
      (rivalEntry ⟨"fields/A.xml"⟩) (by rw [hmigrated]; exact List.mem_cons_self)
  -- The first turn is the one of the entry.
  obtain ⟨rfl, rfl, hlater⟩ : earlier = [] ∧ turn = ⟨⟨"fields/A.xml"⟩, contestedLookups⟩ ∧
      (turns contestedMap.objects rivalFiles contestedLookups).tail = later := by
    rw [hturns]
    simp only [rivalFiles, turns] at hturns
    cases earlier with
    | nil => exact ⟨rfl, (List.cons.inj hturns).1.symm, rfl⟩
    | cons first rest =>
        cases rest with
        | nil =>
            rw [← (List.cons.inj (List.cons.inj hturns).2).1] at hpath
            exact absurd hpath (by decide)
        | cons second rest =>
            have hlength := congrArg List.length hturns
            simp at hlength
  rw [hlater]
  obtain ⟨l, text, hplace, -, htext, hword⟩ := hends _ List.mem_cons_self (by decide)
  have hl : contestedLookups.place? ⟨"fields/N.field-meta.xml"⟩ =
      some ["fields", "N.field-meta.xml"] := by
    decide +kernel
  obtain rfl : ["fields", "N.field-meta.xml"] = l := Option.some.inj (hl.symm.trans hplace)
  obtain rfl : contestedText = text := Except.ok.inj (hread.symm.trans htext)
  refine hword.resolve_left ?_
  rintro ⟨hown, -⟩
  -- The first file is made into something else.
  have hdiffers : (((contestedLookups.readText ⟨"fields/A.xml"⟩).toOption.bind fun content =>
      (Document.parse content).toOption).map fun document =>
        (retargetDocument contestedMap.objects document).render) ≠ some contestedText := by
    decide +kernel
  apply hdiffers
  rw [show contestedLookups.readText ⟨"fields/A.xml"⟩ = .ok content from hcontent, hown]
  simp only [Except.toOption, Option.bind_some, hparse, Option.map_some]

/-- A folder with two lookups to one object, in files of their own. -/
def rivalLookups : FileTree :=
  { entries := [(["fields"], .folder),
      (["fields", "A.xml"], .file (.text "<a><referenceTo>L</referenceTo></a>")),
      (["fields", "B.xml"], .file (.text "<b><referenceTo>L</referenceTo></b>"))] }

/-- A map that renames that object. -/
def rivalMap : RenameMap :=
  { objects := [{ previousObject := "L", newObject := "N" }] }

theorem isPlain_rivalLookups : rivalLookups.IsPlain :=
  isPlain_of_check rivalLookups (by decide +kernel)

/-- Two lookups to one object do not both survive: it is not so that each
    destination that a batch reports holds what its own source was made
    into. -/
theorem referenceBatch_loses_lookup :
    ¬ ∀ (m : RenameMap) (expression : String) (files : List Path) (t : FileTree), t.IsPlain →
      files.Pairwise (fun p q => p.le q = true ∧ p ≠ q) →
      ∀ entry ∈ (referenceBatch m expression files .apply t).1.migrated,
        ∀ r ∈ entry.references, ∃ content document,
          t.readText entry.source = .ok content ∧ Document.parse content = .ok document ∧
          (referenceBatch m expression files .apply t).2.readText r.destination =
            .ok (retargetDocument m.objects document).render := by
  intro h
  have hall := h rivalMap "" rivalFiles rivalLookups isPlain_rivalLookups (by decide +kernel)
  -- Both entries have the same destination, and the documents differ.
  have hsource : ∀ source ∈ rivalFiles, rivalEntry source ∈
      (referenceBatch rivalMap "" rivalFiles .apply rivalLookups).1.migrated := by
    decide +kernel
  obtain ⟨a, documentA, hreadA, hparseA, hendA⟩ :=
    hall _ (hsource ⟨"fields/A.xml"⟩ (by decide)) _ List.mem_cons_self
  obtain ⟨b, documentB, hreadB, hparseB, hendB⟩ :=
    hall _ (hsource ⟨"fields/B.xml"⟩ (by decide)) _ List.mem_cons_self
  have hrender : (retargetDocument rivalMap.objects documentA).render =
      (retargetDocument rivalMap.objects documentB).render :=
    Except.ok.inj (hendA.symm.trans hendB)
  have hdiffer : (((rivalLookups.readText ⟨"fields/A.xml"⟩).toOption.bind fun content =>
        (Document.parse content).toOption).map fun document =>
          (retargetDocument rivalMap.objects document).render) ≠
      (((rivalLookups.readText ⟨"fields/B.xml"⟩).toOption.bind fun content =>
        (Document.parse content).toOption).map fun document =>
          (retargetDocument rivalMap.objects document).render) := by
    decide +kernel
  apply hdiffer
  rw [show rivalLookups.readText ⟨"fields/A.xml"⟩ = .ok a from hreadA,
    show rivalLookups.readText ⟨"fields/B.xml"⟩ = .ok b from hreadB]
  simp only [Except.toOption, Option.bind_some, hparseA, hparseB, Option.map_some, hrender]

end SchemaRename
