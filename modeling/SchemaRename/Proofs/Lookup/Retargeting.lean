import SchemaRename.Proofs.Lookup.Destinations
import SchemaRename.Proofs.Markup.Children

/-!
# What a Migration Rewrites

The difference between a field definition and what becomes of it.

A definition is rewritten child by child, and only the first child of a name
counts. The changes are made one after the other, and what they come to is said
by places: the child at a place has another text if it is the first of its name
and the name is one of four, and everything behind the old children is new.

The texts of a definition follow from the rename, and the rename is the first
of the list that fits. What a document becomes is said root by root.

## Main definitions

* `rewrittenText`, `addedChildren`: The texts that a rename brings.
* `Retargets`: What a rename makes of a definition.
* `Fits`, `FirstFit`: The rename of a list that applies to a definition.
* `RetargetedRoots`: The definitions of a document, before and after.

## Theorems

* `retargets_retarget`: All changes to one definition.
* `retargetedRoots_retarget`: All definitions of a document.
* `readText_of_writeDestinations`: Every destination holds the text.
* `migrateReference_rewrites`: What a migration writes, and where.
-/

namespace SchemaRename

open SchemaRename.FileTree
open SchemaRename.Markup

/-- The text that the first child of a name has after a rename. -/
def rewrittenText (rename : ObjectRename) (name : String) (text : Option String) :
    Option String :=
  if name = "referenceTo" ∨ name = "fullName" then some rename.newObject
  else if name = "label" then rename.newLabel.or text
  else if name = "relationshipName" then
    text.map fun s => String.ofList (s.toList.filter (· ≠ '_'))
  else text

/-- The children that a rename adds to a definition: a label if it brings one
    and there is none, and then a full name if there is none. -/
def addedChildren (rename : ObjectRename) (e : Element) : List Element :=
  rename.newLabel.toList.flatMap (absent "label" · e.children) ++
    absent "fullName" rename.newObject e.children

/-- What a rename makes of a definition. -/
structure Retargets (rename : ObjectRename) (e e' : Element) : Prop where
  name : e'.name = e.name
  attributes : e'.attributes = e.attributes
  text : e'.text = e.text
  /-- Nothing but the text changes in a child, and only in the first of its
      name. -/
  kept : ∀ i child, e.children[i]? = some child → e'.children[i]? = some
    (if IsFirstOfName e.children i then
      { child with text := rewrittenText rename child.name child.text }
    else child)
  added : e'.children.drop e.children.length = addedChildren rename e

theorem children_retarget (rename : ObjectRename) (e : Element)
    (hreference : e.children.any (·.name == "referenceTo") = true) :
    (retarget rename e).children =
      rewriteFirsts (rewrittenText rename) e.children ++ addedChildren rename e := by
  have hreferenced := children_setFirstValue e (fun _ s => s) e.children [] "referenceTo"
    rename.newObject (by rw [rewriteFirsts_self, List.append_nil]) (by simp)
  rw [absent, if_pos hreference, List.append_nil] at hreferenced
  -- The label comes in only if the rename brings one.
  have hlabelled : (rename.newLabel.elim (e.setFirstValue "referenceTo" rename.newObject)
        ((e.setFirstValue "referenceTo" rename.newObject).setFirstValue "label")).children =
      rewriteFirsts (fun n s => if n = "label" then rename.newLabel.or s else
          if n = "referenceTo" then some rename.newObject else s) e.children ++
        rename.newLabel.toList.flatMap (absent "label" · e.children) := by
    cases rename.newLabel with
    | none =>
        rw [Option.elim_none, hreferenced]
        congr 2
        funext n s
        simp only [Option.none_or]
        grind
    | some label =>
        rw [Option.elim_some, children_setFirstValue _ _ _ _ "label" label hreferenced (by simp)]
        simp
  have hlabels : ∀ a ∈ rename.newLabel.toList.flatMap (absent "label" · e.children),
      a.name = "label" := by
    intro a ha
    obtain ⟨label, -, ha⟩ := List.mem_flatMap.mp ha
    exact name_of_mem_absent "label" label e.children a ha
  have hnamed := children_setFirstValue _ _ _ _ "fullName" rename.newObject hlabelled
    fun a ha => by rw [hlabels a ha]; decide
  rw [← addedChildren] at hnamed
  have hadded : ∀ a ∈ addedChildren rename e, a.name ≠ "relationshipName" := by
    intro a ha
    rcases List.mem_append.mp ha with ha | ha
    · rw [hlabels a ha]
      decide
    · rw [name_of_mem_absent _ _ _ a ha]
      decide
  have hunderscores : Element.dropUnderscores = fun e : Element =>
      { e with text := e.text.map fun s => String.ofList (s.toList.filter (· != '_')) } :=
    rfl
  have hchildren : (retarget rename e).children =
      Element.updateFirst "relationshipName" Element.dropUnderscores
        ((rename.newLabel.elim (e.setFirstValue "referenceTo" rename.newObject)
          ((e.setFirstValue "referenceTo" rename.newObject).setFirstValue "label")).setFirstValue
            "fullName" rename.newObject).children := by
    rw [retarget]
    cases rename.newLabel <;> rfl
  rw [hchildren, hnamed, updateFirst_append _ _ _ _ hadded, hunderscores,
    updateFirst_rewriteFirsts "relationshipName" fun text =>
      text.map fun s => String.ofList (s.toList.filter (· != '_'))]
  -- The four names are different, so the order of the changes does not matter.
  congr 2
  funext n s
  simp only [rewrittenText]
  grind

/-- What the changes to a definition come to. -/
theorem retargets_retarget (rename : ObjectRename) (e : Element)
    (hreference : e.children.any (·.name == "referenceTo") = true) :
    Retargets rename e (retarget rename e) := by
  have hchildren := children_retarget rename e hreference
  obtain ⟨hname, hattributes, htext⟩ : (retarget rename e).name = e.name ∧
      (retarget rename e).attributes = e.attributes ∧ (retarget rename e).text = e.text := by
    rw [retarget]
    cases rename.newLabel <;> simp [setFirstValue_frame]
  refine ⟨hname, hattributes, htext, ?_, ?_⟩
  · intro i child hchild
    have hi : i < e.children.length := (List.getElem?_eq_some_iff.mp hchild).1
    rw [hchildren, List.getElem?_append_left (by rwa [length_rewriteFirsts]),
      getElem?_rewriteFirsts, hchild, Option.map_some]
  · rw [hchildren, List.drop_left' (length_rewriteFirsts _ _)]

/-- A rename is for a definition that points at its old object. -/
def Fits (rename : ObjectRename) (e : Element) : Prop :=
  e.HasFirstValue "referenceTo" rename.previousObject

theorem fits_iff (rename : ObjectRename) (e : Element) :
    Fits rename e ↔ (e.firstValue? "referenceTo" == some rename.previousObject) = true := by
  rw [Fits, ← Element.firstValue?_eq_some_iff, beq_iff_eq]

/-- The first rename of a list that fits a definition. -/
def FirstFit (candidates : List ObjectRename) (e : Element) (rename : ObjectRename) : Prop :=
  ∃ before after, candidates = before ++ rename :: after ∧ Fits rename e ∧
    ∀ c ∈ before, ¬ Fits c e

theorem firstFit_of_renameFor? (candidates : List ObjectRename) (e : Element)
    (rename : ObjectRename) (h : renameFor? candidates e = some rename) :
    FirstFit candidates e rename := by
  rw [renameFor?, List.find?_eq_some_iff_append] at h
  obtain ⟨hfits, before, after, rfl, hbefore⟩ := h
  refine ⟨before, after, rfl, (fits_iff rename e).mpr hfits, ?_⟩
  intro c hc
  simpa [fits_iff] using hbefore c hc

/-- What points at an object has a child that says so. -/
theorem any_of_fits (rename : ObjectRename) (e : Element) (h : Fits rename e) :
    e.children.any (·.name == "referenceTo") = true := by
  obtain ⟨i, child, hchild, hname, -⟩ := h
  exact List.any_eq_true.mpr ⟨child, List.mem_of_getElem? hchild, beq_iff_eq.mpr hname⟩

/-- The definitions of a document before and after, and the renames that were
    applied to them, in order. -/
inductive RetargetedRoots (candidates : List ObjectRename) :
    List Element → List Element → List ObjectRename → Prop where
  | nil : RetargetedRoots candidates [] [] []
  | unmatched {e : Element} {roots roots' : List Element} {renames : List ObjectRename} :
      (∀ c ∈ candidates, ¬ Fits c e) → RetargetedRoots candidates roots roots' renames →
      RetargetedRoots candidates (e :: roots) (e :: roots') renames
  | matched {e e' : Element} {rename : ObjectRename} {roots roots' : List Element}
      {renames : List ObjectRename} :
      FirstFit candidates e rename → Retargets rename e e' →
      RetargetedRoots candidates roots roots' renames →
      RetargetedRoots candidates (e :: roots) (e' :: roots') (rename :: renames)

theorem retargetedRoots_retarget (candidates : List ObjectRename) (roots : List Element) :
    RetargetedRoots candidates roots
      (roots.map fun e =>
        match renameFor? candidates e with
        | some rename => retarget rename e
        | none => e)
      (roots.filterMap (renameFor? candidates)) := by
  induction roots with
  | nil => exact .nil
  | cons e roots ih =>
      rw [List.map_cons, List.filterMap_cons]
      cases hrename : renameFor? candidates e with
      | none =>
          refine .unmatched ?_ ih
          intro c hc
          rw [renameFor?, List.find?_eq_none] at hrename
          simpa [fits_iff] using hrename c hc
      | some rename =>
          have hfit := firstFit_of_renameFor? candidates e rename hrename
          obtain ⟨-, -, -, hfits, -⟩ := id hfit
          exact .matched hfit (retargets_retarget rename e (any_of_fits rename e hfits)) ih

/-- A document for the new targets differs in its definitions only. -/
theorem exists_retargetedRoots (candidates : List ObjectRename) (d : Document) :
    ∃ roots, retargetDocument candidates d = { d with roots } ∧
      RetargetedRoots candidates d.roots roots (matchedRenames candidates d) :=
  ⟨_, rfl, retargetedRoots_retarget candidates d.roots⟩

/-- Every destination holds the text, be it under another spelling: a path that
    is too long is passed over if a shorter one says the same. -/
theorem readText_of_writeDestinations (text : String) (destinations : List Path)
    (t t' : FileTree) (ht : t.IsPlain) (hdestinations : ∀ d ∈ destinations, IsDestination d)
    (h : writeDestinations text [] destinations t = (.ok (), t')) :
    ∀ d ∈ destinations, ∃ d' ∈ destinations, d.same d' = true ∧ t'.readText d' = .ok text := by
  have hdelivered := delivered_writeDestinations text [] destinations t ht hdestinations
  rw [h] at hdelivered
  intro d hd
  obtain ⟨d', hsame, hd' | ⟨hd', l, hplace, hwrites⟩⟩ :=
    writeDestinations_reaches text [] _ t t' ht h d hd
  · cases hd'
  refine ⟨d', hd', hsame, (readText_eq_ok_iff hdelivered.plain d' text).mpr
    ⟨l, ?_, hdelivered.holds l hwrites⟩⟩
  rw [place?_of_sameFolders ht hdelivered.plain hdelivered.folders, hplace]

/-- A migration that succeeds has written all that was planned. -/
theorem migrateReference_ok (t t' : FileTree) (path : Path) (candidates : List ObjectRename)
    (entry : Migrated) (h : migrateReference t path candidates .apply = (.ok entry, t')) :
    ∃ text, planMigration t path candidates = .ok (entry.references, text) ∧
      writeDestinations text [] (entry.references.map (·.destination)) t = (.ok (), t') ∧
      entry = ⟨path, entry.references, true⟩ := by
  rw [migrateReference] at h
  cases hplan : planMigration t path candidates with
  | error reason =>
      rw [hplan] at h
      cases h
  | ok plan =>
      obtain ⟨references, text⟩ := plan
      simp only [hplan, WriteMode.writes, if_true] at h
      cases hwrites : writeDestinations text [] (references.map (·.destination)) t with
      | mk outcome after =>
          rw [hwrites] at h
          cases outcome with
          | error reason => cases h
          | ok _ =>
              cases h
              exact ⟨text, rfl, hwrites, rfl⟩

/-- What a migration writes: the document with its definitions rewritten, each
    by the first rename that fits it, and that text goes to the destinations
    that the report names, one for each of these renames. -/
theorem migrateReference_rewrites (t t' : FileTree) (path : Path)
    (candidates : List ObjectRename) (content : String) (document : Document) (entry : Migrated)
    (hread : t.readText path = .ok content) (hparse : Document.parse content = .ok document)
    (hok : migrateReference t path candidates .apply = (.ok entry, t')) :
    ∃ folder roots renames, path.fieldsFolder? = some folder ∧
      RetargetedRoots candidates document.roots roots renames ∧
      entry = ⟨path, renames.map fun c => ⟨c.previousObject, c.newObject,
        folder.join (c.newObject ++ ".field-meta.xml")⟩, true⟩ ∧
      writeDestinations { document with roots }.render []
        (entry.references.map (·.destination)) t = (.ok (), t') ∧
      (t.IsPlain → ∀ r ∈ entry.references, ∃ d ∈ entry.references.map (·.destination),
        r.destination.same d = true ∧ t'.readText d = .ok { document with roots }.render) := by
  obtain ⟨text, hplan, hwrites, hentry⟩ := migrateReference_ok t t' path candidates entry hok
  obtain ⟨document', folder, hcan, hreferences, htext⟩ :=
    (planMigration_eq_ok_iff t path candidates entry.references text).mp hplan
  obtain ⟨content', hread', hparse'⟩ := hcan.read
  obtain rfl : content = content' := Except.ok.inj (hread.symm.trans hread')
  obtain rfl : document = document' := Except.ok.inj (hparse.symm.trans hparse')
  obtain ⟨roots, hdocument, hroots⟩ := exists_retargetedRoots candidates document
  rw [hdocument] at htext
  subst htext
  obtain ⟨-, -, -, -, -, hdestinations⟩ := planMigration_ok t path candidates _ _ hplan
  refine ⟨folder, roots, _, hcan.inFields, hroots, ?_, hwrites, ?_⟩
  · rw [hentry, hreferences]
    rfl
  · intro ht r hr
    exact readText_of_writeDestinations _ _ t t' ht (List.forall_mem_map.mpr hdestinations) hwrites
      _ (List.mem_map_of_mem hr)

/-- Two definitions, the first of which names its object twice. -/
def twoDefinitions : String :=
  "<a><referenceTo>L</referenceTo><referenceTo>L</referenceTo>" ++
    "<relationshipName>x_y_</relationshipName></a><b><referenceTo>M</referenceTo></b>"

/-- The document that these definitions are. -/
def twoDefinitionsRead : Document :=
  { roots := [
      { name := "a", children := [{ name := "referenceTo", text := some "L" },
        { name := "referenceTo", text := some "L" },
        { name := "relationshipName", text := some "x_y_" }] },
      { name := "b", children := [{ name := "referenceTo", text := some "M" }] }] }

/-- A folder with these definitions. -/
def definitionsFolder : FileTree :=
  { entries := [(["fields"], .folder), (["fields", "A.xml"], .file (.text twoDefinitions))] }

/-- Renames of which the last two fit the first definition. -/
def definitionRenames : List ObjectRename :=
  [{ previousObject := "K", newObject := "I" },
    { previousObject := "L", newObject := "N", newLabel := some "New" },
    { previousObject := "L", newObject := "O" }]

/-- What is reported for the file in that folder. -/
def definitionsEntry : Migrated :=
  ⟨⟨"fields/A.xml"⟩, [⟨"L", "N", ⟨"fields/N.field-meta.xml"⟩⟩], true⟩

theorem migrateReference_rewrites_definitions :
    definitionsFolder.readText ⟨"fields/A.xml"⟩ = .ok twoDefinitions ∧
      Document.parse twoDefinitions = .ok twoDefinitionsRead ∧
      (migrateReference definitionsFolder ⟨"fields/A.xml"⟩ definitionRenames .apply).1 =
        .ok definitionsEntry ∧
      ∃ roots renames,
        RetargetedRoots definitionRenames twoDefinitionsRead.roots roots renames ∧
        (migrateReference definitionsFolder ⟨"fields/A.xml"⟩ definitionRenames
            .apply).2.readText ⟨"fields/N.field-meta.xml"⟩ =
          .ok { twoDefinitionsRead with roots }.render := by
  have hread : definitionsFolder.readText ⟨"fields/A.xml"⟩ = .ok twoDefinitions := by
    decide +kernel
  have hparse : Document.parse twoDefinitions = .ok twoDefinitionsRead := by decide +kernel
  have hok : (migrateReference definitionsFolder ⟨"fields/A.xml"⟩ definitionRenames .apply).1 =
      .ok definitionsEntry := by
    decide +kernel
  obtain ⟨-, roots, renames, -, hroots, -, -, htexts⟩ := migrateReference_rewrites
    definitionsFolder _ ⟨"fields/A.xml"⟩ definitionRenames twoDefinitions twoDefinitionsRead
    definitionsEntry hread hparse (Prod.ext hok rfl)
  obtain ⟨d, hd, -, htext⟩ := htexts (isPlain_of_check definitionsFolder (by decide +kernel)) _
    List.mem_cons_self
  rw [List.mem_singleton.mp hd] at htext
  exact ⟨hread, hparse, hok, roots, renames, hroots, htext⟩

end SchemaRename
