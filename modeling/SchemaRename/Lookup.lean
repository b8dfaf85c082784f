import SchemaRename.FileTree.AtomicWrite
import SchemaRename.Markup.Document
import SchemaRename.Markup.Writer
import SchemaRename.RenameMap.Basic

/-!
# Lookup Fields

Fields that point at an object, and what becomes of them when the object is
renamed.

The definition of a lookup field names its target. When the target has a new
name, the definition is written again for the new target, beside the old one
in the same `fields` folder and under the new object's name. The old file
stays where it is; removing it is the business of the cleanup.

A document may hold several definitions. The first rename that fits a
definition is the one that applies to it, and every change is made before
anything is written, so each destination gets the whole document.

## Main definitions

* `retarget`: A definition for the new target.
* `Path.fieldsFolder?`: The folder that definitions are written to.
* `Migrated`: What was written.
* `SkippedReason`: Why a file was left alone.
* `migrateReference`: The lookup field in a file, migrated.
-/

namespace SchemaRename

open SchemaRename.Markup

/-- The folder that field definitions are in. -/
def fieldsSegment : String :=
  "fields"

/-- How the file name of a field definition ends. -/
def fieldFileSuffix : String :=
  ".field-meta.xml"

/-- A definition that points at a new object now. -/
structure RetargetedReference where
  previousObject : String
  newObject : String
  destination : Path
deriving Repr, DecidableEq

/-- The definitions of a file, migrated. -/
structure Migrated where
  source : Path
  references : List RetargetedReference
  written : Bool
deriving Repr, DecidableEq

/-- Why a file was left alone. -/
inductive SkippedReason where
  | unreadable (error : String)
  | unparseable (error : String)
  | noMatchingReference
  | noFieldsFolder
  | destinationIsSource
  | writeFailed (destination : Path) (error : String)
deriving Repr, DecidableEq

/-- The reason in words. -/
def SkippedReason.message : SkippedReason → String
  | .unreadable error => "unreadable: " ++ error
  | .unparseable error => "not valid XML: " ++ error
  | .noMatchingReference => "no renamed object referenced"
  | .noFieldsFolder => "path has no '" ++ fieldsSegment ++ "' folder"
  | .destinationIsSource => "destination would overwrite the source file"
  | .writeFailed destination error => "write " ++ destination.text ++ " failed: " ++ error

/-- The steps of a path up to and including the first `fields` folder. -/
def stepsToFields? : List Component → Option (List Component)
  | [] => none
  | step :: steps =>
    if step == .name fieldsSegment then some [step] else (stepsToFields? steps).map (step :: ·)

/-- The `fields` folder that a path goes through first. -/
def Path.fieldsFolder? (p : Path) : Option Path :=
  (stepsToFields? p.components).map Path.ofComponents

/-- A relationship name without its underscores. A name that is not there
    stays away. -/
def Markup.Element.dropUnderscores (e : Element) : Element :=
  { e with text := e.text.map fun name => String.ofList (name.toList.filter (· != '_')) }

/-- A definition for the new target. -/
def retarget (rename : ObjectRename) (e : Element) : Element :=
  let referenced := e.setFirstValue "referenceTo" rename.newObject
  let labelled :=
    match rename.newLabel with
    | some label => referenced.setFirstValue "label" label
    | none => referenced
  let named := labelled.setFirstValue "fullName" rename.newObject
  { named with
    children := Element.updateFirst "relationshipName" Element.dropUnderscores named.children }

/-- The first rename that fits a definition. -/
def renameFor? (candidates : List ObjectRename) (e : Element) : Option ObjectRename :=
  candidates.find? fun c => e.firstValue? "referenceTo" == some c.previousObject

/-- The renames of a document: each definition with the one that applies. -/
def matchedRenames (candidates : List ObjectRename) (d : Document) : List ObjectRename :=
  d.roots.filterMap (renameFor? candidates)

/-- A document for the new targets. -/
def retargetDocument (candidates : List ObjectRename) (d : Document) : Document :=
  { d with roots := d.roots.map fun e =>
      match renameFor? candidates e with
      | some rename => retarget rename e
      | none => e }

/-- Where the definition of a renamed object goes. -/
def referenceTo (folder : Path) (rename : ObjectRename) : RetargetedReference :=
  ⟨rename.previousObject, rename.newObject, folder.join (rename.newObject ++ fieldFileSuffix)⟩

/-- Writes the same text to some destinations, each of them once. -/
def writeDestinations (text : String) :
    List Path → List Path → FileTree → Except SkippedReason Unit × FileTree
  | _, [], t => (.ok (), t)
  | done, destination :: destinations, t =>
    if done.any destination.same then writeDestinations text done destinations t
    else
      match t.writeAtomic destination text ("write " ++ destination.text) with
      | (.error e, t) => (.error (.writeFailed destination e.cause.shortText), t)
      | (.ok (), t) => writeDestinations text (destination :: done) destinations t

/-- The migration of a file, before anything is written: the references and
    the text that each destination gets. -/
def planMigration (t : FileTree) (path : Path) (candidates : List ObjectRename) :
    Except SkippedReason (List RetargetedReference × String) := do
  let content ← (t.read path ("read " ++ path.text)).mapError fun e =>
    SkippedReason.unreadable e.cause.shortText
  let document ← (Document.parse content).mapError fun f =>
    SkippedReason.unparseable f.fault.message
  let renames := matchedRenames candidates document
  if renames.isEmpty then throw .noMatchingReference
  match path.fieldsFolder? with
  | none => throw .noFieldsFolder
  | some folder =>
    let references := renames.map (referenceTo folder)
    if references.any fun r => r.destination.same path then throw .destinationIsSource
    return (references, (retargetDocument candidates document).render)

/-- Migrates the lookup field in a file. -/
def migrateReference (t : FileTree) (path : Path) (candidates : List ObjectRename)
    (mode : WriteMode) : Except SkippedReason Migrated × FileTree :=
  match planMigration t path candidates with
  | .error reason => (.error reason, t)
  | .ok (references, text) =>
    if mode.writes then
      match writeDestinations text [] (references.map (·.destination)) t with
      | (.error reason, t) => (.error reason, t)
      | (.ok (), t) => (.ok ⟨path, references, true⟩, t)
    else (.ok ⟨path, references, false⟩, t)

end SchemaRename
