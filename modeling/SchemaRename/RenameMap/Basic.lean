import SchemaRename.Error
import SchemaRename.Scope
import SchemaRename.Template.Merge
import SchemaRename.Text.Blank

/-!
# Rename Maps

What is to be renamed.

A rename map lists objects with their new names, and for each object the
fields that change. It can also ask for the removal of everything that is
still tied to a prefix, name a folder of hand-made files to lay over the
result, override templates, and supply pattern fragments that are put around
every pattern.

A name that is missing or blank cannot be renamed, and an empty prefix would
remove everything; these are the only things a map can get wrong once it has
been read.

## Main definitions

* `FieldRename`, `ObjectRename`: One rename.
* `Globals`: What applies to all renames.
* `RenameMap`: The whole map.
* `ObjectRename.check`: Whether the names of a rename are there.
* `RenameMap.validate`: Whether a map can be used.
* `RenameMap.overlayFolder?`: The folder to lay over the result.
-/

namespace SchemaRename

/-- A field and its new name. -/
structure FieldRename where
  previousField : String := ""
  newField : String := ""
  caseSensitive : Bool := false
  exclude : Option ScopeList := none
  include_ : Option ScopeList := none
deriving Repr, DecidableEq

/-- An object, its new name and the fields of it that change. -/
structure ObjectRename where
  previousObject : String := ""
  newObject : String := ""
  newLabel : Option String := none
  caseSensitive : Bool := false
  exclude : Option ScopeList := none
  include_ : Option ScopeList := none
  fields : List FieldRename := []
deriving Repr, DecidableEq

/-- What applies to all renames. -/
structure Globals where
  /-- A pattern fragment put in front of every pattern. -/
  patternBefore : Option String := none
  /-- A pattern fragment put behind every pattern. -/
  patternAfter : Option String := none
  objectOverrides : List Template := []
  fieldOverrides : List Template := []
deriving Repr, DecidableEq

/-- A rename map. -/
structure RenameMap where
  objects : List ObjectRename := []
  /-- Whatever is still tied to this prefix is removed. -/
  deletedPrefix : Option String := none
  /-- The folder to lay over the result, as it is written. -/
  projectFolder : Option String := none
  globals : Globals := {}
deriving Repr, DecidableEq

/-- Refuses a text that is blank. -/
def requireText (key : String) (value : String) : Except Cause Unit :=
  if (Text.trim value.toList).isEmpty then .error (.missingKey key none) else .ok ()

/-- The place of an object in a map. -/
def objectKey (index : Nat) : String :=
  "objects[" ++ toString index ++ "]"

/-- The place of a field in a map. -/
def fieldKey (index fieldIndex : Nat) : String :=
  objectKey index ++ ".fieldsMapping[" ++ toString fieldIndex ++ "]"

/-- Checks fields from a place in the list on. -/
def checkFields (index : Nat) : Nat → List FieldRename → Except Cause Unit
  | _, [] => .ok ()
  | fieldIndex, field :: fields => do
    requireText (fieldKey index fieldIndex ++ ".previousField") field.previousField
    requireText (fieldKey index fieldIndex ++ ".newField") field.newField
    checkFields index (fieldIndex + 1) fields

/-- Checks the names that a rename cannot do without, in order. -/
def ObjectRename.check (r : ObjectRename) (index : Nat) : Except Cause Unit := do
  requireText (objectKey index ++ ".previousObject") r.previousObject
  requireText (objectKey index ++ ".newObject") r.newObject
  checkFields index 0 r.fields

/-- Checks objects from a place in the list on. -/
def checkObjects : Nat → List ObjectRename → Except Cause Unit
  | _, [] => .ok ()
  | index, object :: objects => do
    object.check index
    checkObjects (index + 1) objects

/-- An empty prefix is part of every name. -/
def emptyPrefix : Cause :=
  .invalidValue "objectToDelete.prefixe" (some "") "an empty prefix would match every file" none

namespace RenameMap

/-- Checks the map: the names in order, and then the prefix. -/
def validate (m : RenameMap) : Except Cause Unit := do
  checkObjects 0 m.objects
  match m.deletedPrefix with
  | some "" => throw emptyPrefix
  | _ => pure ()

/-- The folder to lay over the result, if the map names one. -/
def overlayFolder? (m : RenameMap) (home : String) : Option Path :=
  match m.projectFolder with
  | some folder =>
    if (Text.trim folder.toList).isEmpty then none else some ⟨Path.expandHome home folder⟩
  | none => none

/-- The templates in force for a fetch expression. -/
def templates (m : RenameMap) (expression : String) : TemplateSet :=
  .resolve m.globals.objectOverrides m.globals.fieldOverrides expression

end RenameMap

end SchemaRename
