import SchemaRename.Json.Writer
import SchemaRename.RenameMap.Basic

/-!
# Writing Rename Maps

From a rename map back to a JSON document.

The written document holds the members that are set; reading it gives the map
back.

## Main definitions

* `Template.toJson`, `ScopeList.toJson`: Parts that reports show too.
* `RenameMap.toJson`: A map as a value.
* `RenameMap.render`: A map as a document.
-/

namespace SchemaRename

/-- A template as a value. -/
def Template.toJson (t : Template) : Json :=
  .obj ([("name", .str t.name), ("before", .str t.before), ("after", .str t.after)] ++
    Json.optional "replacementPrefix" .str t.replacementPrefix ++
    Json.optional "replacementSuffix" .str t.replacementSuffix ++
    Json.optional "affecteditems" .str t.affectedItems)

/-- A scope list as a value: extensions and, if there are any, exceptions. -/
def ScopeList.toJson (l : ScopeList) : Json :=
  .obj (Json.nonempty "exceptionList" .str l.exceptions ++
    l.byExtension.map fun (extension, patterns) => (extension, Json.strs patterns))

/-- A field as a value. -/
def FieldRename.toJson (r : FieldRename) : Json :=
  .obj ([("previousField", .str r.previousField), ("newField", .str r.newField),
      ("caseSensitive", .bool r.caseSensitive)] ++
    Json.optional "exclude" ScopeList.toJson r.exclude ++
    Json.optional "include" ScopeList.toJson r.include_)

/-- An object as a value. -/
def ObjectRename.toJson (r : ObjectRename) : Json :=
  .obj ([("previousObject", .str r.previousObject), ("newObject", .str r.newObject)] ++
    Json.optional "newLabel" .str r.newLabel ++
    [("caseSensitive", .bool r.caseSensitive)] ++
    Json.optional "exclude" ScopeList.toJson r.exclude ++
    Json.optional "include" ScopeList.toJson r.include_ ++
    [("fieldsMapping", .array (r.fields.map FieldRename.toJson))])

/-- What applies to all renames, as a value. -/
def Globals.toJson (g : Globals) : Json :=
  .obj (Json.optional "regexEpressionBeforeElement" .str g.patternBefore ++
    Json.optional "regexEpressionAfterElement" .str g.patternAfter ++
    [("aroundCharReplaceObjectListOverride", .array (g.objectOverrides.map Template.toJson)),
      ("aroundCharReplaceFieldListOverride", .array (g.fieldOverrides.map Template.toJson))])

/-- A map as a value. -/
def RenameMap.toJson (m : RenameMap) : Json :=
  .obj ([("objects", .array (m.objects.map ObjectRename.toJson))] ++
    Json.optional "objectToDelete" (fun p => .obj [("prefixe", .str p)]) m.deletedPrefix ++
    Json.optional "sfdxProjectFolder" .str m.projectFolder ++
    [("globalConfig", m.globals.toJson)])

/-- A map as a document. -/
def RenameMap.render (m : RenameMap) : String :=
  m.toJson.compact

end SchemaRename
