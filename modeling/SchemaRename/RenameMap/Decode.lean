import SchemaRename.FileTree.AtomicWrite
import SchemaRename.Json.Reader
import SchemaRename.RenameMap.Basic

/-!
# Reading Rename Maps

From a JSON document to a rename map.

A record is read from an object or from an array. In an object the members
may come in any order, members that are not known are passed over, and a
known one may occur once. In an array the members stand in their fixed order;
the last ones may be left out. Either way the result is the list of members
in that order, and what a missing one means is decided member by member.

A scope list is not a record: its keys are extensions, so it has to be an
object, and every key but one is an extension.

## Main definitions

* `Decoder`: How a value is read.
* `recordMembers`: The members of a record in their fixed order.
* `RenameMap.ofJson`: The map behind a value.
* `RenameMap.parse`: The map behind a document, validated.
* `RenameMap.load`: The map in a file.
-/

namespace SchemaRename

/-- How a value is read. -/
abbrev Decoder (α : Type) := Json → Except Json.Fault α

namespace Decoder

/-- Reads a text. -/
def text : Decoder String
  | .string (some s) => .ok s
  | .string none => .error .halfSurrogate
  | _ => .error (.wrongType "a string")

/-- Reads a truth value. -/
def bool : Decoder Bool
  | .bool b => .ok b
  | _ => .error (.wrongType "a boolean")

/-- Reads an array. -/
def list {α : Type} (item : Decoder α) : Decoder (List α)
  | .array items => items.mapM item
  | _ => .error (.wrongType "a sequence")

/-- Reads a value that may be null. -/
def nullable {α : Type} (value : Decoder α) : Decoder (Option α)
  | .null => .ok none
  | v => (value v).map some

end Decoder

/-- The value of a key in an object that may have it once. -/
def uniqueMember (key : String) (members : List (Option String × Json)) :
    Except Json.Fault (Option Json) :=
  match members.filter (·.1 == some key) with
  | [] => .ok none
  | [member] => .ok (some member.2)
  | _ => .error (.repeatedKey key)

/-- The members of a record in their fixed order. -/
def recordMembers (keys : List String) : Json → Except Json.Fault (List (Option Json))
  | .object members =>
    if members.any (·.1.isNone) then .error .halfSurrogate
    else keys.mapM fun key => uniqueMember key members
  | .array items =>
    if keys.length < items.length then .error .surplusItems
    else .ok (items.map some ++ List.replicate (keys.length - items.length) none)
  | _ => .error (.wrongType "a record")

/-- A member that may be missing. -/
def memberOr {α : Type} (read : Decoder α) (default : α) : Option Json → Except Json.Fault α
  | some v => read v
  | none => .ok default

/-- A member that may not be missing. -/
def memberRequired {α : Type} (key : String) (read : Decoder α) :
    Option Json → Except Json.Fault α
  | some v => read v
  | none => .error (.missingKey key)

/-- The keys of a template. -/
def templateKeys : List String :=
  ["name", "before", "after", "replacementPrefix", "replacementSuffix", "affecteditems"]

/-- Reads a template. -/
def Template.ofJson : Decoder Template := fun v => do
  match ← recordMembers templateKeys v with
  | [name, before, after, replacementPrefix, replacementSuffix, affectedItems] =>
    return {
      name := ← memberRequired "name" .text name
      before := ← memberOr .text "" before
      after := ← memberOr .text "" after
      replacementPrefix := ← memberOr (.nullable .text) none replacementPrefix
      replacementSuffix := ← memberOr (.nullable .text) none replacementSuffix
      affectedItems := ← memberOr (.nullable .text) none affectedItems }
  | _ => throw (.wrongType "a template")

/-- The key of a scope list that is not an extension. -/
def exceptionKey : String :=
  "exceptionList"

/-- Adds one member of a scope list. A repeated extension keeps its last
    patterns. -/
def addScopeMember (byExtension : List (String × List String)) (member : Option String × Json) :
    Except Json.Fault (List (String × List String)) :=
  match member with
  | (none, _) => .error .halfSurrogate
  | (some key, value) =>
    if key == exceptionKey then .ok byExtension
    else (Decoder.list .text value).map fun patterns => setPatterns key patterns byExtension

/-- Reads a scope list. -/
def ScopeList.ofJson : Decoder ScopeList
  | .object members => do
    let byExtension ← members.foldlM addScopeMember []
    let exceptions ← memberOr (.list .text) [] (← uniqueMember exceptionKey members)
    return { exceptions, byExtension }
  | _ => .error (.wrongType "a map")

/-- The keys of a field. -/
def fieldKeys : List String :=
  ["previousField", "newField", "caseSensitive", "exclude", "include"]

/-- Reads a field. -/
def FieldRename.ofJson : Decoder FieldRename := fun v => do
  match ← recordMembers fieldKeys v with
  | [previousField, newField, caseSensitive, exclude, include_] =>
    return {
      previousField := ← memberOr .text "" previousField
      newField := ← memberOr .text "" newField
      caseSensitive := ← memberOr .bool false caseSensitive
      exclude := ← memberOr (.nullable ScopeList.ofJson) none exclude
      include_ := ← memberOr (.nullable ScopeList.ofJson) none include_ }
  | _ => throw (.wrongType "a field")

/-- The keys of an object. -/
def objectKeys : List String :=
  ["previousObject", "newObject", "newLabel", "caseSensitive", "exclude", "include",
    "fieldsMapping"]

/-- Reads an object. -/
def ObjectRename.ofJson : Decoder ObjectRename := fun v => do
  match ← recordMembers objectKeys v with
  | [previousObject, newObject, newLabel, caseSensitive, exclude, include_, fields] =>
    return {
      previousObject := ← memberOr .text "" previousObject
      newObject := ← memberOr .text "" newObject
      newLabel := ← memberOr (.nullable .text) none newLabel
      caseSensitive := ← memberOr .bool false caseSensitive
      exclude := ← memberOr (.nullable ScopeList.ofJson) none exclude
      include_ := ← memberOr (.nullable ScopeList.ofJson) none include_
      fields := ← memberOr (.list FieldRename.ofJson) [] fields }
  | _ => throw (.wrongType "an object")

/-- The keys of what applies to all renames. -/
def globalKeys : List String :=
  ["regexEpressionBeforeElement", "regexEpressionAfterElement",
    "aroundCharReplaceObjectListOverride", "aroundCharReplaceFieldListOverride"]

/-- Reads what applies to all renames. -/
def Globals.ofJson : Decoder Globals := fun v => do
  match ← recordMembers globalKeys v with
  | [before, after, objectOverrides, fieldOverrides] =>
    return {
      patternBefore := ← memberOr (.nullable .text) none before
      patternAfter := ← memberOr (.nullable .text) none after
      objectOverrides := ← memberOr (.list Template.ofJson) [] objectOverrides
      fieldOverrides := ← memberOr (.list Template.ofJson) [] fieldOverrides }
  | _ => throw (.wrongType "a global configuration")

/-- Reads the prefix of what is to be removed. -/
def deletedPrefixOfJson : Decoder String := fun v => do
  match ← recordMembers ["prefixe"] v with
  | [deletedPrefix] => memberRequired "prefixe" .text deletedPrefix
  | _ => throw (.wrongType "a prefix")

/-- The keys of a rename map. -/
def mapKeys : List String :=
  ["objects", "objectToDelete", "sfdxProjectFolder", "globalConfig"]

/-- The map behind a value. -/
def RenameMap.ofJson : Decoder RenameMap := fun v => do
  match ← recordMembers mapKeys v with
  | [objects, deletedPrefix, projectFolder, globals] =>
    return {
      objects := ← memberOr (.list ObjectRename.ofJson) [] objects
      deletedPrefix := ← memberOr (.nullable deletedPrefixOfJson) none deletedPrefix
      projectFolder := ← memberOr (.nullable .text) none projectFolder
      globals := ← memberOr Globals.ofJson {} globals }
  | _ => throw (.wrongType "a rename map")

/-- The map behind a document, validated. Errors name the origin of the
    document. -/
def RenameMap.parse (document origin : String) : Except Error RenameMap :=
  match (do RenameMap.ofJson (← Json.parse document) : Except Json.Fault RenameMap) with
  | .error fault => .error (.of (.invalidJson origin fault.message))
  | .ok m =>
    match m.validate with
    | .error cause => .error (.of (cause.withPath origin))
    | .ok () => .ok m

/-- What to do about a rename map that cannot be read. -/
def configHint : String :=
  "Pass the rename map with --config <FILE>"

/-- The map in a file. -/
def RenameMap.load (t : FileTree) (home : String) (path : String) : Except Error RenameMap := do
  let expanded := Path.expandHome home path
  let document ← (t.read ⟨expanded⟩ ("read config " ++ expanded)).mapError (·.withHint configHint)
  RenameMap.parse document expanded

end SchemaRename
