import SchemaRename.Pattern.Parser
import SchemaRename.Pattern.Spans
import SchemaRename.RenameMap.Basic

/-!
# Substitution Rules

A rename map, spelled out as steps of search and replace.

Every identifier meets every template, and each meeting is one rule. The
order of the rules is part of what a map means, because each rule works on
what the one before it has left: objects in the order of the map, each
followed by its fields, and for each identifier the templates in the order of
the catalog.

A rule's pattern is the template's, with the fragments of the map around it.
Without fragments it always reads; a fragment can make it unreadable, and the
first pattern that does not read is the error of the whole map.

## Main definitions

* `Rule`: A compiled step.
* `Rule.count`, `Rule.apply`: The matches of a rule, counted and replaced.
* `buildRule`: One identifier and one template.
* `RenameMap.rules`: The rules of a map for a fetch expression.
* `replacementConflicts`: Rules that undo the work of others.
-/

namespace SchemaRename

/-- What kind of identifier a rule renames. -/
inductive RuleCategory where
  | object
  | field
deriving Repr, DecidableEq

/-- A compiled step of search and replace. -/
structure Rule where
  category : RuleCategory
  /-- The name of the template behind the rule. -/
  template : String
  oldId : String
  newId : String
  caseSensitive : Bool
  /-- The text of the pattern. -/
  pattern : String
  replacement : String
  scope : Scope
  matcher : Pattern.Expr
deriving Repr, DecidableEq

namespace Rule

/-- Whether a rule matches somewhere in a text. -/
def isMatch (r : Rule) (text : List Char) : Bool :=
  r.matcher.occursIn text

/-- The number of matches of a rule in a text. -/
def count (r : Rule) (text : List Char) : Nat :=
  (r.matcher.spans text).length

/-- A text with every match of a rule replaced. -/
def apply (r : Rule) (text : List Char) : List Char :=
  Pattern.replaceSpans r.replacement.toList (r.matcher.spans text) text

end Rule

/-- An identifier to be renamed, with all that its rules have in common. -/
structure RuleSource where
  category : RuleCategory
  oldId : String
  newId : String
  caseSensitive : Bool
  scope : Scope
deriving Repr, DecidableEq

/-- What an object is renamed by. -/
def ObjectRename.source (r : ObjectRename) : RuleSource :=
  ⟨.object, r.previousObject, r.newObject, r.caseSensitive, ⟨r.exclude, r.include_⟩⟩

/-- What a field is renamed by. It inherits nothing from its object. -/
def FieldRename.source (r : FieldRename) : RuleSource :=
  ⟨.field, r.previousField, r.newField, r.caseSensitive, ⟨r.exclude, r.include_⟩⟩

/-- The pattern of an identifier and a template, with the fragments of the map
    around it. -/
def Globals.patternAround (g : Globals) (inner : List Char) : List Char :=
  (g.patternBefore.getD "").toList ++ inner ++ (g.patternAfter.getD "").toList

/-- The error for a pattern that cannot be read. -/
def patternError (template : Template) (pattern : List Char) (cause : Pattern.Cause) : Cause :=
  .invalidValue "globalConfig" (some (String.ofList pattern))
    ("template '" ++ template.name ++ "' does not compile: " ++ cause.message) none

/-- The rule of one identifier and one template. -/
def buildRule (g : Globals) (source : RuleSource) (template : Template) : Except Cause Rule :=
  let pattern := g.patternAround (template.pattern source.oldId)
  match Pattern.parse (!source.caseSensitive) pattern with
  | .error cause => .error (patternError template pattern cause)
  | .ok matcher =>
    .ok {
      category := source.category
      template := template.name
      oldId := source.oldId
      newId := source.newId
      caseSensitive := source.caseSensitive
      pattern := String.ofList pattern
      replacement := template.replacement source.newId
      scope := source.scope
      matcher }

/-- The rules of one object and its fields. -/
def objectRules (g : Globals) (templates : TemplateSet) (r : ObjectRename) :
    Except Cause (List Rule) := do
  let own ← templates.objects.mapM (buildRule g r.source)
  let ofFields ← r.fields.mapM fun field => templates.fields.mapM (buildRule g field.source)
  return own ++ ofFields.flatten

/-- The rules of objects from a place in the map on. Each object is checked
    before its rules are built. -/
def compileRulesFrom (g : Globals) (templates : TemplateSet) :
    Nat → List ObjectRename → Except Cause (List Rule)
  | _, [] => .ok []
  | index, object :: objects => do
    object.check index
    let rules ← objectRules g templates object
    return rules ++ (← compileRulesFrom g templates (index + 1) objects)

/-- The rules of a list of objects, in order. -/
def compileRules (objects : List ObjectRename) (templates : TemplateSet) (g : Globals) :
    Except Cause (List Rule) :=
  compileRulesFrom g templates 0 objects

/-- The rules of a map for the files of a fetch expression. -/
def RenameMap.rules (m : RenameMap) (expression : String) : Except Cause (List Rule) :=
  compileRules m.objects (m.templates expression) m.globals

/-- Two rules, by their place in the list: what the first one writes, the
    second one matches. -/
structure RuleConflict where
  producer : Nat
  consumer : Nat
deriving Repr, DecidableEq

/-- The pairs of rules that make a second pass change a text again. -/
def replacementConflicts (rules : List Rule) : List RuleConflict :=
  rules.zipIdx.flatMap fun (source, producer) =>
    rules.zipIdx.filterMap fun (rule, consumer) =>
      if rule.isMatch source.replacement.toList then some ⟨producer, consumer⟩ else none

end SchemaRename
