import SchemaRename.Template.Catalog

/-!
# Overriding Templates

The catalog that is in force for one fetch expression.

A rename map can replace templates by name and add new ones. Overrides are
taken one after the other. One whose name is known replaces every template
of that name, provided it applies to the expression, and changes nothing
otherwise; one whose name is not known is added at the end, whether it
applies or not. So a later override can replace one that an earlier override
has added.

## Main definitions

* `mergeOverride`: A catalog with one override.
* `mergeTemplates`: A catalog with all overrides.
* `TemplateSet`: The catalogs for objects and for fields.
-/

namespace SchemaRename

/-- A catalog with one override. -/
def mergeOverride (expression : String) (catalog : List Template) (override : Template) :
    List Template :=
  if catalog.any (·.name == override.name) then
    if override.affects expression then
      catalog.map fun t => if t.name == override.name then override else t
    else catalog
  else catalog ++ [override]

/-- A catalog with overrides, taken in order. -/
def mergeTemplates (base overrides : List Template) (expression : String) : List Template :=
  overrides.foldl (mergeOverride expression) base

/-- The templates in force, for objects and for fields. -/
structure TemplateSet where
  objects : List Template
  fields : List Template
deriving Repr, DecidableEq

/-- The built-in templates. -/
def TemplateSet.builtIn : TemplateSet :=
  ⟨objectCatalog, fieldCatalog⟩

/-- The built-in templates with overrides, for one fetch expression. -/
def TemplateSet.resolve (objectOverrides fieldOverrides : List Template) (expression : String) :
    TemplateSet :=
  ⟨mergeTemplates objectCatalog objectOverrides expression,
   mergeTemplates fieldCatalog fieldOverrides expression⟩

end SchemaRename
