import SchemaRename.Template.Basic

/-!
# Built-In Templates

The boundaries that the tool knows without being told.

Objects and fields have catalogs of their own, because fields are mostly
reached through a dot while objects stand alone. The order of a catalog is
the order in which its rules are applied. Names may repeat, and an override
replaces every template of its name.

## Main definitions

* `objectCatalog`: Boundaries of object names.
* `fieldCatalog`: Boundaries of field names.
-/

namespace SchemaRename

/-- The boundaries of object names, in the order in which they are applied. -/
def objectCatalog : List Template :=
  [ { name := "simpleQuote", before := "'", after := "'" },
    { name := "tag", before := "<", after := ">" },
    { name := "xmlFile", before := ">", after := "</" },
    -- Type.method('Legacy__c.Field__c')
    { name := "stringlist", before := "'", after := "." },
    { name := "space", before := " ", after := " " },
    -- Database.upsert(records, Legacy__c.Fields.Name, false)
    { name := "spacePoint", before := " ", after := "." },
    { name := "parenthesis", before := "(", after := ")" },
    -- for (Legacy__c record : records)
    { name := "loop", before := "(", after := " " },
    -- new Legacy__c()
    { name := "newObject", before := " ", after := "(" },
    -- record instanceof Legacy__c)
    { name := "objectInParenthesis", before := " ", after := ")" },
    -- value="Legacy__c.Field__c"
    { name := "object", before := "\"", after := "." },
    { name := "DeclarationObject", before := "\"", after := "\"" },
    { name := "GetRecordtypeinjson", before := "\"", after := "@" },
    -- SELECT Id FROM Legacy__c at the end of a line
    { name := "fieldEndline", before := " ", after := Template.endOfLine } ]

/-- The boundaries of field names, in the order in which they are applied. -/
def fieldCatalog : List Template :=
  [ { name := "simpleQuote", before := "'", after := "'" },
    { name := "simpleQuoteFields", before := "'", after := "." },
    { name := "point", before := ".", after := "." },
    { name := "pointSpace", before := ".", after := " " },
    { name := "xmlFile", before := ">", after := "</" },
    { name := "xmlFile", before := ".", after := "</" },
    { name := "pointQuote", before := ".", after := "'" },
    { name := "spacePoint", before := " ", after := "." },
    { name := "pointEndLine", before := ".", after := ";" },
    -- new Legacy__c(Amount__c=1)
    { name := "objectArgument", before := "(", after := "=" },
    -- toLabel(Amount__c)
    { name := "fieldParenthesis", before := "(", after := ")" },
    { name := "endOfstring", before := " ", after := "'" },
    { name := "selectfields", before := " ", after := "," },
    { name := "pointArgument", before := ".", after := "," },
    { name := "pointEndParenthesis", before := ".", after := ")" },
    -- SELECT Id,Name,Lookup__r.Name
    { name := "SOQLRequest", before := ",", after := "." },
    { name := "newObjectInitialize", before := " ", after := "=" },
    { name := "firstSOQLRequest", before := "SELECT ", after := " " },
    { name := "firstSOQLRequestofList", before := "SELECT ", after := "," },
    { name := "SOQLRequestofList", before := " ", after := "," },
    { name := "lastSOQLRequestofList", before := " ", after := " FROM" },
    { name := "lastSOQLRequestofList", before := ",", after := " FROM" },
    { name := "equality", before := ".", after := "=" },
    -- a list literal that ends with record.Amount__c
    { name := "list", before := ".", after := "\x7d" },
    { name := "inequality", before := ".", after := "!" },
    { name := "Concatenation", before := ".", after := "+" },
    { name := "comaComa", before := ",", after := "," },
    { name := "pointCalculator", before := ".", after := "*" },
    { name := "componentfield", before := ".", after := "\"" },
    { name := "DeclarationField", before := "\"", after := "\"" },
    { name := "fieldEndline", before := ".", after := Template.endOfLine } ]

end SchemaRename
