import SchemaRename.Pattern.Escape

/-!
# Boundary Templates

What stands directly before and after an identifier that is a real
reference.

A name in a source text is renamed only between characters that show it to be
a reference: `'Legacy__c'`, `<Legacy__c>`, `new Legacy__c(`. A template names
such a pair. It says which pattern finds an identifier between its characters
and which text takes the place of a match. The characters are part of the
match, so the replacement puts them back.

One text on the right side is special: the dollar sign stands for the end of
the line, which is looked for and not replaced.

## Main definitions

* `Template`: A pair of boundaries with a name.
* `Template.affects`: Whether an override applies to a fetch expression.
* `Template.pattern`: The pattern that finds an identifier.
* `Template.replacement`: The text that takes the place of a match.
-/

namespace SchemaRename

/-- A pair of boundaries. -/
structure Template where
  name : String
  before : String := ""
  after : String := ""
  /-- Text put in front of every replacement. -/
  replacementPrefix : Option String := none
  /-- Text put behind every replacement. -/
  replacementSuffix : Option String := none
  /-- Restricts an override to the fetch expressions that end with it. -/
  affectedItems : Option String := none
deriving Repr, DecidableEq

namespace Template

/-- The right boundary that stands for the end of the line. -/
def endOfLine : String :=
  "$"

/-- Whether the right boundary is the end of the line. -/
def isEndOfLine (t : Template) : Bool :=
  t.after == endOfLine

/-- Whether an override applies to a fetch expression. -/
def affects (t : Template) (expression : String) : Bool :=
  match t.affectedItems with
  | none => true
  | some suffix => suffix.toList.isSuffixOf expression.toList

/-- The pattern that finds an identifier between the boundaries. -/
def pattern (t : Template) (oldId : String) : List Char :=
  Pattern.escape t.before.toList ++ Pattern.escape oldId.toList ++
    if t.isEndOfLine then ['$'] else Pattern.escape t.after.toList

/-- The text that takes the place of a match. -/
def replacement (t : Template) (newId : String) : String :=
  t.replacementPrefix.getD "" ++ t.before ++ newId ++
    (if t.isEndOfLine then "" else t.after) ++ t.replacementSuffix.getD ""

end Template

end SchemaRename
