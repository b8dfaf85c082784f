import SchemaRename.Template.Basic

/-!
# Templates That Need a Second Pass

Boundaries that two neighbours can share.

In `a Legacy__c Legacy__c b` the blank in the middle belongs to both names. A
pass takes it with the first match and leaves the second name to the next
pass. This can happen whenever the end of a right boundary is the start of
the left one.

## Main definitions

* `boundaryOverlaps`: Whether some end of one text is a start of another.
* `overlappingTemplates`: The templates this can happen to.
-/

namespace SchemaRename

/-- Whether a suffix of `after`, not empty, is a prefix of `before`. -/
def boundaryOverlaps : (after before : List Char) → Bool
  | [], _ => false
  | c :: after, before =>
    (c :: after).isPrefixOf before || boundaryOverlaps after before

/-- The templates whose right boundary can double as their left one. -/
def overlappingTemplates (templates : List Template) : List Template :=
  templates.filter fun t => !t.isEndOfLine && boundaryOverlaps t.after.toList t.before.toList

end SchemaRename
