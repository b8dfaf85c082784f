/-!
# Searching Texts

Whether a text occurs in another one.

## Main definitions

* `occursIn`: Whether a text is somewhere in another one.
-/

namespace SchemaRename.Text

/-- Whether a text is somewhere in another one. -/
def occursIn (needle : List Char) : List Char → Bool
  | [] => needle.isEmpty
  | c :: rest => needle.isPrefixOf (c :: rest) || occursIn needle rest

end SchemaRename.Text
