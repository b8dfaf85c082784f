import SchemaRename.Markup.Element
import SchemaRename.Markup.Entity

/-!
# Writing Documents

A document as text, one tag a line.

Each tag stands on a line of its own, four spaces deeper than the tag around
it. Blanks next to a text would become part of it, so a tag that directly
follows a text stays on its line: the closing tag of an element that holds
only text, and the first child of one that has text in front.

An element with neither text nor children is one tag.

Everything is written in front of the text that follows it, so that an
element deep down is not copied once for every element around it.

## Main definitions

* `Element.write`: An element and everything in it.
* `Document.render`: A document as text.
-/

namespace SchemaRename.Markup

/-- A new line, indented to a depth. -/
def lineBreak (depth : Nat) : List Char :=
  '\n' :: List.replicate (4 * depth) ' '

/-- The attributes of a tag. -/
def writeAttributes (attributes : List (String × String)) : List Char :=
  attributes.flatMap fun (key, value) =>
    ' ' :: key.toList ++ '=' :: '"' :: escape value.toList ++ ['"']

mutual

/-- An element `depth` levels down, in front of what follows it. It starts a
    line unless text stands directly before it. -/
def Element.write (depth : Nat) (afterText : Bool) : Element → List Char → List Char
  | ⟨name, attributes, text, children⟩, rest =>
    let lead := if afterText then [] else lineBreak depth
    let tag := '<' :: (name.toList ++ writeAttributes attributes)
    match text, children with
    | none, [] => lead ++ (tag ++ ('/' :: '>' :: rest))
    | text, children =>
      let closingLead := if children.isEmpty then [] else lineBreak depth
      let closing := closingLead ++ ('<' :: '/' :: (name.toList ++ ('>' :: rest)))
      lead ++ (tag ++ ('>' :: (escape (text.getD "").toList ++
        Element.writeAll (depth + 1) text.isSome children closing)))

/-- Elements one after the other; only the first can follow a text. -/
def Element.writeAll (depth : Nat) (afterText : Bool) : List Element → List Char → List Char
  | [], rest => rest
  | e :: more, rest => e.write depth afterText (Element.writeAll depth false more rest)

end

/-- A declaration. Its values are written as they are. -/
def Declaration.write (d : Declaration) : List Char :=
  let member (key : String) (value : Option String) :=
    value.toList.flatMap fun v => (" " ++ key ++ "=\"" ++ v ++ "\"").toList
  "<?xml".toList ++ member "version" (some d.version) ++ member "encoding" d.encoding ++
    member "standalone" d.standalone ++ ['?', '>']

/-- A document as text. -/
def Document.render (d : Document) : String :=
  String.ofList ((d.declaration.getD .standard).write ++ Element.writeAll 0 false d.roots ['\n'])

end SchemaRename.Markup
