import SchemaRename.Error
import SchemaRename.Markup.Element
import SchemaRename.Markup.Entity
import SchemaRename.Markup.Event

/-!
# Reading Documents

From the parts of a document to its tree.

The parts are taken in order. An opening tag starts an element, which stays
open until its closing tag; text goes to the innermost open element, and text
outside all elements is read and dropped. The scanner has matched the tags
already, but what is inside a tag or a text is looked at only here, so this
is where a bad attribute or a bad reference is found.

A fault of the scanner counts only after everything that was delivered before
it has been accepted.

## Main definitions

* `Fault`, `Context`: What is wrong with a document, and when it was noticed.
* `Builder`: The tree so far: elements that are open, and finished roots.
* `Builder.add`: The tree with one more part.
* `Document.parse`: The document behind a text.
-/

namespace SchemaRename.Markup

open SchemaRename.Text

/-- What is wrong with a document. -/
inductive Fault where
  | scan (fault : ScanFault)
  | attribute (fault : AttributeFault)
  /-- An attribute of the declaration. -/
  | declarationAttribute (fault : AttributeFault)
  /-- The declaration starts with another attribute, or with none. -/
  | noVersion (found : Option (List Char))
  | entity (fault : EntityFault)
  | unexpectedClosing
  | neverClosed (name : String)
  | noRoot
deriving Repr, DecidableEq

/-- The fault in words. -/
def Fault.message : Fault → String
  | .scan fault => fault.message
  | .attribute fault => fault.message
  | .declarationAttribute fault => "error while parsing attribute: " ++ fault.message
  | .noVersion found =>
    "XmlDecl must start with 'version' attribute, found " ++
      match found with
      | some key => "Some(" ++ String.ofList (quoted key) ++ ")"
      | none => "None"
  | .entity fault => fault.message
  | .unexpectedClosing => "unexpected closing tag"
  | .neverClosed name => "element <" ++ name ++ "> is never closed"
  | .noRoot => "document has no root element"

/-- What the reader was doing when it noticed a fault. -/
inductive Context where
  | scanning (offset : Nat)
  | parsing
  | attribute
  | attributeValue
  | text
  | declaration
  | encoding
  | standalone
deriving Repr, DecidableEq

/-- The context in words. -/
def Context.message : Context → String
  | .scanning offset => "parse at byte " ++ toString offset
  | .parsing => "parse"
  | .attribute => "read attribute"
  | .attributeValue => "unescape attribute"
  | .text => "unescape text"
  | .declaration => "read declaration"
  | .encoding => "read encoding"
  | .standalone => "read standalone"

/-- A fault with its context. -/
structure Failure where
  fault : Fault
  context : Context
deriving Repr, DecidableEq

/-- The failure as an error of the tool. -/
def Failure.toError (f : Failure) : Error :=
  .of (.xml f.fault.message (some f.context.message))

/-- An attribute with its references resolved. -/
def RawAttribute.resolve (a : RawAttribute) : Except Failure (String × String) :=
  match unescape a.value with
  | .ok value => .ok (String.ofList a.key, String.ofList value)
  | .error fault => .error ⟨.entity fault, .attributeValue⟩

/-- The element that a tag opens. -/
def elementOfTag (tag : List Char) : Except Failure Element := do
  let name := tagName tag
  let listing := listAttributes true tag name.length
  let attributes ← listing.attributes.mapM RawAttribute.resolve
  match listing.fault with
  | some fault => throw ⟨.attribute fault, .attribute⟩
  | none => return { name := String.ofList name, attributes }

/-- The first attribute with a key, if no fault comes before it. -/
def Listing.find (l : Listing) (key : String) (context : Context) :
    Except Failure (Option String) :=
  match l.attributes.find? (·.key == key.toList), l.fault with
  | some a, _ => .ok (some (String.ofList a.value))
  | none, some fault => .error ⟨.declarationAttribute fault, context⟩
  | none, none => .ok none

/-- The declaration with the given content. The version has to come first; the
    other two are looked for from the start. -/
def declarationOf (content : List Char) : Except Failure Declaration := do
  let listing := listAttributes false content 3
  let version ←
    match listing.attributes, listing.fault with
    | a :: _, _ =>
      if a.key == "version".toList then pure (String.ofList a.value)
      else throw ⟨.noVersion (some a.key), .declaration⟩
    | [], some fault => throw ⟨.declarationAttribute fault, .declaration⟩
    | [], none => throw ⟨.noVersion none, .declaration⟩
  let encoding ← listing.find "encoding" .encoding
  let standalone ← listing.find "standalone" .standalone
  return { version, encoding, standalone }

/-- The tree so far. -/
structure Builder where
  declaration : Option Declaration := none
  /-- Elements whose closing tag has not come yet, innermost first. -/
  opened : List Element := []
  roots : List Element := []
deriving Repr, DecidableEq

namespace Builder

/-- Adds a finished element to the innermost open one, or to the roots. -/
def attach (b : Builder) (e : Element) : Builder :=
  match b.opened with
  | parent :: outer =>
    { b with opened := { parent with children := parent.children ++ [e] } :: outer }
  | [] => { b with roots := b.roots ++ [e] }

/-- Adds text to the innermost open element. -/
def appendText (b : Builder) (text : List Char) : Builder :=
  match b.opened with
  | parent :: outer =>
    { b with
      opened := { parent with text := some (parent.text.getD "" ++ String.ofList text) } :: outer }
  | [] => b

/-- The tree with one more part. -/
def add (b : Builder) : Event → Except Failure Builder
  | .declaration content => do
    return { b with declaration := some (← declarationOf content) }
  | .opening tag => do
    return { b with opened := (← elementOfTag tag) :: b.opened }
  | .empty tag => do
    return b.attach (← elementOfTag tag)
  | .closing =>
    match b.opened with
    | e :: outer => .ok ({ b with opened := outer }.attach e)
    | [] => .error ⟨.unexpectedClosing, .parsing⟩
  | .text raw =>
    match unescape raw with
    | .ok text => .ok (b.appendText text)
    | .error fault => .error ⟨.entity fault, .text⟩
  | .data raw => .ok (b.appendText raw)

/-- The document, once all parts have been added. -/
def finish (b : Builder) : Except Failure Document :=
  match b.opened, b.roots with
  | e :: _, _ => .error ⟨.neverClosed e.name, .parsing⟩
  | [], [] => .error ⟨.noRoot, .parsing⟩
  | [], roots => .ok ⟨b.declaration, roots⟩

end Builder

/-- The document behind the parts of a text. -/
def Scan.document (s : Scan) : Except Failure Document := do
  let built ← s.events.foldlM Builder.add {}
  match s.fault with
  | some (offset, fault) => throw ⟨.scan fault, .scanning offset⟩
  | none => built.finish

/-- The document behind a text. -/
def Document.parse (text : String) : Except Failure Document :=
  (scan text.toList).document

end SchemaRename.Markup
