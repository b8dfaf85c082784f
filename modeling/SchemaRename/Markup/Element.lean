/-!
# Elements and Documents

The tree behind a metadata file.

Metadata files are small: their leaves hold one value each, and all the tool
does is look at a value, change it and write the document back. The tree
keeps names, attributes, text and children in order. What stands between two
children is one text: an element has a single text, in front of its children.

A text that is there and empty is not the same as no text. The first is
written as a pair of tags and the second, if there are no children either, as
one.

## Main definitions

* `Element`, `Declaration`, `Document`: The tree.
* `Element.firstValue?`: The text of the first child with a name.
* `Element.setFirstValue`: The element with that text changed.
* `Element.descendantsAt`: The elements at the end of a path of names.
-/

namespace SchemaRename.Markup

/-- An element with its text and children. -/
structure Element where
  name : String
  attributes : List (String × String) := []
  text : Option String := none
  children : List Element := []
deriving Repr, Inhabited

mutual

/-- Equality of elements can be decided. -/
def Element.decEq : (a b : Element) → Decidable (a = b)
  | ⟨name, attributes, text, children⟩, ⟨name', attributes', text', children'⟩ =>
    if h : name = name' ∧ attributes = attributes' ∧ text = text' then
      match Element.decEqList children children' with
      | isTrue h' => isTrue (by simp_all)
      | isFalse h' => isFalse (by intro e; apply h'; simp_all)
    else isFalse (by intro e; apply h; simp_all)

/-- Equality of lists of elements can be decided. -/
def Element.decEqList : (as bs : List Element) → Decidable (as = bs)
  | [], [] => isTrue rfl
  | [], _ :: _ => isFalse (by simp)
  | _ :: _, [] => isFalse (by simp)
  | a :: as, b :: bs =>
    match Element.decEq a b, Element.decEqList as bs with
    | isTrue h, isTrue h' => isTrue (by simp_all)
    | isFalse h, _ => isFalse (by simp_all)
    | _, isFalse h => isFalse (by simp_all)

end

instance : DecidableEq Element :=
  Element.decEq

/-- The declaration in front of a document. -/
structure Declaration where
  version : String
  encoding : Option String
  standalone : Option String
deriving Repr, DecidableEq

/-- The declaration of a document that has none. -/
def Declaration.standard : Declaration :=
  ⟨"1.0", some "UTF-8", some "yes"⟩

/-- A declaration and the elements behind it. -/
structure Document where
  declaration : Option Declaration := none
  roots : List Element := []
deriving Repr, DecidableEq

namespace Element

/-- The text of the first child with a name. -/
def firstValue? (e : Element) (name : String) : Option String :=
  (e.children.find? (·.name == name)).bind (·.text)

/-- Changes the first element that has a name. -/
def updateFirst (name : String) (change : Element → Element) : List Element → List Element
  | [] => []
  | e :: rest => if e.name == name then change e :: rest else e :: updateFirst name change rest

/-- The element with the text of the first child of a name changed. A child
    that is missing is added at the end. -/
def setFirstValue (e : Element) (name value : String) : Element :=
  if e.children.any (·.name == name) then
    { e with children := updateFirst name ({ · with text := some value }) e.children }
  else { e with children := e.children ++ [{ name, text := some value }] }

/-- The elements reached by going down a path of names. -/
def descendantsAt (e : Element) (path : List String) : List Element :=
  path.foldl (fun reached name => reached.flatMap fun e => e.children.filter (·.name == name)) [e]

end Element

end SchemaRename.Markup
