import SchemaRename.Markup.Attribute

/-!
# The Parts of a Document

A document cut into tags, texts and sections, in order.

What begins at a position decides how far it reaches. Text runs to the next
tag and loses the blanks around it. A tag runs to the first closing angle
bracket that is not in quotes. A comment, a section of character data and a
document type each have an end of their own, and an instruction runs to the
next angle bracket, whatever stands before it.

Closing tags are checked against the tags that are open. The scanner keeps
the open names for that and nothing else: it builds no tree, and it does not
look into the attributes of a tag. A document is scanned up to the first
fault, and the parts before it are still delivered, because a part may turn
out to be wrong in itself.

## Main definitions

* `Event`: A part of a document that means something.
* `ScanFault`: What stops the scanner.
* `Scanner`: Where the scanner is.
* `Scanner.step`: One part further.
* `scan`: The parts of a document up to the first fault.
-/

namespace SchemaRename.Markup

open SchemaRename.Text

/-- A part of a document, as it is written. Comments, instructions and
    document types mean nothing and are left out. -/
inductive Event where
  /-- The content of a declaration, from its `xml` on. -/
  | declaration (content : List Char)
  /-- The content of an opening tag. -/
  | opening (tag : List Char)
  /-- The content of a tag that closes itself, without its slash. -/
  | empty (tag : List Char)
  | closing
  /-- A text without the blanks around it. -/
  | text (raw : List Char)
  /-- Character data, taken as it is. -/
  | data (raw : List Char)
deriving Repr, DecidableEq

/-- The parts of a document that need an end. -/
inductive Construct where
  | element
  | bang
  | comment
  | data
  | doctype
  | instruction
deriving Repr, DecidableEq

/-- The word for a part in messages. -/
def Construct.word : Construct → String
  | .element => "Element"
  | .bang => "Bang"
  | .comment => "Comment"
  | .data => "CData"
  | .doctype => "DOCTYPE"
  | .instruction => "XmlDecl"

/-- What stops the scanner. -/
inductive ScanFault where
  | unexpectedEnd (what : Construct)
  | unknownBang (c : Char)
  | emptyDoctype
  | mismatch (expected found : List Char)
deriving Repr, DecidableEq

/-- The fault in words. -/
def ScanFault.message : ScanFault → String
  | .unexpectedEnd what => "Unexpected EOF during reading " ++ what.word
  | .unknownBang c =>
    "Only Comment (\x60--\x60), CDATA (\x60[CDATA[\x60) and DOCTYPE (\x60DOCTYPE\x60) nodes " ++
      "can start with a '!', but symbol \x60" ++ String.ofList [c] ++ "\x60 found"
  | .emptyDoctype => "DOCTYPE declaration must not be empty"
  | .mismatch expected found =>
    "Expecting </" ++ String.ofList expected ++ "> found </" ++ String.ofList found ++ ">"

/-- Where the scanner is: the bytes behind it, the text before it, and the
    names of the open tags, innermost first. -/
structure Scanner where
  offset : Nat
  rest : List Char
  opened : List (List Char)
deriving Repr, DecidableEq

/-- What one step of the scanner comes to. -/
inductive Step where
  | finished
  | failed (offset : Nat) (fault : ScanFault)
  | delivered (event : Option Event) (next : Scanner)
deriving Repr, DecidableEq

/-- A text without its trailing blanks. -/
def trimSpaceEnd (s : List Char) : List Char :=
  (s.reverse.dropWhile isSpace).reverse

/-- Cuts a text at the first closing angle bracket outside quotes. -/
def cutTag? (quote : Option Char) : List Char → Option (List Char × List Char)
  | [] => none
  | c :: rest =>
    match quote with
    | none =>
      if c == '>' then some ([], rest)
      else
        let quote := if c == '"' || c == '\'' then some c else none
        (cutTag? quote rest).map fun (content, after) => (c :: content, after)
    | some q =>
      let quote := if c == q then none else some q
      (cutTag? quote rest).map fun (content, after) => (c :: content, after)

/-- Cuts a text at the first closing angle bracket in front of which `isEnd`
    holds of everything before it, last character first. -/
def cutWhere? (isEnd : List Char → Bool) (before : List Char) :
    List Char → Option (List Char × List Char)
  | [] => none
  | c :: rest =>
    if c == '>' && isEnd before then some (before.reverse, rest)
    else cutWhere? isEnd (c :: before) rest

/-- Whether a text that is read backwards ends a comment: two hyphens, and
    enough in front of them for the two that open it. -/
def endsComment (before : List Char) : Bool :=
  ['-', '-'].isPrefixOf before && 4 < byteSize before

/-- Whether a text that is read backwards ends a section of data. -/
def endsData (before : List Char) : Bool :=
  [']', ']'].isPrefixOf before

/-- Whether the angle brackets in a text balance. -/
def endsDoctype (before : List Char) : Bool :=
  before.count '<' == before.count '>'

/-- Whether a text starts with another one, in capitals or not. -/
def startsWithAnyCase (start : String) (s : List Char) : Bool :=
  (s.take start.length).map Char.toUpper == start.toList

/-- The part that an exclamation mark begins, given the text from the mark on
    and the offset of the mark. -/
def Scanner.bang (s : Scanner) (offset : Nat) (text : List Char) : Step :=
  let cut (isEnd : List Char → Bool) (what : Construct)
      (found : List Char → Nat → Scanner → Step) : Step :=
    match cutWhere? isEnd [] text with
    | none => .failed offset (.unexpectedEnd what)
    | some (content, rest) =>
      let after := offset + byteSize content + 1
      found content after { s with offset := after, rest }
  match text.drop 1 with
  | [] => .failed offset (.unexpectedEnd .bang)
  | '[' :: _ =>
    cut endsData .data fun content after next =>
      if startsWithAnyCase "![CDATA[" content then
        .delivered (some (.data ((content.drop 8).take (content.length - 10)))) next
      else .failed after (.unexpectedEnd .data)
  | '-' :: _ =>
    cut endsComment .comment fun content after next =>
      if "!--".toList.isPrefixOf content then .delivered none next
      else .failed after (.unexpectedEnd .comment)
  | c :: _ =>
    if c == 'D' || c == 'd' then
      cut endsDoctype .doctype fun content after next =>
        if !startsWithAnyCase "!DOCTYPE" content then .failed after (.unexpectedEnd .doctype)
        else if (content.drop 8).all isSpace then .failed after .emptyDoctype
        else .delivered none next
    else .failed offset (.unknownBang (firstByte c))

/-- Cuts a text at the first closing angle bracket or at its end, and says how
    many bytes were taken. -/
def cutAtBracket (text : List Char) : List Char × Nat × List Char :=
  let content := text.takeWhile (· != '>')
  match text.dropWhile (· != '>') with
  | [] => (content, byteSize content, [])
  | _ :: rest => (content, byteSize content + 1, rest)

/-- A closing tag, given the text from its slash on and the offset of the
    slash. Blanks behind the name do not count, unless there is nothing
    else. -/
def Scanner.closing (s : Scanner) (offset : Nat) (text : List Char) : Step :=
  let (content, size, rest) := cutAtBracket text
  let written := content.drop 1
  let name := if written.all isSpace then written else trimSpaceEnd written
  let failed := Step.failed (offset + size - byteSize content)
  match s.opened with
  | [] => failed (.mismatch [] written)
  | expected :: opened =>
    if name == expected then
      .delivered (some .closing) { offset := offset + size, rest, opened }
    else failed (.mismatch expected name)

/-- An instruction, given the text from its question mark on. One that starts
    with `xml` and a blank is a declaration. -/
def Scanner.instruction (s : Scanner) (offset : Nat) (text : List Char) : Step :=
  let (content, size, rest) := cutAtBracket text
  let next := { s with offset := offset + size, rest }
  if 2 < byteSize content && content.getLast? == some '?' then
    let inside := (content.drop 1).dropLast
    if 5 < byteSize content && "xml".toList.isPrefixOf inside && (inside[3]?.any isSpace) then
      .delivered (some (.declaration inside)) next
    else .delivered none next
  else .failed (offset + size - byteSize content) (.unexpectedEnd .instruction)

/-- The name of a tag: everything up to the first blank. -/
def tagName (tag : List Char) : List Char :=
  tag.takeWhile fun c => !isSpace c

/-- An opening tag or a tag that closes itself. -/
def Scanner.tag (s : Scanner) (offset : Nat) (text : List Char) : Step :=
  match cutTag? none text with
  | none => .failed offset (.unexpectedEnd .element)
  | some (content, rest) =>
    let next := { s with offset := offset + byteSize content + 1, rest }
    if content.getLast? == some '/' then .delivered (some (.empty content.dropLast)) next
    else .delivered (some (.opening content)) { next with opened := tagName content :: s.opened }

/-- One part further. -/
def Scanner.step (s : Scanner) : Step :=
  let text := s.rest.dropWhile isSpace
  let offset := s.offset + byteSize (s.rest.takeWhile isSpace)
  match text with
  | [] => .finished
  | '<' :: [] => .finished
  | '<' :: '!' :: rest => s.bang (offset + 1) ('!' :: rest)
  | '<' :: '/' :: rest => s.closing (offset + 1) ('/' :: rest)
  | '<' :: '?' :: rest => s.instruction (offset + 1) ('?' :: rest)
  | '<' :: rest => s.tag (offset + 1) rest
  | text =>
    let run := text.takeWhile (· != '<')
    .delivered (some (.text (trimSpaceEnd run)))
      { s with offset := offset + byteSize run, rest := text.dropWhile (· != '<') }

/-- The parts of a document up to the first fault, and the fault. -/
structure Scan where
  events : List Event
  fault : Option (Nat × ScanFault)
deriving Repr, DecidableEq

/-- Scans on. Every step consumes at least one character. -/
def scanFrom : Nat → Scanner → Scan
  | 0, _ => ⟨[], none⟩
  | fuel + 1, s =>
    match s.step with
    | .finished => ⟨[], none⟩
    | .failed offset fault => ⟨[], some (offset, fault)⟩
    | .delivered event next =>
      let scanned := scanFrom fuel next
      { scanned with events := event.toList ++ scanned.events }

/-- A text without the byte order mark in front of it. -/
def dropByteOrderMark : List Char → List Char
  | c :: rest => if c.toNat == 0xFEFF then rest else c :: rest
  | [] => []

/-- The parts of a document. -/
def scan (text : List Char) : Scan :=
  let text := dropByteOrderMark text
  scanFrom (text.length + 1) ⟨0, text, []⟩

end SchemaRename.Markup
