import SchemaRename.Text.Blank
import SchemaRename.Text.DerivedProperty
import SchemaRename.Text.ListedProperty
import SchemaRename.Text.Script

/-!
# Named Character Properties

The classes a pattern can ask for by name.

A pattern names a class with `\d`, `\s`, `\w`, with a name between square
brackets and colons, or with `\p` and the name of a Unicode property. Names
of Unicode properties are compared loosely: case, blanks, hyphens,
underscores and a leading `is` do not count, and every category and every
script has a short and a long name.

## Main definitions

* `Property`: A class of characters that has a name.
* `Property.holds`: Membership in the class.
* `Property.ofName?`: The property behind a name written after `\p`.
* `Property.ofNameAndValue?`: The same for a name with a value.
* `asciiClass?`: The ranges behind a name between brackets and colons.
-/

namespace SchemaRename.Pattern

open SchemaRename.Text

/-- A class of characters that a pattern can name. -/
inductive Property where
  /-- Every character. -/
  | any
  /-- The first 128 characters. -/
  | ascii
  /-- Every character that has been given a meaning. -/
  | assigned
  /-- The characters of one general category. -/
  | inCategory (k : Category)
  | letter | casedLetter | mark | number | punctuation | symbol | separator | other
  | alphabetic | lowercase | uppercase | blank | word
  | cased | caseIgnorable
  | identifierStart | identifierContinue
  | closedIdentifierStart | closedIdentifierContinue
  | graphemeBase | graphemeExtend
  /-- The characters of one script, by its mark. -/
  | inScript (m : Char)
  /-- The characters of a property that is given by a list. -/
  | listed (name : String)
deriving Repr, DecidableEq

/-- Membership in a named class. -/
def Property.holds : Property → Char → Bool
  | .any, _ => true
  | .ascii, c => c.toNat < 0x80
  | .assigned, c => category c != .unassigned
  | .inCategory k, c => category c == k
  | .letter, c => (category c).isLetter
  | .casedLetter, c =>
    match category c with
    | .upperLetter | .lowerLetter | .titleLetter => true
    | _ => false
  | .mark, c => (category c).isMark
  | .number, c => (category c).isNumber
  | .punctuation, c => (category c).isPunctuation
  | .symbol, c => (category c).isSymbol
  | .separator, c => (category c).isSeparator
  | .other, c => (category c).isOther
  | .alphabetic, c => isAlphabetic c
  | .lowercase, c => isLowercase c
  | .uppercase, c => isUppercase c
  | .blank, c => isBlank c
  | .word, c => isWordChar c
  | .cased, c => isCased c
  | .caseIgnorable, c => isCaseIgnorable c
  | .identifierStart, c => startsIdentifier c
  | .identifierContinue, c => continuesIdentifier c
  | .closedIdentifierStart, c => startsClosedIdentifier c
  | .closedIdentifierContinue, c => continuesClosedIdentifier c
  | .graphemeBase, c => isGraphemeBase c
  | .graphemeExtend, c => isGraphemeExtend c
  | .inScript m, c => scriptMark c == m
  | .listed name, c => hasListed name c

/-- Decimal digits of every script. -/
def Property.digit : Property :=
  .inCategory .decimalNumber

/-- A name in lower case, without blanks, hyphens, underscores and characters
    beyond ASCII. -/
def plainName (name : List Char) : List Char :=
  (name.filter fun c => !(c == ' ' || c == '_' || c == '-') && c.toNat < 0x80).map Char.toLower

/-- The form in which property names are compared: plain, and without a
    leading `is`. The one name that consists of `is` and `c` keeps it, since
    `c` alone is the name of a category. -/
def looseName : List Char → List Char
  | i :: s :: rest =>
    if i.toLower == 'i' && s.toLower == 's' then
      if plainName rest == ['c'] then ['i', 's', 'c'] else plainName rest
    else plainName (i :: s :: rest)
  | name => plainName name

/-- General categories and their groups, by loose name. -/
def categoryNames : List (String × Property) :=
  [("c", .other), ("other", .other),
   ("cc", .inCategory .control), ("control", .inCategory .control),
   ("cntrl", .inCategory .control),
   ("cf", .inCategory .format), ("format", .inCategory .format),
   ("cn", .inCategory .unassigned), ("unassigned", .inCategory .unassigned),
   ("co", .inCategory .privateUse), ("privateuse", .inCategory .privateUse),
   ("l", .letter), ("letter", .letter),
   ("lc", .casedLetter), ("casedletter", .casedLetter),
   ("ll", .inCategory .lowerLetter), ("lowercaseletter", .inCategory .lowerLetter),
   ("lm", .inCategory .modifierLetter), ("modifierletter", .inCategory .modifierLetter),
   ("lo", .inCategory .otherLetter), ("otherletter", .inCategory .otherLetter),
   ("lt", .inCategory .titleLetter), ("titlecaseletter", .inCategory .titleLetter),
   ("lu", .inCategory .upperLetter), ("uppercaseletter", .inCategory .upperLetter),
   ("m", .mark), ("mark", .mark), ("combiningmark", .mark),
   ("mc", .inCategory .spacingMark), ("spacingmark", .inCategory .spacingMark),
   ("me", .inCategory .enclosingMark), ("enclosingmark", .inCategory .enclosingMark),
   ("mn", .inCategory .nonspacingMark), ("nonspacingmark", .inCategory .nonspacingMark),
   ("n", .number), ("number", .number),
   ("nd", .digit), ("decimalnumber", .digit), ("digit", .digit),
   ("nl", .inCategory .letterNumber), ("letternumber", .inCategory .letterNumber),
   ("no", .inCategory .otherNumber), ("othernumber", .inCategory .otherNumber),
   ("p", .punctuation), ("punctuation", .punctuation), ("punct", .punctuation),
   ("pc", .inCategory .connector), ("connectorpunctuation", .inCategory .connector),
   ("pd", .inCategory .dash), ("dashpunctuation", .inCategory .dash),
   ("pe", .inCategory .closePunctuation), ("closepunctuation", .inCategory .closePunctuation),
   ("pf", .inCategory .finalQuote), ("finalpunctuation", .inCategory .finalQuote),
   ("pi", .inCategory .initialQuote), ("initialpunctuation", .inCategory .initialQuote),
   ("po", .inCategory .otherPunctuation), ("otherpunctuation", .inCategory .otherPunctuation),
   ("ps", .inCategory .openPunctuation), ("openpunctuation", .inCategory .openPunctuation),
   ("s", .symbol), ("symbol", .symbol),
   ("sc", .inCategory .currencySymbol), ("currencysymbol", .inCategory .currencySymbol),
   ("sk", .inCategory .modifierSymbol), ("modifiersymbol", .inCategory .modifierSymbol),
   ("sm", .inCategory .mathSymbol), ("mathsymbol", .inCategory .mathSymbol),
   ("so", .inCategory .otherSymbol), ("othersymbol", .inCategory .otherSymbol),
   ("z", .separator), ("separator", .separator),
   ("zl", .inCategory .lineSeparator), ("lineseparator", .inCategory .lineSeparator),
   ("zp", .inCategory .paragraphSeparator),
   ("paragraphseparator", .inCategory .paragraphSeparator),
   ("zs", .inCategory .spaceSeparator), ("spaceseparator", .inCategory .spaceSeparator),
   ("any", .any), ("assigned", .assigned), ("ascii", .ascii)]

/-- Properties that a character has or has not, by loose name. -/
def binaryNames : List (String × Property) :=
  [("alphabetic", .alphabetic), ("alpha", .alphabetic),
   ("lowercase", .lowercase), ("lower", .lowercase),
   ("uppercase", .uppercase), ("upper", .uppercase),
   ("whitespace", .blank), ("wspace", .blank), ("space", .blank),
   ("cased", .cased), ("caseignorable", .caseIgnorable), ("ci", .caseIgnorable),
   ("idstart", .identifierStart), ("ids", .identifierStart),
   ("idcontinue", .identifierContinue), ("idc", .identifierContinue),
   ("xidstart", .closedIdentifierStart), ("xids", .closedIdentifierStart),
   ("xidcontinue", .closedIdentifierContinue), ("xidc", .closedIdentifierContinue),
   ("graphemebase", .graphemeBase), ("grbase", .graphemeBase),
   ("graphemeextend", .graphemeExtend), ("grext", .graphemeExtend)]

/-- The property behind a bare name. A property that a character has or has
    not comes first, then the categories, and then the scripts. -/
def Property.ofName? (name : List Char) : Option Property :=
  let loose := String.ofList (looseName name)
  (binaryNames.lookup loose).or <|
    ((listedNames.lookup loose).map .listed).or <|
      (categoryNames.lookup loose).or ((scriptNames.lookup loose).map .inScript)

/-- The property behind a name with a value: the general category and the
    script take one. -/
def Property.ofNameAndValue? (name value : List Char) : Option Property :=
  let loose := String.ofList (looseName name)
  let looseValue := String.ofList (looseName value)
  if loose == "gc" || loose == "generalcategory" then categoryNames.lookup looseValue
  else if loose == "sc" || loose == "script" then
    (scriptNames.lookup looseValue).map .inScript
  else none

/-- The ASCII classes that square brackets know by name, as ranges. -/
def asciiClass? (name : List Char) : Option (List (Char × Char)) :=
  match String.ofList name with
  | "alnum" => some [('0', '9'), ('A', 'Z'), ('a', 'z')]
  | "alpha" => some [('A', 'Z'), ('a', 'z')]
  | "ascii" => some [('\x00', '\x7f')]
  | "blank" => some [('\t', '\t'), (' ', ' ')]
  | "cntrl" => some [('\x00', '\x1f'), ('\x7f', '\x7f')]
  | "digit" => some [('0', '9')]
  | "graph" => some [('!', '~')]
  | "lower" => some [('a', 'z')]
  | "print" => some [(' ', '~')]
  | "punct" => some [('!', '/'), (':', '@'), ('[', '\x60'), ('\x7b', '~')]
  | "space" => some [('\t', '\r'), (' ', ' ')]
  | "upper" => some [('A', 'Z')]
  | "word" => some [('0', '9'), ('A', 'Z'), ('_', '_'), ('a', 'z')]
  | "xdigit" => some [('0', '9'), ('A', 'F'), ('a', 'f')]
  | _ => none

end SchemaRename.Pattern
