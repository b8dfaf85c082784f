import SchemaRename.FileTree.AtomicWrite
import SchemaRename.Rule

/-!
# Substitution

Renaming in a text, line by line.

Each line is handled on its own, by the rules in order, each on what the
one before has left. A line that is a comment stays as it is. Lines are put
together again with the same line feeds, so a text keeps its line structure
unless a replacement brings in a line feed of its own.

A file is written as a whole and only if something changed. What happens to
it is told as an outcome: a file that cannot be read or written is no reason
to stop.

## Main definitions

* `isComment`: The lines that are left alone.
* `Substituted`: A text with the number of replacements in it.
* `substituteLine`, `substituteText`: A line and a text, with the renames made.
* `SubstitutionOutcome`: What happened to a file.
* `applyRules`: A file, with the renames made.
-/

namespace SchemaRename

/-- Whether a line is a comment: behind the blanks it starts with two
    slashes. -/
def isComment (line : List Char) : Bool :=
  "//".toList.isPrefixOf (Text.trim line)

/-- A text and the number of replacements made in it. -/
structure Substituted where
  content : List Char
  replacements : Nat
deriving Repr, DecidableEq

/-- One more rule on a line. -/
def Substituted.step (r : Substituted) (rule : Rule) : Substituted :=
  let hits := rule.count r.content
  if hits == 0 then r else ⟨rule.apply r.content, r.replacements + hits⟩

/-- A line, with the renames made. -/
def substituteLine (rules : List Rule) (line : List Char) : Substituted :=
  if isComment line then ⟨line, 0⟩ else rules.foldl Substituted.step ⟨line, 0⟩

/-- A text, with the renames made line by line. -/
def substituteText (rules : List Rule) (text : List Char) : Substituted :=
  let lines := (text.splitOn '\n').map (substituteLine rules)
  ⟨['\n'].intercalate (lines.map (·.content)), (lines.map (·.replacements)).foldr (· + ·) 0⟩

/-- What happened to a file. -/
inductive SubstitutionOutcome where
  | missing
  | unreadable (error : String)
  | unchanged
  | rewritten (replacements : Nat) (written : Bool)
  | writeFailed (error : String)
deriving Repr, DecidableEq

/-- Substitutes in a file by rules that apply to it. -/
def applyRules (t : FileTree) (path : Path) (rules : List Rule) (mode : WriteMode) :
    SubstitutionOutcome × FileTree :=
  if !t.exists? path then (.missing, t)
  else
    match t.read path ("read " ++ path.text) with
    | .error e => (.unreadable e.cause.shortText, t)
    | .ok before =>
      let result := substituteText rules before.toList
      if result.content == before.toList then (.unchanged, t)
      else if mode.writes then
        match t.writeAtomic path (String.ofList result.content) ("write " ++ path.text) with
        | (.error e, t) => (.writeFailed e.cause.shortText, t)
        | (.ok (), t) => (.rewritten result.replacements true, t)
      else (.rewritten result.replacements false, t)

end SchemaRename
