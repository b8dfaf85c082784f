import SchemaRename.Error
import SchemaRename.Glob.Walk
import SchemaRename.Text.Blank
import SchemaRename.Text.Search

/-!
# Fetch Expressions

Which files a run looks at.

A run works through a list of expressions, each of which selects files below
the project folder. The list is given as text, separated by commas; without
one the usual folders of a project are looked at. An expression that selects
field definitions is recognised by its text and handled by the lookup
migration.

## Main definitions

* `defaultExpressions`: The expressions of a run that is given none.
* `parseExpressions`: The expressions of a list.
* `isReferenceExpression`: Whether an expression selects field definitions.
* `expandExpression`: The files an expression selects, in order.
-/

namespace SchemaRename

/-- The expressions of a run that is given none. -/
def defaultExpressions : List String :=
  ["./aura/**/*.js", "./aura/**/*.cmp", "./classes/*.cls", "./objects/*/fields/*.xml",
    "./objects/*/recordTypes/*.xml", "./triggers/*.trigger", "./permissionsets/*.xml",
    "./profiles/*.xml", "./staticresources/*.json"]

/-- The expressions of a comma-separated list. Blanks around an expression do
    not count, and an empty one is none. -/
def parseExpressions : Option String → List String
  | none => defaultExpressions
  | some raw =>
    (((raw.toList.splitOn ',').map Text.trim).filter (!·.isEmpty)).map String.ofList

/-- Whether an expression selects field definitions. -/
def isReferenceExpression (expression : String) : Bool :=
  Text.occursIn "objects".toList expression.toList &&
    Text.occursIn "fields".toList expression.toList

/-- An expression without the dots and slashes in front: first every `./`, and
    then every slash. -/
def relativeExpression (expression : List Char) : List Char :=
  (dropDotSlashes expression).dropWhile (· == '/')
where
  /-- Drops every `./` in front. -/
  dropDotSlashes : List Char → List Char
    | '.' :: '/' :: rest => dropDotSlashes rest
    | s => s

/-- The pattern of an expression below a project folder. -/
def expressionPattern (input : Path) (expression : String) : String :=
  Glob.escape input.text ++ "/" ++ String.ofList (relativeExpression expression.toList)

/-- The files that an expression selects, in the order of their paths. -/
def expandExpression (t : FileTree) (input : Path) (expression : String) :
    Except Cause (List Path) :=
  match Glob.find t (expressionPattern input expression) with
  | .ok paths => .ok (inOrder Path.le (paths.filter t.isFile))
  | .error fault =>
    .error (.invalidArgument "fetch"
      ("Invalid glob pattern '" ++ expression ++ "': " ++ fault.message) (some expression) none)

end SchemaRename
