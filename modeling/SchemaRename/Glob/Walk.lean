import SchemaRename.FileTree.Resolve
import SchemaRename.FileTree.Change
import SchemaRename.Glob.Pattern

/-!
# Finding Files

The paths of a tree that fit a pattern.

A pattern is cut into steps, and the search goes down one step at a time from
the working folder or the root. A step without wildcards is not searched for:
the path is extended by it and looked up, so dots and double dots stay in the
result as they were written. A step with wildcards is tried on the names in
the folder, in order. Two stars let the search go down any number of levels:
each folder on the way is tried with the step behind the stars, and its own
entries come after it.

The result spells paths the way the pattern does, apart from one thing: a
search that starts in the working folder names its first step alone, so no
path starts with a dot that the pattern did not ask for twice.

Links are followed, in circles too. The length of paths is bounded and each
round makes the path longer or the pattern shorter, so fuel for both is
enough.

## Main definitions

* `Glob.Step`: A step of a pattern.
* `Glob.Search`: A pattern, ready to be searched for.
* `Glob.search`: The search behind a pattern's text.
* `Glob.find`: The paths of a tree that fit, in the order of the search.
-/

namespace SchemaRename.Glob

open SchemaRename

/-- A step of a pattern. -/
structure Step where
  tokens : List Token
deriving Repr, DecidableEq

namespace Step

/-- Whether a step stands for any number of folders. -/
def isRecursive (s : Step) : Bool :=
  s.tokens.contains .anyFolders

/-- The text of a step without wildcards. -/
def literal? (s : Step) : Option String :=
  (s.tokens.mapM Token.char?).map String.ofList

/-- Whether a name fits a step. -/
def fits (s : Step) (name : String) : Bool :=
  fitsName s.tokens name.toList

end Step

/-- A pattern, ready to be searched for. -/
structure Search where
  steps : List Step
  /-- The path that the search starts from. -/
  start : Path
  /-- Whether only folders fit: the pattern ends in a slash. -/
  foldersOnly : Bool
deriving Repr, DecidableEq

/-- The pieces of a text between slashes. A trailing slash opens no piece. -/
def cutAtSlashes (s : List Char) : List (List Char) :=
  let pieces := s.splitOn '/'
  if pieces.getLast? == some [] then pieces.dropLast else pieces

/-- The search behind a pattern's text. -/
def search (pattern : String) : Except Fault Search := do
  let text := pattern.toList
  let _ ← tokens text
  let isAbsolute := text.head? == some '/'
  let relative := if isAbsolute then text.tail else text
  let steps ← (cutAtSlashes relative).mapM fun piece => return Step.mk (← tokens piece)
  return {
    steps := if isAbsolute && relative.isEmpty then [⟨[]⟩] else steps
    start := ⟨if isAbsolute then "/" else "."⟩
    foldersOnly := text.getLast? == some '/' }

/-- The path of a name in a folder. Names in the working folder stand alone. -/
def inFolder (folder : Path) (name : String) : Path :=
  if folder.text == "." then ⟨name⟩ else folder.join name

/-- Drops all but the last of the recursive steps in front. -/
def lastRecursive : List Step → List Step
  | a :: b :: rest => if b.isRecursive then lastRecursive (b :: rest) else a :: b :: rest
  | steps => steps

mutual

/-- The paths that fit the given steps below a folder. -/
def below (t : FileTree) (foldersOnly : Bool) :
    Nat → List Step → Path → List Path
  | 0, _, _ => []
  | _ + 1, [], _ => []
  | fuel + 1, step :: steps, folder =>
    match step.literal? with
    | some name =>
      let next := inFolder folder name
      let isSpecial := name == "." || name == ".."
      if (isSpecial && t.isFolder folder) || (!isSpecial && t.isPresent next) then
        reached t foldersOnly fuel steps next
      else []
    | none =>
      if !t.isFolder folder then []
      else
        match t.list folder with
        | .error _ => []
        | .ok names =>
          let specials :=
            if step.tokens.head? == some (.char '.') then ["..", "."].filter step.fits else []
          specials.flatMap (fun name => reached t foldersOnly fuel steps (folder.join name)) ++
            names.flatMap fun name =>
              tried t foldersOnly fuel (step :: steps) (inFolder folder name)

/-- The paths from a path that fits the last step taken: itself if no step is
    left, and what fits the remaining steps below it otherwise. -/
def reached (t : FileTree) (foldersOnly : Bool) :
    Nat → List Step → Path → List Path
  | _, [], path => if foldersOnly && !t.isFolder path then [] else [path]
  | 0, _ :: _, _ => []
  | fuel + 1, steps, path => below t foldersOnly fuel steps path

/-- The paths from an entry that the first step is tried on. -/
def tried (t : FileTree) (foldersOnly : Bool) :
    Nat → List Step → Path → List Path
  | 0, _, _ => []
  | _ + 1, [], _ => []
  | fuel + 1, step :: steps, path =>
    if step.isRecursive then
      let recursive := lastRecursive (step :: steps)
      let deeper := if t.isFolder path then below t foldersOnly fuel recursive path else []
      match recursive.tail with
      | [] => if t.isFolder path then path :: deeper else []
      | next :: steps =>
        (if path.fileName?.any next.fits then reached t foldersOnly fuel steps path else []) ++
          deeper
    else if path.fileName?.any step.fits then reached t foldersOnly fuel steps path
    else []

end

/-- The paths of a tree that fit, in the order of the search. -/
def Search.find (s : Search) (t : FileTree) : List Path :=
  below t s.foldersOnly (3 * (maxPathSize + s.steps.length + 2)) s.steps s.start

/-- The paths of a tree that fit a pattern. -/
def find (t : FileTree) (pattern : String) : Except Fault (List Path) := do
  return (← search pattern).find t

end SchemaRename.Glob
