/-!
# File Name Patterns

The patterns that select files of a project.

A question mark stands for any character, a star for any run of characters,
and brackets for one character of a list or, with an exclamation mark, for
one that is not in it. Two stars stand for any number of folders and must be
a whole step of the path. There is no way to escape a character but to put it
into brackets.

A pattern is checked as a whole before it is cut at its slashes, and the
steps are checked again one by one. The second check finds what only a cut
can break: brackets with a slash between them.

## Main definitions

* `Glob.Token`: A part of a pattern.
* `Glob.tokens`: The parts of a pattern, or where it is wrong.
* `Glob.fitsName`: Whether a name fits the parts of a step.
* `Glob.escape`: A text as a pattern that only it fits.
* `Glob.Fault`: Why a pattern is refused.
-/

namespace SchemaRename.Glob

/-- A part of a pattern. -/
inductive Token where
  | char (c : Char)
  | anyChar
  | anyRun
  /-- Any number of folders. -/
  | anyFolders
  /-- One character in, or with `negated` outside, the ranges. -/
  | oneOf (negated : Bool) (ranges : List (Char × Char))
deriving Repr, DecidableEq

/-- The character that a part stands for, if it stands for only one. -/
def Token.char? : Token → Option Char
  | .char c => some c
  | _ => none

/-- What is wrong with a pattern. -/
inductive Problem where
  | wildcards
  | recursiveWildcards
  | range
deriving Repr, DecidableEq

/-- Why a pattern is refused: a problem, and its place in characters. -/
structure Fault where
  position : Nat
  problem : Problem
deriving Repr, DecidableEq

/-- The fault in words. -/
def Fault.message (f : Fault) : String :=
  let problem :=
    match f.problem with
    | .wildcards => "wildcards are either regular \x60*\x60 or recursive \x60**\x60"
    | .recursiveWildcards => "recursive wildcards must form a single path component"
    | .range => "invalid range pattern"
  "Pattern syntax error near position " ++ toString f.position ++ ": " ++ problem

/-- The ranges that the text between brackets lists. A hyphen between two
    characters makes a range of them. -/
def ranges : List Char → List (Char × Char)
  | a :: '-' :: b :: rest => (a, b) :: ranges rest
  | a :: rest => (a, a) :: ranges rest
  | [] => []

/-- The text between brackets and what follows the closing one, given the text
    behind the opening bracket. The list holds at least one character, so a
    closing bracket in first place belongs to it. -/
def bracketed? : List Char → Option (Bool × List Char × List Char)
  | '!' :: first :: rest => close true first rest
  | '!' :: [] => none
  | first :: rest => close false first rest
  | [] => none
where
  /-- Ends the list at the next closing bracket behind its first character. -/
  close (negated : Bool) (first : Char) (rest : List Char) :
      Option (Bool × List Char × List Char) :=
    match rest.dropWhile (· != ']') with
    | _ :: after => some (negated, first :: rest.takeWhile (· != ']'), after)
    | [] => none

/-- The parts of a pattern from a position on. `atStart` says whether a step
    begins there. Each round consumes at least one character. -/
def tokensFrom : Nat → Nat → Bool → List Char → Except Fault (List Token)
  | 0, _, _, _ => .ok []
  | _ + 1, _, _, [] => .ok []
  | fuel + 1, position, atStart, c :: rest =>
    let more (token : Token) (width : Nat) (atStart : Bool) (rest : List Char) := do
      return token :: (← tokensFrom fuel (position + width) atStart rest)
    match c with
    | '?' => more .anyChar 1 false rest
    | '*' =>
      let stars := 1 + (rest.takeWhile (· == '*')).length
      let after := rest.dropWhile (· == '*')
      if 2 < stars then .error ⟨position + 2, .wildcards⟩
      else if stars == 1 then more .anyRun 1 false after
      else if !atStart then .error ⟨position - 1, .recursiveWildcards⟩
      else
        match after with
        | [] => more .anyFolders 2 false []
        | '/' :: after => more .anyFolders 3 true after
        | _ => .error ⟨position + 2, .recursiveWildcards⟩
    | '[' =>
      match bracketed? rest with
      | none => .error ⟨position, .range⟩
      | some (negated, inside, after) =>
        more (.oneOf negated (ranges inside)) (rest.length + 1 - after.length) false after
    | c => more (.char c) 1 (c == '/') rest

/-- The parts of a pattern. -/
def tokens (pattern : List Char) : Except Fault (List Token) :=
  tokensFrom pattern.length 0 true pattern

/-- Whether a character fits a part that stands for one character. -/
def Token.fits (c : Char) : Token → Bool
  | .char d => c == d
  | .anyChar => true
  | .oneOf negated ranges => (ranges.any fun (lo, hi) => lo ≤ c && c ≤ hi) != negated
  | .anyRun | .anyFolders => false

/-- Whether some ending of a name is as asked for. -/
def anyEnding (fits : List Char → Bool) : List Char → Bool
  | [] => fits []
  | c :: name => fits (c :: name) || anyEnding fits name

/-- Whether a name fits the parts of a step. -/
def fitsName : List Token → List Char → Bool
  | [], name => name.isEmpty
  | .anyRun :: tokens, name => anyEnding (fitsName tokens) name
  | .anyFolders :: tokens, name => anyEnding (fitsName tokens) name
  | _ :: _, [] => false
  | token :: tokens, c :: name => token.fits c && fitsName tokens name

/-- A text as a pattern that only it fits. -/
def escape (text : String) : String :=
  String.ofList (text.toList.flatMap fun c =>
    if c == '?' || c == '*' || c == '[' || c == ']' then ['[', c, ']'] else [c])

end SchemaRename.Glob
