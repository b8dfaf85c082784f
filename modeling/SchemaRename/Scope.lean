import SchemaRename.FileTree.Path
import SchemaRename.Text.CaseMap

/-!
# Scopes

Which files a rename applies to.

A rename can be kept out of some files or restricted to some, by the
extension of the file and the rest of its name. A list for the extension
decides, and a list that excludes is asked before one that includes. In an
excluding list the first pattern that matches counts: a pattern that is the
name excludes it, and a pattern with the wildcard excludes what starts like
it, unless the name is on the list of exceptions. An including list admits
what one of its patterns matches, so an empty one admits nothing, and its
exceptions are carried along and never asked.

The wildcard is a percent sign at the end of a pattern. What is compared is
the text before the first percent sign, after both sides are upper-cased.

## Main definitions

* `ScopeList`: Patterns by extension, with exceptions.
* `Scope`: A list that excludes and one that includes.
* `FileTarget`: What a scope looks at in a path.
* `Scope.allows`: Whether a scope admits a file.
-/

namespace SchemaRename

/-- Patterns by extension, sorted by it, and names that are exempt. -/
structure ScopeList where
  exceptions : List String := []
  byExtension : List (String × List String) := []
deriving Repr, DecidableEq

/-- Sets the patterns of an extension, keeping the extensions in order. -/
def setPatterns (extension : String) (patterns : List String) :
    List (String × List String) → List (String × List String)
  | [] => [(extension, patterns)]
  | (e, ps) :: rest =>
    if extension == e then (extension, patterns) :: rest
    else if extension < e then (extension, patterns) :: (e, ps) :: rest
    else (e, ps) :: setPatterns extension patterns rest

/-- The patterns for an extension, if there is a list for it. -/
def ScopeList.patternsFor? (l : ScopeList) (extension : String) : Option (List String) :=
  l.byExtension.lookup extension

/-- What a scope looks at in a path. -/
structure FileTarget where
  /-- The text behind the last dot of the file name. -/
  extension : String
  /-- The file name without its extension. -/
  className : String
deriving Repr, DecidableEq

/-- Splits a file name at its last dot. A dot in first place starts no
    extension. -/
def FileTarget.ofFileName (name : String) : FileTarget :=
  let reversed := name.toList.reverse
  match reversed.dropWhile (· != '.') with
  | _ :: c :: rest =>
    ⟨String.ofList (reversed.takeWhile (· != '.')).reverse, String.ofList (c :: rest).reverse⟩
  | _ => ⟨"", name⟩

/-- The target of a path. A path without a file name has an empty one. -/
def FileTarget.ofPath (p : Path) : FileTarget :=
  match p.fileName? with
  | some name => .ofFileName name
  | none => ⟨"", ""⟩

/-- How a pattern matches a name. -/
inductive ScopeMatch where
  | exact
  | wildcard
  | none
deriving Repr, DecidableEq

/-- The mark that makes a pattern a prefix. -/
def wildcardMark : Char :=
  '%'

/-- How a pattern matches a name: as a whole, or up to its wildcard. -/
def matchScope (pattern className : String) : ScopeMatch :=
  if pattern == className then .exact
  else if pattern.toList.getLast? == some wildcardMark &&
      (Text.upperCase (pattern.toList.takeWhile (· != wildcardMark))).isPrefixOf
        (Text.upperCase className.toList) then .wildcard
  else .none

/-- The files a rename applies to. -/
structure Scope where
  exclude : Option ScopeList := none
  include_ : Option ScopeList := none
deriving Repr, DecidableEq

/-- Whether an excluding list lets a name pass: its first match decides. -/
def passesExclusion (exceptions : List String) (className : String) : List String → Bool
  | [] => true
  | pattern :: patterns =>
    match matchScope pattern className with
    | .exact => false
    | .wildcard => exceptions.contains className
    | .none => passesExclusion exceptions className patterns

/-- Whether an including list admits a name. -/
def passesInclusion (className : String) (patterns : List String) : Bool :=
  patterns.any fun pattern => matchScope pattern className != .none

/-- Whether a scope admits a file. -/
def Scope.allows (s : Scope) (target : FileTarget) : Bool :=
  match s.exclude.bind fun l => (l.patternsFor? target.extension).map (l.exceptions, ·) with
  | some (exceptions, patterns) => passesExclusion exceptions target.className patterns
  | none =>
    match s.include_.bind (·.patternsFor? target.extension) with
    | some patterns => passesInclusion target.className patterns
    | none => true

end SchemaRename
