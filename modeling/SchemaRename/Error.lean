import SchemaRename.Json.Basic

/-!
# Errors

What stops the tool, and how it is told.

An error has a code that programs can act on, a fixed sentence for the code,
and details that say what was wrong with this input. The code and the
sentence follow from the cause, so a cause is all that a failing function has
to give. Hints are advice to the person at the terminal and are added on the
way out.

Errors of configuration and of arguments can be mended by the caller, and end
a run with exit code 2. The others end it with 1.

## Main definitions

* `Cause`: What went wrong.
* `Cause.code`, `Cause.message`, `Cause.details`: How a cause is told.
* `Error`: A cause with hints.
* `Error.exitCode`: How the program ends.
-/

namespace SchemaRename

/-- What went wrong. -/
inductive Cause where
  /-- A member of the rename map is missing or blank. -/
  | missingKey (key : String) (path : Option String)
  /-- The rename map is not a document of the right form. -/
  | invalidJson (path : String) (error : String)
  /-- A member of the rename map has a value that cannot be used. -/
  | invalidValue (key : String) (value : Option String) (problem : String) (path : Option String)
  /-- An argument of the program cannot be used. -/
  | invalidArgument (field : String) (problem : String) (id : Option String)
      (tried : Option (List String))
  /-- A file could not be read or written. -/
  | io (error : String) (context : Option String)
  /-- A document could not be produced. -/
  | json (error : String) (context : Option String)
  /-- A markup document could not be read. -/
  | xml (error : String) (context : Option String)
deriving Repr, DecidableEq

namespace Cause

/-- The code of a cause. -/
def code : Cause → String
  | .missingKey .. => "config.missing_key"
  | .invalidJson .. => "config.invalid_json"
  | .invalidValue .. => "config.invalid_value"
  | .invalidArgument .. => "validation.invalid_argument"
  | .io .. => "internal.io_error"
  | .json .. => "internal.json_error"
  | .xml .. => "internal.xml_error"

/-- The sentence for a code. -/
def message : Cause → String
  | .missingKey .. => "Missing required configuration key"
  | .invalidJson .. => "Invalid JSON in configuration"
  | .invalidValue .. => "Invalid configuration value"
  | .invalidArgument .. => "Invalid argument"
  | .io .. => "IO error"
  | .json .. => "JSON error"
  | .xml .. => "XML error"

/-- What was wrong with this input. -/
def details : Cause → List (String × Json)
  | .missingKey key path => ("key", .str key) :: Json.optional "path" .str path
  | .invalidJson path error => [("path", .str path), ("error", .str error)]
  | .invalidValue key value problem path =>
    ("key", .str key) :: Json.optional "value" .str value ++
      ("problem", .str problem) :: Json.optional "path" .str path
  | .invalidArgument field problem id tried =>
    ("field", .str field) :: ("problem", .str problem) ::
      (Json.optional "id" .str id ++ Json.optional "tried" .strs tried)
  | .io error context | .json error context | .xml error context =>
    ("error", .str error) :: Json.optional "context" .str context

/-- The text that a report gives for a failure: the underlying error where
    there is one, and the sentence for the code otherwise. -/
def shortText : Cause → String
  | .io error _ | .json error _ | .xml error _ | .invalidJson _ error => error
  | cause => cause.message

/-- The cause with the origin of the rename map noted in its details. -/
def withPath (path : String) : Cause → Cause
  | .missingKey key _ => .missingKey key (some path)
  | .invalidValue key value problem _ => .invalidValue key value problem (some path)
  | cause => cause

/-- How the program ends. -/
def exitCode : Cause → Nat
  | .missingKey .. | .invalidJson .. | .invalidValue .. | .invalidArgument .. => 2
  | .io .. | .json .. | .xml .. => 1

end Cause

/-- A cause with hints for the person at the terminal. -/
structure Error where
  cause : Cause
  hints : List String := []
deriving Repr, DecidableEq

namespace Error

/-- An error without hints. -/
def of (cause : Cause) : Error :=
  { cause }

/-- The error with one more hint. -/
def withHint (e : Error) (hint : String) : Error :=
  { e with hints := e.hints ++ [hint] }

end Error

end SchemaRename
