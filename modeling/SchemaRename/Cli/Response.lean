import SchemaRename.Cli.Help
import SchemaRename.RenameMap.Decode
import SchemaRename.Report

/-!
# Answers of the Program

What the program does with a request, and what it prints.

Every command prints one JSON object: data on success, and the code, the
sentence, the details and the hints of an error otherwise. Details and data
list their members by key. Help and the version are plain text, and wrong
arguments print nothing here; they are told on the other channel.

## Main definitions

* `Answer`: What a command comes to.
* `Command.execute`: A command, carried out on a tree.
* `envelope`: The object that is printed.
* `Output`: What is printed, by kind.
* `respond`: The program, from arguments to outcome.
-/

namespace SchemaRename.Cli

/-- What a successful command has to show. -/
inductive Answer where
  | run (config : String) (report : RunReport)
  | rules (fetch : String) (rules : List Rule)
  | catalog (fetch : String) (templates : TemplateSet)
deriving Repr, DecidableEq

/-- Carries out a command. -/
def Command.execute (home : String) (t : FileTree) : Command → Except Error Answer × FileTree
  | .run config options =>
    match RenameMap.load t home config with
    | .error e => (.error e, t)
    | .ok m =>
      match SchemaRename.run m home options t with
      | (.error e, t) => (.error e, t)
      | (.ok report, t) => (.ok (.run config report), t)
  | .rules config fetch =>
    let compiled := do
      let m ← RenameMap.load t home config
      (m.rules fetch).mapError Error.of
    (compiled.map (Answer.rules fetch), t)
  | .catalog config fetch =>
    let loaded := RenameMap.load t home config
    (loaded.map fun m => Answer.catalog fetch (m.templates fetch), t)

/-- The data of an answer. -/
def Answer.data (elapsedMs : Option Nat) : Answer → Json
  | .run config report =>
    .obj [("command", .str "migrate.run"), ("config", .str config),
      ("dryRun", .bool report.dryRun), ("changedFiles", .nat report.changedFiles),
      ("migratedFiles", .nat report.migratedFiles), ("report", report.toJson elapsedMs)]
  | .rules fetch compiled =>
    .obj [("command", .str "migrate.rules"), ("fetch", .str fetch),
      ("ruleCount", .nat compiled.length), ("rules", .array (compiled.map Rule.toJson)),
      ("conflicts", .array ((replacementConflicts compiled).map RuleConflict.toJson))]
  | .catalog fetch templates =>
    .obj [("command", .str "migrate.catalog"), ("fetch", .str fetch),
      ("templates", templates.toJson), ("overlapping", overlapJson templates)]

/-- An error as a value. -/
def errorJson (e : Error) : Json :=
  .obj ([("code", .str e.cause.code), ("message", .str e.cause.message),
      ("details", (Json.obj e.cause.details).sortKeys)] ++
    Json.nonempty "hints" (fun hint => Json.obj [("message", .str hint)]) e.hints)

/-- The object that is printed. -/
def envelope (elapsedMs : Option Nat) : Except Error Answer → Json
  | .ok answer => .obj [("success", .bool true), ("data", (answer.data elapsedMs).sortKeys)]
  | .error e => .obj [("success", .bool false), ("error", errorJson e)]

/-- The exit code of a command. -/
def exitCode : Except Error Answer → Nat
  | .ok _ => 0
  | .error e => e.cause.exitCode

/-- What the program prints. -/
inductive Output where
  | nothing (error : UsageError)
  | text (s : String)
  | answer (result : Except Error Answer)

/-- The program, from arguments to what it prints and the tree it leaves. -/
def respond (home : String) (args : List String) (t : FileTree) : Nat × Output × FileTree :=
  match parseArguments args with
  | .error e => (2, .nothing e, t)
  | .ok .version => (0, .text versionText, t)
  | .ok (.help page) => (0, .text page.text, t)
  | .ok (.command command) =>
    let (result, t) := command.execute home t
    (exitCode result, .answer result, t)

end SchemaRename.Cli
