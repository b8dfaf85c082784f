import SchemaRename.RenameMap.Encode
import SchemaRename.Run
import SchemaRename.Template.Overlap

/-!
# Reports as Values

The JSON form of everything the tool reports.

Lists of files that are empty are left out of a batch, counts are always
there, and the two last parts of a run appear only if they took place.

## Main definitions

* `Rule.toJson`, `RuleConflict.toJson`: Compiled rules.
* `TemplateSet.toJson`, `overlapJson`: Templates.
* `SubstitutionOutcome.toJson`, `Migrated.toJson`, `SkippedReason.toJson`:
  What happened to a file.
* `CleanupReport.toJson`, `RunReport.toJson`: Whole passes.
-/

namespace SchemaRename

/-- A path as a value. -/
def Path.toJson (p : Path) : Json :=
  .str p.text

/-- A scope as a value. -/
def Scope.toJson (s : Scope) : Json :=
  .obj (Json.optional "exclude" ScopeList.toJson s.exclude ++
    Json.optional "include" ScopeList.toJson s.include_)

/-- The word for a kind of identifier. -/
def RuleCategory.word : RuleCategory → String
  | .object => "object"
  | .field => "field"

/-- A rule as a value. -/
def Rule.toJson (r : Rule) : Json :=
  .obj [("category", .str r.category.word), ("template", .str r.template),
    ("id_pair", .obj [("old_id", .str r.oldId), ("new_id", .str r.newId)]),
    ("case_sensitive", .bool r.caseSensitive), ("match_pattern", .str r.pattern),
    ("replacement", .str r.replacement), ("scope", r.scope.toJson)]

/-- A conflict as a value. -/
def RuleConflict.toJson (c : RuleConflict) : Json :=
  .obj [("producer", .nat c.producer), ("consumer", .nat c.consumer)]

/-- Templates as a value. -/
def TemplateSet.toJson (s : TemplateSet) : Json :=
  .obj [("objects", .array (s.objects.map Template.toJson)),
    ("fields", .array (s.fields.map Template.toJson))]

/-- The names of the templates that need a second pass. -/
def overlapNames (templates : List Template) : Json :=
  .strs ((overlappingTemplates templates).map (·.name))

/-- The templates of a set that need a second pass. -/
def overlapJson (s : TemplateSet) : Json :=
  .obj [("objects", overlapNames s.objects), ("fields", overlapNames s.fields)]

/-- What happened to a file, as a value. -/
def SubstitutionOutcome.toJson : SubstitutionOutcome → Json
  | .missing => .obj [("status", .str "missing")]
  | .unreadable error => .obj [("status", .str "unreadable"), ("error", .str error)]
  | .unchanged => .obj [("status", .str "unchanged")]
  | .rewritten replacements written =>
    .obj [("status", .str "rewritten"), ("replacements", .nat replacements),
      ("written", .bool written)]
  | .writeFailed error => .obj [("status", .str "write_failed"), ("error", .str error)]

/-- A migrated definition as a value. -/
def RetargetedReference.toJson (r : RetargetedReference) : Json :=
  .obj [("previousObject", .str r.previousObject), ("newObject", .str r.newObject),
    ("destination", r.destination.toJson)]

/-- A migrated file as a value. -/
def Migrated.toJson (m : Migrated) : Json :=
  .obj [("source", m.source.toJson),
    ("references", .array (m.references.map RetargetedReference.toJson)),
    ("written", .bool m.written)]

/-- The reason for leaving a file alone, as a value. -/
def SkippedReason.toJson : SkippedReason → Json
  | .unreadable error => .obj [("reason", .str "unreadable"), ("error", .str error)]
  | .unparseable error => .obj [("reason", .str "unparseable"), ("error", .str error)]
  | .noMatchingReference => .obj [("reason", .str "no_matching_reference")]
  | .noFieldsFolder => .obj [("reason", .str "no_fields_folder")]
  | .destinationIsSource => .obj [("reason", .str "destination_is_source")]
  | .writeFailed destination error =>
    .obj [("reason", .str "write_failed"), ("destination", destination.toJson),
      ("error", .str error)]

/-- A failed removal as a value. -/
def CleanupFailure.toJson (f : CleanupFailure) : Json :=
  .obj [("path", f.path.toJson), ("error", .str f.error)]

/-- A cleanup as a value. -/
def CleanupReport.toJson (r : CleanupReport) : Json :=
  .obj [("scanned", .nat r.scanned), ("removed", .array (r.removed.map Path.toJson)),
    ("failures", .array (r.failures.map CleanupFailure.toJson))]

/-- A rewritten file as a value. -/
def FileChange.toJson (c : FileChange) : Json :=
  .obj [("path", c.path.toJson), ("replacements", .nat c.replacements),
    ("written", .bool c.written)]

/-- A skipped file as a value. -/
def SkippedFile.toJson (s : SkippedFile) : Json :=
  .obj [("path", s.path.toJson), ("reason", .str s.reason)]

/-- The word for a kind of batch. -/
def BatchKind.word : BatchKind → String
  | .substitution => "substitution"
  | .reference => "reference"

/-- A batch as a value. -/
def BatchReport.toJson (b : BatchReport) : Json :=
  .obj ([("expression", .str b.expression), ("kind", .str b.kind.word),
      ("matchedFiles", .nat b.matchedFiles)] ++
    Json.nonempty "changed" FileChange.toJson b.changed ++
    Json.nonempty "migrated" Migrated.toJson b.migrated ++
    Json.nonempty "skipped" SkippedFile.toJson b.skipped ++
    [("outOfScope", .nat b.outOfScope), ("untouched", .nat b.untouched)])

/-- An overlay as a value. -/
def OverlayReport.toJson (r : OverlayReport) : Json :=
  .obj [("source", r.source.toJson), ("files", .nat r.files), ("written", .bool r.written)]

/-- The members of a run's report. The time it took is added by whoever holds
    a clock. -/
def RunReport.members (r : RunReport) (elapsedMs : Option Nat) : List (String × Json) :=
  [("inputFolder", r.inputFolder.toJson), ("dryRun", .bool r.dryRun),
      ("batches", .array (r.batches.map BatchReport.toJson))] ++
    Json.optional "cleanup" CleanupReport.toJson r.cleanup ++
    Json.optional "overlay" OverlayReport.toJson r.overlay ++
    Json.optional "elapsedMs" Json.nat elapsedMs

/-- A run's report as a value. -/
def RunReport.toJson (r : RunReport) (elapsedMs : Option Nat) : Json :=
  .obj (r.members elapsedMs)

end SchemaRename
