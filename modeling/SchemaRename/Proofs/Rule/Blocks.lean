import SchemaRename.Proofs.Rule.Literal

/-!
# The Rules of a Map

The rules of a map are the blocks of its identifiers.

Every identifier meets every template of its kind. Without fragments each
meeting gives a rule, so the rules of one identifier are a block that depends
on that identifier and on the templates, and the rules of a map are the blocks
of its identifiers in order. All that can go wrong is a name that is missing.

## Main definitions

* `TemplateSet.forCategory`: The templates for a kind of identifier.
* `ObjectRename.sources`: The identifiers that an object renames.
* `RuleSource.block`: The rules of one identifier.

## Theorems

* `mem_block_iff`: A rule of a block comes from a template.
* `objectRules_eq`: The rules of one object.
* `compileRules_eq`: The rules of a list of objects.
-/

namespace SchemaRename

/-- The templates for a kind of identifier. -/
def TemplateSet.forCategory (templates : TemplateSet) : RuleCategory → List Template
  | .object => templates.objects
  | .field => templates.fields

/-- The identifiers that an object renames: its own, and those of its
    fields. -/
def ObjectRename.sources (object : ObjectRename) : List RuleSource :=
  object.source :: object.fields.map FieldRename.source

/-- The rules of one identifier, in the order of its templates. -/
def RuleSource.block (g : Globals) (templates : TemplateSet) (s : RuleSource) : List Rule :=
  (templates.forCategory s.category).filterMap fun t => (buildRule g s t).toOption

theorem mem_block_iff (g : Globals) (templates : TemplateSet) (s : RuleSource) (r : Rule) :
    r ∈ s.block g templates ↔
      ∃ t ∈ templates.forCategory s.category, buildRule g s t = .ok r := by
  unfold RuleSource.block
  rw [List.mem_filterMap]
  refine exists_congr fun t => and_congr_right fun _ => ?_
  cases buildRule g s t with
  | error cause => simp only [Except.toOption, reduceCtorEq]
  | ok q => simp only [Except.toOption, Option.some.injEq, Except.ok.injEq]

/-- A list that can be mapped member by member can be mapped. -/
theorem mapM_eq_filterMap {α β : Type} (f : α → Except Cause β) (xs : List α)
    (h : ∀ x ∈ xs, ∃ y, f x = .ok y) :
    xs.mapM f = .ok (xs.filterMap fun x => (f x).toOption) := by
  induction xs with
  | nil => rfl
  | cons x xs ih =>
      rcases h x List.mem_cons_self with ⟨y, hy⟩
      rw [List.mapM_cons, ih (fun x' hx' => h x' (List.mem_cons_of_mem x hx'))]
      simp only [hy, List.filterMap_cons, Except.toOption]
      rfl

section Compile

variable (g : Globals) (hbefore : g.patternBefore = none) (hafter : g.patternAfter = none)
  (templates : TemplateSet)
include hbefore hafter

theorem mapM_buildRule_eq (s : RuleSource) :
    (templates.forCategory s.category).mapM (buildRule g s) = .ok (s.block g templates) := by
  refine mapM_eq_filterMap _ _ ?_
  intro t _
  rcases exists_buildRule g s t hbefore hafter with ⟨r, hr, _⟩
  exact ⟨r, hr⟩

theorem mapM_fields_eq (fields : List FieldRename) :
    fields.mapM (fun field => templates.fields.mapM (buildRule g field.source)) =
      .ok (fields.map fun field => field.source.block g templates) := by
  induction fields with
  | nil => rfl
  | cons field fields ih =>
      have hfirst := mapM_buildRule_eq g hbefore hafter templates field.source
      rw [List.mapM_cons, ih,
        show templates.fields = templates.forCategory field.source.category from rfl, hfirst]
      rfl

theorem objectRules_eq (object : ObjectRename) :
    objectRules g templates object = .ok (object.sources.flatMap (·.block g templates)) := by
  have hown := mapM_buildRule_eq g hbefore hafter templates object.source
  unfold objectRules
  rw [show templates.objects = templates.forCategory object.source.category from rfl, hown,
    mapM_fields_eq g hbefore hafter templates object.fields]
  unfold ObjectRename.sources
  rw [List.flatMap_cons, List.flatMap_map, List.flatMap_def]
  rfl

theorem compileRulesFrom_eq (objects : List ObjectRename) : ∀ (index : Nat),
    checkObjects index objects = .ok () →
      compileRulesFrom g templates index objects =
        .ok ((objects.flatMap (·.sources)).flatMap (·.block g templates)) := by
  induction objects with
  | nil => intro _ _; rfl
  | cons object objects ih =>
      intro index hcheck
      rw [checkObjects] at hcheck
      cases hobject : object.check index with
      | error cause =>
          rw [hobject] at hcheck
          cases hcheck
      | ok _ =>
          rw [hobject] at hcheck
          rw [compileRulesFrom, hobject, objectRules_eq g hbefore hafter templates object,
            ih (index + 1) hcheck, List.flatMap_cons, List.flatMap_append]
          rfl

/-- The rules of a list of objects with all their names are the blocks of its
    identifiers, in order. -/
theorem compileRules_eq (objects : List ObjectRename) (hcheck : checkObjects 0 objects = .ok ()) :
    compileRules objects templates g =
      .ok ((objects.flatMap (·.sources)).flatMap (·.block g templates)) :=
  compileRulesFrom_eq g hbefore hafter templates objects 0 hcheck

end Compile

end SchemaRename
