import SchemaRename.Rule
import Mathlib.Data.List.Basic

/-!
# Catalogs with Overrides

What stands in a catalog when all overrides have been taken.

Overrides are taken one after the other, and each changes the catalog that the
next one meets: it replaces what earlier ones have put there, or adds a name
that later ones find. What comes out can be said without the order of the
steps. A catalog keeps its names and gets the names it did not have, each once
and in the order of their first override. Under each name stands the last
override that applies to the expression. Where none applies, a name of the
catalog keeps its template, and a name that was added keeps the override it
came with.

So an override that does not apply has one effect only, and that is to add its
name. It can be left out if the others add the same names in the same order.

## Main definitions

* `Template.AppliesTo`: What an override is restricted to fits the expression.
* `lastOverride?`: The last override of a name that applies.
* `Template.overridden`: What stands in the place of a template.
* `newcomers`: The overrides that are added to a catalog.
* `addedNames`: The names that overrides bring in.
* `fitting`: The overrides that apply to an expression.
* `RenameMap.fittingTo`: A map without the overrides that do not apply.

## Theorems

* `mergeTemplates_eq`: A catalog with overrides, from the catalog and its
  newcomers.
* `names_newcomers`, `find?_of_mem_newcomers`: The newcomers are the first
  overrides of the names that are added.
* `mergeTemplates_closed_form`: A catalog with overrides, name by name.
* `mergeTemplates_fitting`: When the other overrides can be left out.
* `mergeTemplates_adds_unfitting`: When they cannot.
-/

namespace SchemaRename

/-- A template that applies to an expression: it is restricted to nothing, or the
    expression ends with what it is restricted to. -/
def Template.AppliesTo (t : Template) (expression : String) : Prop :=
  ∀ suffix ∈ t.affectedItems, suffix.toList <:+ expression.toList

instance (t : Template) (expression : String) : Decidable (t.AppliesTo expression) :=
  inferInstanceAs (Decidable (∀ suffix ∈ t.affectedItems, _))

theorem Template.affects_iff (t : Template) (expression : String) :
    t.affects expression = true ↔ t.AppliesTo expression := by
  rw [affects, AppliesTo]
  cases t.affectedItems <;> simp

/-- The last override of a name that applies to an expression. -/
def lastOverride? (overrides : List Template) (expression name : String) : Option Template :=
  (overrides.filter fun o => o.name = name ∧ o.AppliesTo expression).getLast?

/-- What stands in the place of a template: the last override of its name that
    applies, or the template itself. -/
def Template.overridden (overrides : List Template) (expression : String) (t : Template) :
    Template :=
  (lastOverride? overrides expression t.name).getD t

/-- The overrides that are added to a catalog: those whose name is not known when
    their turn comes. -/
def newcomers : (base overrides : List Template) → List Template
  | _, [] => []
  | base, o :: overrides =>
    if base.any (·.name == o.name) then newcomers base overrides
    else o :: newcomers (base ++ [o]) overrides

/-- The names that overrides bring in: those that are not in the catalog, each
    once, in the order in which they first appear. -/
def addedNames (base overrides : List Template) : List String :=
  ((overrides.map (·.name)).filter fun name => !(base.map (·.name)).contains name).eraseDups

theorem any_name_iff (templates : List Template) (name : String) :
    templates.any (·.name == name) = true ↔ name ∈ templates.map (·.name) := by
  simp [List.mem_map]

theorem lastOverride?_cons (o : Template) (overrides : List Template)
    (expression name : String) :
    lastOverride? (o :: overrides) expression name =
      (lastOverride? overrides expression name).or
        (if o.name = name ∧ o.AppliesTo expression then some o else none) := by
  rw [lastOverride?, List.filter_cons]
  by_cases h : o.name = name ∧ o.AppliesTo expression
  · rw [if_pos (by simpa using h), if_pos h, List.getLast?_cons, lastOverride?]
    cases (overrides.filter _).getLast? <;> rfl
  · rw [if_neg (by simpa using h), if_neg h, Option.or_none, lastOverride?]

theorem name_of_lastOverride? {overrides : List Template} {expression name : String}
    {o : Template} (h : lastOverride? overrides expression name = some o) : o.name = name := by
  exact (of_decide_eq_true (List.mem_filter.mp (List.mem_of_getLast? h)).2).1

/-- What stands in the place of a template has its name. -/
theorem Template.name_overridden (overrides : List Template) (expression : String)
    (t : Template) : (t.overridden overrides expression).name = t.name := by
  rw [overridden]
  cases h : lastOverride? overrides expression t.name with
  | none => rfl
  | some o => exact name_of_lastOverride? h

/-- An override does not touch templates of other names. -/
theorem Template.overridden_cons_of_ne (t o : Template) (overrides : List Template)
    (expression : String) (h : t.name ≠ o.name) :
    t.overridden (o :: overrides) expression = t.overridden overrides expression := by
  rw [overridden, overridden, lastOverride?_cons, if_neg fun hname => h hname.1.symm,
    Option.or_none]

/-- Which overrides are added depends on the names in the catalog only. -/
theorem newcomers_congr (base base' overrides : List Template)
    (h : base'.map (·.name) = base.map (·.name)) :
    newcomers base' overrides = newcomers base overrides := by
  induction overrides generalizing base base' with
  | nil => rfl
  | cons o overrides ih =>
      have hany : base'.any (·.name == o.name) = base.any (·.name == o.name) := by
        rw [Bool.eq_iff_iff, any_name_iff, any_name_iff, h]
      rw [newcomers, newcomers, hany, ih base base' h,
        ih (base ++ [o]) (base' ++ [o]) (by rw [List.map_append, List.map_append, h])]

/-- A newcomer has a name that the catalog does not have, and is the first
    override of that name. -/
theorem find?_of_mem_newcomers (base overrides : List Template) (t : Template)
    (h : t ∈ newcomers base overrides) :
    t.name ∉ base.map (·.name) ∧ overrides.find? (·.name == t.name) = some t := by
  induction overrides generalizing base with
  | nil => cases h
  | cons o overrides ih =>
      rw [newcomers] at h
      split at h
      · next hknown =>
          obtain ⟨hnew, hfirst⟩ := ih base h
          have hne : o.name ≠ t.name := fun heq =>
            hnew (heq ▸ (any_name_iff base o.name).mp hknown)
          exact ⟨hnew, by rw [List.find?_cons_of_neg (by simpa using hne), hfirst]⟩
      · next hknown =>
          rcases List.mem_cons.mp h with rfl | h
          · exact ⟨fun hmem => hknown ((any_name_iff base t.name).mpr hmem), by simp⟩
          · obtain ⟨hnew, hfirst⟩ := ih (base ++ [o]) h
            rw [List.map_append, List.mem_append, not_or] at hnew
            have hne : o.name ≠ t.name := fun heq => hnew.2 (by simp [heq])
            exact ⟨hnew.1, by rw [List.find?_cons_of_neg (by simpa using hne), hfirst]⟩

/-- The names of the newcomers are the names that are added. -/
theorem names_newcomers (base overrides : List Template) :
    (newcomers base overrides).map (·.name) = addedNames base overrides := by
  induction overrides generalizing base with
  | nil => rfl
  | cons o overrides ih =>
      rw [newcomers, addedNames, List.map_cons, List.filter_cons]
      by_cases hknown : o.name ∈ base.map (·.name)
      · rw [if_pos ((any_name_iff base o.name).mpr hknown), if_neg (by simpa using hknown), ih,
          addedNames]
      · rw [if_neg (fun h => hknown ((any_name_iff base o.name).mp h)),
          if_pos (by simpa using hknown), List.map_cons, ih, addedNames, List.eraseDups_cons,
          List.filter_filter]
        congr 3
        funext name
        rw [Bool.eq_iff_iff]
        simp [and_comm]

/-- A catalog with overrides: every template of it and every newcomer, with the
    last override that applies in its place. -/
theorem mergeTemplates_eq (base overrides : List Template) (expression : String) :
    mergeTemplates base overrides expression =
      (base ++ newcomers base overrides).map (Template.overridden overrides expression) := by
  -- By induction on the overrides, for every catalog: the first override makes
  -- the catalog that the others meet.
  induction overrides generalizing base with
  | nil =>
      rw [newcomers, List.append_nil]
      exact (List.map_id' base).symm
  | cons o overrides ih =>
      have hstep : mergeTemplates base (o :: overrides) expression =
          mergeTemplates (mergeOverride expression base o) overrides expression := rfl
      rw [hstep, ih, newcomers, mergeOverride]
      by_cases hknown : base.any (·.name == o.name) = true
      · rw [if_pos hknown, if_pos hknown]
        have hbehind : ∀ t ∈ newcomers base overrides,
            t.overridden overrides expression = t.overridden (o :: overrides) expression := by
          intro t ht
          refine (t.overridden_cons_of_ne o overrides expression fun heq => ?_).symm
          exact (find?_of_mem_newcomers base overrides t ht).1
            (heq ▸ (any_name_iff base o.name).mp hknown)
        by_cases happlies : o.AppliesTo expression
        · rw [if_pos ((o.affects_iff expression).mpr happlies)]
          have hnames : (base.map fun t => if t.name == o.name then o else t).map (·.name) =
              base.map (·.name) := by
            rw [List.map_map]
            refine List.map_congr_left fun t _ => ?_
            by_cases hname : t.name = o.name
            · simp [hname]
            · simp [hname]
          rw [newcomers_congr base _ overrides hnames, List.map_append, List.map_append,
            List.map_map, List.map_congr_left hbehind]
          congr 1
          refine List.map_congr_left fun t _ => ?_
          by_cases hname : t.name = o.name
          · -- What is replaced now is replaced again by a later override, if there is one.
            simp only [Function.comp_apply, hname, beq_self_eq_true, if_true]
            rw [Template.overridden, Template.overridden, lastOverride?_cons, hname,
              if_pos ⟨rfl, happlies⟩]
            cases lastOverride? overrides expression o.name <;> rfl
          · rw [Function.comp_apply, if_neg (by simpa using hname),
              t.overridden_cons_of_ne o overrides expression hname]
        · rw [if_neg fun h => happlies ((o.affects_iff expression).mp h)]
          refine List.map_congr_left fun t _ => ?_
          rw [Template.overridden, Template.overridden, lastOverride?_cons,
            if_neg fun h => happlies h.2, Option.or_none]
      · rw [if_neg hknown, if_neg hknown, List.append_assoc, List.singleton_append]
        refine List.map_congr_left fun t ht => ?_
        by_cases hname : t.name = o.name
        · -- Only the newcomer itself has its name.
          have hself : t = o := by
            rcases List.mem_append.mp ht with hmem | hmem
            · exact absurd ((any_name_iff base o.name).mpr
                (hname ▸ List.mem_map_of_mem hmem)) hknown
            · rcases List.mem_cons.mp hmem with heq | hmem
              · exact heq
              · exact absurd (by simp [hname])
                  (find?_of_mem_newcomers (base ++ [o]) overrides t hmem).1
          subst hself
          rw [Template.overridden, Template.overridden, lastOverride?_cons]
          cases lastOverride? overrides expression t.name with
          | some later => rfl
          | none =>
              split <;> rfl
        · exact (t.overridden_cons_of_ne o overrides expression hname).symm

/-- A catalog with overrides has the names of the catalog and those that are
    added. -/
theorem names_mergeTemplates (base overrides : List Template) (expression : String) :
    (mergeTemplates base overrides expression).map (·.name) =
      base.map (·.name) ++ addedNames base overrides := by
  rw [mergeTemplates_eq, List.map_map, ← names_newcomers, ← List.map_append]
  exact List.map_congr_left fun t _ => t.name_overridden overrides expression

/-- Where all names are known, no override is added. -/
theorem newcomers_eq_nil (base overrides : List Template)
    (h : ∀ o ∈ overrides, o.name ∈ base.map (·.name)) : newcomers base overrides = [] := by
  rw [List.eq_nil_iff_forall_not_mem]
  intro t ht
  obtain ⟨hnew, hfirst⟩ := find?_of_mem_newcomers base overrides t ht
  exact hnew (h t (List.mem_of_find?_eq_some hfirst))

/-- Overrides that have been taken change nothing when they are taken again. -/
theorem mergeTemplates_mergeTemplates (base overrides : List Template) (expression : String) :
    mergeTemplates (mergeTemplates base overrides expression) overrides expression =
      mergeTemplates base overrides expression := by
  have hknown : ∀ o ∈ overrides,
      o.name ∈ (mergeTemplates base overrides expression).map (·.name) := by
    intro o ho
    rw [names_mergeTemplates, List.mem_append]
    by_cases hbase : o.name ∈ base.map (·.name)
    · exact Or.inl hbase
    · right
      rw [addedNames, List.mem_eraseDups, List.mem_filter]
      exact ⟨List.mem_map_of_mem ho, by simpa using hbase⟩
  rw [mergeTemplates_eq (mergeTemplates base overrides expression),
    newcomers_eq_nil _ overrides hknown, List.append_nil, mergeTemplates_eq base, List.map_map]
  refine List.map_congr_left fun t _ => ?_
  rw [Function.comp_apply, Template.overridden, Template.name_overridden, Template.overridden]
  cases lastOverride? overrides expression t.name <;> rfl

/-- A catalog with overrides, name by name: under a name of the catalog the last
    override that applies or else its own template, under a name that is added the
    last override that applies or else the first one. -/
theorem mergeTemplates_by_name (base overrides : List Template) (expression : String) :
    mergeTemplates base overrides expression =
      (base.map fun t => (lastOverride? overrides expression t.name).getD t) ++
        (addedNames base overrides).filterMap (fun name =>
          (lastOverride? overrides expression name).or (overrides.find? (·.name == name))) := by
  rw [mergeTemplates_eq, List.map_append, ← names_newcomers, List.filterMap_map]
  congr 1
  rw [← List.filterMap_eq_map]
  refine List.filterMap_congr fun t ht => ?_
  rw [Function.comp_apply, Function.comp_apply, (find?_of_mem_newcomers base overrides t ht).2,
    Template.overridden]
  cases lastOverride? overrides expression t.name <;> rfl

/-- A catalog with overrides has the names of the catalog and then those that are
    added, under each name stands what `mergeTemplates_by_name` says, and taking
    the overrides again changes nothing. -/
theorem mergeTemplates_closed_form (base overrides : List Template) (expression : String) :
    (mergeTemplates base overrides expression).map (·.name) =
        base.map (·.name) ++ addedNames base overrides ∧
      mergeTemplates base overrides expression =
        (base.map fun t => (lastOverride? overrides expression t.name).getD t) ++
          (addedNames base overrides).filterMap (fun name =>
            (lastOverride? overrides expression name).or (overrides.find? (·.name == name))) ∧
      mergeTemplates (mergeTemplates base overrides expression) overrides expression =
        mergeTemplates base overrides expression :=
  ⟨names_mergeTemplates base overrides expression,
    mergeTemplates_by_name base overrides expression,
    mergeTemplates_mergeTemplates base overrides expression⟩

/-- A name that two overrides bring in, the second of which does not apply, and
    a name that the catalog has. -/
example :
    mergeTemplates [⟨"tag", "<", ">", none, none, none⟩]
      [⟨"list", "[", "]", none, none, none⟩, ⟨"list", "(", ")", none, none, some ".cmp"⟩,
        ⟨"tag", "|", "|", none, none, some ".cls"⟩] "*.cls" =
      [⟨"tag", "|", "|", none, none, some ".cls"⟩, ⟨"list", "[", "]", none, none, none⟩] := by
  decide +kernel

/-- The overrides that apply to an expression. -/
def fitting (expression : String) (overrides : List Template) : List Template :=
  overrides.filter (·.AppliesTo expression)

/-- A map without the overrides that do not apply to an expression. -/
def RenameMap.fittingTo (m : RenameMap) (expression : String) : RenameMap :=
  { m with
    globals := { m.globals with
      objectOverrides := fitting expression m.globals.objectOverrides
      fieldOverrides := fitting expression m.globals.fieldOverrides } }

theorem lastOverride?_fitting (overrides : List Template) (expression name : String) :
    lastOverride? (fitting expression overrides) expression name =
      lastOverride? overrides expression name := by
  rw [lastOverride?, fitting, List.filter_filter, lastOverride?]
  congr 2
  funext o
  by_cases h : o.AppliesTo expression <;> simp [h]

/-- A name that overrides which apply bring in has a last one among them. -/
theorem exists_lastOverride? (base overrides : List Template) (expression name : String)
    (h : name ∈ addedNames base (fitting expression overrides)) :
    ∃ o, lastOverride? overrides expression name = some o := by
  rw [addedNames, List.mem_eraseDups, List.mem_filter, List.mem_map] at h
  obtain ⟨⟨o, ho, rfl⟩, -⟩ := h
  obtain ⟨hmem, happlies⟩ := List.mem_filter.mp ho
  rw [← Option.isSome_iff_exists, lastOverride?, List.getLast?_isSome]
  exact List.ne_nil_of_mem (List.mem_filter.mpr ⟨hmem, by simpa using happlies⟩)

/-- The overrides that do not apply can be left out exactly if the others bring
    in the same names in the same order. -/
theorem mergeTemplates_fitting_iff (base overrides : List Template) (expression : String) :
    mergeTemplates base (fitting expression overrides) expression =
        mergeTemplates base overrides expression ↔
      addedNames base (fitting expression overrides) = addedNames base overrides := by
  constructor
  · intro h
    have hnames := names_mergeTemplates base (fitting expression overrides) expression
    rw [h, names_mergeTemplates, List.append_cancel_left_eq] at hnames
    exact hnames.symm
  · intro h
    rw [mergeTemplates_by_name, mergeTemplates_by_name, ← h]
    simp only [lastOverride?_fitting]
    congr 1
    refine List.filterMap_congr fun name hname => ?_
    obtain ⟨o, ho⟩ := exists_lastOverride? base overrides expression name hname
    rw [ho, Option.some_or, Option.some_or]

/-- The rules of a map do not look at its overrides but through the
    templates. -/
theorem compileRules_fittingTo (m : RenameMap) (expression : String) (templates : TemplateSet) :
    compileRules m.objects templates (m.fittingTo expression).globals =
      compileRules m.objects templates m.globals := by
  have hfrom : ∀ (objects : List ObjectRename) (index : Nat),
      compileRulesFrom (m.fittingTo expression).globals templates index objects =
        compileRulesFrom m.globals templates index objects := by
    intro objects
    induction objects with
    | nil => exact fun _ => rfl
    | cons object objects ih =>
        intro index
        rw [compileRulesFrom, compileRulesFrom, ih]
        rfl
  exact hfrom m.objects 0

/-- An override that does not apply to an expression has no effect on its
    templates and rules, as long as it brings in no name: the overrides that do not
    apply can be left out exactly if the others bring in the same names in the same
    order. -/
theorem mergeTemplates_fitting (m : RenameMap) (base overrides : List Template)
    (expression : String) :
    (mergeTemplates base (fitting expression overrides) expression =
        mergeTemplates base overrides expression ↔
      addedNames base (fitting expression overrides) = addedNames base overrides) ∧
    (addedNames objectCatalog (fitting expression m.globals.objectOverrides) =
        addedNames objectCatalog m.globals.objectOverrides →
      addedNames fieldCatalog (fitting expression m.globals.fieldOverrides) =
        addedNames fieldCatalog m.globals.fieldOverrides →
      (m.fittingTo expression).rules expression = m.rules expression) := by
  refine ⟨mergeTemplates_fitting_iff base overrides expression, fun hobjects hfields => ?_⟩
  have htemplates : (m.fittingTo expression).templates expression = m.templates expression := by
    rw [RenameMap.templates, RenameMap.templates, TemplateSet.resolve, TemplateSet.resolve]
    congr 1
    · exact (mergeTemplates_fitting_iff _ _ expression).mpr hobjects
    · exact (mergeTemplates_fitting_iff _ _ expression).mpr hfields
  rw [RenameMap.rules, htemplates, RenameMap.rules]
  exact compileRules_fittingTo m expression (m.templates expression)

/-- A map that overrides a known template for components only. -/
def componentTags : RenameMap :=
  { objects := [{ previousObject := "Legacy__c", newObject := "Account" }]
    globals := { objectOverrides := [⟨"tag", "[", "]", none, none, some ".cmp"⟩,
      ⟨"arrow", "=>", " ", none, none, none⟩, ⟨"arrow", "->", " ", none, none, some ".js"⟩] } }

theorem mergeTemplates_fitting_components :
    (componentTags.fittingTo "./classes/*.cls").globals.objectOverrides =
        [⟨"arrow", "=>", " ", none, none, none⟩] ∧
      (componentTags.fittingTo "./classes/*.cls").rules "./classes/*.cls" =
        componentTags.rules "./classes/*.cls" :=
  ⟨by decide +kernel,
    (mergeTemplates_fitting componentTags [] [] "./classes/*.cls").2 (by decide +kernel)
      (by decide +kernel)⟩

/-- A template for components that no catalog knows. -/
def componentBrackets : Template :=
  ⟨"brackets", "[", "]", none, none, some ".cmp"⟩

/-- An override that does not apply is added all the same if its name is not
    known: it is not so that such overrides can always be left out. -/
theorem mergeTemplates_adds_unfitting :
    ¬ ∀ (base overrides : List Template) (expression : String),
      mergeTemplates base (fitting expression overrides) expression =
        mergeTemplates base overrides expression := by
  intro h
  have hsame := h objectCatalog [componentBrackets] "./classes/*.cls"
  exact absurd hsame (by decide +kernel)

end SchemaRename
