import SchemaRename.Proofs.RenameMap.RoundTrip
import SchemaRename.Proofs.Rule.Blocks

/-!
# The Rules of a Valid Map

Every identifier of a map meets every template of its kind.

A map that has been read and validated has all its names, so of the two things
that can go wrong while its rules are made, one is ruled out. What is left is
one list of meetings, worked through in order: the rules are what the meetings
give, and the first pattern that cannot be read is the error. Without fragments
every pattern can be read, and a rule stands for every meeting.

## Main definitions

* `RenameMap.meetings`: The identifiers of a map with the templates they meet.
* `Globals.meetingPattern`, `Globals.readMeeting`: The pattern of a meeting, as
  it is written and as it reads.
* `Rule.MadeOf`: The rule of a meeting.

## Theorems

* `buildRule_cases`, `buildRule_eq_error_iff`: What a meeting gives.
* `forall₂_of_mapM_eq_ok`, `exists_first_of_mapM_eq_error`: What a list of
  meetings gives.
* `RenameMap.rules_eq_mapM`: Rules are made meeting by meeting.
* `RenameMap.rules_eq_error_iff`: The first pattern that cannot be read is the
  error.
* `RenameMap.rules_of_parse`: The rules of a map that has been read.
-/

namespace SchemaRename

/-- The meetings of an object: its own name with each template for objects, and
    then each of its fields with each template for fields. A field comes with
    what it says itself, and with nothing of its object. -/
def ObjectRename.meetings (objectTemplates fieldTemplates : List Template)
    (object : ObjectRename) : List (RuleSource × Template) :=
  objectTemplates.map (fun template =>
      ({ category := .object
         oldId := object.previousObject
         newId := object.newObject
         caseSensitive := object.caseSensitive
         scope := { exclude := object.exclude, include_ := object.include_ } }, template)) ++
    object.fields.flatMap fun field => fieldTemplates.map fun template =>
      ({ category := .field
         oldId := field.previousField
         newId := field.newField
         caseSensitive := field.caseSensitive
         scope := { exclude := field.exclude, include_ := field.include_ } }, template)

/-- The meetings of a map for a fetch expression, object by object. -/
def RenameMap.meetings (m : RenameMap) (expression : String) : List (RuleSource × Template) :=
  m.objects.flatMap (·.meetings (mergeTemplates objectCatalog m.globals.objectOverrides expression)
    (mergeTemplates fieldCatalog m.globals.fieldOverrides expression))

/-- The pattern of a meeting, with the fragments of the map around it. -/
def Globals.meetingPattern (g : Globals) (meeting : RuleSource × Template) : List Char :=
  (g.patternBefore.getD "").toList ++ meeting.2.pattern meeting.1.oldId ++
    (g.patternAfter.getD "").toList

/-- The pattern of a meeting, read in the case mode of the identifier. -/
def Globals.readMeeting (g : Globals) (meeting : RuleSource × Template) :
    Except Pattern.Cause Pattern.Expr :=
  Pattern.parse (!meeting.1.caseSensitive) (g.meetingPattern meeting)

/-- The rule of a meeting. All it has comes from the identifier and the
    template, and its matcher is what its pattern reads as. -/
structure Rule.MadeOf (g : Globals) (meeting : RuleSource × Template) (r : Rule) : Prop where
  category : r.category = meeting.1.category
  template : r.template = meeting.2.name
  oldId : r.oldId = meeting.1.oldId
  newId : r.newId = meeting.1.newId
  caseSensitive : r.caseSensitive = meeting.1.caseSensitive
  exclude : r.scope.exclude = meeting.1.scope.exclude
  include_ : r.scope.include_ = meeting.1.scope.include_
  pattern : r.pattern = String.ofList (g.meetingPattern meeting)
  replacement : r.replacement = meeting.2.replacement meeting.1.newId
  matcher : g.readMeeting meeting = .ok r.matcher

section Meetings

variable (g : Globals)

/-- A meeting gives its rule, or the error of its pattern. -/
theorem buildRule_cases (meeting : RuleSource × Template) :
    (∃ r, buildRule g meeting.1 meeting.2 = .ok r ∧ r.MadeOf g meeting) ∨
      ∃ fault, buildRule g meeting.1 meeting.2 =
          .error (patternError meeting.2 (g.meetingPattern meeting) fault) ∧
        g.readMeeting meeting = .error fault := by
  cases hread : g.readMeeting meeting with
  | error fault =>
      have hparse : Pattern.parse (!meeting.1.caseSensitive)
          (g.patternAround (meeting.2.pattern meeting.1.oldId)) = .error fault := hread
      exact Or.inr ⟨fault, by unfold buildRule; simp only [hparse]; rfl, rfl⟩
  | ok e =>
      have hparse : Pattern.parse (!meeting.1.caseSensitive)
          (g.patternAround (meeting.2.pattern meeting.1.oldId)) = .ok e := hread
      refine Or.inl ⟨_, by unfold buildRule; simp only [hparse]; rfl, ?_⟩
      exact ⟨rfl, rfl, rfl, rfl, rfl, rfl, rfl, rfl, rfl, hread⟩

theorem madeOf_of_buildRule (meeting : RuleSource × Template) (r : Rule)
    (h : buildRule g meeting.1 meeting.2 = .ok r) : r.MadeOf g meeting := by
  rcases buildRule_cases g meeting with ⟨q, hq, hmade⟩ | ⟨fault, hfault, -⟩
  · rw [hq] at h
    exact Except.ok.inj h ▸ hmade
  · rw [hfault] at h
    cases h

/-- A meeting gives an error exactly if its pattern cannot be read, and then it
    gives that one. -/
theorem buildRule_eq_error_iff (meeting : RuleSource × Template) (cause : Cause) :
    buildRule g meeting.1 meeting.2 = .error cause ↔
      ∃ fault, g.readMeeting meeting = .error fault ∧
        cause = patternError meeting.2 (g.meetingPattern meeting) fault := by
  rcases buildRule_cases g meeting with ⟨r, hr, hmade⟩ | ⟨fault, hfault, hread⟩
  · rw [hr, hmade.matcher]
    simp only [reduceCtorEq, false_and, exists_false]
  · rw [hfault, hread]
    constructor
    · intro h
      exact ⟨fault, rfl, (Except.error.inj h).symm⟩
    · rintro ⟨_, hsame, rfl⟩
      rw [Except.error.inj hsame]

end Meetings

section Lists

variable {ε α β : Type} (f : α → Except ε β)

/-- A list that is mapped gives the results of its members, in order. -/
theorem forall₂_of_mapM_eq_ok (xs : List α) : ∀ ys : List β, xs.mapM f = .ok ys →
    List.Forall₂ (fun x y => f x = .ok y) xs ys := by
  induction xs with
  | nil =>
      intro ys h
      cases h
      exact List.Forall₂.nil
  | cons x xs ih =>
      intro ys h
      rw [List.mapM_cons, bind_eq_ok_iff] at h
      rcases h with ⟨y, hy, h⟩
      rw [bind_eq_ok_iff] at h
      rcases h with ⟨rest, hrest, h⟩
      cases h
      exact List.Forall₂.cons hy (ih rest hrest)

/-- A list that cannot be mapped has a first member that cannot be. -/
theorem exists_first_of_mapM_eq_error (xs : List α) (e : ε) (h : xs.mapM f = .error e) :
    ∃ before x after, xs = before ++ x :: after ∧ (∀ y ∈ before, ∃ z, f y = .ok z) ∧
      f x = .error e := by
  induction xs with
  | nil => cases h
  | cons x xs ih =>
      rw [List.mapM_cons] at h
      cases hx : f x with
      | error e' =>
          rw [hx] at h
          cases h
          exact ⟨[], x, xs, rfl, fun y hy => absurd hy List.not_mem_nil, hx⟩
      | ok y =>
          cases hrest : xs.mapM f with
          | error e' =>
              rw [hx, hrest] at h
              cases h
              rcases ih hrest with ⟨before, x', after, rfl, hbefore, hx'⟩
              exact ⟨x :: before, x', after, rfl,
                List.forall_mem_cons.mpr ⟨⟨y, hx⟩, hbefore⟩, hx'⟩
          | ok ys =>
              rw [hx, hrest] at h
              cases h

/-- The first member that cannot be mapped gives the error of the whole list. -/
theorem mapM_eq_error_of_first (before : List α) (x : α) (after : List α) (e : ε)
    (hbefore : ∀ y ∈ before, ∃ z, f y = .ok z) (hx : f x = .error e) :
    (before ++ x :: after).mapM f = .error e := by
  induction before with
  | nil =>
      rw [List.nil_append, List.mapM_cons, hx]
      rfl
  | cons y before ih =>
      rcases List.forall_mem_cons.mp hbefore with ⟨⟨z, hz⟩, hbefore⟩
      rw [List.cons_append, List.mapM_cons, hz, ih hbefore]
      rfl

theorem mapM_flatMap {γ : Type} (parts : γ → List α) (xs : List γ) :
    (xs.flatMap parts).mapM f = List.flatten <$> xs.mapM (fun x => (parts x).mapM f) := by
  induction xs with
  | nil => rfl
  | cons x xs ih =>
      rw [List.flatMap_cons, List.mapM_append, ih, List.mapM_cons]
      simp only [bind_map_left, map_bind, map_pure, List.flatten_cons]

end Lists

section Compile

variable (g : Globals) (templates : TemplateSet)

/-- The rules of an object are made meeting by meeting. -/
theorem objectRules_eq_mapM (object : ObjectRename) :
    objectRules g templates object =
      (object.meetings templates.objects templates.fields).mapM
        fun meeting => buildRule g meeting.1 meeting.2 := by
  rw [ObjectRename.meetings, List.mapM_append, List.mapM_map, mapM_flatMap, objectRules]
  simp only [bind_map_left, List.mapM_map]
  rfl

theorem compileRulesFrom_eq_mapM (objects : List ObjectRename) : ∀ index : Nat,
    checkObjects index objects = .ok () →
      compileRulesFrom g templates index objects =
        (objects.flatMap (·.meetings templates.objects templates.fields)).mapM
          fun meeting => buildRule g meeting.1 meeting.2 := by
  induction objects with
  | nil => intro _ _; rfl
  | cons object objects ih =>
      intro index hcheck
      -- Each object is checked once more on the way, with the check it has passed.
      rw [checkObjects, bind_eq_ok_iff] at hcheck
      rcases hcheck with ⟨_, hobject, hrest⟩
      rw [compileRulesFrom, hobject, objectRules_eq_mapM, ih (index + 1) hrest,
        List.flatMap_cons, List.mapM_append]
      rfl

end Compile

/-- The rules of a valid map are made meeting by meeting. -/
theorem RenameMap.rules_eq_mapM (m : RenameMap) (h : m.validate = .ok ()) (expression : String) :
    m.rules expression =
      (m.meetings expression).mapM fun meeting => buildRule m.globals meeting.1 meeting.2 := by
  rw [RenameMap.validate, bind_eq_ok_iff] at h
  rcases h with ⟨_, hcheck, -⟩
  exact compileRulesFrom_eq_mapM m.globals (m.templates expression) m.objects 0 hcheck

/-- The first pattern that cannot be read is the error of the whole map. -/
theorem RenameMap.rules_eq_error_iff (m : RenameMap) (h : m.validate = .ok ())
    (expression : String) (cause : Cause) :
    m.rules expression = .error cause ↔ ∃ before meeting after fault,
      m.meetings expression = before ++ meeting :: after ∧
      (∀ earlier ∈ before, ∃ e, m.globals.readMeeting earlier = .ok e) ∧
      m.globals.readMeeting meeting = .error fault ∧
      cause = patternError meeting.2 (m.globals.meetingPattern meeting) fault := by
  rw [m.rules_eq_mapM h]
  constructor
  · intro herror
    rcases exists_first_of_mapM_eq_error _ _ _ herror with
      ⟨before, meeting, after, hsplit, hbefore, hmeeting⟩
    rcases (buildRule_eq_error_iff m.globals meeting cause).mp hmeeting with ⟨fault, hread, hcause⟩
    refine ⟨before, meeting, after, fault, hsplit, ?_, hread, hcause⟩
    intro earlier hearlier
    rcases hbefore earlier hearlier with ⟨r, hr⟩
    exact ⟨r.matcher, (madeOf_of_buildRule m.globals earlier r hr).matcher⟩
  · rintro ⟨before, meeting, after, fault, hsplit, hbefore, hread, hcause⟩
    -- A pattern that reads is all that a meeting needs to give its rule.
    rw [hsplit]
    refine mapM_eq_error_of_first _ before meeting after cause ?_
      ((buildRule_eq_error_iff m.globals meeting cause).mpr ⟨fault, hread, hcause⟩)
    intro earlier hearlier
    rcases hbefore earlier hearlier with ⟨e, he⟩
    rcases buildRule_cases m.globals earlier with ⟨r, hr, -⟩ | ⟨_, -, hfault⟩
    · exact ⟨r, hr⟩
    · rw [he] at hfault
      cases hfault

/-- Without fragments every pattern can be read. -/
theorem Globals.exists_readMeeting (g : Globals) (hbefore : g.patternBefore = none)
    (hafter : g.patternAfter = none) (meeting : RuleSource × Template) :
    ∃ e, g.readMeeting meeting = .ok e := by
  rcases exists_buildRule g meeting.1 meeting.2 hbefore hafter with ⟨r, hr, -⟩
  exact ⟨r.matcher, (madeOf_of_buildRule g meeting r hr).matcher⟩

/-- A map that has been read makes its rules in order, one for each meeting of
    an identifier with a template. Without fragments it always does. With
    fragments the first pattern that cannot be read is reported, as a value of
    the configuration that cannot be used, and nothing else ever is. -/
theorem RenameMap.rules_of_parse (document origin : String) (m : RenameMap)
    (h : RenameMap.parse document origin = .ok m) (expression : String) :
    (m.globals.patternBefore = none → m.globals.patternAfter = none →
      ∃ rules, m.rules expression = .ok rules) ∧
    (∀ rules, m.rules expression = .ok rules →
      List.Forall₂ (Rule.MadeOf m.globals) (m.meetings expression) rules) ∧
    (∀ cause, m.rules expression = .error cause ↔
      ∃ before meeting after fault, m.meetings expression = before ++ meeting :: after ∧
        (∀ earlier ∈ before, ∃ e, m.globals.readMeeting earlier = .ok e) ∧
        m.globals.readMeeting meeting = .error fault ∧
        cause = .invalidValue "globalConfig"
          (some (String.ofList (m.globals.meetingPattern meeting)))
          ("template '" ++ meeting.2.name ++ "' does not compile: " ++ fault.message) none) ∧
    (∀ cause, m.rules expression = .error cause → cause.code = "config.invalid_value") := by
  have hvalid := ((RenameMap.parse_eq_ok_iff document origin m).mp h).2
  have herror := m.rules_eq_error_iff hvalid expression
  refine ⟨?_, ?_, herror, ?_⟩
  · intro hbefore hafter
    cases hrules : m.rules expression with
    | ok rules => exact ⟨rules, rfl⟩
    | error cause =>
        -- The error would name a pattern that cannot be read, and there is none.
        rcases (herror cause).mp hrules with ⟨_, meeting, _, fault, -, -, hfault, -⟩
        rcases m.globals.exists_readMeeting hbefore hafter meeting with ⟨e, he⟩
        rw [he] at hfault
        cases hfault
  · intro rules hrules
    rw [m.rules_eq_mapM hvalid] at hrules
    exact (forall₂_of_mapM_eq_ok _ _ rules hrules).imp
      fun meeting r hr => madeOf_of_buildRule m.globals meeting r hr
  · intro cause hcause
    rcases (herror cause).mp hcause with ⟨_, _, _, _, -, -, -, rfl⟩
    rfl

/-- A document with a scope of its own for the object and a case mode of its own
    for the field. -/
def scopedDocument : String :=
  "[[[\"A.c\",\"Alpha\",null,false,\x7b\"cls\":[\"Test%\"]\x7d,null,[[\"F$\",\"Field\",true]]]]]"

/-- The map behind that document. -/
def scopedMap : RenameMap :=
  { objects := [
      { previousObject := "A.c"
        newObject := "Alpha"
        exclude := some { byExtension := [("cls", ["Test%"])] }
        fields := [{ previousField := "F$", newField := "Field", caseSensitive := true }] }] }

/-- A document with a backslash in front of every pattern. It goes together with
    a quote, and opens a group in front of a parenthesis. -/
def backslashDocument : String :=
  "[[[\"A.c\",\"Alpha\"]],null,null,[\"\\\\\"]]"

/-- The map behind that document. -/
def backslashMap : RenameMap :=
  { objects := [{ previousObject := "A.c", newObject := "Alpha" }]
    globals := { patternBefore := some "\\" } }

theorem RenameMap.rules_of_parse_scoped :
    RenameMap.parse scopedDocument "map.json" = .ok scopedMap ∧
    (∃ rules, scopedMap.rules "classes" = .ok rules ∧
      rules.map (fun r => (r.category, r.template, r.oldId, r.newId, r.caseSensitive,
          r.scope.exclude, r.scope.include_)) =
        objectCatalog.map (fun t => (RuleCategory.object, t.name, "A.c", "Alpha", false,
          some { byExtension := [("cls", ["Test%"])] }, none)) ++
        fieldCatalog.map fun t => (RuleCategory.field, t.name, "F$", "Field", true, none, none)) ∧
    RenameMap.parse backslashDocument "map.json" = .ok backslashMap ∧
    ∃ cause, backslashMap.rules "classes" = .error cause ∧ cause.code = "config.invalid_value" := by
  have hscoped : RenameMap.parse scopedDocument "map.json" = .ok scopedMap := by decide +kernel
  have hbackslash : RenameMap.parse backslashDocument "map.json" = .ok backslashMap := by
    decide +kernel
  rcases RenameMap.rules_of_parse scopedDocument "map.json" scopedMap hscoped "classes" with
    ⟨hexists, hmade, -⟩
  rcases RenameMap.rules_of_parse backslashDocument "map.json" backslashMap hbackslash "classes"
    with ⟨-, -, hfirst, hcode⟩
  rcases hexists rfl rfl with ⟨rules, hrules⟩
  refine ⟨hscoped, ⟨rules, hrules, ?_⟩, hbackslash, ?_⟩
  · -- What a rule has is what its meeting says, and the meetings are known.
    have hvalues : (scopedMap.meetings "classes").map (fun meeting => (meeting.1.category,
          meeting.2.name, meeting.1.oldId, meeting.1.newId, meeting.1.caseSensitive,
          meeting.1.scope.exclude, meeting.1.scope.include_)) =
        rules.map fun r => (r.category, r.template, r.oldId, r.newId, r.caseSensitive,
          r.scope.exclude, r.scope.include_) := by
      rw [← List.forall₂_eq_eq_eq, List.forall₂_map_left_iff, List.forall₂_map_right_iff]
      refine (hmade rules hrules).imp fun meeting r h => ?_
      rw [h.category, h.template, h.oldId, h.newId, h.caseSensitive, h.exclude, h.include_]
    rw [← hvalues]
    rfl
  -- The seventh template for objects is the first with a parenthesis.
  have hsplit : backslashMap.meetings "classes" = (backslashMap.meetings "classes").take 6 ++
      (⟨.object, "A.c", "Alpha", false, {}⟩,
        { name := "parenthesis", before := "(", after := ")" }) ::
      (backslashMap.meetings "classes").drop 7 := by
    decide +kernel
  have hbefore : ∀ earlier ∈ (backslashMap.meetings "classes").take 6,
      ∃ e, backslashMap.globals.readMeeting earlier = .ok e := by
    have hall : ∀ earlier ∈ (backslashMap.meetings "classes").take 6,
        (backslashMap.globals.readMeeting earlier).toOption.isSome := by
      decide +kernel
    intro earlier hearlier
    cases hread : backslashMap.globals.readMeeting earlier with
    | ok e => exact ⟨e, rfl⟩
    | error fault =>
        have hsome := hall earlier hearlier
        rw [hread] at hsome
        cases hsome
  have hnone : (backslashMap.globals.readMeeting (⟨.object, "A.c", "Alpha", false, {}⟩,
      { name := "parenthesis", before := "(", after := ")" })).toOption = none := by
    decide +kernel
  cases hread : backslashMap.globals.readMeeting (⟨.object, "A.c", "Alpha", false, {}⟩,
      { name := "parenthesis", before := "(", after := ")" }) with
  | ok e =>
      rw [hread] at hnone
      cases hnone
  | error fault =>
      have hrules := (hfirst _).mpr ⟨_, _, _, fault, hsplit, hbefore, hread, rfl⟩
      exact ⟨_, hrules, hcode _ hrules⟩

end SchemaRename
