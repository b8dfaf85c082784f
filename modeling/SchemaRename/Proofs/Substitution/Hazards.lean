import SchemaRename.Proofs.Rule.Blocks
import SchemaRename.Proofs.Rule.Bounds
import SchemaRename.Proofs.Substitution.TwoPasses

/-!
# What the Hazard Reports Rule Out

When one pass is enough.

Two reports look for what makes a second pass change a text again: templates
whose right boundary can double as their left one, and rules whose replacement
another rule matches. Both look at boundaries and replacements by themselves.
In a text a replacement has neighbours, and a match can be made of both. Where
names and boundaries have no characters in common this cannot happen, since a
match is then about one whole name. The reports are complete for such
templates, with one exception: a boundary that is longer than the one a name
was written with can hold around it too. Where this is ruled out as well, a
text without reported hazards is settled by one pass.

In general the reports miss something. A template without a right boundary
finds `Legacy__c` in `Legacy__c__c`, and what it leaves is `Legacy__c` again.

## Main definitions

* `TemplateSet.Delimits`: Templates that set the names of a map apart.

## Theorems

* `rel_apply_bounded`: What every replacement of a rule does, the rule does.
* `isMatch_apply_bounded`: A rule makes no other rule match.
* `not_isMatch_apply_self`: A rule leaves nothing of its own.
* `bounded_of_delimits`: The rules of templates that set names apart.
* `substituteText_settled`: Without reported hazards one pass is enough.
* `substituteText_unreported`: In general it is not.
-/

namespace SchemaRename

open SchemaRename.Pattern SchemaRename.Text

section Rules

variable {isBound : Char → Prop} (hcase : Caseless isBound) (r : Rule) (b : Bounds)
  (h : r.Bounded isBound b)
include h

theorem apply_eq_replace_bounded (line : List Char) :
    r.apply line = (Needle.mk (b.text r.oldId.toList) (!r.caseSensitive) b.after.isEmpty).replace
      r.replacement.toList line := by
  have hne : (Needle.mk (b.text r.oldId.toList) (!r.caseSensitive) b.after.isEmpty).chars ≠ [] :=
    List.append_ne_nil_of_left_ne_nil h.before_ne_nil _
  rw [Rule.apply, spans_of_finds r.matcher _ hne h.finds, Needle.replaceSpans_spans _ _ _ hne]

include hcase

/-- What relates a line before a name is replaced to the line after it relates
    a line before the rule to the line after it. -/
theorem rel_apply_bounded (rel : List Char → List Char → Prop) (hrefl : ∀ line, rel line line)
    (htrans : ∀ line line' line'', rel line line' → rel line' line'' → rel line line'')
    (hhit : ∀ x o y, Spells (!r.caseSensitive) r.oldId.toList o → b.Fits x y →
      rel (x ++ (o ++ y)) (x ++ (r.newId.toList ++ y))) (line : List Char) :
    rel line (r.apply line) := by
  rw [apply_eq_replace_bounded r b h]
  refine Needle.rel_replace _ _ (List.append_ne_nil_of_left_ne_nil h.before_ne_nil _) rel hrefl
    htrans ?_ line
  intro u m v hm hend
  rcases (spells_text_iff hcase r b h m).mp hm with ⟨o, rfl, ho⟩
  have hfits : b.Fits (u ++ b.before) (b.after ++ v) := by
    refine ⟨List.suffix_append _ _, List.prefix_append _ _, fun hnil => ?_⟩
    rw [hnil, hend (by rw [hnil]; rfl), List.append_nil]
  have hrel := hhit _ o _ ho hfits
  rw [h.replaces]
  simp only [Bounds.text, List.append_assoc] at hrel ⊢
  exact hrel

/-- A rule makes no other rule match, unless that one matches what it writes. -/
theorem isMatch_apply_bounded (q : Rule) (b' : Bounds) (hq : q.Bounded isBound b')
    (hwithin : Spells (!q.caseSensitive) q.oldId.toList r.newId.toList → b.Meets b' →
      b'.Fits b.before b.after)
    (hconflict : q.isMatch r.replacement.toList = false) (line : List Char)
    (hline : q.isMatch line = false) : q.isMatch (r.apply line) = false := by
  refine rel_apply_bounded hcase r b h
    (fun line line' => q.isMatch line = false → q.isMatch line' = false) (fun _ hno => hno)
    (fun _ _ _ h₁ h₂ hno => h₂ (h₁ hno)) ?_ line hline
  intro x o y ho hfits hbefore
  rw [← Bool.not_eq_true] at hbefore hconflict ⊢
  intro hmatch
  rcases isMatch_of_replaced hcase q b' hq x o r.newId.toList y h.new
    (hfits.opens h.before_ne_nil h.before) (hfits.closes h.after) hmatch with
    ⟨hold, hfits'⟩ | hmatch
  · -- The new name is looked for, between bounds that the replacement has too.
    refine hconflict ((isMatch_iff hcase q b' hq _).mpr
      ⟨b.before, r.newId.toList, b.after, h.replaces, hold, ?_⟩)
    exact hwithin hold ⟨x, y, hfits, hfits'⟩
  · exact hbefore hmatch

/-- Every match of a rule in a line starts behind the part that a search has
    already written. -/
def Ahead (r : Rule) (b : Bounds) (done todo : List Char) : Prop :=
  ∀ x o y, done ++ todo = x ++ (o ++ y) → Spells (!r.caseSensitive) r.oldId.toList o →
    b.Fits x y → done.length + b.before.length ≤ x.length

omit hcase h in
theorem ahead_start (line : List Char) : Ahead r b [] line := by
  intro x o y _ _ hfits
  have := hfits.before.length_le
  rw [List.length_nil]
  omega

/-- A match that the search has come to would have been found. -/
theorem ahead_keep (done : List Char) (c : Char) (todo : List Char)
    (hmiss : (Needle.mk (b.text r.oldId.toList) (!r.caseSensitive) b.after.isEmpty).occursAt
      (c :: todo) = false)
    (hahead : Ahead r b done (c :: todo)) : Ahead r b (done ++ [c]) todo := by
  intro x o y hline ho hfits
  rw [List.append_assoc, List.singleton_append] at hline
  have hle := hahead x o y hline ho hfits
  rw [List.length_append, List.length_singleton]
  by_cases heq : done.length + b.before.length = x.length
  · exfalso
    rcases hfits.before with ⟨u, hu⟩
    rcases hfits.after with ⟨v, hv⟩
    rw [← hu, ← hv, List.append_assoc] at hline
    have hlen : done.length = u.length := by
      rw [← hu, List.length_append] at heq
      omega
    have htodo := List.append_inj_right hline hlen
    have hocc : (Needle.mk (b.text r.oldId.toList) (!r.caseSensitive) b.after.isEmpty).occursAt
        (c :: todo) = true := by
      rw [Needle.occursAt_iff]
      refine ⟨b.text o, v, ?_, (spells_text_iff hcase r b h _).mpr ⟨o, rfl, ho⟩, ?_⟩
      · rw [htodo]
        simp only [Bounds.text, List.append_assoc]
      · intro hend
        have hnil : b.after = [] := List.isEmpty_iff.mp hend
        have hy := hfits.atEnd hnil
        rw [← hv, hnil, List.nil_append] at hy
        exact hy
    rw [hmiss] at hocc
    cases hocc
  · omega

/-- Behind a replacement the next match starts outside of it: it is not about
    the new name, and boundaries that share no characters do not share any
    here. -/
theorem ahead_hit (hoverlap : boundaryOverlaps b.after b.before = false)
    (hconflict : r.isMatch r.replacement.toList = false) (done m todo : List Char)
    (hm : Spells (!r.caseSensitive) (b.text r.oldId.toList) m)
    (hend : b.after.isEmpty = true → todo = []) (hahead : Ahead r b done (m ++ todo)) :
    Ahead r b (done ++ r.replacement.toList) todo := by
  rcases (spells_text_iff hcase r b h m).mp hm with ⟨o, rfl, ho⟩
  have hfits : b.Fits (done ++ b.before) (b.after ++ todo) := by
    refine ⟨List.suffix_append _ _, List.prefix_append _ _, fun hnil => ?_⟩
    rw [hnil, hend (by rw [hnil]; rfl), List.append_nil]
  intro x o' y hline ho' hfits'
  have hopens := hfits.opens h.before_ne_nil h.before
  have hcloses := hfits.closes h.after
  have hoName' := isName_of_spells hcase _ _ o' h.old ho'
  have hsplit : (done ++ b.before) ++ (r.newId.toList ++ (b.after ++ todo)) = x ++ (o' ++ y) := by
    rw [← hline, h.replaces]
    simp only [Bounds.text, List.append_assoc]
  rcases run_cases _ _ _ x o' y h.new hoName' hopens
    (hfits'.opens h.before_ne_nil h.before) hcloses (hfits'.closes h.after) hsplit with
    ⟨rfl, rfl, rfl⟩ | ⟨w, rfl, hw⟩ | ⟨w, hw, rfl⟩
  · -- The new name is the old one, and the replacement would match by itself.
    exfalso
    rw [← Bool.not_eq_true] at hconflict
    exact hconflict ((isMatch_iff hcase r b h _).mpr ⟨b.before, r.newId.toList, b.after, h.replaces,
      ho', List.suffix_refl _, List.prefix_refl _, fun hnil => hnil⟩)
  · -- The next name is behind the bound, and its own bound is between the two.
    rcases suffix_of_name b.before _ _ w h.before h.new hfits'.before with ⟨z, rfl⟩
    have hlen : b.after.length ≤ z.length := by
      by_contra hlt
      rw [List.append_assoc] at hw
      rcases List.append_eq_append_iff.mp hw with ⟨v, hz, -⟩ | ⟨v, hafter, hrest⟩
      · rw [hz, List.length_append] at hlt
        omega
      · -- What is left of the one bound starts the other.
        have hne : v ≠ [] := by
          rintro rfl
          rw [hafter, List.append_nil] at hlt
          omega
        have hv : ∀ c ∈ v, isBound c := fun c hc =>
          h.after c (by rw [hafter]; exact List.mem_append_right z hc)
        have hprefix := prefix_of_name v b.before o' y hv hoName' ⟨todo, hrest.symm⟩
        rw [(boundaryOverlaps_iff _ _).mpr ⟨z, v, hafter, hne, hprefix⟩] at hoverlap
        cases hoverlap
    rw [h.replaces]
    simp only [Bounds.text, List.length_append]
    omega
  · -- A name in front has been passed over, bounds and all.
    have hold := hahead x o' (w ++ (o ++ (b.after ++ todo)))
      (by
        rw [Bounds.text, List.append_assoc, ← List.append_assoc done, hw]
        simp only [List.append_assoc])
      ho' (hfits'.of_name_behind h.after h.new o)
    have hpos := List.length_pos_of_ne_nil hoName'.ne_nil
    have hlen := congrArg List.length hw
    simp only [List.length_append] at hlen
    omega

/-- A rule that does not match its own replacement, and whose boundaries share
    no characters, leaves nothing of its own. -/
theorem not_isMatch_apply_self (hoverlap : boundaryOverlaps b.after b.before = false)
    (hconflict : r.isMatch r.replacement.toList = false) (line : List Char) :
    r.isMatch (r.apply line) = false := by
  have hahead := Needle.replace_invariant
    (Needle.mk (b.text r.oldId.toList) (!r.caseSensitive) b.after.isEmpty) r.replacement.toList
    (List.append_ne_nil_of_left_ne_nil h.before_ne_nil _) (Ahead r b)
    (fun done c todo hmiss hinv => ahead_keep hcase r b h done c todo hmiss hinv)
    (fun done m todo hm hend hinv =>
      ahead_hit hcase r b h hoverlap hconflict done m todo hm hend hinv)
    line [] (ahead_start r b line)
  rw [List.nil_append, ← apply_eq_replace_bounded r b h] at hahead
  rw [← Bool.not_eq_true]
  intro hmatch
  rcases (isMatch_iff hcase r b h _).mp hmatch with ⟨x, o, y, hline, ho, hfits⟩
  -- At the end of the search no match is left ahead of it.
  have hle := hahead x o y (by rw [List.append_nil]; exact hline) ho hfits
  have hpos := List.length_pos_of_ne_nil h.before_ne_nil
  have hlen := congrArg List.length hline
  simp only [List.length_append] at hlen
  omega

end Rules

section Reports

/-- Without conflicts no rule matches what a rule writes. -/
theorem not_isMatch_of_conflicts (rules : List Rule) (h : replacementConflicts rules = [])
    (r : Rule) (hr : r ∈ rules) (q : Rule) (hq : q ∈ rules) :
    q.isMatch r.replacement.toList = false := by
  rw [← Bool.not_eq_true]
  intro hmatch
  rcases List.mem_iff_getElem?.mp hr with ⟨producer, hproducer⟩
  rcases List.mem_iff_getElem?.mp hq with ⟨consumer, hconsumer⟩
  have hmem : (⟨producer, consumer⟩ : RuleConflict) ∈ replacementConflicts rules := by
    unfold replacementConflicts
    refine List.mem_flatMap.mpr ⟨(r, producer), List.mk_mem_zipIdx_iff_getElem?.mpr hproducer,
      List.mem_filterMap.mpr ⟨(q, consumer), List.mk_mem_zipIdx_iff_getElem?.mpr hconsumer, ?_⟩⟩
    simp only [hmatch, if_true]
  rw [h] at hmem
  exact absurd hmem List.not_mem_nil

/-- A template that is not reported has boundaries that share no characters. -/
theorem not_boundaryOverlaps_of_unreported (templates : List Template)
    (h : overlappingTemplates templates = []) (t : Template) (ht : t ∈ templates) :
    boundaryOverlaps t.bounds.after t.bounds.before = false := by
  unfold Template.bounds
  cases hend : t.isEndOfLine with
  | true => rfl
  | false =>
      rw [overlappingTemplates, List.filter_eq_nil_iff] at h
      have hnot := h t ht
      rw [hend, Bool.not_false, Bool.true_and, Bool.not_eq_true] at hnot
      exact hnot

end Reports

/-- All templates of a set. -/
def TemplateSet.all (templates : TemplateSet) : List Template :=
  templates.objects ++ templates.fields

/-- Whether a character belongs to a boundary of some template. -/
def TemplateSet.IsBound (templates : TemplateSet) (c : Char) : Prop :=
  ∃ t ∈ templates.all, c ∈ t.bounds.before ++ t.bounds.after

/-- Templates that set the names of a map apart: both boundaries are there and
    nothing is put around them, they have no letter case and no characters in
    common with the names, no name brings in a line feed, and where one name is
    made into another that is looked for, the boundaries looked for are no
    longer than those that are written. -/
structure TemplateSet.Delimits (templates : TemplateSet) (sources : List RuleSource) :
    Prop where
  bounded : ∀ t ∈ templates.all, t.before ≠ "" ∧ t.after ≠ ""
  bare : ∀ t ∈ templates.all,
    t.replacementPrefix.getD "" = "" ∧ t.replacementSuffix.getD "" = ""
  caseless : Caseless templates.IsBound
  apart : ∀ s ∈ sources, ∀ c, templates.IsBound c → c ∉ s.oldId.toList ∧ c ∉ s.newId.toList
  oneLine : ∀ s ∈ sources, '\n' ∉ s.newId.toList
  within : ∀ s ∈ sources, ∀ t ∈ templates.forCategory s.category,
    ∀ s' ∈ sources, ∀ t' ∈ templates.forCategory s'.category,
      Spells (!s'.caseSensitive) s'.oldId.toList s.newId.toList → t.bounds.Meets t'.bounds →
        t'.bounds.Fits t.bounds.before t.bounds.after

theorem TemplateSet.mem_all_of_mem_forCategory (templates : TemplateSet)
    (category : RuleCategory) (t : Template) (h : t ∈ templates.forCategory category) :
    t ∈ templates.all := by
  cases category with
  | object => exact List.mem_append_left _ h
  | field => exact List.mem_append_right _ h

section Names

theorem ne_nil_of_requireText (key value : String) (h : requireText key value = .ok ()) :
    value.toList ≠ [] := by
  intro hnil
  rw [requireText, hnil] at h
  cases h

theorem ne_nil_of_checkFields (index : Nat) (fields : List FieldRename) : ∀ (k : Nat),
    checkFields index k fields = .ok () →
      ∀ f ∈ fields, f.previousField.toList ≠ [] ∧ f.newField.toList ≠ [] := by
  induction fields with
  | nil => intro _ _ f hf; exact absurd hf List.not_mem_nil
  | cons field fields ih =>
      intro k h f hf
      rw [checkFields] at h
      cases hold : requireText (fieldKey index k ++ ".previousField") field.previousField with
      | error cause =>
          rw [hold] at h
          cases h
      | ok _ =>
          cases hnew : requireText (fieldKey index k ++ ".newField") field.newField with
          | error cause =>
              rw [hold, hnew] at h
              cases h
          | ok _ =>
              rw [hold, hnew] at h
              rcases List.mem_cons.mp hf with rfl | hf
              · exact ⟨ne_nil_of_requireText _ _ hold, ne_nil_of_requireText _ _ hnew⟩
              · exact ih (k + 1) h f hf

theorem ne_nil_of_check (object : ObjectRename) (index : Nat)
    (h : object.check index = .ok ()) :
    ∀ s ∈ object.sources, s.oldId.toList ≠ [] ∧ s.newId.toList ≠ [] := by
  rw [ObjectRename.check] at h
  cases hold : requireText (objectKey index ++ ".previousObject") object.previousObject with
  | error cause =>
      rw [hold] at h
      cases h
  | ok _ =>
      cases hnew : requireText (objectKey index ++ ".newObject") object.newObject with
      | error cause =>
          rw [hold, hnew] at h
          cases h
      | ok _ =>
          rw [hold, hnew] at h
          intro s hs
          rcases List.mem_cons.mp hs with rfl | hs
          · exact ⟨ne_nil_of_requireText _ _ hold, ne_nil_of_requireText _ _ hnew⟩
          · rcases List.mem_map.mp hs with ⟨f, hf, rfl⟩
            exact ne_nil_of_checkFields index object.fields 0 h f hf

/-- The names of a map that passes its check are there. -/
theorem ne_nil_of_checkObjects (objects : List ObjectRename) : ∀ (index : Nat),
    checkObjects index objects = .ok () →
      ∀ s ∈ objects.flatMap (·.sources), s.oldId.toList ≠ [] ∧ s.newId.toList ≠ [] := by
  induction objects with
  | nil => intro _ _ s hs; exact absurd hs List.not_mem_nil
  | cons object objects ih =>
      intro index h s hs
      rw [checkObjects] at h
      cases hcheck : object.check index with
      | error cause =>
          rw [hcheck] at h
          cases h
      | ok _ =>
          rw [hcheck] at h
          rw [List.flatMap_cons, List.mem_append] at hs
          rcases hs with hs | hs
          · exact ne_nil_of_check object index hcheck s hs
          · exact ih (index + 1) h s hs

end Names

/-- The rule of a name and a template that sets it apart is known by the
    template's bounds. -/
theorem bounded_of_delimits (g : Globals) (hbefore : g.patternBefore = none)
    (hafter : g.patternAfter = none) (templates : TemplateSet) (sources : List RuleSource)
    (h : templates.Delimits sources) (s : RuleSource) (hs : s ∈ sources)
    (hne : s.oldId.toList ≠ [] ∧ s.newId.toList ≠ []) (t : Template) (ht : t ∈ templates.all)
    (r : Rule) (hr : buildRule g s t = .ok r) :
    r.oldId = s.oldId ∧ r.newId = s.newId ∧ r.caseSensitive = s.caseSensitive ∧
      r.Bounded templates.IsBound t.bounds := by
  rcases exists_buildRule g s t hbefore hafter with ⟨q, hq, hold, hnew, hcase, hrepl, hfinds⟩
  obtain rfl : q = r := Except.ok.inj (hq.symm.trans hr)
  refine ⟨hold, hnew, hcase, ?_⟩
  have hends : t.isEndOfLine = t.bounds.after.isEmpty := by
    unfold Template.bounds
    cases hend : t.isEndOfLine with
    | true => rfl
    | false =>
        have htext : t.after.toList ≠ [] := fun hnil =>
          (h.bounded t ht).2 (String.toList_inj.mp hnil)
        rw [if_neg Bool.false_ne_true]
        exact (Bool.eq_false_iff.mpr fun hempty => htext (List.isEmpty_iff.mp hempty)).symm
  have hbounds : ∀ c, c ∈ t.bounds.before ++ t.bounds.after → templates.IsBound c :=
    fun c hc => ⟨t, ht, hc⟩
  refine ⟨?_, ?_, ?_, ?_, ?_, ?_, ?_⟩
  · rw [hcase, hold, ← hends, ← Template.needle_eq_bounds]
    exact hfinds
  · rw [hrepl, hnew]
    exact t.toList_replacement s.newId (h.bare t ht).1 (h.bare t ht).2
  · intro hnil
    exact (h.bounded t ht).1 (String.toList_inj.mp hnil)
  · exact fun c hc => hbounds c (List.mem_append_left _ hc)
  · exact fun c hc => hbounds c (List.mem_append_right _ hc)
  · rw [hold]
    exact ⟨hne.1, fun c hc hbound => (h.apart s hs c hbound).1 hc⟩
  · rw [hnew]
    exact ⟨hne.2, fun c hc hbound => (h.apart s hs c hbound).2 hc⟩

/-- Rules that settle a text in one pass: each is known by its bounds, matches
    nothing that it has just made, and makes no other rule match. -/
structure Settling (rules : List Rule) : Prop where
  finds : ∀ r ∈ rules, ∃ n : Needle, n.chars ≠ [] ∧ Finds r.matcher n
  own : ∀ r ∈ rules, ∀ line, r.isMatch (r.apply line) = false
  other : ∀ r ∈ rules, ∀ q ∈ rules, ∀ line, q.isMatch line = false →
    q.isMatch (r.apply line) = false
  oneLine : ∀ r ∈ rules, ∀ line, '\n' ∉ line → '\n' ∉ r.apply line

theorem settling_of_delimits (g : Globals) (hbefore : g.patternBefore = none)
    (hafter : g.patternAfter = none) (templates : TemplateSet) (sources : List RuleSource)
    (h : templates.Delimits sources)
    (hne : ∀ s ∈ sources, s.oldId.toList ≠ [] ∧ s.newId.toList ≠ [])
    (hobjects : overlappingTemplates templates.objects = [])
    (hfields : overlappingTemplates templates.fields = [])
    (hconflicts : replacementConflicts (sources.flatMap (·.block g templates)) = []) :
    Settling (sources.flatMap (·.block g templates)) := by
  have hquiet := not_isMatch_of_conflicts _ hconflicts
  -- Every rule comes from a name and a template, and is known by its bounds.
  have horigin : ∀ r ∈ sources.flatMap (·.block g templates), ∃ s ∈ sources,
      ∃ t ∈ templates.forCategory s.category, r.oldId = s.oldId ∧ r.newId = s.newId ∧
        r.caseSensitive = s.caseSensitive ∧ r.Bounded templates.IsBound t.bounds := by
    intro r hr
    rcases List.mem_flatMap.mp hr with ⟨s, hs, hr⟩
    rcases (mem_block_iff g templates s r).mp hr with ⟨t, ht, hbuild⟩
    exact ⟨s, hs, t, ht, bounded_of_delimits g hbefore hafter templates sources h s hs (hne s hs) t
      (templates.mem_all_of_mem_forCategory _ t ht) r hbuild⟩
  refine ⟨?_, ?_, ?_, ?_⟩
  · intro r hr
    rcases horigin r hr with ⟨s, -, t, -, -, -, -, hr⟩
    exact ⟨_, List.append_ne_nil_of_left_ne_nil hr.before_ne_nil _, hr.finds⟩
  · intro r hmem line
    rcases horigin r hmem with ⟨s, -, t, ht, -, -, -, hr⟩
    refine not_isMatch_apply_self h.caseless r t.bounds hr ?_ (hquiet r hmem r hmem) line
    cases hcategory : s.category with
    | object =>
        rw [hcategory] at ht
        exact not_boundaryOverlaps_of_unreported templates.objects hobjects t ht
    | field =>
        rw [hcategory] at ht
        exact not_boundaryOverlaps_of_unreported templates.fields hfields t ht
  · intro r hmem q hmem' line
    rcases horigin r hmem with ⟨s, hs, t, ht, -, hnew, -, hr⟩
    rcases horigin q hmem' with ⟨s', hs', t', ht', hold, -, hcase, hq⟩
    refine isMatch_apply_bounded h.caseless r t.bounds hr q t'.bounds hq ?_
      (hquiet r hmem q hmem') line
    rw [hnew, hold, hcase]
    exact h.within s hs t ht s' hs' t' ht'
  · intro r hmem line hline
    rcases horigin r hmem with ⟨s, hs, t, ht, -, hnew, -, hr⟩
    refine rel_apply_bounded h.caseless r t.bounds hr
      (fun line line' => '\n' ∉ line → '\n' ∉ line') (fun _ hno => hno)
      (fun _ _ _ h₁ h₂ hno => h₂ (h₁ hno)) ?_ line hline
    intro x o y _ _ hno
    simp only [List.mem_append, not_or] at hno ⊢
    rw [hnew]
    exact ⟨hno.1, h.oneLine s hs, hno.2.2⟩

section Pass

variable (rules : List Rule) (h : Settling rules)
include h

theorem notMem_foldl_step (rest : List Rule) : ∀ s : Substituted, (∀ r ∈ rest, r ∈ rules) →
    '\n' ∉ s.content → '\n' ∉ (rest.foldl Substituted.step s).content := by
  induction rest with
  | nil => intro s _ hs; exact hs
  | cons r rest ih =>
      intro s hsub hs
      refine ih (s.step r) (fun q hq => hsub q (List.mem_cons_of_mem r hq)) ?_
      rw [step_content]
      exact h.oneLine r (hsub r List.mem_cons_self) s.content hs

/-- A pass over a line leaves a comment, or a line that no rule matches. -/
theorem substituteLine_settled (line : List Char) :
    substituteLine rules (substituteLine rules line).content =
      ⟨(substituteLine rules line).content, 0⟩ := by
  by_cases hcomment : isComment (substituteLine rules line).content = true
  · conv_lhs => rw [substituteLine]
    rw [if_pos hcomment]
  · conv_lhs => rw [substituteLine]
    rw [if_neg hcomment]
    refine foldl_step_of_not_isMatch rules _ h.finds ?_
    intro q hq
    have hline : isComment line = false := by
      rw [← Bool.not_eq_true]
      intro hline
      rw [substituteLine, if_pos hline] at hcomment
      exact hcomment hline
    simp only [substituteLine, hline, Bool.false_eq_true, if_false]
    exact foldl_step_establishes rules (fun _ _ => True) (fun r line => r.isMatch line = false)
      (fun _ _ _ _ _ _ => trivial) h.other (fun r hr line _ => h.own r hr line) rules ⟨line, 0⟩
      (fun _ hr => hr) (fun _ _ => trivial) q hq (Or.inl hq)

end Pass

/-- A text whose lines are all left as they are is left as it is. -/
theorem substituteText_eq_self (rules : List Rule) (text : List Char)
    (h : ∀ line ∈ text.splitOn '\n', substituteLine rules line = ⟨line, 0⟩) :
    substituteText rules text = ⟨text, 0⟩ := by
  have hcount : ∀ lines : List (List Char),
      (∀ line ∈ lines, substituteLine rules line = ⟨line, 0⟩) →
      (lines.map (substituteLine rules)).map (·.content) = lines ∧
        ((lines.map (substituteLine rules)).map (·.replacements)).foldr (· + ·) 0 = 0 := by
    intro lines
    induction lines with
    | nil => intro _; exact ⟨rfl, rfl⟩
    | cons line lines ih =>
        intro hall
        rcases ih (fun l hl => hall l (List.mem_cons_of_mem line hl)) with ⟨hcontent, hsum⟩
        simp only [List.map_cons, hall line List.mem_cons_self, hcontent, List.foldr_cons, hsum,
          Nat.add_zero, and_self]
  rcases hcount _ h with ⟨hcontent, hsum⟩
  rw [substituteText, hcontent, hsum, List.intercalate_splitOn]

/-- Where the templates set the names of a map apart, the reports find every
    hazard: if they find none, one pass settles every text, and the next one
    makes no replacement. -/
theorem substituteText_settled (objects : List ObjectRename) (templates : TemplateSet)
    (g : Globals) (hbefore : g.patternBefore = none) (hafter : g.patternAfter = none)
    (hcheck : checkObjects 0 objects = .ok ())
    (hdelimits : templates.Delimits (objects.flatMap (·.sources))) :
    ∃ rules, compileRules objects templates g = .ok rules ∧
      (overlappingTemplates templates.objects = [] → overlappingTemplates templates.fields = [] →
        replacementConflicts rules = [] → ∀ text : List Char,
          substituteText rules (substituteText rules text).content =
            ⟨(substituteText rules text).content, 0⟩) := by
  refine ⟨_, compileRules_eq g hbefore hafter templates objects hcheck, ?_⟩
  intro hobjects hfields hconflicts text
  have h := settling_of_delimits g hbefore hafter templates _ hdelimits
    (ne_nil_of_checkObjects objects 0 hcheck) hobjects hfields hconflicts
  refine substituteText_eq_self _ _ ?_
  intro line' hline'
  rw [splitOn_substituteText_of_keeps] at hline'
  · rcases List.mem_map.mp hline' with ⟨line, -, rfl⟩
    exact substituteLine_settled _ h line
  · intro line hline
    rw [substituteLine]
    split
    · exact hline
    · exact notMem_foldl_step _ h _ ⟨line, 0⟩ (fun _ hr => hr) hline

/-- Templates with different characters next to the name. -/
def bracketTemplates : TemplateSet :=
  ⟨[{ name := "parenthesis", before := "(", after := ")" }],
    [{ name := "tag", before := "<", after := "</" }]⟩

/-- A map in which the new name of an object is the old name of a field. -/
def bracketRenames : List ObjectRename :=
  [{ previousObject := "Invoice"
     newObject := "Amount"
     fields := [{ previousField := "Amount", newField := "Total" }] }]

theorem delimits_bracketTemplates :
    bracketTemplates.Delimits (bracketRenames.flatMap (·.sources)) := by
  have hbounds : ∀ t ∈ bracketTemplates.all, (t.bounds.before ++ t.bounds.after).all
      (fun c => c.toNat < 0x80 && !isPlainChar c) = true := by
    decide
  have hapart : ∀ s ∈ bracketRenames.flatMap (·.sources), ∀ t ∈ bracketTemplates.all,
      (t.bounds.before ++ t.bounds.after).all
        (fun c => c ∉ s.oldId.toList && c ∉ s.newId.toList) = true := by
    decide
  -- Templates that are not the same end their left boundaries with different characters.
  have hlast : ∀ t ∈ bracketTemplates.all, ∀ t' ∈ bracketTemplates.all,
      t = t' ∨ t.bounds.before.getLast? ≠ t'.bounds.before.getLast? := by
    decide
  have hnil : ∀ t ∈ bracketTemplates.all, t.bounds.before ≠ [] := by
    decide
  refine ⟨by decide, by decide, ?_, ?_, by decide, ?_⟩
  · rintro c ⟨t, ht, hc⟩ d hd
    have hc := List.all_eq_true.mp (hbounds t ht) c hc
    simp only [Bool.and_eq_true, decide_eq_true_eq, Bool.not_eq_true'] at hc
    exact eq_of_sameFolded_separator c d hc.1 hc.2 hd
  · rintro s hs c ⟨t, ht, hc⟩
    simpa only [Bool.and_eq_true, decide_eq_true_eq] using
      List.all_eq_true.mp (hapart s hs t ht) c hc
  · rintro s - t ht s' - t' ht' - ⟨x, y, hfits, hfits'⟩
    have hmem := bracketTemplates.mem_all_of_mem_forCategory _ t ht
    have hmem' := bracketTemplates.mem_all_of_mem_forCategory _ t' ht'
    rcases hlast t hmem t' hmem' with rfl | hne
    · exact ⟨List.suffix_refl _, List.prefix_refl _, fun hnil => hnil⟩
    · exfalso
      have hx : ∀ t ∈ bracketTemplates.all, t.bounds.Fits x y →
          x.getLast? = t.bounds.before.getLast? := by
        intro t ht hfits
        rcases hfits.before with ⟨u, rfl⟩
        rw [List.getLast?_append_of_ne_nil _ (hnil t ht)]
      exact hne ((hx t hmem hfits).symm.trans (hx t' hmem' hfits'))

theorem substituteText_settled_brackets :
    ∃ rules, compileRules bracketRenames bracketTemplates {} = .ok rules ∧
      substituteText rules (substituteText rules "(Invoice)(Invoice) <Amount</a>".toList).content =
        ⟨(substituteText rules "(Invoice)(Invoice) <Amount</a>".toList).content, 0⟩ := by
  rcases substituteText_settled bracketRenames bracketTemplates {} rfl rfl (by decide)
    delimits_bracketTemplates with ⟨rules, hrules, h⟩
  refine ⟨rules, hrules, h (by decide) (by decide) ?_ _⟩
  have hconflicts : (compileRules bracketRenames bracketTemplates {}).toOption.map
      replacementConflicts = some [] := by
    decide +kernel
  rw [hrules] at hconflicts
  exact Option.some.inj hconflicts

/-- A template with nothing on the right of the name. -/
def openTemplates : TemplateSet :=
  ⟨[{ name := "space", before := " ", after := "" }], []⟩

/-- A rename that shortens a name. -/
def openRenames : List ObjectRename :=
  [{ previousObject := "Legacy__c", newObject := "Legacy" }]

/-- In general the reports miss something: it is not so that one pass settles
    every text if they find nothing. -/
theorem substituteText_unreported :
    ¬ ∀ (objects : List ObjectRename) (templates : TemplateSet) (g : Globals)
      (rules : List Rule), g.patternBefore = none → g.patternAfter = none →
      checkObjects 0 objects = .ok () → compileRules objects templates g = .ok rules →
      overlappingTemplates templates.objects = [] → overlappingTemplates templates.fields = [] →
      replacementConflicts rules = [] → ∀ text : List Char,
        (substituteText rules (substituteText rules text).content).content =
          (substituteText rules text).content := by
  intro h
  -- What is left of the longer name in front is the name again.
  have hrun : (compileRules openRenames openTemplates {}).toOption.map (fun rules =>
      (replacementConflicts rules, (substituteText rules " Legacy__c__c".toList).content,
        (substituteText rules " Legacy__c".toList).content)) =
      some ([], " Legacy__c".toList, " Legacy".toList) := by
    decide +kernel
  cases hrules : compileRules openRenames openTemplates {} with
  | error cause =>
      rw [hrules] at hrun
      cases hrun
  | ok rules =>
      rw [hrules] at hrun
      simp only [Except.toOption, Option.map_some, Option.some.injEq, Prod.mk.injEq] at hrun
      have hfixed := h openRenames openTemplates {} rules rfl rfl (by decide) hrules (by decide)
        (by decide) hrun.1 " Legacy__c__c".toList
      rw [hrun.2.1, hrun.2.2] at hfixed
      exact absurd hfixed (by decide)

end SchemaRename
