import SchemaRename.Proofs.Rule.Bounds
import SchemaRename.Proofs.Rule.Literal

/-!
# Boundaries That Neighbours Share

What the report of overlapping templates says about a rule.

A template is reported if some end of its right boundary is a start of its
left one. Two names can then stand so close that they have these characters
in common. A pass takes them with the first name and leaves the second one to
the next pass, so no rule of such a template does its work at once, whatever
it renames.

For a template that is not reported nothing of the kind can happen to a name
that has no characters in common with the boundaries. Two occurrences in one
text are about different places of the name, and what lies between the two
names holds the right boundary of the first and the left boundary of the
second. If they overlapped, the boundaries would share characters.

Between the boundaries there has to be a name. Where they meet directly the
two of them can overlap with themselves in other ways, which the report does
not look at.

## Theorems

* `Needle.replace_ne_self`: Replacing what is found changes a text.
* `replace_neighbours`: What a pass leaves of two names that share characters.
* `exists_second_pass`: It leaves work for the next one.
* `overlaps_of_between`: Boundaries that do not fit between two names.
* `overlaps_of_occurrences`: Occurrences that overlap.
* `overlappingTemplates_exact`: What the report says.
* `overlappingTemplates_nameless`: What it does not say.
-/

namespace SchemaRename

open SchemaRename.Pattern SchemaRename.Text

namespace Pattern.Needle

theorem occursAt_exact_iff (word text : List Char) :
    (Needle.mk word false false).occursAt text = true ↔ word <+: text := by
  have hspells : ∀ m, Spells false word m ↔ word = m := by
    intro m
    simp only [Spells, agrees, Bool.false_eq_true, if_false, beq_iff_eq, List.forall₂_eq_eq_eq]
  rw [occursAt_iff]
  constructor
  · rintro ⟨m, rest, rfl, hm, -⟩
    rw [(hspells m).mp hm]
    exact List.prefix_append m rest
  · rintro ⟨rest, rfl⟩
    exact ⟨word, rest, rfl, (hspells word).mpr rfl, fun h => absurd h Bool.false_ne_true⟩

/-- A text that is too short for the needle stays as it is. -/
theorem replace_of_length_lt (n : Needle) (replacement : List Char) : ∀ text : List Char,
    text.length < n.chars.length → n.replace replacement text = text := by
  intro text
  induction text with
  | nil => intro _; rfl
  | cons c text ih =>
      intro h
      have hmiss : ¬ n.occursAt (c :: text) = true := by
        intro hocc
        rw [occursAt, Bool.and_eq_true] at hocc
        have := length_le_of_startsWithBy _ _ _ hocc.1
        omega
      rw [List.length_cons] at h
      rw [replace_of_not_occursAt n replacement c text hmiss, ih (by omega)]

/-- Every replacement takes the needle away and puts its own length there. -/
theorem length_replace (n : Needle) (replacement : List Char) (hne : n.chars ≠ [])
    (text : List Char) :
    (n.replace replacement text).length + (n.spans text).length * n.chars.length =
      text.length + (n.spans text).length * replacement.length := by
  have hinv := search_invariant n replacement hne
    (fun found done todo => done.length + todo.length + found * n.chars.length =
      text.length + found * replacement.length)
    (by
      intro found done c todo _ h
      simp only [List.length_append, List.length_cons, List.length_nil] at h ⊢
      omega)
    (by
      intro found done m todo hm _ h
      have hlen := hm.length_eq
      simp only [List.length_append, Nat.succ_mul] at h ⊢
      omega)
    text 0 [] (by simp)
  simpa using hinv

theorem spans_ne_nil_of_occursIn (n : Needle) (hne : n.chars ≠ []) (text : List Char)
    (h : n.occursIn text = true) : n.spans text ≠ [] := by
  induction text with
  | nil =>
      rw [occursIn, occursAt_nil n hne] at h
      cases h
  | cons c text ih =>
      rw [occursIn, Bool.or_eq_true] at h
      unfold spans
      rw [spansFrom]
      by_cases hocc : n.occursAt (c :: text) = true
      · rw [if_pos hocc]
        exact List.cons_ne_nil _ _
      · rw [if_neg hocc, ← List.length_pos_iff, length_spansFrom, List.length_pos_iff]
        exact ih (h.resolve_left hocc)

/-- Where something is found, putting something else there changes the text. -/
theorem replace_ne_self (word replacement : List Char) (hne : word ≠ [])
    (hother : replacement ≠ word) (text : List Char)
    (h : (Needle.mk word false false).occursIn text = true) :
    (Needle.mk word false false).replace replacement text ≠ text := by
  intro hsame
  -- A text that stays as it is keeps its length, so the two are of one length.
  have hlength : replacement.length = word.length := by
    have hlen := length_replace ⟨word, false, false⟩ replacement hne text
    rw [hsame] at hlen
    have hpos := List.length_pos_of_ne_nil (spans_ne_nil_of_occursIn _ hne text h)
    exact (Nat.eq_of_mul_eq_mul_left hpos (Nat.add_left_cancel hlen)).symm
  induction text with
  | nil =>
      rw [occursIn, occursAt_nil _ hne] at h
      cases h
  | cons c text ih =>
      by_cases hocc : (Needle.mk word false false).occursAt (c :: text) = true
      · rcases (occursAt_exact_iff word (c :: text)).mp hocc with ⟨rest, hrest⟩
        rw [replace_of_occursAt _ _ _ hne hocc, ← hrest] at hsame
        exact hother (List.append_inj_left hsame hlength)
      · rw [replace_of_not_occursAt _ _ _ _ hocc, List.cons.injEq] at hsame
        rw [occursIn, Bool.or_eq_true] at h
        exact ih (h.resolve_left hocc) hsame.2

end Pattern.Needle

/-- Two names, so close that the end of the one's right boundary is the start of
    the other's left one. The first is replaced, and what is left behind it is
    too short for the second. -/
theorem replace_neighbours (u w v old new : List Char) (hw : w ≠ []) :
    (Needle.mk (w ++ v ++ (old ++ (u ++ w))) false false).replace (w ++ v ++ (new ++ (u ++ w)))
        (w ++ v ++ (old ++ (u ++ w)) ++ (v ++ (old ++ (u ++ w)))) =
      w ++ v ++ (new ++ u) ++ (w ++ v ++ (old ++ (u ++ w))) := by
  have hpos : 0 < w.length := List.length_pos_of_ne_nil hw
  have hne : w ++ v ++ (old ++ (u ++ w)) ≠ [] := by
    intro hnil
    simp only [List.append_eq_nil_iff] at hnil
    exact hw hnil.1.1
  have hocc := (Needle.occursAt_exact_iff (w ++ v ++ (old ++ (u ++ w)))
    (w ++ v ++ (old ++ (u ++ w)) ++ (v ++ (old ++ (u ++ w))))).mpr (List.prefix_append _ _)
  have hshort : (v ++ (old ++ (u ++ w))).length < (w ++ v ++ (old ++ (u ++ w))).length := by
    simp only [List.length_append]
    omega
  rw [Needle.replace_of_occursAt _ _ _ hne hocc, List.drop_left,
    Needle.replace_of_length_lt _ _ _ hshort]
  simp only [List.append_assoc]

/-- A right boundary and a left one in a place too small for the two of them. -/
theorem overlaps_of_between (a b z : List Char) (ha : a <+: z) (hb : b <:+ z)
    (hlen : z.length < a.length + b.length) : boundaryOverlaps a b = true := by
  rcases ha with ⟨y, hy⟩
  rcases hb with ⟨x, hx⟩
  have hy' := congrArg List.length hy
  have hx' := congrArg List.length hx
  simp only [List.length_append] at hy' hx'
  rcases List.append_eq_append_iff.mp (hy.trans hx.symm) with ⟨w, hxw, hyw⟩ | ⟨w, haw, hbw⟩
  · -- The left boundary starts behind the right one, so there was enough place.
    have hx'' := congrArg List.length hxw
    rw [List.length_append] at hx''
    omega
  · refine (boundaryOverlaps_iff a b).mpr ⟨x, w, haw, ?_, ⟨y, hbw.symm⟩⟩
    rintro rfl
    have ha' := congrArg List.length haw
    rw [List.length_append, List.length_nil] at ha'
    omega

/-- An occurrence of a name between its boundaries, read around the name. -/
theorem fits_of_occurrence (b : Bounds) (old text : List Char) (i : Nat) (hafter : b.after ≠ [])
    (h : b.text old <+: text.drop i) :
    ∃ x y, text = x ++ (old ++ y) ∧ x.length = i + b.before.length ∧ b.Fits x y := by
  rcases h with ⟨rest, hrest⟩
  have hinside : i < text.length := by
    have hlen := congrArg List.length hrest
    have hpos := List.length_pos_of_ne_nil hafter
    simp only [Bounds.text, List.length_append, List.length_drop] at hlen
    omega
  refine ⟨text.take i ++ b.before, b.after ++ rest, ?_, ?_, ⟨List.suffix_append _ _,
    List.prefix_append _ _, fun hnil => absurd hnil hafter⟩⟩
  · calc text = text.take i ++ text.drop i := (List.take_append_drop i text).symm
      _ = text.take i ++ (b.text old ++ rest) := by rw [hrest]
      _ = text.take i ++ b.before ++ (old ++ (b.after ++ rest)) := by
        simp only [Bounds.text, List.append_assoc]
  · rw [List.length_append, List.length_take, Nat.min_eq_left (Nat.le_of_lt hinside)]

/-- Two occurrences of a name between its boundaries that overlap. The name has
    no character of the boundaries, so it stands in two places, and what is
    between them has to hold a boundary on each side. -/
theorem overlaps_of_occurrences (b : Bounds) (old text : List Char) (i j : Nat)
    (hbefore : b.before ≠ []) (hafter : b.after ≠ []) (hold : old ≠ [])
    (hapart : ∀ c ∈ old, c ∉ b.before ∧ c ∉ b.after) (hi : b.text old <+: text.drop i)
    (hj : b.text old <+: text.drop j) (hij : i < j) (hlen : j < i + (b.text old).length) :
    boundaryOverlaps b.after b.before = true := by
  let isBound : Char → Prop := fun c => c ∈ b.before ∨ c ∈ b.after
  have hb : ∀ c ∈ b.before, isBound c := fun c hc => Or.inl hc
  have ha : ∀ c ∈ b.after, isBound c := fun c hc => Or.inr hc
  have hname : IsName isBound old :=
    ⟨hold, fun c hc hbound => hbound.elim (hapart c hc).1 (hapart c hc).2⟩
  rcases fits_of_occurrence b old text i hafter hi with ⟨x, y, htext, hx, hfits⟩
  rcases fits_of_occurrence b old text j hafter hj with ⟨x', y', htext', hx', hfits'⟩
  rcases run_cases x old y x' old y' hname hname (hfits.opens hbefore hb)
    (hfits'.opens hbefore hb) (hfits.closes ha) (hfits'.closes ha) (htext.symm.trans htext')
    with ⟨hsame, -, -⟩ | ⟨z, hz, hy⟩ | ⟨z, hz, -⟩
  · rw [hsame] at hx
    omega
  · -- Neither boundary reaches over a name, so both of them are in between.
    rw [hz, List.length_append, List.length_append] at hx'
    simp only [Bounds.text, List.length_append] at hlen
    exact overlaps_of_between b.after b.before z
      (prefix_of_name b.after z old y' ha hname (hy ▸ hfits.after))
      (suffix_of_name b.before x old z hb hname (hz ▸ hfits'.before)) (by omega)
  · rw [hz, List.length_append, List.length_append] at hx
    omega

/-- A rule with exact letter case and a right boundary that is a text puts the
    new name where the old one stands, between the same boundaries. -/
theorem exists_buildRule_exact (g : Globals) (source : RuleSource) (t : Template)
    (hbefore : g.patternBefore = none) (hafter : g.patternAfter = none)
    (hcase : source.caseSensitive = true) (hend : t.isEndOfLine = false)
    (hfront : t.replacementPrefix.getD "" = "") (hback : t.replacementSuffix.getD "" = "")
    (hne : t.before.toList ≠ []) :
    ∃ r, buildRule g source t = .ok r ∧ ∀ text, r.apply text =
      (Needle.mk (t.bounds.text source.oldId.toList) false false).replace
        (t.bounds.text source.newId.toList) text := by
  rcases exists_buildRule g source t hbefore hafter with ⟨r, hr, -, -, -, hrepl, hfinds⟩
  rw [Template.needle_eq_bounds, hcase, hend] at hfinds
  have hchars : t.bounds.text source.oldId.toList ≠ [] := by
    intro hnil
    exact hne (List.append_eq_nil_iff.mp hnil).1
  refine ⟨r, hr, fun text => ?_⟩
  rw [Rule.apply, spans_of_finds r.matcher _ hchars hfinds,
    Needle.replaceSpans_spans _ _ _ hchars, hrepl,
    t.toList_replacement source.newId hfront hback]
  rfl

/-- Boundaries that share characters leave work for a second pass. -/
theorem exists_second_pass (b : Bounds) (old new : List Char) (hnew : new ≠ old)
    (h : boundaryOverlaps b.after b.before = true) :
    ∃ text done, (Needle.mk (b.text old) false false).replace (b.text new) text = done ∧
      (Needle.mk (b.text old) false false).replace (b.text new) done ≠ done := by
  rcases b with ⟨before, after⟩
  rcases (boundaryOverlaps_iff after before).mp h with ⟨u, w, rfl, hw, v, rfl⟩
  unfold Bounds.text
  refine ⟨_, _, replace_neighbours u w v old new hw, ?_⟩
  -- The second name is still there, whole and with both of its boundaries.
  apply Needle.replace_ne_self
  · intro hnil
    simp only [List.append_eq_nil_iff] at hnil
    exact hw hnil.1.1
  · intro hsame
    exact hnew (List.append_cancel_right (List.append_cancel_left hsame))
  · exact Needle.occursIn_of_occursAt _ _ _
      ((Needle.occursAt_exact_iff _ _).mpr (List.prefix_refl _))

/-- What the report says about a template with both boundaries and nothing put
    around them. If it is reported, no rule of it that changes a name does its
    work in one pass. If it is not, the occurrences of a name without characters
    of the boundaries stand apart in every text. -/
theorem overlappingTemplates_exact (templates : List Template) (t : Template)
    (ht : t ∈ templates) (hbefore : t.before ≠ "") (hafter : t.after ≠ "")
    (hdollar : t.after ≠ "$") (hfront : t.replacementPrefix.getD "" = "")
    (hback : t.replacementSuffix.getD "" = "") :
    (t ∈ overlappingTemplates templates → ∀ (g : Globals) (source : RuleSource),
      g.patternBefore = none → g.patternAfter = none → source.caseSensitive = true →
        source.newId ≠ source.oldId → ∃ r, buildRule g source t = .ok r ∧
          ∃ text, r.apply (r.apply text) ≠ r.apply text) ∧
    (t ∉ overlappingTemplates templates → ∀ old : String, old ≠ "" →
      (∀ c ∈ old.toList, c ∉ t.before.toList ∧ c ∉ t.after.toList) →
        ∀ (text : List Char) (i j : Nat), (t.before ++ old ++ t.after).toList <+: text.drop i →
          (t.before ++ old ++ t.after).toList <+: text.drop j → i < j →
            i + (t.before ++ old ++ t.after).toList.length ≤ j) := by
  have hend : t.isEndOfLine = false := beq_eq_false_iff_ne.mpr hdollar
  have hlist : ∀ s : String, s ≠ "" → s.toList ≠ [] := fun s hs hnil =>
    hs (String.toList_eq_nil_iff.mp hnil)
  have hreport : t ∈ overlappingTemplates templates ↔
      boundaryOverlaps t.after.toList t.before.toList = true := by
    rw [overlappingTemplates, List.mem_filter, hend, Bool.not_false, Bool.true_and]
    exact and_iff_right ht
  have hbounds : t.bounds = ⟨t.before.toList, t.after.toList⟩ := by
    rw [Template.bounds, hend, if_neg Bool.false_ne_true]
  constructor
  · intro hreported g source hgbefore hgafter hcase hnew
    rcases exists_buildRule_exact g source t hgbefore hgafter hcase hend hfront hback
      (hlist _ hbefore) with ⟨r, hr, happly⟩
    rcases exists_second_pass t.bounds source.oldId.toList source.newId.toList
      (fun hsame => hnew (String.toList_inj.mp hsame)) (by rw [hbounds]; exact hreport.mp hreported)
      with ⟨text, done, hdone, hagain⟩
    refine ⟨r, hr, text, ?_⟩
    rw [happly text, hdone, happly done]
    exact hagain
  · intro hunreported old hold hapart text i j hi hj hij
    by_contra hshort
    -- Two occurrences that overlap would have made the report.
    rw [String.toList_append, String.toList_append, List.append_assoc] at hi hj hshort
    exact hunreported (hreport.mpr (overlaps_of_occurrences
      ⟨t.before.toList, t.after.toList⟩ old.toList text i j (hlist _ hbefore) (hlist _ hafter)
      (hlist _ hold) hapart hi hj hij (Nat.lt_of_not_le hshort)))

/-- The blank is reported, so neighbours need a second pass. Parentheses are not,
    and names between them stand apart. -/
theorem overlappingTemplates_exact_catalog :
    (∃ r, buildRule {} ⟨.object, "Legacy__c", "Account", true, {}⟩
        { name := "space", before := " ", after := " " } = .ok r ∧
      ∃ text, r.apply (r.apply text) ≠ r.apply text) ∧
    ∀ (text : List Char) (i j : Nat), "(Legacy__c)".toList <+: text.drop i →
      "(Legacy__c)".toList <+: text.drop j → i < j → i + 11 ≤ j := by
  have hapart : ∀ c ∈ "Legacy__c".toList, c ∉ "(".toList ∧ c ∉ ")".toList := by
    simp
  exact ⟨(overlappingTemplates_exact [{ name := "space", before := " ", after := " " }] _
      List.mem_cons_self (by decide) (by decide) (by decide) rfl rfl).1 (by decide) {}
      ⟨.object, "Legacy__c", "Account", true, {}⟩ rfl rfl rfl (by decide),
    (overlappingTemplates_exact [{ name := "parenthesis", before := "(", after := ")" }] _
      List.mem_cons_self (by decide) (by decide) (by decide) rfl rfl).2 (by decide) "Legacy__c"
      (by decide) hapart⟩

/-- A template that is not reported, and two occurrences of its boundaries that
    overlap once there is no name between them. -/
theorem overlappingTemplates_nameless :
    ¬ ∀ (templates : List Template) (t : Template), t ∈ templates → t.before ≠ "" →
      t.after ≠ "" → t.after ≠ "$" → t.replacementPrefix = none → t.replacementSuffix = none →
      t ∉ overlappingTemplates templates → ∀ old : String,
      (∀ c ∈ old.toList, c ∉ t.before.toList ∧ c ∉ t.after.toList) →
        ∀ (text : List Char) (i j : Nat), (t.before ++ old ++ t.after).toList <+: text.drop i →
          (t.before ++ old ++ t.after).toList <+: text.drop j → i < j →
            i + (t.before ++ old ++ t.after).toList.length ≤ j := by
  intro h
  have hapart := h [{ name := "plus", before := "'+'", after := "+" }] _ List.mem_cons_self
    (by decide) (by decide) (by decide) rfl rfl (by decide) ""
    (fun c hc => absurd hc List.not_mem_nil) "'+'+'+".toList 0 2 (by decide) (by decide)
    (by decide)
  exact absurd hapart (by decide)

end SchemaRename
